import LinkEngine.Proofs.Growth
import LinkEngine.Proofs.Ownership

/-!
# Nothing is refused

In no run does the engine refuse a move that the task of a link makes on its own:
every step finds the lifecycle and the ownership state as it expects them, and so
does the start of a link. So a link that closes for an invalid state was either asked
to close for that reason (`Excused` says what else a step may decide), or one of its
hooks failed with a failure that stands for it (`never_refused`).
-/

namespace LinkEngine

open Connection (CloseReason)
open Link (Ending Entry Note Outcome Step)

/-- A step may close its link for this reason, also where nobody asked for it. -/
def Link.Step.ClosesFor : Step → CloseReason → Prop
  | .resumeParked, reason => reason = .keepaliveTimeout
  | .await, reason | .block, reason => reason = .keepaliveTimeout ∨ reason = .peerClosed
  | .rest _, reason => reason = .normal
  | .resume _, reason => reason = .suspendTimeout
  | .listen _, reason => reason = .timeout ∨ reason = .peerClosed
  | .service, reason => reason = .normal ∨ reason = .protocolViolation
  | _, _ => False

/-- None of them stands for an invalid state. -/
theorem Link.Step.ClosesFor.ne {step : Step} {reason : CloseReason} (h : step.ClosesFor reason) :
    reason ≠ .invalidState := by
  cases step <;> cases reason <;> simp [ClosesFor] at h ⊢

namespace Stand

variable {v w u : Stand} {o : Outcome}

/-! ## What steps close for -/

/-- What a step decided is excused: it closes the link for a reason of its own or for the one
that was asked for, and fails as for an invalid state only where a hook did. -/
def Excused (own : CloseReason → Prop) : Outcome → Stand → Prop
  | .close reason, w => own reason ∨ reason = w.link.requestedClose
  | .fail f, w => f.closeReason = .invalidState → ∃ hook, .ended hook (.failed f) ∈ w.link.history
  | _, _ => True

/-- What is closed for a reason that was asked for, and is not the one that stands for none,
was asked to. -/
theorem closeRequest_of_requestedClose {k : Link} {reason : CloseReason}
    (h : reason = k.requestedClose) (hr : reason ≠ .shutdown) : k.closeRequest = some reason := by
  unfold Link.requestedClose at h
  cases hk : k.closeRequest with
  | none => rw [hk] at h; exact absurd h hr
  | some r => rw [hk] at h; exact congrArg some h.symm

/-- A failure of input or output is no invalid state. -/
private theorem closeReason_ofKind (kind : IoKind) :
    (Failure.ofKind kind).closeReason ≠ .invalidState := by
  cases kind <;> decide

section Plans

variable {own : CloseReason → Prop} {go : Plan}

private theorem excused_io (kind : IoKind) (w : Stand) : Excused own (.fail (.ofKind kind)) w :=
  fun h => absurd h (closeReason_ofKind kind)

private theorem next_excused {step : Step} (h : Plan.yield (.next step) v o w) :
    Excused own o w := by
  obtain ⟨rfl, -⟩ := h
  trivial

private theorem transition_excused {e : Connection.Event}
    (hgo : ∀ v o w, go v o w → Excused own o w) (h : Plan.transition e go v o w) :
    Excused own o w := by
  unfold Plan.transition at h
  split at h
  · obtain ⟨rfl, -⟩ := h
    trivial
  · exact hgo _ _ _ h

private theorem hook_excused {hook : Hook} {upgrades : Link.Upgrades} {go : Bool → Plan}
    (hgo : ∀ keep v o w, go keep v o w → Excused own o w) (h : Plan.hook hook upgrades go v o w) :
    Excused own o w := by
  obtain ⟨ending, u, ⟨x, -, rfl⟩, h⟩ := h
  cases ending with
  | returned keep => exact hgo _ _ _ _ h
  | failed f =>
    obtain ⟨rfl, rfl⟩ := h
    -- The failure was noted as the last thing of the hook.
    exact fun _ => ⟨hook, List.mem_append_right _ (List.mem_singleton.2 rfl)⟩
  | panicked =>
    obtain ⟨rfl, rfl⟩ := h
    trivial

private theorem flush_excused (hgo : ∀ v o w, go v o w → Excused own o w)
    (h : Plan.flush go v o w) : Excused own o w := by
  obtain ⟨stream, ⟨kind, rfl, -⟩ | h⟩ := Plan.flush_cases h
  · exact excused_io kind _
  · exact hgo _ _ _ h

private theorem arm_excused (hgo : ∀ v o w, go v o w → Excused own o w)
    (h : Plan.arm go v o w) : Excused own o w := by
  rcases h with ⟨rfl, -⟩ | ⟨t, h⟩
  · exact fun h => nomatch h
  · exact hgo _ _ _ h

private theorem close_excused {reason : CloseReason} (ho : own reason)
    (h : Plan.close reason v o w) : Excused own o w := by
  obtain ⟨_, ⟨rfl, -⟩ | hr, rfl, rfl⟩ := h
  · exact .inl ho
  · exact .inr hr

private theorem wait_excused {ready idle : Step} {late : CloseReason} (hl : own late)
    (hp : own .peerClosed) (h : Plan.wait ready idle late v o w) : Excused own o w := by
  rcases h with h | ⟨-, ⟨rfl, rfl⟩ | ⟨u, -, ⟨kind, rfl, -⟩ | ⟨rfl, -⟩ | ⟨rfl, -⟩ | h⟩⟩
  · exact close_excused hp h
  · exact .inl hl
  · exact excused_io kind _
  · trivial
  · trivial
  · exact close_excused hp h

end Plans

private theorem accept_excused (h : Plan.accept v o w) : Excused (Step.ClosesFor .accept) o w := by
  refine transition_excused ?_ h
  intro v o w h
  obtain ⟨stream, -, ⟨kind, rfl, -⟩ | h⟩ := h
  · exact excused_io kind _
  · exact hook_excused (fun _ _ _ _ => next_excused) h

private theorem resumeParked_excused (h : Plan.resumeParked v o w) :
    Excused (Step.ClosesFor .resumeParked) o w := by
  obtain ⟨-, h⟩ := h
  split at h
  · subst h
    split
    · exact .inl rfl
    · trivial
  all_goals
    subst h
    trivial

private theorem dispatch_excused (h : Plan.dispatch v o w) :
    Excused (Step.ClosesFor .dispatch) o w :=
  transition_excused (fun _ _ _ => hook_excused fun _ _ _ _ =>
    flush_excused fun _ _ _ => next_excused) h

private theorem after_excused {keep : Bool} (h : Plan.after keep v o w) :
    Excused (Step.ClosesFor (.after keep)) o w := by
  unfold Plan.after at h
  split at h
  · obtain ⟨rfl, -⟩ := h
    trivial
  · obtain ⟨rfl, -⟩ := h
    trivial
  · obtain ⟨⟨killed, -, rfl⟩, -⟩ := h
    trivial

private theorem rest_excused {killed : Bool} (h : Plan.rest killed v o w) :
    Excused (Step.ClosesFor (.rest killed)) o w := by
  unfold Plan.rest Plan.write at h
  dsimp only at h
  split at h
  · obtain ⟨rfl, -⟩ := h
    trivial
  · split at h
    · exact close_excused (show Step.ClosesFor (.rest killed) .normal from rfl) h
    · obtain ⟨t, h⟩ := h
      exact next_excused h

private theorem register_excused {own : CloseReason → Prop} (h : Plan.register v o w) :
    Excused own o w := by
  obtain ⟨u, -, ⟨rfl, -⟩ | ⟨rfl, -⟩ | h⟩ := h
  · trivial
  · trivial
  · unfold Plan.declined at h
    split at h <;>
    · obtain ⟨rfl, -⟩ := h
      trivial

private theorem await_excused (h : Plan.await v o w) : Excused (Step.ClosesFor .await) o w := by
  unfold Plan.await at h
  generalize v.put { v.link with stream := v.link.stream.poll.2 } = v at h
  rcases h with ⟨kind, rfl, -⟩ | h | h | ⟨rfl, -⟩ | h | h
  · exact excused_io kind _
  · exact next_excused h
  · exact close_excused (show Step.ClosesFor .await .peerClosed from .inr rfl) h
  · exact .inl (.inl rfl)
  · exact next_excused h
  · split at h
    · obtain ⟨rfl, -⟩ := h
      trivial
    · exact arm_excused (fun _ _ _ => register_excused) h

private theorem park_excused {own : CloseReason → Prop} (h : Plan.park v o w) :
    Excused own o w := by
  unfold Plan.park at h
  split at h <;>
  · obtain ⟨rfl, -⟩ := h
    trivial

private theorem suspend_excused (h : Plan.suspend v o w) :
    Excused (Step.ClosesFor .suspend) o w := by
  unfold Plan.suspend at h
  split at h
  · obtain ⟨rfl, rfl⟩ := h
    exact .inr rfl
  · exact transition_excused (fun _ _ _ => arm_excused fun _ _ _ => park_excused) h

private theorem expire_excused {own : CloseReason → Prop} (ho : own .suspendTimeout)
    (h : Plan.expire v o w) : Excused own o w := by
  obtain ⟨ending, u, -, h⟩ := h
  split at h
  · obtain ⟨rfl, -⟩ := h
    trivial
  · obtain ⟨rfl, -⟩ := h
    exact .inl ho

private theorem resume_excused {timedOut : Bool} (h : Plan.resume timedOut v o w) :
    Excused (Step.ClosesFor (.resume timedOut)) o w := by
  refine transition_excused ?_ h
  intro v o w h
  unfold Plan.write at h
  split at h
  · exact expire_excused (show Step.ClosesFor (.resume timedOut) .suspendTimeout from rfl) h
  · split at h
    · obtain ⟨rfl, rfl⟩ := h
      exact .inr rfl
    · exact hook_excused (fun _ _ _ _ => flush_excused fun _ _ _ => next_excused) h

private theorem upgrade_excused (h : Plan.upgrade v o w) :
    Excused (Step.ClosesFor .upgrade) o w := by
  refine transition_excused ?_ h
  intro v o w h
  obtain ⟨t, h⟩ := h
  exact next_excused h

private theorem service_excused (h : Plan.service v o w) :
    Excused (Step.ClosesFor .service) o w := by
  refine transition_excused (fun _ _ _ => hook_excused fun _ _ _ _ =>
    flush_excused ?_) h
  intro v o w h
  rcases h with ⟨-, h⟩ | ⟨-, -, rfl, -⟩ | ⟨-, -, h⟩
  · exact close_excused (show Step.ClosesFor .service .normal from .inl rfl) h
  · exact .inl (.inr rfl)
  · refine transition_excused ?_ h
    intro v o w h
    obtain ⟨t, h⟩ := h
    exact next_excused h

/-- **What a step decides is excused.** -/
theorem plan_excused {step : Step} (h : plan step v o w) : Excused step.ClosesFor o w := by
  cases step with
  | accept => exact accept_excused h
  | resumeParked => exact resumeParked_excused h
  | dispatch => exact dispatch_excused h
  | after keep => exact after_excused h
  | rest killed => exact rest_excused h
  | await => exact await_excused h
  | block =>
    exact wait_excused (show Step.ClosesFor .block .keepaliveTimeout from .inl rfl) (.inr rfl) h
  | suspend => exact suspend_excused h
  | resume timedOut => exact resume_excused h
  | upgrade => exact upgrade_excused h
  | listen deadline =>
    exact wait_excused (show Step.ClosesFor (.listen deadline) .timeout from .inl rfl) (.inr rfl) h
  | service => exact service_excused h

/-! ## Who is to blame -/

/-- What is to blame where a link closes for a reason: that somebody asked for it, or something
else that stays to blame. -/
structure Blames (r : CloseReason) (P : Link → Prop) : Prop where
  ne : r ≠ .shutdown
  asked : ∀ {k : Link}, k.closeRequest = some r → P k
  grown : ∀ {k k' : Link}, P k → k.Grown k' → P k'

/-- A link that closed for the reason has something to blame for it. -/
def Justified (r : CloseReason) (P : Link → Prop) (k : Link) : Prop := k.closeReason = some r → P k

/-- That somebody asked is enough to blame, and so is what no move of the link changes. -/
theorem blames_or {r : CloseReason} (hr : r ≠ .shutdown) (C : Prop) :
    Blames r fun k => k.closeRequest = some r ∨ C :=
  ⟨hr, .inl, fun h hk => h.imp_left (hk.closeRequest _)⟩

section Blames

variable {r reason : CloseReason} {P : Link → Prop} (hP : Blames r P)
include hP

private theorem Justified.grown {k k' : Link} (h : Justified r P k) (hk : k.Grown k')
    (hr : k'.closeReason = k.closeReason) : Justified r P k' :=
  fun hc => hP.grown (h (hr.symm.trans hc)) hk

private theorem justified_marked {k : Link} (h : reason = r → P k) :
    Justified r P (k.marked reason) := by
  intro hc
  have hreason : (k.shut reason).closeReason = some reason := by
    unfold Link.shut Link.disarmed
    cases k.deadline <;> rfl
  exact hP.grown (h (Option.some.inj (hreason.symm.trans hc))) (Link.grown_marked k _)

/-- Whoever tears a parked link down does so because of a shutdown, or was asked
to. -/
private theorem Seized.blamed {k k' : Link} (h : k.Seized reason k') (hr : reason = r) : P k' := by
  cases h with
  | refused => exact absurd hr.symm hP.ne
  | asked hc hp asked => exact hP.asked (closeRequest_of_requestedClose hr.symm hP.ne)

theorem Course.justified (h : Course v w) (hv : Justified r P v.link) : Justified r P w.link :=
  h.induction (fun h hk => hk.grown hP h.grown h.closeReason)
    (fun h hk => hk.grown hP h.grown h.closeReason)
    (fun h _ => justified_marked hP (Seized.blamed hP h))
    (fun _ hk => hk.grown hP (Link.grown_gone _) rfl) hv

theorem TornDown.justified (h : TornDown reason v w) (hv : Justified r P v.link)
    (hr : reason = r → P v.link) : Justified r P w.link := by
  cases h with
  | before => exact hv
  | now hc hook =>
    exact (hook.justified hP (justified_marked hP hr)).grown hP (Link.grown_gone _) rfl

/-- Whoever is torn down for the reason he was asked to is justified. -/
theorem TornDown.justified_asked (h : TornDown v.link.requestedClose v w)
    (hv : Justified r P v.link) : Justified r P w.link :=
  h.justified hP hv fun hr => hP.asked (closeRequest_of_requestedClose hr.symm hP.ne)

theorem Worked.justified (h : Worked v w) (hv : Justified r P v.link) : Justified r P w.link := by
  induction h with
  | refl => exact hv
  | course h _ ih => exact ih (h.justified hP hv)
  | own h _ ih => exact ih (hv.grown hP h.grown (congrArg (·.2.2.2.1) h.frame))

/-- The next step of a link does not matter. -/
theorem Justified.next (hv : Justified r P v.link) (step : Option Step) :
    Justified r P (v.next step).link :=
  hv.grown hP (.same rfl rfl rfl (Nat.le_refl _)) rfl

/-- What a step decided is justified when it is carried out, if it is where the step itself
decided to close the link. -/
theorem Concluded.justified (h : Concluded v o w) (hv : Justified r P v.link)
    (hclose : o = .close r → P v.link)
    (hfail : ∀ f, o = .fail f ∨ o = .refused f → f.closeReason = r → P v.link)
    (hpanic : r ≠ .handlerError) : Justified r P w.link := by
  cases h with
  | next | park => exact hv.next hP _
  | close h => exact (h.justified hP hv fun hr => hclose (congrArg _ hr)).next hP none
  | fail hof hreason h _ ht =>
    refine (ht.justified hP (h.justified hP hv) fun hr => hP.grown ?_ h.grown).next hP none
    -- The failure stands for the reason, or somebody asked for it before.
    rcases hreason with ⟨hf, -⟩ | hf
    · exact hfail _ hof (hf.symm.trans hr)
    · exact hP.asked (closeRequest_of_requestedClose (hr.symm.trans hf) hP.ne)
  | panic h => exact (h.justified hP hv fun hr => absurd hr.symm hpanic).next hP none

/-- A new link is justified. -/
theorem Started.justified {i : Nat} {arrival : Engine.Arrival} (h : Started i arrival v) :
    Justified r P v.link := by
  have hnew : ∀ {k : Link} {u : Stand}, k.closeReason = none → Course ⟨k, []⟩ u →
      Justified r P u.link := fun hr h => h.justified hP fun hc => nomatch hr.symm.trans hc
  cases h with
  | queued hs hn h => exact (hnew rfl h).grown hP (.same rfl rfl rfl (Nat.le_refl _)) rfl
  | @refused _ _ _ w u hs hn h ht =>
    have hw : Justified r P { w.link with request := .request } :=
      (hnew rfl h).grown hP (.same rfl rfl rfl (Nat.le_refl _)) rfl
    exact (ht.justified hP hw fun hr => absurd hr.symm hP.ne).grown hP
      (.same rfl rfl rfl (Nat.le_refl _)) rfl

/-- A turn of a link leaves it justified, if it does so where a step of its task decided to
close the link. -/
theorem Turn.justified (h : Turn v w) (hj : Justified r P v.link) (hpanic : r ≠ .handlerError)
    (hstep : ∀ step o x, v.link.step = some step → plan step v o x → Worked v x →
      (o = .close r → P x.link) ∧
        ∀ f, o = .fail f ∨ o = .refused f → f.closeReason = r → P x.link) :
    Justified r P w.link := by
  cases h with
  | course h => exact h.justified hP hj
  | begin => exact Justified.next (v := ⟨_, _⟩) hP hj _
  | idle => exact hj
  | doomed _ _ _ _ h => exact TornDown.justified_asked (v := ⟨_, _⟩) hP h hj
  | step hs h hw hc =>
    obtain ⟨hclose, hfail⟩ := hstep _ _ _ hs h hw
    exact hc.justified hP (hw.justified hP hj) hclose hfail hpanic

end Blames

/-! ## Invalid states -/

/-- Somebody asked for the close for an invalid state, or a hook failed so. -/
def Blamed (k : Link) : Prop :=
  k.closeRequest = some .invalidState ∨
    ∃ hook f, .ended hook (.failed f) ∈ k.history ∧ f.closeReason = .invalidState

private theorem Blamed.grown {k k' : Link} (h : Blamed k) (hk : k.Grown k') : Blamed k' := by
  rcases h with h | ⟨hook, f, h, hf⟩
  · exact .inl (hk.closeRequest _ h)
  · exact .inr ⟨hook, f, hk.history.subset h, hf⟩

theorem blames_blamed : Blames .invalidState Blamed := ⟨nofun, .inl, Blamed.grown⟩

/-- A turn of a link that stands leaves it justified. -/
private theorem Turn.blamed (h : Turn v w) (hv : Standing v)
    (hj : Justified .invalidState Blamed v.link) : Justified .invalidState Blamed w.link := by
  refine h.justified blames_blamed hj nofun ?_
  intro step o x hs hplan _
  have hdecided := ((standing_some hs).1 hv).decided hplan
  have hexcused := plan_excused hplan
  refine ⟨?_, ?_⟩
  · rintro rfl
    rcases hexcused with hown | hasked
    · exact absurd rfl hown.ne
    · exact .inl (closeRequest_of_requestedClose hasked nofun)
  · rintro f (rfl | rfl) hf
    · obtain ⟨hook, hn⟩ := hexcused hf
      exact .inr ⟨hook, f, hn, hf⟩
    · exact hdecided.elim

end Stand

namespace Engine

open Stand (Blamed Justified)

variable {l : Nat} {k : Link} {v : Stand} {step : Step}

variable (settings : Settings.Scheduler) (now : Nat)

private theorem standing_justified (moves : List Move)
    (hv : (after settings now moves).stand? l = some v) :
    v.Standing ∧ Justified .invalidState Blamed v.link :=
  after_stand settings now (P := fun v => v.Standing ∧ Justified .invalidState Blamed v.link)
    (fun _ _ _ h => ⟨h.standing, h.justified Stand.blames_blamed⟩)
    (fun _ _ hv h => ⟨hv.1.turn h, h.blamed hv.1 hv.2⟩) moves l v hv

/-- No step of a link that stands is refused. -/
private theorem stepLink_ne_refused {s : Engine} (hs : s.scheduler.Sole)
    (hk : s.link? l = some k) (hst : k.step = some step) (hv : Stand.Standing ⟨k, s.entries l⟩)
    (f : Failure) : (stepLink l step s).1 ≠ .refused f := by
  intro hf
  obtain ⟨w, -, hplan⟩ := (stepLink_drives hk step).own hs _ (stand?_of_link? hk)
  -- A plan that refuses is none of a link that is ready.
  have hdecided := ((Stand.standing_some hst).1 hv).decided hplan
  rw [hf] at hdecided
  exact hdecided

/-- **Nothing is refused.** In whatever order things happened, a listener that
starts a link finds the ownership state as it expects it, and so does each step of
each task, with the lifecycle. So a link that closed for an invalid state was asked
to, or a hook of it failed so. -/
theorem never_refused (moves : List Move) :
    (∀ i arrival r, (accept i arrival (after settings now moves)).1 ≠ .refused (.request r)) ∧
    (∀ l k step f, (after settings now moves).link? l = some k → k.step = some step →
      (stepLink l step (after settings now moves)).1 ≠ .refused f) ∧
    (∀ l k, (after settings now moves).link? l = some k →
      k.closeReason = some .invalidState → Blamed k) := by
  refine ⟨fun i arrival => accept_ne_refused i arrival _, ?_, ?_⟩
  · intro l k step f hk hst
    have hstanding := standing settings now moves (stand?_of_link? hk)
    exact stepLink_ne_refused (after_sole settings now moves) hk hst hstanding f
  · intro l k hk hr
    exact (standing_justified settings now moves (stand?_of_link? hk)).2 hr

/-- A connection whose request hook fails, driven for this many steps. -/
def failing (f : Failure) (steps : Nat) : List Move :=
  [.build {} none,
    .accept 0 { socket := {}, handler := { requests := [[⟨"fail", .fail f, false⟩]] } },
    .begin 0] ++ List.replicate steps (.advance 0)

/-- Its second step calls the hook, whose failure is one of an invalid state. -/
theorem never_refused_failing :
    (∃ k, (after {} 0 (failing (.timerBusy 0) 1)).link? 0 = some k ∧ k.step = some .dispatch ∧
      ∀ f, (stepLink 0 .dispatch (after {} 0 (failing (.timerBusy 0) 1))).1 ≠ .refused f) ∧
    ∃ k, (after {} 0 (failing (.timerBusy 0) 2)).link? 0 = some k ∧
      k.closeReason = some .invalidState ∧ Blamed k := by
  have hdriven : ((after {} 0 (failing (.timerBusy 0) 1)).link? 0).map (·.step) =
      some (some .dispatch) := by decide
  have hclosed : ((after {} 0 (failing (.timerBusy 0) 2)).link? 0).map (·.closeReason) =
      some (some .invalidState) := by decide
  obtain ⟨k, hk, hs⟩ := Option.map_eq_some_iff.1 hdriven
  obtain ⟨k', hk', hr⟩ := Option.map_eq_some_iff.1 hclosed
  exact ⟨⟨k, hk, hs, fun f => (never_refused {} 0 (failing (.timerBusy 0) 1)).2.1 0 k _ f hk hs⟩,
    k', hk', hr, (never_refused {} 0 (failing (.timerBusy 0) 2)).2.2 0 k' hk' hr⟩

/-- One connection, which is asked to close for an invalid state before its task
begins. -/
def askedToClose : List Move :=
  [.build {} none, .accept 0 { socket := {} },
    .perform 0 (.close (some 0) (some .invalidState)), .begin 0]

/-- A link may close for an invalid state although none of its hooks failed:
somebody may have asked for that. -/
theorem closed_without_failure :
    ¬ ∀ (moves : List Move) (l : Nat) (k : Link), (after {} 0 moves).link? l = some k →
      k.closeReason = some .invalidState →
      ∃ hook f, .ended hook (.failed f) ∈ k.history ∧ f.closeReason = .invalidState := by
  intro h
  have hclosed : ((after {} 0 askedToClose).link? 0).map (fun k => (k.closeReason, k.history)) =
      some (some .invalidState, [.closing .invalidState, .ended .close (.returned false)]) := by
    decide
  obtain ⟨k, hk, hkey⟩ := Option.map_eq_some_iff.1 hclosed
  obtain ⟨hr, hh⟩ := Prod.mk.inj hkey
  obtain ⟨hook, f, hmem, -⟩ := h askedToClose 0 k hk hr
  rw [hh] at hmem
  simp at hmem

end Engine

end LinkEngine

import LinkEngine.Proofs.Plan

/-!
# Which step follows which

A step of a task either closes the link or comes to one of few things, whatever hooks,
sockets and others do meanwhile: `Step.Leads` says which other steps may follow it, and
which steps park the link.
-/

namespace LinkEngine

open Connection (CloseReason)
open Link (Ending Outcome Step)

namespace Link

/-- The task is over, and its link closes. -/
def Outcome.isEnd : Outcome → Bool
  | .next _ | .park => false
  | _ => true

/-- The task is over because something went wrong. -/
def Outcome.isBroken : Outcome → Bool
  | .fail _ | .refused _ | .panic => true
  | _ => false

theorem Outcome.isEnd_of_isBroken {o : Outcome} (h : o.isBroken = true) : o.isEnd = true := by
  cases o with
  | next | park => cases h
  | _ => rfl

/-- What a step may come to where its link does not close. -/
inductive Step.Leads : Step → Outcome → Prop where
  | started : Leads .accept (.next .dispatch)
  | rests : Leads .resumeParked (.next .await)
  | resumes (timedOut : Bool) : Leads .resumeParked (.next (.resume timedOut))
  | served (keep : Bool) : Leads .dispatch (.next (.after keep))
  | upgrade (keep : Bool) : Leads (.after keep) (.next .upgrade)
  | suspend (keep : Bool) : Leads (.after keep) (.next .suspend)
  | rest (keep killed : Bool) : Leads (.after keep) (.next (.rest killed))
  /-- A connection that is not kept closes. -/
  | await : Leads (.rest false) (.next .await)
  | ready : Leads .await (.next .dispatch)
  | block : Leads .await (.next .block)
  | parks : Leads .await .park
  | readyBlocked : Leads .block (.next .dispatch)
  | idleBlocked : Leads .block (.next .block)
  | suspends : Leads .suspend .park
  | woken (timedOut : Bool) : Leads .suspend (.next (.resume timedOut))
  | resumed (timedOut keep : Bool) : Leads (.resume timedOut) (.next (.after keep))
  | listen (deadline : Nat) : Leads .upgrade (.next (.listen deadline))
  | service (deadline : Nat) : Leads (.listen deadline) (.next .service)
  | idle (deadline : Nat) : Leads (.listen deadline) (.next (.listen deadline))
  | listenAgain (deadline : Nat) : Leads .service (.next (.listen deadline))

/-- Of all steps only two park a link. -/
theorem Step.Leads.park {step : Step} (h : step.Leads .park) : step = .await ∨ step = .suspend := by
  cases h with
  | parks => exact .inl rfl
  | suspends => exact .inr rfl

end Link

namespace Stand

variable {v w : Stand} {o : Outcome} {go : Plan}

/-! ## The parts of a step -/

/-- The lifecycle moves, or refuses to and the link closes. -/
theorem transition_cases {e : Connection.Event} {go : Plan} (h : Plan.transition e go v o w) :
    (o.isEnd = true ∧ w = v) ∨ ∃ machine, go (v.put { v.link with machine }) o w := by
  unfold Plan.transition Link.transition at h
  cases hm : v.link.machine.apply e with
  | error r =>
    rw [hm] at h
    obtain ⟨rfl, rfl⟩ := h
    exact .inl ⟨rfl, rfl⟩
  | ok machine =>
    rw [hm] at h
    exact .inr ⟨machine, h⟩

namespace Plan

/-- Whatever comes of a plan is as said. -/
def Gives (p : Plan) (P : Outcome → Stand → Prop) : Prop := ∀ v o w, p v o w → P o w

/-! What is said of all that goes wrong needs to be shown only of what goes well. -/

section Parts

variable {P : Outcome → Stand → Prop} (hbroken : ∀ o w, o.isBroken = true → P o w)

include hbroken

theorem gives_transition {e : Connection.Event} (hgo : go.Gives P) : (transition e go).Gives P := by
  intro v o w h
  unfold transition at h
  split at h
  · obtain ⟨rfl, -⟩ := h
    exact hbroken _ _ rfl
  · exact hgo _ _ _ h

theorem gives_hook {hook : Hook} {upgrades : Link.Upgrades} {go : Bool → Plan}
    (hgo : ∀ keep, (go keep).Gives P) : (Plan.hook hook upgrades go).Gives P := by
  rintro v o w ⟨ending, u, -, h⟩
  cases ending with
  | returned keep => exact hgo keep _ _ _ h
  | failed f =>
    obtain ⟨rfl, -⟩ := h
    exact hbroken _ _ rfl
  | panicked =>
    obtain ⟨rfl, -⟩ := h
    exact hbroken _ _ rfl

theorem gives_flush (hgo : go.Gives P) : (flush go).Gives P := by
  intro v o w h
  obtain ⟨stream, ⟨kind, rfl, -⟩ | h⟩ := flush_cases h
  · exact hbroken _ _ rfl
  · exact hgo _ _ _ h

theorem gives_arm (hgo : go.Gives P) : (arm go).Gives P := by
  rintro v o w (⟨rfl, -⟩ | ⟨t, h⟩)
  · exact hbroken _ _ rfl
  · exact hgo _ _ _ h

theorem gives_wait {ready idle : Step} {late : CloseReason} (hclose : (close .peerClosed).Gives P)
    (hlate : ∀ w : Stand, w.link.closing = false → P (.close late) w)
    (hready : ∀ w, P (.next ready) w) (hidle : ∀ w, P (.next idle) w) :
    (Plan.wait ready idle late).Gives P := by
  rintro v o w (h | ⟨hc, ⟨rfl, rfl⟩ | ⟨u, -, ⟨kind, rfl, -⟩ | ⟨rfl, -⟩ | ⟨rfl, -⟩ | h⟩⟩)
  · exact hclose _ _ _ h
  · exact hlate _ hc
  · exact hbroken _ _ rfl
  · exact hready _
  · exact hidle _
  · exact hclose _ _ _ h

theorem gives_register (hpark : ∀ w, P .park w) (hblock : ∀ w, P (.next .block) w) :
    register.Gives P := by
  rintro v o w ⟨u, -, ⟨rfl, -⟩ | ⟨rfl, -⟩ | h⟩
  · exact hbroken _ _ rfl
  · exact hpark _
  · unfold declined at h
    split at h
    · obtain ⟨rfl, -⟩ := h
      exact hblock _
    · obtain ⟨rfl, -⟩ := h
      exact hpark _

theorem gives_park (hpark : ∀ w, P .park w)
    (hwoken : ∀ timedOut w, P (.next (.resume timedOut)) w) : Plan.park.Gives P := by
  intro v o w h
  unfold Plan.park at h
  split at h
  · obtain ⟨rfl, -⟩ := h
    exact hbroken _ _ rfl
  · obtain ⟨rfl, -⟩ := h
    exact hpark _
  · obtain ⟨rfl, -⟩ := h
    exact hwoken _ _

theorem gives_expire (hclose : ∀ w, P (.close .suspendTimeout) w) : expire.Gives P := by
  rintro v o w ⟨ending, u, -, h⟩
  split at h
  · obtain ⟨rfl, -⟩ := h
    exact hbroken _ _ rfl
  · obtain ⟨rfl, -⟩ := h
    exact hclose _

end Parts

theorem gives_yield {P : Outcome → Stand → Prop} (h : ∀ w, P o w) : (yield o).Gives P := by
  rintro v _ w ⟨rfl, -⟩
  exact h w

/-- By this plan the link closes, or the outcome is as said. -/
abbrev Comes (p : Plan) (P : Outcome → Prop) : Prop := p.Gives fun o _ => o.isEnd = true ∨ P o

variable {P : Outcome → Prop}

private theorem broken_ends (o : Outcome) (_ : Stand) (h : o.isBroken = true) :
    o.isEnd = true ∨ P o :=
  .inl (Outcome.isEnd_of_isBroken h)

private theorem comes_close (own : CloseReason) : (close own).Comes P := by
  rintro v o w ⟨reason, -, rfl, -⟩
  exact .inl rfl

private theorem comes_next {step : Step} (h : P (.next step)) : (yield (.next step)).Comes P :=
  gives_yield fun _ => .inr h

private theorem comes_wait {ready idle : Step} {late : CloseReason} (hready : P (.next ready))
    (hidle : P (.next idle)) : (Plan.wait ready idle late).Comes P :=
  gives_wait broken_ends (comes_close _) (fun _ _ => .inl rfl) (fun _ => .inr hready)
    fun _ => .inr hidle

private theorem comes_transition {e : Connection.Event} (hgo : go.Comes P) :
    (transition e go).Comes P :=
  gives_transition broken_ends hgo

private theorem comes_hook (hook : Hook) (upgrades : Link.Upgrades) {go : Bool → Plan}
    (hgo : ∀ keep, (go keep).Comes P) : (Plan.hook hook upgrades go).Comes P :=
  gives_hook broken_ends hgo

private theorem comes_flush (hgo : go.Comes P) : (flush go).Comes P := gives_flush broken_ends hgo

private theorem comes_arm (hgo : go.Comes P) : (arm go).Comes P := gives_arm broken_ends hgo

end Plan

/-! ## The steps -/

/-- A request that is not to be kept closes its link. -/
theorem rest_isEnd (h : Plan.rest true v o w) : o.isEnd = true := by
  unfold Plan.rest Plan.write at h
  simp only [link_put] at h
  split at h
  · obtain ⟨rfl, -⟩ := h
    rfl
  next m hm =>
  have hclosed : m.state.isClosed = true := by
    unfold Connection.Machine.finish at hm
    split at hm
    · cases hm
    · obtain ⟨t, ht, hclosed⟩ := Connection.State.next?_close v.link.machine.state
      have hstate := Connection.Machine.state_of_apply hm
      rw [if_pos rfl, ht] at hstate
      cases hstate
      exact hclosed
  rw [if_pos hclosed] at h
  obtain ⟨_, -, rfl, -⟩ := h
  rfl

private theorem resumeParked_comes : Plan.resumeParked.Comes (Step.Leads .resumeParked) := by
  rintro v o w ⟨-, h⟩
  split at h
  · subst h
    split
    · exact .inl rfl
    · exact .inr .rests
  · subst h
    exact .inr (.resumes _)
  · subst h
    exact .inl rfl

private theorem after_comes (keep : Bool) : (Plan.after keep).Comes (Step.Leads (.after keep)) := by
  intro v o w h
  unfold Plan.after at h
  split at h
  · obtain ⟨rfl, -⟩ := h
    exact .inr (.upgrade keep)
  · obtain ⟨rfl, -⟩ := h
    exact .inr (.suspend keep)
  · obtain ⟨⟨killed, -, rfl⟩, -⟩ := h
    exact .inr (.rest keep killed)

private theorem rest_comes (killed : Bool) :
    (Plan.rest killed).Comes (Step.Leads (.rest killed)) := by
  intro v o w h
  cases killed with
  | true => exact .inl (rest_isEnd h)
  | false =>
    unfold Plan.rest Plan.write at h
    dsimp only at h
    split at h
    · obtain ⟨rfl, -⟩ := h
      exact .inl rfl
    · split at h
      · exact Plan.comes_close _ _ _ _ h
      · obtain ⟨t, rfl, -⟩ := h
        exact .inr .await

private theorem await_comes : Plan.await.Comes (Step.Leads .await) := by
  rintro v o w (⟨kind, rfl, -⟩ | ⟨rfl, -⟩ | h | ⟨rfl, -⟩ | ⟨rfl, -⟩ | h)
  · exact .inl rfl
  · exact .inr .ready
  · exact Plan.comes_close _ _ _ _ h
  · exact .inl rfl
  · exact .inr .block
  · split at h
    · obtain ⟨rfl, -⟩ := h
      exact .inl rfl
    · exact Plan.comes_arm (Plan.gives_register Plan.broken_ends (fun _ => .inr .parks)
        fun _ => .inr .block) _ _ _ h

private theorem suspend_comes : Plan.suspend.Comes (Step.Leads .suspend) := by
  intro v o w h
  unfold Plan.suspend at h
  split at h
  · obtain ⟨rfl, -⟩ := h
    exact .inl rfl
  · exact Plan.comes_transition (Plan.comes_arm (Plan.gives_park Plan.broken_ends
      (fun _ => .inr .suspends) fun _ _ => .inr (.woken _))) _ _ _ h

private theorem resume_comes (timedOut : Bool) :
    (Plan.resume timedOut).Comes (Step.Leads (.resume timedOut)) := by
  refine Plan.comes_transition fun v o w h => ?_
  unfold Plan.write at h
  split at h
  · exact Plan.gives_expire Plan.broken_ends (fun _ => .inl rfl) _ _ _ h
  · split at h
    · obtain ⟨rfl, -⟩ := h
      exact .inl rfl
    · exact Plan.comes_hook _ _ (fun keep => Plan.comes_flush
        (Plan.comes_next (.resumed timedOut keep))) _ _ _ h

private theorem service_comes : Plan.service.Comes (Step.Leads .service) := by
  refine Plan.comes_transition fun before => Plan.comes_hook _ _ (fun _ => Plan.comes_flush ?_) before
  rintro v o w (⟨-, h⟩ | ⟨-, -, rfl, -⟩ | ⟨-, -, h⟩)
  · exact Plan.comes_close _ _ _ _ h
  · exact .inl rfl
  · refine Plan.comes_transition ?_ _ _ _ h
    rintro v o w ⟨t, rfl, -⟩
    exact .inr (.listenAgain t)

/-- **A step closes its link, or leads to what may follow it.** -/
theorem plan_leads (step : Step) : (plan step).Comes step.Leads := by
  cases step with
  | accept =>
    unfold plan Plan.accept
    refine Plan.comes_transition ?_
    rintro v o w ⟨stream, -, ⟨kind, rfl, -⟩ | h⟩
    · exact .inl rfl
    · exact Plan.comes_hook _ _ (fun _ => Plan.comes_next .started) _ _ _ h
  | resumeParked => exact resumeParked_comes
  | dispatch =>
    exact Plan.comes_transition fun v => Plan.comes_hook .request .any
      (fun keep => Plan.comes_flush (Plan.comes_next (.served keep)))
      (v.put { v.link with pending := .none })
  | after keep => exact after_comes keep
  | rest killed => exact rest_comes killed
  | await => exact await_comes
  | block => exact Plan.comes_wait .readyBlocked .idleBlocked
  | suspend => exact suspend_comes
  | resume timedOut => exact resume_comes timedOut
  | upgrade =>
    unfold plan Plan.upgrade
    refine Plan.comes_transition ?_
    rintro v o w ⟨t, rfl, -⟩
    exact .inr (.listen t)
  | listen deadline => exact Plan.comes_wait (.service deadline) (.idle deadline)
  | service => exact service_comes

/-! ## Steps that park -/

theorem step_of_park {step : Step} (h : plan step v .park w) : step = .await ∨ step = .suspend :=
  ((plan_leads step v _ w h).resolve_left Bool.false_ne_true).park

/-- A link that rests is parked first, in a wait of its own, and then others have their way. -/
theorem await_park (h : Plan.await v .park w) :
    ∃ stream r t, v.link.request.rest = .ok r ∧ Course (v.put { v.link with
      stream, request := r, waitGeneration := v.link.waitGeneration + 1, deadline := some t }) w := by
  rcases h with ⟨kind, ho, -⟩ | ⟨ho, -⟩ | ⟨_, -, ho, -⟩ | ⟨ho, -⟩ | ⟨ho, -⟩ | h
  iterate 5 cases ho
  split at h
  next => cases h.1
  next r hr =>
  rcases h with ⟨ho, -⟩ | ⟨t, u, hu, h⟩
  · cases ho
  · refine ⟨v.link.stream.poll.2, r, t, hr, ?_⟩
    rcases h with ⟨ho, -⟩ | ⟨-, rfl⟩ | h
    · cases ho
    · exact hu
    · unfold Plan.declined at h
      split at h
      · cases h.1
      · obtain ⟨-, rfl⟩ := h
        exact hu

/-- A request is suspended in a wait of its own, if nobody asked for the link to be closed. -/
theorem suspend_park (h : Plan.suspend v .park w) :
    v.link.closing = false ∧ ∃ machine r t, w = v.put { v.link with
      machine, request := r, waitGeneration := v.link.waitGeneration + 1, deadline := some t } := by
  unfold Plan.suspend at h
  split at h
  next => cases h.1
  next hc =>
  refine ⟨Bool.eq_false_iff.2 hc, ?_⟩
  rcases transition_cases h with ⟨ho, -⟩ | ⟨machine, h⟩
  · cases ho
  rcases h with ⟨ho, -⟩ | ⟨t, h⟩
  · cases ho
  · unfold Plan.park at h
    split at h
    · cases h.1
    · exact ⟨machine, _, t, h.2⟩
    · cases h.1

end Stand

end LinkEngine

import LinkEngine.Proofs.Exhaustion
import LinkEngine.Proofs.Indifference

/-!
# After the present request

A link that is marked as not to be kept takes no notice of that until a request of it is over
(`move_unkeep`). Where tasks run one after the other nothing happens between the look at the mark
and what follows from it, so that no task is about to let a marked link rest
(`notResting_of_runsWhole`). Such a link can only dwindle (`Stand.Dwindles`): it never comes to
rest again, and at most the one request that it waits for is still served. When that is over, and
asks for nothing more, the link closes (`closes_after`).
-/

namespace LinkEngine

open Connection (CloseReason State)
open Link (Step)

/-- The next request is still to come: the link was not started yet, or waits for it. -/
def Connection.State.awaitsRequest : State → Bool
  | .init | .accepting | .keepalive => true
  | _ => false

/-- How many requests are still to be served on a link that does not rest again. -/
def Link.toServe (k : Link) : Nat := if k.machine.state.awaitsRequest then 1 else 0

theorem Link.toServe_le (k : Link) : k.toServe ≤ 1 := by
  unfold toServe
  split <;> decide

namespace Stand

variable {v w u : Stand} {o : Link.Outcome} {step : Step}

/-- The link does not come to rest, and each request that is served is one that was to come. -/
structure Dwindles (v w : Stand) : Prop where
  requests : w.link.hooks.count .request + w.link.toServe ≤
    v.link.hooks.count .request + v.link.toServe
  keepalive : w.link.machine.state = .keepalive → v.link.machine.state = .keepalive

theorem Dwindles.of_same (hm : w.link.machine.state = v.link.machine.state)
    (hh : w.link.hooks.count .request = v.link.hooks.count .request) : Dwindles v w := by
  refine ⟨?_, fun h => hm.symm.trans h⟩
  unfold Link.toServe
  rw [hm, hh]

/-- A link that waits for no request is past resting. -/
theorem Dwindles.of_busy (hm : w.link.machine.state.awaitsRequest = false)
    (hr : w.link.hooks.count .request ≤ v.link.hooks.count .request + v.link.toServe) :
    Dwindles v w := by
  refine ⟨?_, fun h => nomatch hm.symm.trans (congrArg State.awaitsRequest h)⟩
  have hnone : w.link.toServe = 0 := by
    unfold Link.toServe
    rw [hm]
    rfl
  rw [hnone]
  exact hr

/-- A link that rests has one request to come. -/
theorem Dwindles.of_resting (hm : v.link.machine.state = .keepalive)
    (hh : w.link.hooks.count .request = v.link.hooks.count .request) : Dwindles v w := by
  refine ⟨?_, fun _ => hm⟩
  have hone : v.link.toServe = 1 := by
    unfold Link.toServe
    rw [hm]
    rfl
  rw [hh, hone]
  unfold Link.toServe
  split <;> omega

/-- Nothing comes of a link that is closed. -/
theorem dwindles_of_closed (hw : Standing w) (hc : w.link.closed = true)
    (hr : w.link.hooks.count .request ≤ v.link.hooks.count .request + v.link.toServe) :
    Dwindles v w := by
  refine .of_busy ?_ hr
  rw [(hw.gone hc).1.machine]
  rfl

/-- A step serves no request but one that was to come. -/
theorem Ready.serves_le (hv : Ready step v) (hp : plan step v o w) :
    w.link.hooks.count .request ≤ v.link.hooks.count .request + v.link.toServe := by
  rw [hv.served hp]
  split
  · next hs =>
    subst hs
    unfold Link.toServe
    rcases hv.expects.1 with hm | hm <;> rw [hm] <;> exact Nat.le_refl _
  · exact Nat.le_add_right ..

/-- A link that is started does not rest yet. -/
theorem accept_moves (hv : Ready .accept v) (h : Plan.accept v o w) (ho : o.isEnd = false) :
    w.link.machine.state = .accepting := by
  obtain ⟨hm, hr, hp⟩ := hv.expects
  obtain ⟨machine, hm', stream, -, h⟩ := transition_moves (m := .accepting) (by rw [hm]; rfl) h
  rcases h with ⟨kind, rfl, rfl⟩ | ⟨ending, u, hu, h⟩
  · cases ho
  · have hs := Serving.hooked hu (serving_of hv.closed hv.queue hr hp)
    cases ending with
    | returned keep =>
      obtain ⟨rfl, rfl⟩ := h
      exact hs.machine.trans hm'
    | failed f =>
      obtain ⟨rfl, -⟩ := h
      cases ho
    | panicked =>
      obtain ⟨rfl, -⟩ := h
      cases ho

/-- A step that does not let its link rest leaves it before its next request only where it was
there, and at rest only where it rested. -/
theorem Ready.dwindles (hv : Ready step v) (hp : plan step v o w) (hs : step ≠ .rest false)
    (ho : o.isEnd = false) (hc : w.link.closed = false) : Dwindles v w := by
  have hle := hv.serves_le hp
  have hleads := (plan_leads step v o w hp).resolve_left (Bool.eq_false_iff.1 ho)
  have hserved := hv.served hp
  have hdecided := hv.decided hp
  cases hleads with
  | started =>
    have hm := accept_moves hv hp ho
    refine ⟨?_, fun h => nomatch hm.symm.trans h⟩
    unfold Link.toServe
    rw [hm, hv.expects.1, hserved]
    exact Nat.le_refl _
  | rests | resumes =>
    obtain ⟨rfl, -⟩ := hp
    exact .of_same (congrArg (·.state) (disarmed_same v.link).2.1) hserved
  | await => exact absurd rfl hs
  | ready | block | parks | readyBlocked | idleBlocked => exact .of_resting hv.expects.1 hserved
  | suspends =>
    refine .of_busy ?_ hle
    rw [suspend_moves hv hp ho]
    rfl
  | served | resumed =>
    refine .of_busy ?_ hle
    rcases hdecided.expects with ⟨hm, -⟩ | ⟨hm, -⟩ <;> rw [hm] <;> rfl
  | suspend | rest =>
    refine .of_busy ?_ hle
    rcases hdecided.expects.1 with hm | hm <;> rw [hm] <;> rfl
  | _ =>
    refine .of_busy ?_ hle
    rw [hdecided.expects.1]
    rfl

/-- **Whatever happens to a link that its task does not let rest, it dwindles.** -/
theorem Turn.dwindles (h : Turn v w) (hv : Standing v) (hs : v.link.step ≠ some (.rest false)) :
    Dwindles v w := by
  have hw := hv.turn h
  cases h with
  | course h =>
    have hhooks := congrArg (List.count .request) h.silent.hooks
    cases hc : w.link.closed with
    | false => exact .of_same (h.abides hc).2.1 hhooks
    | true =>
      exact dwindles_of_closed hw hc (Nat.le_trans (Nat.le_of_eq hhooks) (Nat.le_add_right ..))
  | begin => exact .of_same rfl rfl
  | idle => exact .of_same rfl rfl
  | doomed hd he hc hc' h =>
    refine dwindles_of_closed hw h.closed ?_
    rw [h.silent.hooks]
    exact Nat.le_add_right ..
  | @step _ x _ step o hstep hp _ hconcluded =>
    have hready := (standing_some hstep).1 hv
    cases hc : w.link.closed with
    | true =>
      refine dwindles_of_closed hw hc ?_
      rw [hconcluded.silent.hooks]
      exact hready.serves_le hp
    | false =>
      have ho : o.isEnd = false := Bool.eq_false_iff.2 fun ho =>
        nomatch (hconcluded.closed ho).1.symm.trans hc
      obtain rfl := hconcluded.eq_next ho
      have h := hready.dwindles hp (fun h => hs (h ▸ hstep)) ho hc
      exact ⟨h.requests, h.keepalive⟩

end Stand

namespace Engine

variable {s : Engine} {n : Nat} {k k' : Link} {m : Move} {v : Stand}

/-! ## The mark stays -/

/-- Who is marked already is marked. -/
theorem unkeep_of_marked (hk : s.link? n = some k) (hkill : k.killKeepalive = true) :
    s.unkeep n = s := by
  unfold unkeep
  rw [modifyLink_eq_setLink hk, Link.unkept_of hkill]
  exact setLink_self hk

theorem link?_unkeep_self (hk : s.link? n = some k) :
    (s.unkeep n).link? n = some (k.unkept true) := by
  rw [link?_unkeep, hk, beq_self_eq_true]
  rfl

/-- What comes after a request that asked for nothing. -/
theorem advance_after {keep : Bool} (hk : s.link? n = some k) (hs : k.step = some (.after keep))
    (hp : k.pending = .none) :
    advance n s = s.setLink n
      { k with step := some (.rest (!keep || k.killKeepalive || s.isClosing k)) } := by
  have hstep : stepAfter n keep s =
      (.next (.rest (!keep || k.killKeepalive || s.isClosing k)), s) := by
    unfold stepAfter
    rw [hk]
    dsimp only
    rw [hp]
  unfold advance
  rw [hk, Option.bind_some, hs]
  show conclude n (stepAfter n keep s).1 (stepAfter n keep s).2 = _
  rw [hstep]
  exact modifyLink_eq_setLink hk _

/-- **A link that is marked stays so.** -/
theorem move_marked (hk : s.link? n = some k) (hkill : k.killKeepalive = true)
    (hk' : (move m s).link? n = some k') : k'.killKeepalive = true := by
  by_cases h : m = .advance n ∧ s.isAboutToRest n = true
  · -- The one step that looks at the mark leaves it.
    obtain ⟨rfl, hrest⟩ := h
    unfold isAboutToRest at hrest
    rw [hk, Option.any_some, decide_eq_true_eq] at hrest
    obtain ⟨hs, hp, -⟩ := hrest
    have hadvance : move (.advance n) s = _ := advance_after hk hs hp
    rw [hadvance, link?_setLink_self hk] at hk'
    cases hk'
    exact hkill
  · have hmove := move_unkeep (m := m) (lt_length_of_link? hk) fun hm =>
      Bool.eq_false_iff.2 fun hrest => h ⟨hm, hrest⟩
    rw [unkeep_of_marked hk hkill] at hmove
    have hmarked := link?_unkeep_self hk'
    rw [← hmove, hk'] at hmarked
    exact congrArg Link.killKeepalive (Option.some.inj hmarked)

variable {settings : Settings.Scheduler} {now : Nat}

/-! ## Where tasks run one after the other -/

/-- **No task is about to let a marked link rest**: it looked at the mark in the step before, and
nothing happened since. -/
theorem notResting_of_runsWhole {moves : List Move}
    (h : runsWhole moves (create settings now) = true)
    (hk : (after settings now moves).link? n = some k) (hs : k.step = some (.rest false)) :
    k.killKeepalive = false := by
  rcases List.eq_nil_or_concat' moves with rfl | ⟨moves, m, rfl⟩
  · cases hk
  rw [runsWhole_append, Bool.and_eq_true, runsWhole, runsWhole, Bool.and_true] at h
  have halone : (after settings now moves).leavesAlone m = true := h.2
  rw [after_concat] at hk
  cases hold : (after settings now moves).link? n with
  | none =>
    obtain ⟨_, _, -, -, -, hstarted⟩ :=
      move_started (after_manned settings now moves) m hold (stand?_of_link? hk)
    cases hs.symm.trans hstarted.step
  | some old =>
    have hv := stand?_of_link? hold
    have hsole := after_sole settings now moves
    cases hstep : old.step with
    | none =>
      obtain ⟨w, hw, hturn⟩ := move_turn hsole m hv
      obtain rfl : w.link = k := Option.some.inj ((stand?_eq_some.1 hw).1.symm.trans hk)
      cases hturn with
      | course h => cases hs.symm.trans (h.step.trans hstep)
      | @begin _ _ _ _ e => cases e <;> cases hs
      | idle => cases hs.symm.trans hstep
      | doomed hd he hc hc' h => cases hs.symm.trans (h.step.trans hstep)
      | step hs' => cases hs'.symm.trans hstep
    | some step =>
      obtain rfl := eq_advance_of_leavesAlone halone hold (Link.isDriven_of_some hstep)
      obtain ⟨w, x, hx, hplan, -, hconcluded⟩ := advance_step hsole hv hstep
      obtain rfl : x.link = k := Option.some.inj ((stand?_eq_some.1 hx).1.symm.trans hk)
      generalize (stepLink n step (after settings now moves)).1 = o at hplan hconcluded
      cases hconcluded with
      | next next =>
        obtain rfl : next = .rest false := Option.some.inj hs
        have hleads := (Stand.plan_leads step _ _ w hplan).resolve_left Bool.false_ne_true
        cases hleads with
        | rest keep =>
          obtain ⟨-, ho⟩ | ⟨c, -, ho⟩ | ⟨hp, -⟩ := Stand.after_cases hplan
          · cases ho
          · cases ho
          · have hadvance : move (.advance n) (after settings now moves) = _ :=
              advance_after hold hstep hp
            rw [hadvance, link?_setLink_self hold] at hk
            have hlink := Option.some.inj hk
            have hkilled : some (Step.rest (!keep || old.killKeepalive ||
                (after settings now moves).isClosing old)) = some (.rest false) :=
              congrArg Link.step hlink
            simp only [Option.some.injEq, Step.rest.injEq, Bool.or_eq_false_iff] at hkilled
            exact (congrArg Link.killKeepalive hlink).symm.trans hkilled.1.2
      | _ => cases hs

/-- **A marked link dwindles**, whatever happens to it. -/
theorem dwindles_of_runsWhole {moves more : List Move}
    (h : runsWhole (moves ++ more) (create settings now) = true)
    (hv : (after settings now moves).stand? n = some v) (hkill : v.link.killKeepalive = true) :
    ∃ w, (after settings now (moves ++ more)).stand? n = some w ∧
      w.link.killKeepalive = true ∧ v.Dwindles w := by
  induction more using List.reverseRecOn with
  | nil =>
    rw [List.append_nil]
    exact ⟨v, hv, hkill, .of_same rfl rfl⟩
  | append_singleton more m ih =>
    rw [← List.append_assoc] at h ⊢
    have hmoves := h
    rw [runsWhole_append, Bool.and_eq_true] at hmoves
    obtain ⟨w, hw, hmarked, hdwindles⟩ := ih hmoves.1
    obtain ⟨u, hu, hturn⟩ := move_turn (after_sole settings now (moves ++ more)) m hw
    rw [after_concat]
    have hk := (stand?_eq_some.1 hw).1
    have hnext := hturn.dwindles (standing settings now (moves ++ more) hw) fun hs =>
      nomatch (notResting_of_runsWhole hmoves.1 hk hs).symm.trans hmarked
    exact ⟨u, hu, move_marked hk hmarked (stand?_eq_some.1 hu).1,
      Nat.le_trans hnext.requests hdwindles.requests,
      fun h => hdwindles.keepalive (hnext.keepalive h)⟩

/-- The outcome of a request that is over, on a link that is not to rest. -/
theorem stepRest_killed (hk : s.link? n = some k)
    (hm : k.machine.state = .active ∨ k.machine.state = .cometActive)
    (hclosing : s.isClosing k = false) : (stepRest n true s).1 = .close .normal := by
  have hfinish : k.machine.finish true = .ok (k.machine.enter .closed) := by
    unfold Connection.Machine.finish Connection.Machine.apply
    rcases hm with hm | hm <;> rw [hm] <;> rfl
  have hclosed : (k.machine.enter .closed).state.isClosed = true := by
    rw [Connection.Machine.state_enter]
    rfl
  unfold stepRest
  rw [hk]
  dsimp only
  rw [hfinish]
  dsimp only
  rw [if_pos hclosed]
  unfold closeReasonOr
  exact congrArg Link.Outcome.close (if_neg (Bool.eq_false_iff.1 hclosing))

/-- **A request that is over closes its link**, where that is marked and nothing else is to come
of it. -/
theorem closes_after {moves : List Move} {keep : Bool}
    (hk : (after settings now moves).link? n = some k) (hs : k.step = some (.after keep))
    (hp : k.pending = .none) (hclosing : (after settings now moves).isClosing k = false)
    (hkill : k.killKeepalive = true) :
    ∃ k', (after settings now (moves ++ [.advance n] ++ [.advance n])).link? n = some k' ∧
      k'.closed = true ∧ k'.closeReason = some .normal ∧ k'.step = none := by
  have hfirst : after settings now (moves ++ [.advance n]) =
      (after settings now moves).setLink n { k with step := some (.rest true) } := by
    have hkilled : (!keep || k.killKeepalive || (after settings now moves).isClosing k) = true := by
      rw [hkill, Bool.or_true, Bool.true_or]
    rw [after_concat, ← hkilled]
    exact advance_after hk hs hp
  have hk' : (after settings now (moves ++ [.advance n])).link? n =
      some { k with step := some (.rest true) } := by
    rw [hfirst]
    exact link?_setLink_self hk _
  have hv := stand?_of_link? hk'
  have hready := (Stand.standing_some rfl).1 (standing settings now _ hv)
  obtain ⟨w, x, hx, hplan, -, hconcluded⟩ := advance_step (after_sole settings now _) hv rfl
  have ho : (stepLink n (.rest true) (after settings now (moves ++ [.advance n]))).1 =
      .close .normal := by
    refine stepRest_killed hk' hready.expects.1 ?_
    rw [hfirst]
    exact hclosing
  rw [ho] at hplan hconcluded
  rw [after_concat]
  refine ⟨x.link, (stand?_eq_some.1 hx).1, ?_⟩
  cases hconcluded with
  | close ht => exact ⟨ht.closed, ht.closeReason (hready.decided hplan), rfl⟩
  | fail hf => rcases hf with hf | hf <;> cases hf

/-- Where tasks run one after the other, the end of a request is followed by what comes of it. -/
theorem next_moves_of_after {moves later : List Move} {keep : Bool} {a b : Move}
    (h : runsWhole (moves ++ a :: b :: later) (create settings now) = true)
    (hk : (after settings now moves).link? n = some k) (hs : k.step = some (.after keep))
    (hp : k.pending = .none) : a = .advance n ∧ b = .advance n := by
  rw [runsWhole_append, runsWhole, runsWhole, Bool.and_eq_true, Bool.and_eq_true,
    Bool.and_eq_true] at h
  obtain ⟨-, ha, hb, -⟩ := h
  have ha : (after settings now moves).leavesAlone a = true := ha
  obtain rfl := eq_advance_of_leavesAlone ha hk (Link.isDriven_of_some hs)
  have hb : (advance n (after settings now moves)).leavesAlone b = true := hb
  rw [advance_after hk hs hp] at hb
  exact ⟨rfl, eq_advance_of_leavesAlone hb (link?_setLink_self hk _)
    (Link.isDriven_of_some rfl)⟩

/-! ## Asking for it -/

theorem isSome_of_isReachable (h : s.isReachable n = true) : (s.link? n).isSome = true := by
  unfold isReachable at h
  split at h
  · cases h
  · next hk =>
    rw [hk]
    rfl

/-- Whoever asks that a link end after its present request sets the mark. -/
theorem perform_kill (hn : s.isReachable n = true) (self : Nat) :
    perform self (.killKeepalive (some n)) s = (.nothing, s.unkeep n) := by
  unfold perform performWith withReachable
  exact if_pos hn

/-- A hook that asks for it goes on as it would have. -/
theorem actAll_kill (hk : s.link? n = some k) (upgrades : Link.Upgrades) (label : String)
    (lenient : Bool) (rest : List Action) :
    actAll n upgrades (⟨label, .kill, lenient⟩ :: rest) s =
      unkeepIn n (actAll n upgrades rest (s.note n (.did label .nothing))) := by
  have hact : act n upgrades .kill s = (.answered .nothing, s.unkeep n) := by
    unfold act
    rw [hk]
    refine congrArg (Prod.mk _) ?_
    unfold unkeep
    rw [modifyLink_eq_setLink hk]
    rfl
  rw [actAll, hact]
  dsimp only
  rw [note_unkeep]
  exact actAll_unkeep n upgrades rest _

/-- A hook of any link that asks for it goes on as it would have. -/
theorem actAll_operate_kill {l : Nat} (hl : (s.link? l).isSome = true)
    (hn : s.isReachable n = true) (upgrades : Link.Upgrades) (label : String) (lenient : Bool)
    (rest : List Action) :
    actAll l upgrades (⟨label, .operate (.killKeepalive (some n)), lenient⟩ :: rest) s =
      unkeepIn n (actAll l upgrades rest (s.note l (.did label .nothing))) := by
  obtain ⟨k, hk⟩ := Option.isSome_iff_exists.1 hl
  have hact : act l upgrades (.operate (.killKeepalive (some n))) s =
      (.answered .nothing, s.unkeep n) := by
    unfold act
    rw [hk]
    dsimp only
    rw [perform_kill hn]
  rw [actAll, hact]
  dsimp only
  rw [note_unkeep]
  exact actAll_unkeep l upgrades rest _

/-- **The moves after it are what they would have been**, up to the one that lets the link rest,
wherever the mark was set. -/
theorem follow_unkeep {more : List Move} (hn : (s.link? n).isSome = true)
    (h : ∀ before later, more = before ++ .advance n :: later →
      (follow before s).isAboutToRest n = false) :
    follow more (s.unkeep n) = (follow more s).unkeep n := by
  induction more generalizing s with
  | nil => rfl
  | cons m more ih =>
    obtain ⟨k, hk⟩ := Option.isSome_iff_exists.1 hn
    have hmove : move m (s.unkeep n) = (move m s).unkeep n :=
      move_unkeep (lt_length_of_link? hk) fun hm => h [] more (hm ▸ rfl)
    rw [follow_cons, follow_cons, hmove]
    refine ih (isSome_link?_move m hn) ?_
    rintro before later rfl
    exact h (m :: before) later rfl

variable (settings now)

/-- **Asking that a link end after its present request takes effect when that is over, and
interrupts nothing.** In each run:

* asking for it outside of hooks sets the mark and does nothing else, and in a hook nothing but
  that and the note: what is left of the hook is what it would have been;
* whatever happens afterwards is what would have happened without, to links that wait for a
  request, are suspended, taken up again, or two-way streams, but for the mark, as long as no
  task takes the one step that lets the link rest; and so it is from any state of the engine on
  in which the mark is set, such as a hook leaves it in;
* where tasks run one after the other, the link stays marked, does not come to rest again where
  it does not rest, and serves at most one more request, and none where it does not wait for
  one;
* where a request is then over, asked for nothing more, and neither the link is to close nor its
  listener shuts down, the next two steps of its task follow, and the link closes normally. -/
theorem kill_keepalive_ends_after_request (moves more : List Move) (n : Nat) :
    ((after settings now moves).isReachable n = true → ∀ self,
      perform self (.killKeepalive (some n)) (after settings now moves) =
        (.nothing, (after settings now moves).unkeep n) ∧
      ((∀ before later, more = before ++ .advance n :: later →
        (after settings now (moves ++ before)).isAboutToRest n = false) →
      after settings now (moves ++ .perform self (.killKeepalive (some n)) :: more) =
        (after settings now (moves ++ more)).unkeep n)) ∧
    (∀ s, (s.link? n).isSome = true →
      (∀ before later, more = before ++ .advance n :: later →
        (follow before s).isAboutToRest n = false) →
      follow more (s.unkeep n) = (follow more s).unkeep n) ∧
    (∀ s upgrades label lenient rest, (s.link? n).isSome = true →
      actAll n upgrades (⟨label, .kill, lenient⟩ :: rest) s =
        unkeepIn n (actAll n upgrades rest (s.note n (.did label .nothing)))) ∧
    (∀ s l upgrades label lenient rest, (s.link? l).isSome = true → s.isReachable n = true →
      actAll l upgrades (⟨label, .operate (.killKeepalive (some n)), lenient⟩ :: rest) s =
        unkeepIn n (actAll l upgrades rest (s.note l (.did label .nothing)))) ∧
    ∀ k, (after settings now moves).link? n = some k → k.killKeepalive = true →
      runsWhole (moves ++ more) (create settings now) = true →
      (∃ k', (after settings now (moves ++ more)).link? n = some k' ∧ k'.killKeepalive = true ∧
        (k.machine.state ≠ .keepalive → k'.machine.state ≠ .keepalive) ∧
        k'.callsOf .request ≤ k.callsOf .request + 1 ∧
        (k.machine.state.awaitsRequest = false → k'.callsOf .request = k.callsOf .request)) ∧
      ∀ keep a b later, more = a :: b :: later → k.step = some (.after keep) →
        k.pending = .none → (after settings now moves).isClosing k = false →
        ∃ k', (after settings now (moves ++ more)).link? n = some k' ∧ k'.closed = true ∧
          k'.closeReason = some .normal := by
  refine ⟨fun hn self => ⟨perform_kill hn self, fun hrest => ?_⟩, fun s => follow_unkeep,
    fun s upgrades label lenient rest hk => ?_,
    fun s l upgrades label lenient rest hl hn =>
      actAll_operate_kill hl hn upgrades label lenient rest,
    fun k hk hkill h => ⟨?_, ?_⟩⟩
  · have hfollow := follow_unkeep (isSome_of_isReachable hn) fun before later hsplit =>
      after_append settings now moves before ▸ hrest before later hsplit
    rw [after_append, after_append, ← hfollow, follow_cons]
    exact congrArg (follow more) (congrArg Prod.snd (perform_kill hn self))
  · obtain ⟨k, hk⟩ := Option.isSome_iff_exists.1 hk
    exact actAll_kill hk upgrades label lenient rest
  · obtain ⟨w, hw, hmarked, hdwindles⟩ := dwindles_of_runsWhole h (stand?_of_link? hk) hkill
    have hrequests := hdwindles.requests
    rw [← Link.callsOf_eq, ← Link.callsOf_eq] at hrequests
    have hk' := (stand?_eq_some.1 hw).1
    refine ⟨w.link, hk', hmarked, fun hne h => hne (hdwindles.keepalive h), ?_, ?_⟩
    · have hle := k.toServe_le
      dsimp only at hrequests
      omega
    · intro hawaits
      have hnone : k.toServe = 0 := by
        unfold Link.toServe
        rw [hawaits]
        rfl
      have hgrown := follow_grown (after_sole settings now moves) hk more
      rw [← after_append] at hgrown
      obtain ⟨x, hx, hgrown⟩ := hgrown
      obtain rfl : x = w.link := Option.some.inj (hx.symm.trans hk')
      have hmore : k.callsOf .request ≤ w.link.callsOf .request := hgrown.history.sublist.countP_le
      dsimp only at hrequests
      omega
  · rintro keep a b later rfl hs hp hclosing
    obtain ⟨rfl, rfl⟩ := next_moves_of_after h hk hs hp
    obtain ⟨k', hk', hclosed, hreason, hnone⟩ := closes_after hk hs hp hclosing hkill
    have hsplit : moves ++ .advance n :: .advance n :: later =
        moves ++ [.advance n] ++ [.advance n] ++ later := by simp
    obtain ⟨x, hx, hsettled⟩ := follow_settled (after_sole settings now _) hk' hclosed hnone later
    rw [hsplit, after_append]
    exact ⟨x, hx, hsettled.closed.trans hclosed, hsettled.closeReason.trans hreason⟩

/-- A suspended request is woken, and taken up again. -/
def takenUp : List Move := [.wake ⟨0, 1⟩, .begin 0, .advance 0, .advance 0]

/-- Who asks that a link end whose request is suspended does not keep that from being taken up
again, only from being followed by another. -/
theorem kill_keepalive_ends_after_request_suspended :
    after {} 0 (suspending 4 ++ .perform 0 (.killKeepalive (some 0)) :: takenUp) =
      (after {} 0 (suspending 4 ++ takenUp)).unkeep 0 ∧
    ∃ k, (after {} 0 (suspending 4 ++ .perform 0 (.killKeepalive (some 0)) :: takenUp ++
        [.advance 0, .advance 0])).link? 0 = some k ∧
      k.closed = true ∧ k.closeReason = some .normal ∧ k.callsOf .request = 1 := by
  have hreachable : (after {} 0 (suspending 4)).isReachable 0 = true := by decide
  have hfirst := (kill_keepalive_ends_after_request {} 0 (suspending 4) takenUp 0).1 hreachable 0
  have hrests : ∀ before later, takenUp = before ++ .advance 0 :: later →
      (after {} 0 (suspending 4 ++ before)).isAboutToRest 0 = false := by
    intro before later hsplit
    have hall : ∀ i ∈ List.range 4,
        (after {} 0 (suspending 4 ++ takenUp.take i)).isAboutToRest 0 = false := by decide
    have hlength := congrArg List.length hsplit
    rw [List.length_append, List.length_cons] at hlength
    have hlt : before.length < 4 := by
      have hfour : takenUp.length = 4 := rfl
      omega
    have hbefore := hall before.length (List.mem_range.2 hlt)
    rwa [hsplit, List.take_left] at hbefore
  have hlink : ((after {} 0 (suspending 4 ++ .perform 0 (.killKeepalive (some 0)) ::
      takenUp)).link? 0).map (fun k => (k.killKeepalive, k.step, k.pending,
        k.machine.state.awaitsRequest, k.callsOf .request)) =
        some (true, some (.after true), .none, false, 1) := by
    decide
  obtain ⟨k, hk, hfields⟩ := Option.map_eq_some_iff.1 hlink
  simp only [Prod.mk.injEq] at hfields
  obtain ⟨hkill, hs, hp, hawaits, hcalls⟩ := hfields
  have hwhole : runsWhole (suspending 4 ++ .perform 0 (.killKeepalive (some 0)) :: takenUp ++
      [.advance 0, .advance 0]) (create {} 0) = true := by
    decide
  have hclosing : ((after {} 0 (suspending 4 ++ .perform 0 (.killKeepalive (some 0)) ::
      takenUp)).link? 0).all (fun k => !(after {} 0 (suspending 4 ++
        .perform 0 (.killKeepalive (some 0)) :: takenUp)).isClosing k) = true := by
    decide
  rw [hk] at hclosing
  obtain ⟨⟨k', hk', -, -, -, hserved⟩, hcloses⟩ := (kill_keepalive_ends_after_request {} 0
    (suspending 4 ++ .perform 0 (.killKeepalive (some 0)) :: takenUp) [.advance 0, .advance 0]
    0).2.2.2.2 k hk hkill hwhole
  obtain ⟨x, hx, hclosed, hreason⟩ := hcloses true _ _ [] rfl hs hp (by simpa using hclosing)
  obtain rfl : x = k' := Option.some.inj (hx.symm.trans hk')
  exact ⟨hfirst.2 hrests, x, hx, hclosed, hreason, (hserved hawaits).trans hcalls⟩

end Engine

end LinkEngine

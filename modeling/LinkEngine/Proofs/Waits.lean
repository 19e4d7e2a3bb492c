import LinkEngine.Proofs.Flow
import LinkEngine.Proofs.Wakes

/-!
# One wait after the other

The task of a link parks it in one wait after the other, and each has a higher number than
the one before. So a wait that is over never comes back (`Turn.past`), and a link that is
parked has not timed out: whatever fired before, it fired in an earlier wait.
-/

namespace LinkEngine

open Connection (CloseReason)
open Link (Step)

/-! ## Links -/

namespace Link

variable {k k' : Link} {g g' : Nat} {reason : CloseReason}

/-- A link waits as before, or not at all: the deadline and the number of its wait are the
same, it is neither opened nor parked, and while it is parked no deadline fires. -/
structure Waits (k k' : Link) : Prop where
  wait : k'.wait = k.wait
  parked : k'.closed = false → k'.request.isParked = true → k.closed = false ∧
    k.request.isParked = true ∧ k'.expiredGeneration = k.expiredGeneration

theorem Waits.refl (k : Link) : k.Waits k := ⟨rfl, fun hc hp => ⟨hc, hp, rfl⟩⟩

theorem Waits.deadline (h : k.Waits k') : k'.deadline = k.deadline := congrArg Prod.fst h.wait

theorem Waits.waitGeneration (h : k.Waits k') : k'.waitGeneration = k.waitGeneration :=
  congrArg Prod.snd h.wait

theorem Waits.of_unparked (hw : k'.wait = k.wait) (hp : k'.request.isParked = false) : k.Waits k' :=
  ⟨hw, fun _ h => absurd (hp.symm.trans h) Bool.false_ne_true⟩

theorem Touched.waits (h : k.Touched k') : k.Waits k' := by
  refine ⟨h.wait, ?_⟩
  cases h with
  | asked hc hp reason =>
    intro _ hp'
    have hwake : k.request.wake.2.isParked = false := by
      revert hp
      cases k.request <;> decide
    unfold interrupt at hp'
    split at hp' <;> exact absurd (hwake.symm.trans hp') Bool.false_ne_true
  | deferred | late | vain => exact fun _ h => nomatch h
  | _ => exact fun hc hp => ⟨hc, hp, rfl⟩

theorem Handed.waits (h : k.Handed k') : k.Waits k' := by
  refine .of_unparked h.wait ?_
  cases h <;> rfl

theorem Seized.waits (h : k.Seized reason k') : k.Waits k' := by
  cases h <;> exact .of_unparked rfl rfl

theorem waits_gone (k : Link) : k.Waits k.gone := .of_unparked rfl rfl

/-- The next step of a link does not matter to its wait. -/
theorem waits_next (k : Link) (step : Option Step) : k.Waits { k with step } :=
  ⟨rfl, fun hc hp => ⟨hc, hp, rfl⟩⟩

/-- Wait `g` of a link is over: it waits no more, or in a later wait, whose deadline did not
fire. -/
structure Past (k : Link) (g : Nat) : Prop where
  reached : g ≤ k.waitGeneration
  later : k.closed = false → k.request.isParked = true →
    g < k.waitGeneration ∧ k.isTimedOut = false

theorem Past.waits (h : k.Past g) (hw : k.Waits k') : k'.Past g where
  reached := hw.waitGeneration ▸ h.reached
  later hc' hp' := by
    obtain ⟨hc, hp, he⟩ := hw.parked hc' hp'
    unfold isTimedOut
    rw [hw.waitGeneration, he]
    exact h.later hc hp

theorem Past.mono (h : k.Past g') (hg : g ≤ g') : k.Past g where
  reached := Nat.le_trans hg h.reached
  later hc hp := ⟨Nat.lt_of_le_of_lt hg (h.later hc hp).1, (h.later hc hp).2⟩

theorem Past.of_closed (hg : g ≤ k.waitGeneration) (hc : k.closed = true) : k.Past g :=
  ⟨hg, fun h => absurd (hc.symm.trans h).symm Bool.false_ne_true⟩

theorem Past.of_unparked (hg : g ≤ k.waitGeneration) (hp : k.request.isParked = false) :
    k.Past g :=
  ⟨hg, fun _ h => absurd (hp.symm.trans h) Bool.false_ne_true⟩

/-- No deadline fired of a wait to come. -/
def Timely (k : Link) : Prop := ∀ e, k.expiredGeneration = some e → e ≤ k.waitGeneration

/-- A link that goes on to the next wait is past the present one. -/
theorem Timely.past (h : k.Timely) (hw : k'.waitGeneration = k.waitGeneration + 1)
    (he : k'.expiredGeneration = k.expiredGeneration) : k'.Past k.waitGeneration := by
  refine ⟨hw ▸ Nat.le_succ _, fun _ _ => ⟨hw ▸ Nat.lt_succ_self _, ?_⟩⟩
  refine beq_eq_false_iff_ne.2 fun hlate => ?_
  have := h _ (he.symm.trans hlate)
  omega

theorem Past.next (h : k.Past g) (step : Option Step) : { k with step }.Past g :=
  h.waits (k.waits_next step)

end Link

namespace Stand

variable {v w : Stand} {reason : CloseReason} {g : Nat} {step : Step}

/-! ## What others do, and teardowns -/

theorem Course.past (h : Course v w) (hv : v.link.Past g) : w.link.Past g :=
  h.induction (P := fun k => k.Past g) (fun h hk => hk.waits h.waits)
    (fun h hk => hk.waits h.waits)
    (fun h hk => .of_closed
      (Nat.le_trans (hk.waits h.waits).reached (Link.grown_marked _ _).waitGeneration)
      (Link.closed_marked _ _))
    (fun _ hk => hk.waits (Link.waits_gone _)) hv

theorem TornDown.past (h : TornDown reason v w) (hg : g ≤ v.link.waitGeneration) :
    w.link.Past g :=
  .of_closed (Nat.le_trans hg h.grown.waitGeneration) h.closed

/-! ## Steps that park -/

/-- A link that is parked is so in a wait of its own. -/
private theorem plan_past (ht : v.link.Timely) (h : plan step v .park w) :
    w.link.Past v.link.waitGeneration := by
  rcases step_of_park h with rfl | rfl
  · obtain ⟨stream, r, t, -, hcourse⟩ := await_park h
    exact hcourse.past (ht.past rfl rfl)
  · obtain ⟨-, machine, r, t, rfl⟩ := suspend_park h
    exact ht.past rfl rfl

/-! ## Turns -/

/-- **A wait that is over stays so.** -/
theorem Turn.past (h : Turn v w) (hv : Standing v) (hk : v.link.Cycles) (hg : v.link.Past g) :
    w.link.Past g := by
  cases h with
  | course h => exact h.past hg
  | begin => exact hg.next _
  | idle => exact hg
  | doomed _ _ _ _ h => exact h.past hg.reached
  | @step _ x _ step _ hs h hw hc =>
    have hready := (standing_some hs).1 hv
    have hdecided := hready.decided h
    have hreached := Nat.le_trans hg.reached hw.grown.waitGeneration
    cases hc with
    | next => exact Link.Past.next (.of_unparked hreached hdecided.expects.isParked) _
    | park =>
      have ht : v.link.Timely := hk.timed hready.closed
      -- It was parked in a wait after the one it was in when the step began.
      have hpast := plan_past ht h
      exact (hpast.mono hg.reached).next none
    | close ht => exact (ht.past hreached).next none
    | fail _ _ h _ ht => exact (ht.past (Nat.le_trans hreached h.grown.waitGeneration)).next none
    | panic ht => exact (ht.past hreached).next none

/-- A new link waits in no wait that any deadline is for. -/
theorem Started.past {i : Nat} {arrival : Engine.Arrival} (h : Started i arrival v) :
    v.link.Past 0 := by
  cases h with
  | queued => exact .of_unparked (Nat.zero_le _) rfl
  | refused _ _ _ ht => exact .of_closed (Nat.zero_le _) ht.closed

end Stand

/-! ## Runs -/

/-- The link is parked in wait `g`: no task drives it. -/
def Link.IsIn (k : Link) (g : Nat) : Prop :=
  k.isDriven = false ∧ k.request.isParked = true ∧ k.waitGeneration = g

namespace Engine

variable {l g : Nat} {k : Link} {v : Stand} (settings : Settings.Scheduler) (now : Nat)

/-- **A link that is parked has not timed out.** -/
theorem past (moves : List Move) (hv : (after settings now moves).stand? l = some v) :
    v.link.Past 0 :=
  (after_stand settings now (P := fun v => (v.Standing ∧ v.link.Cycles) ∧ v.link.Past 0)
    (fun _ _ _ h => ⟨⟨h.standing, h.cycles⟩, h.past⟩)
    (fun _ _ hv h => ⟨⟨hv.1.1.turn h, h.cycles hv.1.1 hv.1.2⟩, h.past hv.1.1 hv.1.2 hv.2⟩)
    moves l v hv).2

/-- **A wait that a link has left is over for ever.** -/
theorem past_of_left {before between : List Move}
    (hin : ∃ k, (after settings now before).link? l = some k ∧ k.IsIn g)
    (hleft : ∀ k, (after settings now (before ++ between)).link? l = some k → ¬ k.IsIn g)
    (later : List Move) :
    ∃ k, (after settings now (before ++ between ++ later)).link? l = some k ∧ k.Past g := by
  obtain ⟨k₁, hk₁, -, -, hg⟩ := hin
  obtain ⟨k₂, hk₂, hgrown⟩ := follow_grown (after_sole settings now before) hk₁ between
  rw [← after_append] at hk₂
  have hv := stand?_of_link? hk₂
  obtain ⟨hstanding, hcycles⟩ := standing_cycles settings now (before ++ between) hv
  -- The link is in a later wait now, or in none.
  have hpast : k₂.Past g := by
    have hle : g ≤ k₂.waitGeneration := hg ▸ hgrown.waitGeneration
    refine ⟨hle, fun hc hp => ⟨?_, ((past settings now _ hv).later hc hp).2⟩⟩
    refine Nat.lt_of_le_of_ne hle fun heq => hleft k₂ hk₂ ⟨?_, hp, heq.symm⟩
    cases hs : k₂.step with
    | none => exact congrArg Option.isSome hs
    | some step =>
      have hready := (Stand.standing_some (v := ⟨k₂, _⟩) hs).1 hstanding
      exact absurd (hready.expects.isParked.symm.trans hp) Bool.false_ne_true
  obtain ⟨w, hw, -, hpast⟩ := follow_stand
    (P := fun v => (v.Standing ∧ v.link.Cycles) ∧ v.link.Past g)
    (fun _ _ hv h => ⟨⟨hv.1.1.turn h, h.cycles hv.1.1 hv.1.2⟩, h.past hv.1.1 hv.1.2 hv.2⟩)
    (after_sole settings now (before ++ between)) hv ⟨⟨hstanding, hcycles⟩, hpast⟩ later
  rw [← after_append] at hw
  exact ⟨w.link, (stand?_eq_some.1 hw).1, hpast⟩

end Engine

end LinkEngine

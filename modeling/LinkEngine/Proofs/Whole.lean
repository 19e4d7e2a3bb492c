import LinkEngine.Proofs.Missed

/-!
# Runs whose tasks run one after the other

A run is whole if each task that begins runs to its end before anything else happens
(`runsWhole`): whatever is done to a link by others finds no task on its way. So there no task is
about to park a link that is to close (`closing_of_runsWhole`), no close is missed
(`unparked_of_runsWhole`), and a shutdown finds every link where it can be told
(`undecided_of_runsWhole`).
-/

namespace LinkEngine

open Connection (CloseReason)
open Link (Outcome Step)

namespace Link

variable {k : Link} {step : Step}

theorem isDriven_of_some (hs : k.step = some step) : k.isDriven = true :=
  congrArg Option.isSome hs

/-- A link whose task may let it rest is driven. -/
theorem isDriven_of_mayRest (hrest : k.mayRest = true) : k.isDriven = true := by
  cases hs : k.step with
  | none => exact nomatch (mayRest_of_none hs).symm.trans hrest
  | some step => exact isDriven_of_some hs

end Link

namespace Engine

variable {s : Engine} {i l : Nat} {k : Link} {m : Move}

/-! ## Moves between the tasks -/

/-- No task runs, or the move is the next step of the one that does. -/
def leavesAlone (s : Engine) (m : Move) : Bool :=
  (List.range s.slots.length).all fun l => !(s.link? l).any (·.isDriven) || m.advances l

/-- Each task that begins runs to its end before anything else happens. -/
def runsWhole : List Move → Engine → Bool
  | [], _ => true
  | m :: moves, s => s.leavesAlone m && runsWhole moves (move m s)

theorem runsWhole_append (first rest : List Move) (s : Engine) :
    runsWhole (first ++ rest) s = (runsWhole first s && runsWhole rest (follow first s)) := by
  induction first generalizing s with
  | nil => rfl
  | cons m first ih =>
    rw [List.cons_append, runsWhole, runsWhole, ih, follow_cons, Bool.and_assoc]

/-- While a link is driven, its task takes the next step. -/
theorem eq_advance_of_leavesAlone (h : s.leavesAlone m = true) (hk : s.link? l = some k)
    (hd : k.isDriven = true) : m = .advance l := by
  have := List.all_eq_true.1 h l (List.mem_range.2 (lt_length_of_link? hk))
  rw [hk, Option.any_some, hd] at this
  exact Move.eq_of_advances this

/-! ## Whole runs -/

variable {settings : Settings.Scheduler} {now : Nat}

/-- **Where tasks run one after the other, none is about to park a link that is to close**: it
looked at that in a step before, and nothing happened since. -/
theorem closing_of_runsWhole {moves : List Move}
    (h : runsWhole moves (create settings now) = true)
    (hk : (after settings now moves).link? l = some k) (hrest : k.mayRest = true) :
    k.closing = false := by
  induction moves using List.reverseRecOn generalizing l k with
  | nil => cases hk
  | append_singleton moves m ih =>
    rw [runsWhole_append, Bool.and_eq_true] at h
    obtain ⟨hmoves, halone⟩ := h
    rw [runsWhole, runsWhole, Bool.and_true] at halone
    have halone : (after settings now moves).leavesAlone m = true := halone
    rw [after_concat] at hk
    have hdriven : ∀ {k : Link}, k.mayRest = true → k.step ≠ none := fun hrest hs =>
      nomatch (Link.mayRest_of_none hs).symm.trans hrest
    cases hold : (after settings now moves).link? l with
    | none =>
      obtain ⟨_, _, -, -, -, hstarted⟩ :=
        move_started (after_manned settings now moves) m hold (stand?_of_link? hk)
      exact absurd hstarted.step (hdriven hrest)
    | some old =>
      have hv := stand?_of_link? hold
      have hsole := after_sole settings now moves
      cases hstep : old.step with
      | none =>
        -- Its task begins in this move, after a look at whether it is to close.
        obtain ⟨w, hw, hturn⟩ := move_turn hsole m hv
        obtain rfl : w.link = k := Option.some.inj ((stand?_eq_some.1 hw).1.symm.trans hk)
        cases hturn with
        | course h => exact absurd (h.step.trans hstep) (hdriven hrest)
        | begin hd he hc hc' => exact hc'
        | idle => exact absurd hstep (hdriven hrest)
        | doomed hd he hc hc' h => exact absurd (h.step.trans hstep) (hdriven hrest)
        | step hs => exact nomatch hs.symm.trans hstep
      | some step =>
        obtain rfl := eq_advance_of_leavesAlone halone hold (Link.isDriven_of_some hstep)
        obtain ⟨w, x, hx, hplan, -, hconcluded⟩ := advance_step hsole hv hstep
        obtain rfl : x.link = k := Option.some.inj ((stand?_eq_some.1 hx).1.symm.trans hk)
        generalize (stepLink l step (after settings now moves)).1 = o at hplan hconcluded
        cases hconcluded with
        | next next =>
          refine Bool.eq_false_iff.2 fun hclosing => ?_
          have hnot := Stand.next_mayRest hplan
            (fun hm => ih hmoves hold ((Link.mayRest_of_some hstep).trans hm)) hclosing
          exact nomatch hnot.symm.trans hrest
        | _ => cases hrest

/-- **Where tasks run one after the other, no close is missed**: a link that is to close is not
parked. Whoever asked when its task might let it rest would have come between two steps of
that. -/
theorem unparked_of_runsWhole {moves : List Move}
    (h : runsWhole moves (create settings now) = true)
    (hk : (after settings now moves).link? l = some k) (hc : k.closing = true)
    (hopen : k.closed = false) : k.request.isParked = false := by
  have hv := stand?_of_link? hk
  rcases (standing settings now moves hv).lingers_or_leaves (matched settings now moves hv)
    (unsuspended settings now moves hv) hc with hlingers | hleaving
  · obtain ⟨before, asking, rest, rfl, hothers, ⟨x, hx, -, hrest⟩, -⟩ :=
      overlooked settings now moves hk hlingers
    rw [runsWhole_append, Bool.and_eq_true, runsWhole, Bool.and_eq_true] at h
    obtain rfl := eq_advance_of_leavesAlone h.2.1 hx (Link.isDriven_of_mayRest hrest)
    exact nomatch hothers.symm.trans (Move.advances_self l)
  · exact (hleaving.heeding hopen).2.2

/-- **Where tasks run one after the other, no move takes one by surprise.** -/
theorem undecided_of_runsWhole {moves : List Move}
    (h : runsWhole (moves ++ [m]) (create settings now) = true) (i : Nat) :
    (after settings now moves).Undecided i m := by
  intro l k hk _ _ hrest
  rw [runsWhole_append, Bool.and_eq_true, runsWhole, Bool.and_eq_true] at h
  exact ⟨eq_advance_of_leavesAlone h.2.1 hk (Link.isDriven_of_mayRest hrest),
    closing_of_runsWhole h.1 hk hrest⟩

end Engine

end LinkEngine

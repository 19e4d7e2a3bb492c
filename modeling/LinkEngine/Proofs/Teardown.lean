import LinkEngine.Proofs.Accounts

/-!
# A link is torn down once

Teardown is reached from many places: a task that ends, fails or panics, a forced
close of a parked link, a pool that takes no task, and from the close hooks of
other links that are torn down themselves. Whichever comes first, it takes effect
once, everybody who watches agrees on it, and nothing more happens on the link
(`torn_down_once`).
-/

namespace LinkEngine.Engine

open Connection (CloseReason)

variable {s : Engine} {l : Nat} {k : Link}

/-- A link was torn down, and everybody agrees on it. -/
structure Buried (s : Engine) (l : Nat) (k : Link) : Prop where
  /-- The close hook was called once, for the reason the link gives. -/
  reason : ∃ reason, k.closeReason = some reason ∧ k.closings = [reason]
  machine : k.machine.state = .destroyed
  request : k.request = .destroy
  /-- It is none of the live links that the listener counts any more. -/
  counted : k.counted = false
  unregistered : l ∉ (s.listener k.listener).registry
  /-- In the accounts of its listener it counts once. -/
  books : s.Books k.listener 0

variable (settings : Settings.Scheduler) (now : Nat)

/-- A link of a run that is closed was torn down, and is driven no more. -/
theorem buried {moves : List Move} (hk : (after settings now moves).link? l = some k)
    (hc : k.closed = true) : Buried (after settings now moves) l k ∧ k.step = none := by
  have hv := stand?_of_link? hk
  have hstanding := standing settings now moves hv
  have haudited := audited settings now moves
  have hbooks := haudited.books k.listener (haudited.housed l k hk)
  -- A link that is driven is open, so nobody drives this one.
  have hs : k.step = none := by
    cases hs : k.step with
    | none => rfl
    | some step => exact nomatch hc.symm.trans ((Stand.standing_some hs).1 hstanding).closed
  have hgone : Stand.Gone ⟨k, (after settings now moves).entries l⟩ :=
    ((Stand.standing_none hs).1 hstanding).gone_of_closed hc
  have htold := told settings now moves hv
  obtain ⟨reason, hr⟩ := Option.isSome_iff_exists.1 (htold.closed.symm.trans hc)
  refine ⟨⟨⟨reason, hr, htold.closings.trans (congrArg _ hr)⟩, hgone.machine, hgone.request,
    hgone.counted, ?_, hbooks⟩, hs⟩
  intro hmem
  obtain ⟨k', hk', -, hn⟩ := (hbooks.registered l).1 hmem
  rw [hk] at hk'
  cases hk'
  rw [show k.counted = false from hgone.counted] at hn
  cases hn

/-- **A link is torn down once.** While it is open its close hook was not called. Once
it is closed, whatever closed it, it was torn down and everybody agrees on that; if
its handler left the socket alone, the engine closed it once; and whatever happens
from then on, the link keeps its reason, none of its hooks is called, and its socket
is neither read nor written nor closed. -/
theorem torn_down_once (moves : List Move) (hk : (after settings now moves).link? l = some k) :
    (k.closed = false → k.closings = []) ∧
    (k.closed = true →
      Buried (after settings now moves) l k ∧
      (∀ before i arrival later, moves = before ++ .accept i arrival :: later →
        (after settings now before).link? l = none →
        ((after settings now (before ++ [.accept i arrival])).link? l).isSome = true →
        arrival.handler.closesStream = false →
        k.stream.closes = arrival.socket.closes + 1) ∧
      ∀ more, ∃ k', (follow more (after settings now moves)).link? l = some k' ∧
        k.Settled k') := by
  have hv := stand?_of_link? hk
  refine ⟨?_, ?_⟩
  · intro hc
    have htold := told settings now moves hv
    exact htold.closings.trans (congrArg _ (htold.closeReason_eq_none hc))
  · intro hc
    obtain ⟨hburied, hs⟩ := buried settings now hk hc
    refine ⟨hburied, ?_, follow_settled (after_sole settings now moves) hk hc hs⟩
    rintro before i arrival later rfl hn hsome hcloses
    have htallied := tallied settings now hcloses hn hsome hv
    rw [htallied.closes]
    show _ + (if k.counted then 0 else 1) = _
    rw [hburied.counted]
    rfl

/-- One connection whose request is suspended and which is then asked to close. -/
def suspendedAndClosed : List Move :=
  [.build {} none,
    .accept 0 { socket := {}, handler := { requests := [[⟨"comet", .comet none none, false⟩]] } },
    .begin 0, .advance 0, .advance 0, .advance 0, .advance 0, .perform 0 (.close (some 0) none)]

theorem torn_down_once_suspended :
    ∃ k, (after {} 0 suspendedAndClosed).link? 0 = some k ∧ k.closed = true ∧
      Buried (after {} 0 suspendedAndClosed) 0 k ∧ k.stream.closes = 1 ∧
      ∀ more, ∃ k', (follow more (after {} 0 suspendedAndClosed)).link? 0 = some k' ∧
        k.Settled k' := by
  have hclosed : ((after {} 0 suspendedAndClosed).link? 0).map (·.closed) = some true := by
    decide
  obtain ⟨k, hk, hc⟩ := Option.map_eq_some_iff.1 hclosed
  obtain ⟨hburied, harrival, hmore⟩ := (torn_down_once {} 0 suspendedAndClosed hk).2 hc
  refine ⟨k, hk, hc, hburied, ?_, hmore⟩
  exact harrival [.build {} none] _ _ _ rfl rfl (by decide) (by decide)

end LinkEngine.Engine

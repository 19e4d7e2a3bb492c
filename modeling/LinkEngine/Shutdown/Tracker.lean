/-!
# Counting live connections

A `Tracker` counts the connections that are alive, turns new ones away when the
limit is reached or when it stopped accepting, and says when all of them are
gone. A `Ledger` adds the guards themselves, one for each admission, so that
each is given back at most once.
-/

namespace LinkEngine.Shutdown

/-- The live connections of a listener. -/
structure Tracker where
  active : Nat := 0
  accepting : Bool := true
  deriving DecidableEq, Repr, Inhabited

namespace Tracker

/-- Lets one more connection in below the limit, while accepting. -/
def join? (t : Tracker) (limit : Nat) : Option Tracker :=
  if t.accepting && t.active < limit then some { t with active := t.active + 1 } else none

/-- One connection is gone. -/
def leave (t : Tracker) : Tracker := { t with active := t.active - 1 }

/-- Lets nothing in from now on. -/
def stop (t : Tracker) : Tracker := { t with accepting := false }

/-- No connection is alive. -/
def isDrained (t : Tracker) : Bool := t.active == 0

theorem active_of_join? {t t' : Tracker} {limit : Nat} (h : t.join? limit = some t') :
    t'.active = t.active + 1 ∧ t'.active ≤ limit := by
  unfold join? at h
  split at h
  · next hc =>
    obtain rfl : { t with active := t.active + 1 } = t' := by simpa using h
    have hlt : t.active < limit := of_decide_eq_true (Bool.and_eq_true_iff.1 hc).2
    exact ⟨rfl, hlt⟩
  · cases h

end Tracker

/-- A tracker with the guards it gave out; a guard is `true` while it is
held. -/
structure Ledger where
  tracker : Tracker := {}
  guards : List Bool := []
  deriving DecidableEq, Repr, Inhabited

namespace Ledger

/-- What can be asked of a ledger. -/
inductive Request where
  | join (limit : Nat)
  | giveBack (guard : Nat)
  | stop
  | drain
  deriving DecidableEq, Repr

/-- What a ledger answers. -/
inductive Answer where
  /-- The number of the new guard, if one was given. -/
  | admitted (guard : Option Nat)
  | flag (b : Bool)
  | done
  deriving DecidableEq, Repr

/-- Answers one request. A guard that is not held, or never was, is not given
back again. -/
def answer (l : Ledger) : Request → Answer × Ledger
  | .join limit =>
    match l.tracker.join? limit with
    | some t => (.admitted (some l.guards.length),
        { tracker := t, guards := l.guards ++ [true] })
    | none => (.admitted none, l)
  | .giveBack guard =>
    if l.guards[guard]? = some true then
      (.flag true, { tracker := l.tracker.leave, guards := l.guards.set guard false })
    else (.flag false, l)
  | .stop => (.done, { l with tracker := l.tracker.stop })
  | .drain => (.flag l.tracker.isDrained, l)

/-- The answers to a sequence of requests, each with the tracker it left. -/
def answers (l : Ledger) : List Request → List (Answer × Tracker)
  | [] => []
  | r :: rs =>
    let (a, l') := l.answer r
    (a, l'.tracker) :: l'.answers rs

end Ledger

end LinkEngine.Shutdown

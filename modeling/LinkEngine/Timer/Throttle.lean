/-!
# The limit on callbacks under way

A burst of timers must not occupy every worker. Before an ordinary callback is
handed on it takes a permit; when as many are out as the limit allows, the
taker waits until one comes back. A `Ledger` adds the permits themselves, so
that each is given back at most once.
-/

namespace LinkEngine.Timer

/-- The permits for callbacks under way. -/
structure Throttle where
  limit : Nat
  inFlight : Nat := 0
  /-- The most permits ever out at once. -/
  peak : Nat := 0
  /-- How often a taker found none left. -/
  waits : Nat := 0
  deriving DecidableEq, Repr, Inhabited

namespace Throttle

/-- A throttle allows at least one callback. -/
def create (limit : Nat) : Throttle := { limit := max limit 1 }

/-- No permit is left. -/
def isFull (t : Throttle) : Bool := t.limit ≤ t.inFlight

/-- Takes a permit that is left. -/
def take (t : Throttle) : Throttle :=
  { t with inFlight := t.inFlight + 1, peak := max t.peak (t.inFlight + 1) }

/-- Notes that a taker found no permit left. -/
def noteWait (t : Throttle) : Throttle := { t with waits := t.waits + 1 }

/-- A permit comes back. -/
def release (t : Throttle) : Throttle := { t with inFlight := t.inFlight - 1 }

/-- A throttle with the permits it gave out; a permit is `true` while it is
held. -/
structure Ledger where
  throttle : Throttle
  permits : List Bool := []
  /-- The process shuts down, so nobody waits any more. -/
  stopped : Bool := false
  deriving DecidableEq, Repr

namespace Ledger

/-- What can be asked of a ledger. -/
inductive Request where
  | acquire
  | release (permit : Nat)
  | stop
  deriving DecidableEq, Repr

/-- What a ledger answers. -/
inductive Answer where
  /-- The number of the new permit. -/
  | permit (n : Nat)
  /-- None was left, and the process shuts down. -/
  | refused
  /-- None is left, and the taker would wait. -/
  | blocks
  | flag (b : Bool)
  | done
  deriving DecidableEq, Repr

/-- Answers one request. A taker that would wait is not let in. -/
def answer (l : Ledger) : Request → Answer × Ledger
  | .acquire =>
    if l.throttle.isFull then
      if l.stopped then (.refused, { l with throttle := l.throttle.noteWait }) else (.blocks, l)
    else
      (.permit l.permits.length,
        { l with throttle := l.throttle.take, permits := l.permits ++ [true] })
  | .release permit =>
    if l.permits[permit]? = some true then
      (.flag true,
        { l with throttle := l.throttle.release, permits := l.permits.set permit false })
    else (.flag false, l)
  | .stop => (.done, { l with stopped := true })

/-- The answers to a sequence of requests, each with the throttle it left. -/
def answers (l : Ledger) : List Request → List (Answer × Throttle)
  | [] => []
  | r :: rs =>
    let (a, l') := l.answer r
    (a, l'.throttle) :: l'.answers rs

end Ledger

end Throttle

end LinkEngine.Timer

import LinkEngine.Connection.State

/-!
# The connection machine

A `Machine` holds the state of one connection and the number of requests it
has started. Events move it along the table of `State.next?`; a refused event
leaves it as it was.
-/

namespace LinkEngine.Connection

/-- The state of one connection, with the number of requests started. -/
structure Machine where
  state : State := .init
  requests : Nat := 0
  deriving DecidableEq, Repr, Inhabited

namespace Machine

/-- The request count stays at this value once it is reached. -/
def maxRequests : Nat := UInt32.size - 1

/-- Moves to `next`. Entering the active state from another one starts a
request; staying where one is changes nothing. -/
def enter (m : Machine) (next : State) : Machine :=
  if next = m.state then m
  else if next = .active then
    { state := next, requests := min (m.requests + 1) maxRequests }
  else { m with state := next }

/-- Applies an event, or reports that the state refuses it. -/
def apply (m : Machine) (e : Event) : Except Refusal Machine :=
  match m.state.next? e with
  | some next => .ok (m.enter next)
  | none => .error { state := m.state, event := e }

/-- Ends a request: the connection rests, or closes if it was told not to be
kept alive. The state must be one in which a request can end, also when the
connection then closes. -/
def finish (m : Machine) (killed : Bool) : Except Refusal Machine :=
  match m.state.next? .keepalive with
  | none => .error { state := m.state, event := .keepalive }
  | some _ => m.apply (if killed then .close else .keepalive)

@[simp] theorem state_enter (m : Machine) (next : State) : (m.enter next).state = next := by
  unfold enter
  split
  · simp_all
  · split <;> simp_all

/-- An accepted event leads where the table says. -/
theorem state_of_apply {m m' : Machine} {e : Event} (h : m.apply e = .ok m') :
    m.state.next? e = some m'.state := by
  unfold apply at h
  split at h
  · next next hn => cases h; simpa using hn
  · cases h

end Machine

end LinkEngine.Connection

/-!
# Who owns a connection

A connection is driven by one task at a time. While it waits, nobody drives it,
and the first of several wakers (a handle, a deadline, a readiness notice, a
forced close) takes it over. The `Request` state is the one value all of them
look at, and each operation on it is one atomic step, so exactly one of them
wins.

A wake that arrives after a handler has begun an asynchronous request, but
before the connection is parked, is recorded (`asyncWake`) and taken up by the
driving task itself.
-/

namespace LinkEngine.Connection

/-- The ownership state of a connection. -/
inductive Request where
  /-- Created, not yet handed to a task. -/
  | init
  /-- A task drives the connection. -/
  | request
  /-- Parked between requests. -/
  | keepalive
  /-- An asynchronous request was begun; not yet parked. -/
  | asyncStart
  /-- A wake came before the connection was parked. -/
  | asyncWake
  /-- Parked in an asynchronous request. -/
  | suspend
  /-- Torn down, for good. -/
  | destroy
  deriving DecidableEq, Repr, Inhabited

namespace Request

/-- The name shown to people. -/
def name : Request → String
  | .init => "init"
  | .request => "request"
  | .keepalive => "keepalive"
  | .asyncStart => "async-start"
  | .asyncWake => "async-wake"
  | .suspend => "suspend"
  | .destroy => "destroy"

/-- Parked: no task drives the connection, and the next wake takes it over. -/
def isParked : Request → Bool
  | .keepalive | .suspend => true
  | _ => false

/-- A move of the ownership state that was refused. -/
structure Refusal where
  state : Request
  target : Request
  deriving DecidableEq, Repr

/-- What came of an attempt to park. -/
inductive Parking where
  /-- Parked; a later wake takes over. -/
  | suspended
  /-- A wake came first; the driving task goes on. -/
  | woken
  deriving DecidableEq, Repr

/-- What came of a wake. -/
inductive Waking where
  /-- The waker owns the connection and must schedule it. -/
  | resume
  /-- The wake is recorded for the driving task. -/
  | deferred
  /-- There was nothing to wake. -/
  | ignored
  deriving DecidableEq, Repr

/-- Moves from exactly `source` to `target`. -/
def move (source target r : Request) : Except Refusal Request :=
  if r = source then .ok target else .error { state := r, target := target }

/-- Hands a new connection to a task. -/
def begin (r : Request) : Except Refusal Request := move .init .request r

/-- Parks between requests. -/
def rest (r : Request) : Except Refusal Request := move .request .keepalive r

/-- Begins an asynchronous request. -/
def beginAsync (r : Request) : Except Refusal Request := move .request .asyncStart r

/-- Parks in an asynchronous request, unless a wake came first. -/
def trySuspend : Request → Except Refusal (Parking × Request)
  | .asyncStart => .ok (.suspended, .suspend)
  | .asyncWake => .ok (.woken, .request)
  | r => .error { state := r, target := .suspend }

/-- Wakes a parked connection of either kind. -/
def wake : Request → Waking × Request
  | .suspend | .keepalive => (.resume, .request)
  | .asyncStart => (.deferred, .asyncWake)
  | r => (.ignored, r)

/-- Wakes only a connection that is parked between requests. -/
def wakeKeepalive : Request → Waking × Request
  | .keepalive => (.resume, .request)
  | r => (.ignored, r)

/-- Wakes only a connection in an asynchronous request. -/
def wakeAsync : Request → Waking × Request
  | .suspend => (.resume, .request)
  | .asyncStart => (.deferred, .asyncWake)
  | r => (.ignored, r)

/-- Takes up a recorded wake, if there is one. -/
def takeWake : Request → Bool × Request
  | .asyncWake => (true, .request)
  | r => (false, r)

/-- Ends an asynchronous request that was never parked. -/
def completeAsync : Request → Bool × Request
  | .asyncStart | .asyncWake => (true, .request)
  | r => (false, r)

/-- Tears down. Answers the state that was left, or none if the connection was
torn down before. -/
def destroyed : Request → Option Request × Request
  | .destroy => (none, .destroy)
  | r => (some r, .destroy)

/-- Whoever may take a connection over by a wake finds it parked, and hands it
to a task. -/
theorem wake_eq_resume {r r' : Request} (h : r.wake = (.resume, r')) :
    r.isParked = true ∧ r' = .request := by
  cases r <;> cases h <;> exact ⟨rfl, rfl⟩

/-- A wake that does not take over finds the connection not parked. -/
theorem isParked_of_wake {r : Request} (h : r.wake.1 ≠ .resume) : r.isParked = false := by
  cases r with
  | keepalive => exact absurd rfl h
  | suspend => exact absurd rfl h
  | _ => rfl

theorem wakeKeepalive_eq_resume {r r' : Request} (h : r.wakeKeepalive = (.resume, r')) :
    r = .keepalive ∧ r' = .request := by
  cases r <;> cases h
  exact ⟨rfl, rfl⟩

theorem wakeAsync_eq_resume {r r' : Request} (h : r.wakeAsync = (.resume, r')) :
    r = .suspend ∧ r' = .request := by
  cases r <;> cases h
  exact ⟨rfl, rfl⟩

theorem wakeAsync_eq_deferred {r r' : Request} (h : r.wakeAsync = (.deferred, r')) :
    r = .asyncStart ∧ r' = .asyncWake := by
  cases r <;> cases h
  exact ⟨rfl, rfl⟩

/-! ## Histories of operations -/

/-- One atomic operation on the ownership state. -/
inductive Operation where
  | begin
  | rest
  | beginAsync
  | trySuspend
  | wake
  | wakeKeepalive
  | wakeAsync
  | takeWake
  | completeAsync
  | destroy
  deriving DecidableEq, Repr

/-- What an operation answers. -/
inductive Answer where
  | done
  | parking (p : Parking)
  | waking (w : Waking)
  | flag (b : Bool)
  | previous (r : Option Request)
  | refused (r : Refusal)
  deriving DecidableEq, Repr

/-- Answers a move, staying put where it is refused. -/
def settle (r : Request) : Except Refusal Request → Answer × Request
  | .ok r' => (.done, r')
  | .error e => (.refused e, r)

/-- One operation as one atomic step. -/
def perform (r : Request) : Operation → Answer × Request
  | .begin => r.settle r.begin
  | .rest => r.settle r.rest
  | .beginAsync => r.settle r.beginAsync
  | .trySuspend =>
    match r.trySuspend with
    | .ok (p, r') => (.parking p, r')
    | .error e => (.refused e, r)
  | .wake => let (w, r') := r.wake; (.waking w, r')
  | .wakeKeepalive => let (w, r') := r.wakeKeepalive; (.waking w, r')
  | .wakeAsync => let (w, r') := r.wakeAsync; (.waking w, r')
  | .takeWake => let (b, r') := r.takeWake; (.flag b, r')
  | .completeAsync => let (b, r') := r.completeAsync; (.flag b, r')
  | .destroy => let (p, r') := r.destroyed; (.previous p, r')

/-- One step of a history: the state met, the operation, its answer and the
state left. -/
structure Move where
  before : Request
  operation : Operation
  answer : Answer
  after : Request
  deriving DecidableEq, Repr

/-- The history of a sequence of operations, from a given state. -/
def history (r : Request) : List Operation → List Move
  | [] => []
  | op :: ops =>
    let (answer, r') := r.perform op
    { before := r, operation := op, answer := answer, after := r' } :: r'.history ops

end Request

end LinkEngine.Connection

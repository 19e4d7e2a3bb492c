/-!
# The lifecycle of a connection

A connection is accepted, answers requests, rests between them, may be
suspended or turned into a two-way stream, and is closed and destroyed. The
states and the events that move a connection between them are given here with
the table of allowed moves, `State.next?`, and the machine that walks the
table and counts the requests it started.

Closing is allowed in every state (`next?_close`).
-/

namespace LinkEngine.Connection

/-- Where a connection stands in its life. -/
inductive State where
  | init
  | accepting
  | active
  | keepalive
  | cometActive
  | cometSuspend
  | duplex
  | duplexActive
  | closed
  | destroyed
  deriving DecidableEq, Repr, Inhabited

/-- What can happen to a connection. -/
inductive Event where
  | accept
  | dispatch
  | keepalive
  | suspend
  | wake
  | upgrade
  | close
  | destroy
  deriving DecidableEq, Repr

namespace State

/-- Every state, in the order of their codes. -/
def all : List State :=
  [.init, .accepting, .active, .keepalive, .cometActive, .cometSuspend,
    .duplex, .duplexActive, .closed, .destroyed]

/-- The code a state is published under. -/
def code : State → UInt8
  | .init => 0
  | .accepting => 1
  | .active => 2
  | .keepalive => 3
  | .cometActive => 4
  | .cometSuspend => 5
  | .duplex => 6
  | .duplexActive => 7
  | .closed => 8
  | .destroyed => 9

/-- The state published under a code. A code beyond the last one reads as
destroyed, the state that refuses everything. -/
def ofCode (c : UInt8) : State :=
  all[c.toNat]?.getD .destroyed

theorem ofCode_code (s : State) : ofCode s.code = s := by
  cases s <;> rfl

/-- The name shown to people. -/
def name : State → String
  | .init => "init"
  | .accepting => "accepting"
  | .active => "active"
  | .keepalive => "keepalive"
  | .cometActive => "comet-active"
  | .cometSuspend => "comet-suspend"
  | .duplex => "duplex"
  | .duplexActive => "duplex-active"
  | .closed => "closed"
  | .destroyed => "destroyed"

/-- The connection is over. -/
def isClosed : State → Bool
  | .closed | .destroyed => true
  | _ => false

/-- A handler is, or is about to be, running. -/
def isActive : State → Bool
  | .accepting | .active | .cometActive | .duplexActive => true
  | _ => false

/-- The connection is in a suspended request or resuming one. -/
def isComet : State → Bool
  | .cometActive | .cometSuspend => true
  | _ => false

/-- The connection carries a two-way stream. -/
def isDuplex : State → Bool
  | .duplex | .duplexActive => true
  | _ => false

/-- The connection waits for something to happen. -/
def isIdle : State → Bool
  | .keepalive | .cometSuspend | .duplex => true
  | _ => false

/-- The table of allowed moves; `none` refuses the event. -/
def next? : State → Event → Option State
  | .destroyed, .close | .destroyed, .destroy => some .destroyed
  | .closed, .destroy => some .destroyed
  | .destroyed, _ => none
  | _, .close => some .closed
  | .init, .accept => some .accepting
  | .accepting, .dispatch => some .active
  | .active, .keepalive => some .keepalive
  | .active, .suspend => some .cometSuspend
  | .active, .upgrade => some .duplex
  | .keepalive, .dispatch => some .active
  | .cometActive, .dispatch => some .active
  | .cometActive, .keepalive => some .keepalive
  | .cometActive, .suspend => some .cometSuspend
  | .cometSuspend, .wake => some .cometActive
  | .duplex, .dispatch => some .duplexActive
  | .duplexActive, .keepalive => some .duplex
  | _, _ => none

/-- Closing is allowed everywhere, and ends in a closed state. -/
theorem next?_close (s : State) : ∃ t, s.next? .close = some t ∧ t.isClosed := by
  cases s <;> simp [next?, isClosed]

end State

namespace Event

/-- Every event, in the order of the table's columns. -/
def all : List Event :=
  [.accept, .dispatch, .keepalive, .suspend, .wake, .upgrade, .close, .destroy]

/-- The name shown to people. -/
def name : Event → String
  | .accept => "Accept"
  | .dispatch => "Dispatch"
  | .keepalive => "Keepalive"
  | .suspend => "Suspend"
  | .wake => "Wake"
  | .upgrade => "Upgrade"
  | .close => "Close"
  | .destroy => "Destroy"

end Event

/-- An event refused by the state it met. -/
structure Refusal where
  state : State
  event : Event
  deriving DecidableEq, Repr

/-- The sentence that reports a refused event. -/
def Refusal.message (r : Refusal) : String :=
  r.event.name ++ " is not valid in state " ++ r.state.name

end LinkEngine.Connection

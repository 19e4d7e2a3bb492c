import LinkEngine.Connection.CloseReason
import LinkEngine.Multiplexer.Script
import LinkEngine.Shutdown.Signal
import LinkEngine.Socket.Endpoint
import LinkEngine.Stream.Transfer
import LinkEngine.Time.Duration

/-!
# What handlers and others do, written down

The engine runs code it does not know: the handlers of connections, and whoever
wakes a connection, closes it or shuts the process down. Here that code is a
script. An `Operation` is anything that can be done to the engine from anywhere;
an `Action` is one thing a handler does while it is called; a `Handler` holds
the actions of each of its hooks, call by call. Whatever a handler decides from
what it reads, its behaviour in one run is such a script.
-/

namespace LinkEngine

open Connection (CloseReason)
open Text (Bytes)

/-- What can be done to the engine from anywhere. Where a connection is not
named, the one in whose context the operation stands is meant. -/
inductive Operation where
  /-- Wakes a suspended request through a handle. -/
  | wake (handle : String)
  /-- Asks a handle whether its request is the current one. -/
  | isCurrent (handle : String)
  /-- Tells a resting connection that input arrived. -/
  | notify (link : Option Nat)
  /-- Ends a connection after its present request. -/
  | killKeepalive (link : Option Nat)
  /-- Closes a connection; for a shutdown, where no reason is given. -/
  | close (link : Option Nat) (reason : Option CloseReason)
  /-- Input arrives at a socket. -/
  | feed (link : Option Nat) (bytes : Bytes)
  /-- The peer closes its side. -/
  | hangUp (link : Option Nat)
  /-- Coming calls on a socket fail. -/
  | spoil (link : Option Nat) (call : Socket.Call) (kinds : List (Option IoKind))
  /-- Shuts a listener down. -/
  | shutdown (listener : Nat)
  /-- Triggers the shutdown signal. -/
  | trigger (reason : Shutdown.Reason)
  /-- The pool takes, or does not take, tasks of connections. -/
  | refuse (on : Bool)
  /-- Shuts the scheduler down. -/
  | stopScheduler
  /-- Adds to the script of a listener's multiplexer. -/
  | script (listener : Nat) (more : List Multiplexer.Registration)
  /-- Time passes, and the timers that come due are handed to their pool. -/
  | elapse (millis : Nat)
  /-- The callbacks in the timers' pool run. -/
  | runTimers
  deriving DecidableEq, Repr

/-- One thing a handler does. -/
inductive Action.Kind where
  /-- A call on the stream. -/
  | transfer (t : Stream.Transfer)
  /-- Waits for input. -/
  | wait
  | operate (op : Operation)
  /-- Reads a line and writes it back; at the end of the input it returns, and
  the connection is not kept. -/
  | echoLine
  /-- Begins a suspended request and keeps its handle under a name. -/
  | comet (handle : Option String) (timeout : Option Time.Duration)
  /-- Begins a two-way stream. -/
  | duplex
  /-- Ends the two-way stream. -/
  | duplexClose
  | duplexInfo
  /-- Does not keep the connection after this request. -/
  | kill
  /-- Asks whether the connection is closing. -/
  | closing
  /-- Closes its own connection. -/
  | closeSelf (reason : Option CloseReason)
  /-- Looks at its own connection. -/
  | view
  | addresses
  | counts
  | pendingTimers
  | fail (f : Failure)
  | panic
  /-- Returns, and says whether the connection is kept. -/
  | return (keep : Bool)
  deriving DecidableEq, Repr

/-- One thing a handler does, under the name it is noted by. -/
structure Action where
  label : String
  kind : Action.Kind
  /-- A failure of it does not end the hook. -/
  lenient : Bool := false
  deriving DecidableEq, Repr

/-- An operation under the name it is noted by. -/
structure NamedOperation where
  label : String
  operation : Operation
  deriving DecidableEq, Repr

/-- The hooks of a handler. -/
inductive Hook where
  | start
  | request
  | resume
  | suspendTimeout
  | service
  | close
  deriving DecidableEq, Repr

/-- What a handler does in each of its hooks. -/
structure Handler where
  start : List Action := []
  /-- The calls of the request hook; the last list serves all further calls. -/
  requests : List (List Action) := []
  resumes : List (List Action) := []
  services : List (List Action) := []
  suspendTimeout : List Action := []
  close : List NamedOperation := []
  panicsOnClose : Bool := false
  /-- Only the request hook is its own; the others do what they do by default. -/
  minimal : Bool := false
  deriving DecidableEq, Repr, Inhabited

namespace Handler

/-- The actions of the `n`-th call, counted from zero. -/
def call (lists : List (List Action)) (n : Nat) : List Action :=
  match lists[n]? with
  | some actions => actions
  | none => lists.getLastD []

/-- The actions of the `n`-th call of a hook. -/
def actions (h : Handler) (hook : Hook) (n : Nat) : List Action :=
  match hook with
  | .start => h.start
  | .request => call h.requests n
  | .resume => call h.resumes n
  | .suspendTimeout => h.suspendTimeout
  | .service => call h.services n
  | .close => []

end Handler

end LinkEngine

import LinkEngine.Connection.Machine
import LinkEngine.Connection.Request
import LinkEngine.Link.Script
import LinkEngine.Stream.Basic

/-!
# Links

A link is one connection with everything that drives it: its place in the
lifecycle, who owns it, its stream, its handler, and the step its driving task
takes next. What happened on it is written into its history, hook by hook.
-/

namespace LinkEngine

open Connection (CloseReason)

namespace Link

/-- What a handler may ask a connection to become. -/
inductive Upgrade where
  | comet
  | duplex
  deriving DecidableEq, Repr

/-- The word for an upgrade. -/
def Upgrade.name : Upgrade → String
  | .comet => "comet"
  | .duplex => "duplex"

/-- The upgrades a hook may ask for. -/
inductive Upgrades where
  | none
  | comet
  | any
  deriving DecidableEq, Repr

/-- The hook may ask for this upgrade. -/
def Upgrades.allow : Upgrades → Upgrade → Bool
  | .none, _ => false
  | .comet, u => u = .comet
  | .any, _ => true

/-- A suspended request: its number on its connection and the deadline it was
given, if any. -/
structure Comet where
  generation : Nat
  timeout : Option Time.Duration
  deriving DecidableEq, Repr

/-- The upgrade a hook asked for. -/
inductive Pending where
  | none
  | comet (c : Comet)
  | duplex
  deriving DecidableEq, Repr

/-- The state of a two-way stream. -/
structure Duplex where
  /-- How often the handler was called for it. -/
  reads : Nat := 0
  /-- How many bytes it consumed. -/
  bytesRead : Nat := 0
  /-- The handler ended it. -/
  closed : Bool := false
  deriving DecidableEq, Repr

/-- Where a task begins to drive a link. -/
inductive Entry where
  | accept
  | resume
  deriving DecidableEq, Repr

/-- What a driving task does next. -/
inductive Step where
  /-- Start a new connection. -/
  | accept
  /-- Take up a parked connection. -/
  | resumeParked
  /-- Call the handler for a request. -/
  | dispatch
  /-- Decide what comes after a request. -/
  | after (keep : Bool)
  /-- Rest, or close if the connection is not kept. -/
  | rest (killed : Bool)
  /-- Wait for the next request. -/
  | await
  /-- Wait for it without giving the task away. -/
  | block
  /-- Suspend the request. -/
  | suspend
  /-- Take the request up again. -/
  | resume (timedOut : Bool)
  /-- Become a two-way stream. -/
  | upgrade
  /-- Wait for its next bytes until this time. -/
  | listen (deadline : Nat)
  /-- Call the handler for its bytes. -/
  | service
  deriving DecidableEq, Repr

/-- What came of a step. -/
inductive Outcome where
  | next (step : Step)
  /-- Nobody drives the connection until something wakes it. -/
  | park
  | close (reason : CloseReason)
  | fail (f : Failure)
  /-- The lifecycle or the ownership state refused a move of the task's own. -/
  | refused (f : Failure)
  | panic
  deriving DecidableEq, Repr

/-- What a handler sees of its own connection. -/
structure View where
  state : Connection.State
  request : Connection.Request
  isClosed : Bool
  isResting : Bool
  closeReason : Option CloseReason
  deriving DecidableEq, Repr

/-- What is answered to an operation or an action. -/
inductive Answer where
  | nothing
  | done
  | flag (b : Bool)
  | count (n : Nat)
  | failed (f : Failure)
  | moved (m : Stream.Moved)
  | view (v : View)
  | addresses (here there : Option String) (tls : Option Socket.TlsInfo)
  | counts (read written buffered : Nat)
  | duplex (d : Duplex)
  deriving DecidableEq, Repr

/-- How a hook ended. -/
inductive Ending where
  /-- It returned; where that matters, with the wish to keep the connection. -/
  | returned (keep : Bool)
  | failed (f : Failure)
  | panicked
  deriving DecidableEq, Repr

/-- An entry of a link's history. -/
inductive Note where
  | began (hook : Hook)
  | closing (reason : CloseReason)
  | did (label : String) (answer : Answer)
  | ended (hook : Hook) (ending : Ending)
  /-- A hook began the suspended request of this number. -/
  | cycle (generation : Nat)
  /-- A wake through a handle of this number counted. -/
  | woke (generation : Nat)
  /-- What the hooks wrote could not be flushed. -/
  | unflushed (kind : IoKind)
  /-- The deadline of a wait could not be set. -/
  | unarmed (f : Failure)
  deriving DecidableEq, Repr

end Link

open Link in
/-- One connection with everything that drives it. -/
structure Link where
  /-- The listener it belongs to. -/
  listener : Nat
  machine : Connection.Machine := {}
  request : Connection.Request := .init
  handler : Handler
  stream : Stream Operation
  /-- The connection is not kept after its present request. -/
  killKeepalive : Bool := false
  /-- Somebody asked for it to be closed. -/
  closing : Bool := false
  /-- The reason of the first who asked. -/
  closeRequest : Option CloseReason := none
  /-- Its teardown has begun. -/
  closed : Bool := false
  closeReason : Option CloseReason := none
  /-- The number of the present wait. -/
  waitGeneration : Nat := 0
  /-- The number of the last wait whose deadline took the link over. -/
  expiredGeneration : Option Nat := none
  /-- The number of the last suspended request. -/
  cometGeneration : Nat := 0
  /-- What the hook of this request asked for. -/
  pending : Pending := .none
  /-- The suspended request. -/
  comet : Option Comet := none
  /-- The state of the two-way stream, once it is one. -/
  duplex : Option Duplex := none
  /-- The timer of the present wait. -/
  deadline : Option Nat := none
  /-- How long the connection may rest. -/
  restUntil : Nat := 0
  /-- It counts among the live connections of its listener. -/
  counted : Bool := true
  /-- The next step of the task that drives it, if one does. -/
  step : Option Step := none
  /-- Somebody outside the engine still refers to it. -/
  held : Bool := true
  history : List Note := []

namespace Link

/-- A task drives the link. -/
def isDriven (k : Link) : Bool := k.step.isSome

/-- The reason that was asked for, or a shutdown. -/
def requestedClose (k : Link) : CloseReason := k.closeRequest.getD .shutdown

/-- The deadline of the present wait took the link over. -/
def isTimedOut (k : Link) : Bool := k.expiredGeneration == some k.waitGeneration

/-- What its handler sees of it. -/
def look (k : Link) : View :=
  { state := k.machine.state
    request := k.request
    isClosed := k.closed
    isResting := k.request = .keepalive
    closeReason := k.closeReason }

/-- Writes into the history. -/
def note (k : Link) (n : Note) : Link := { k with history := k.history ++ [n] }

/-- How often a hook was called. -/
def callsOf (k : Link) (hook : Hook) : Nat := k.history.countP (· == .began hook)

/-- Asks for it to be closed, for a reason unless somebody asked before. -/
def ask (k : Link) (reason : CloseReason) : Link :=
  { k with
    closeRequest := some (k.closeRequest.getD reason)
    killKeepalive := true
    closing := true }

/-- Works on the socket. -/
def withSocket (k : Link) (f : Socket.Endpoint Operation → Socket.Endpoint Operation) : Link :=
  { k with stream := k.stream.withSocket f }

/-- Interrupts a wait, if the socket allows that. -/
def interrupt (k : Link) : Link :=
  if k.stream.socket.interruptible then k.withSocket (·.interrupt) else k

/-- Applies an event to the lifecycle. -/
def transition (k : Link) (e : Connection.Event) : Except Failure Link :=
  match k.machine.apply e with
  | .ok m => .ok { k with machine := m }
  | .error r => .error (.transition r)

end Link

end LinkEngine

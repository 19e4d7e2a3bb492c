import LinkEngine.Connection.State
import LinkEngine.Connection.Request
import LinkEngine.Connection.CloseReason

/-!
# What can go wrong

`IoKind` names the ways in which input or output fails, and `Failure` gathers
every cause the engine reports. A failure has one wording, `Failure.message`,
and decides the reason for which a connection closes because of it,
`Failure.closeReason`.
-/

namespace LinkEngine

open Connection (CloseReason)

/-- The ways in which input or output fails. -/
inductive IoKind where
  | notFound
  | permissionDenied
  | connectionRefused
  | connectionReset
  | connectionAborted
  | notConnected
  | addrInUse
  | brokenPipe
  | alreadyExists
  | wouldBlock
  | invalidInput
  | invalidData
  | timedOut
  | writeZero
  | interrupted
  | unsupported
  | unexpectedEof
  | outOfMemory
  | other
  deriving DecidableEq, Repr, Inhabited

namespace IoKind

/-- Every kind, in a fixed order. -/
def all : List IoKind :=
  [.notFound, .permissionDenied, .connectionRefused, .connectionReset,
    .connectionAborted, .notConnected, .addrInUse, .brokenPipe, .alreadyExists,
    .wouldBlock, .invalidInput, .invalidData, .timedOut, .writeZero,
    .interrupted, .unsupported, .unexpectedEof, .outOfMemory, .other]

/-- The phrase that describes a failure nothing more is known of. -/
def phrase : IoKind → String
  | .notFound => "entity not found"
  | .permissionDenied => "permission denied"
  | .connectionRefused => "connection refused"
  | .connectionReset => "connection reset"
  | .connectionAborted => "connection aborted"
  | .notConnected => "not connected"
  | .addrInUse => "address in use"
  | .brokenPipe => "broken pipe"
  | .alreadyExists => "entity already exists"
  | .wouldBlock => "operation would block"
  | .invalidInput => "invalid input parameter"
  | .invalidData => "invalid data"
  | .timedOut => "timed out"
  | .writeZero => "write zero"
  | .interrupted => "operation interrupted"
  | .unsupported => "unsupported"
  | .unexpectedEof => "unexpected end of file"
  | .outOfMemory => "out of memory"
  | .other => "other error"

/-- The word a kind is reported under. -/
def label : IoKind → String
  | .notFound => "NotFound"
  | .permissionDenied => "PermissionDenied"
  | .connectionRefused => "ConnectionRefused"
  | .connectionReset => "ConnectionReset"
  | .connectionAborted => "ConnectionAborted"
  | .notConnected => "NotConnected"
  | .addrInUse => "AddrInUse"
  | .brokenPipe => "BrokenPipe"
  | .alreadyExists => "AlreadyExists"
  | .wouldBlock => "WouldBlock"
  | .invalidInput => "InvalidInput"
  | .invalidData => "InvalidData"
  | .timedOut => "TimedOut"
  | .writeZero => "WriteZero"
  | .interrupted => "Interrupted"
  | .unsupported => "Unsupported"
  | .unexpectedEof => "UnexpectedEof"
  | .outOfMemory => "OutOfMemory"
  | .other => "Other"

/-- The peer closed or reset the connection. -/
def isDisconnect : IoKind → Bool
  | .connectionReset | .connectionAborted | .brokenPipe | .unexpectedEof
  | .notConnected => true
  | _ => false

/-- A deadline for reading or writing expired. -/
def isTimeout : IoKind → Bool
  | .timedOut | .wouldBlock => true
  | _ => false

end IoKind

/-- Every cause the engine reports. -/
inductive Failure where
  /-- Input or output failed; `text` is the wording, where there is one. -/
  | io (kind : IoKind) (text : Option String)
  | transition (refusal : Connection.Refusal)
  | request (refusal : Connection.Request.Refusal)
  | protocolViolation (text : String)
  | handler (text : String)
  | handlerPanic (text : String)
  | outOfMemory (text : String)
  | poolRejected (text : String)
  | schedulerShutdown
  /-- The timer with this number is queued in another scheduler. -/
  | timerBusy (timer : Nat)
  | shuttingDown
  | connectionLimit (limit : Nat)
  | config (text : String)
  deriving DecidableEq, Repr

namespace Failure

/-- A failure of input or output of which only the kind is known. -/
abbrev ofKind (kind : IoKind) : Failure := .io kind none

/-- The word a failure is reported under. -/
def label : Failure → String
  | .io .. => "Io"
  | .transition _ => "InvalidTransition"
  | .request _ => "InvalidRequestState"
  | .protocolViolation _ => "ProtocolViolation"
  | .handler _ => "Handler"
  | .handlerPanic _ => "HandlerPanic"
  | .outOfMemory _ => "OutOfMemory"
  | .poolRejected _ => "PoolRejected"
  | .schedulerShutdown => "SchedulerShutdown"
  | .timerBusy _ => "TimerBusy"
  | .shuttingDown => "ShuttingDown"
  | .connectionLimit _ => "ConnectionLimit"
  | .config _ => "Config"

/-- The one wording of a failure. -/
def message : Failure → String
  | .io kind text => "IO error: " ++ text.getD kind.phrase
  | .transition r => "Invalid connection transition: " ++ r.message
  | .request r =>
    "Invalid request-state transition from " ++ r.state.name ++ " to " ++ r.target.name
  | .protocolViolation text => "Protocol violation: " ++ text
  | .handler text => "Handler error: " ++ text
  | .handlerPanic text => "Handler panicked: " ++ text
  | .outOfMemory text => "Out of memory: " ++ text
  | .poolRejected text => "Worker pool rejected task: " ++ text
  | .schedulerShutdown => "Scheduler is shut down"
  | .timerBusy timer => "Timer " ++ toString timer ++ " is queued in another scheduler"
  | .shuttingDown => "Listener is shutting down"
  | .connectionLimit limit => "Connection limit reached: " ++ toString limit
  | .config text => "Configuration error: " ++ text

/-- The peer simply went away. -/
def isClientDisconnect : Failure → Bool
  | .io kind _ => kind.isDisconnect
  | _ => false

/-- A deadline for reading or writing expired. -/
def isTimeout : Failure → Bool
  | .io kind _ => kind.isTimeout
  | _ => false

/-- Memory ran out. -/
def isOutOfMemory : Failure → Bool
  | .outOfMemory _ => true
  | .io kind _ => kind = .outOfMemory
  | _ => false

/-- The reason for which a connection closes because of this failure. Lack of
memory comes first, then a peer that went away, then a deadline. -/
def closeReason (f : Failure) : CloseReason :=
  if f.isOutOfMemory then .outOfMemory
  else if f.isClientDisconnect then .clientDisconnect
  else if f.isTimeout then .timeout
  else
    match f with
    | .protocolViolation _ => .protocolViolation
    | .handler _ | .handlerPanic _ => .handlerError
    | .transition _ | .request _ | .timerBusy _ => .invalidState
    | .shuttingDown | .schedulerShutdown | .poolRejected _ => .shutdown
    | .io _ _ | .outOfMemory _ | .connectionLimit _ | .config _ => .ioError

/-- Exactly the failures for lack of memory close a connection for that
reason. -/
theorem closeReason_eq_outOfMemory {f : Failure} :
    f.closeReason = .outOfMemory ↔ f.isOutOfMemory = true := by
  unfold closeReason
  split
  · simp_all
  · split
    · simp_all
    · split
      · simp_all
      · cases f <;> simp_all

end Failure

end LinkEngine

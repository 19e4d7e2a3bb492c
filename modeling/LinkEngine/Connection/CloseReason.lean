/-!
# Why a connection closes

Every connection that ends has exactly one reason. Some are an ordinary end,
the others a fault worth a warning (`CloseReason.isExpected`).
-/

namespace LinkEngine.Connection

/-- Why a connection closed. -/
inductive CloseReason where
  /-- The handler, or the rule against keeping it alive, ended it. -/
  | normal
  /-- The peer closed its side between requests. -/
  | peerClosed
  /-- No new request within the keepalive time. -/
  | keepaliveTimeout
  /-- A suspended request met its deadline. -/
  | suspendTimeout
  /-- A read deadline, or the idle time of a two-way stream, passed. -/
  | timeout
  /-- The peer reset or aborted within a request. -/
  | clientDisconnect
  /-- The peer or the handler broke the rules of the protocol. -/
  | protocolViolation
  /-- The handler failed or panicked. -/
  | handlerError
  /-- A move of the lifecycle was refused. -/
  | invalidState
  /-- Any other failure of input or output. -/
  | ioError
  /-- The listener or the process shuts down. -/
  | shutdown
  /-- Memory ran out. -/
  | outOfMemory
  deriving DecidableEq, Repr, Inhabited

namespace CloseReason

/-- Every reason, in a fixed order. -/
def all : List CloseReason :=
  [.normal, .peerClosed, .keepaliveTimeout, .suspendTimeout, .timeout,
    .clientDisconnect, .protocolViolation, .handlerError, .invalidState,
    .ioError, .shutdown, .outOfMemory]

/-- The name shown to people. -/
def name : CloseReason → String
  | .normal => "normal"
  | .peerClosed => "peer_closed"
  | .keepaliveTimeout => "keepalive_timeout"
  | .suspendTimeout => "suspend_timeout"
  | .timeout => "timeout"
  | .clientDisconnect => "client_disconnect"
  | .protocolViolation => "protocol_violation"
  | .handlerError => "handler_error"
  | .invalidState => "invalid_state"
  | .ioError => "io_error"
  | .shutdown => "shutdown"
  | .outOfMemory => "out_of_memory"

/-- An ordinary end of a connection, as opposed to a fault. -/
def isExpected : CloseReason → Bool
  | .normal | .peerClosed | .keepaliveTimeout | .clientDisconnect | .shutdown => true
  | _ => false

end CloseReason

end LinkEngine.Connection

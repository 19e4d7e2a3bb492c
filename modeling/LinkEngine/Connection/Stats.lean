import LinkEngine.Connection.CloseReason

/-!
# Connection counters

What happened on a listener, in twenty-one counters of 64 bits that wrap
around. A counter is named by a `Counter`; `Stats.get` reads one and `Stats.add`
moves one, and that is all there is to know about them (`get_add`).
-/

namespace LinkEngine.Connection

/-- The counters kept for a listener. -/
inductive Counter where
  | accepted
  | rejected
  | requests
  | keepalives
  | suspends
  | wakes
  | duplexUpgrades
  | bytesRead
  | bytesWritten
  | closed
  | peerClosed
  | keepaliveTimeouts
  | suspendTimeouts
  | timeouts
  | clientDisconnects
  | protocolViolations
  | handlerErrors
  | invalidTransitions
  | ioErrors
  | shutdowns
  | outOfMemory
  deriving DecidableEq, Repr

namespace Counter

/-- Every counter, in a fixed order. -/
def all : List Counter :=
  [.accepted, .rejected, .requests, .keepalives, .suspends, .wakes,
    .duplexUpgrades, .bytesRead, .bytesWritten, .closed, .peerClosed,
    .keepaliveTimeouts, .suspendTimeouts, .timeouts, .clientDisconnects,
    .protocolViolations, .handlerErrors, .invalidTransitions, .ioErrors,
    .shutdowns, .outOfMemory]

/-- The name a counter is reported under. -/
def name : Counter → String
  | .accepted => "accepted"
  | .rejected => "rejected"
  | .requests => "requests"
  | .keepalives => "keepalives"
  | .suspends => "suspends"
  | .wakes => "wakes"
  | .duplexUpgrades => "duplex_upgrades"
  | .bytesRead => "bytes_read"
  | .bytesWritten => "bytes_written"
  | .closed => "closed"
  | .peerClosed => "peer_closed"
  | .keepaliveTimeouts => "keepalive_timeouts"
  | .suspendTimeouts => "suspend_timeouts"
  | .timeouts => "timeouts"
  | .clientDisconnects => "client_disconnects"
  | .protocolViolations => "protocol_violations"
  | .handlerErrors => "handler_errors"
  | .invalidTransitions => "invalid_transitions"
  | .ioErrors => "io_errors"
  | .shutdowns => "shutdowns"
  | .outOfMemory => "out_of_memory"

/-- The counter that belongs to a close reason. An ordinary end has none. -/
def ofReason? : CloseReason → Option Counter
  | .normal => none
  | .peerClosed => some .peerClosed
  | .keepaliveTimeout => some .keepaliveTimeouts
  | .suspendTimeout => some .suspendTimeouts
  | .timeout => some .timeouts
  | .clientDisconnect => some .clientDisconnects
  | .protocolViolation => some .protocolViolations
  | .handlerError => some .handlerErrors
  | .invalidState => some .invalidTransitions
  | .ioError => some .ioErrors
  | .shutdown => some .shutdowns
  | .outOfMemory => some .outOfMemory

end Counter

/-- The counters of a listener. -/
structure Stats where
  accepted : UInt64 := 0
  rejected : UInt64 := 0
  requests : UInt64 := 0
  keepalives : UInt64 := 0
  suspends : UInt64 := 0
  wakes : UInt64 := 0
  duplexUpgrades : UInt64 := 0
  bytesRead : UInt64 := 0
  bytesWritten : UInt64 := 0
  closed : UInt64 := 0
  peerClosed : UInt64 := 0
  keepaliveTimeouts : UInt64 := 0
  suspendTimeouts : UInt64 := 0
  timeouts : UInt64 := 0
  clientDisconnects : UInt64 := 0
  protocolViolations : UInt64 := 0
  handlerErrors : UInt64 := 0
  invalidTransitions : UInt64 := 0
  ioErrors : UInt64 := 0
  shutdowns : UInt64 := 0
  outOfMemory : UInt64 := 0
  deriving DecidableEq, Repr, Inhabited

namespace Stats

/-- The value of one counter. -/
def get (s : Stats) : Counter → UInt64
  | .accepted => s.accepted
  | .rejected => s.rejected
  | .requests => s.requests
  | .keepalives => s.keepalives
  | .suspends => s.suspends
  | .wakes => s.wakes
  | .duplexUpgrades => s.duplexUpgrades
  | .bytesRead => s.bytesRead
  | .bytesWritten => s.bytesWritten
  | .closed => s.closed
  | .peerClosed => s.peerClosed
  | .keepaliveTimeouts => s.keepaliveTimeouts
  | .suspendTimeouts => s.suspendTimeouts
  | .timeouts => s.timeouts
  | .clientDisconnects => s.clientDisconnects
  | .protocolViolations => s.protocolViolations
  | .handlerErrors => s.handlerErrors
  | .invalidTransitions => s.invalidTransitions
  | .ioErrors => s.ioErrors
  | .shutdowns => s.shutdowns
  | .outOfMemory => s.outOfMemory

/-- Adds to one counter, around the end of its range. -/
def add (s : Stats) (c : Counter) (n : UInt64) : Stats :=
  match c with
  | .accepted => { s with accepted := s.accepted + n }
  | .rejected => { s with rejected := s.rejected + n }
  | .requests => { s with requests := s.requests + n }
  | .keepalives => { s with keepalives := s.keepalives + n }
  | .suspends => { s with suspends := s.suspends + n }
  | .wakes => { s with wakes := s.wakes + n }
  | .duplexUpgrades => { s with duplexUpgrades := s.duplexUpgrades + n }
  | .bytesRead => { s with bytesRead := s.bytesRead + n }
  | .bytesWritten => { s with bytesWritten := s.bytesWritten + n }
  | .closed => { s with closed := s.closed + n }
  | .peerClosed => { s with peerClosed := s.peerClosed + n }
  | .keepaliveTimeouts => { s with keepaliveTimeouts := s.keepaliveTimeouts + n }
  | .suspendTimeouts => { s with suspendTimeouts := s.suspendTimeouts + n }
  | .timeouts => { s with timeouts := s.timeouts + n }
  | .clientDisconnects => { s with clientDisconnects := s.clientDisconnects + n }
  | .protocolViolations => { s with protocolViolations := s.protocolViolations + n }
  | .handlerErrors => { s with handlerErrors := s.handlerErrors + n }
  | .invalidTransitions => { s with invalidTransitions := s.invalidTransitions + n }
  | .ioErrors => { s with ioErrors := s.ioErrors + n }
  | .shutdowns => { s with shutdowns := s.shutdowns + n }
  | .outOfMemory => { s with outOfMemory := s.outOfMemory + n }

/-- Adding moves the one counter and leaves the others. -/
theorem get_add (s : Stats) (c d : Counter) (n : UInt64) :
    (s.add c n).get d = if c = d then s.get d + n else s.get d := by
  cases c <;> cases d <;> rfl

/-- One more of what a counter counts. -/
def record (s : Stats) (c : Counter) : Stats := s.add c 1

/-- Bytes that a handler read and wrote. -/
def recordBytes (s : Stats) (read written : Nat) : Stats :=
  (s.add .bytesRead (UInt64.ofNat read)).add .bytesWritten (UInt64.ofNat written)

/-- One more closed connection, under its reason. -/
def recordClose (s : Stats) (reason : CloseReason) : Stats :=
  match Counter.ofReason? reason with
  | none => s.record .closed
  | some c => (s.record .closed).record c

/-- Connections accepted and not yet closed, never below zero. -/
def openCount (s : Stats) : UInt64 :=
  if s.closed ≤ s.accepted then s.accepted - s.closed else 0

end Stats

/-- Something that is counted, as one value. -/
inductive Recording where
  | one (c : Counter)
  | bytes (read written : Nat)
  | close (reason : CloseReason)
  deriving DecidableEq, Repr

/-- Counts one recording. -/
def Stats.apply (s : Stats) : Recording → Stats
  | .one c => s.record c
  | .bytes read written => s.recordBytes read written
  | .close reason => s.recordClose reason

end LinkEngine.Connection

import LinkEngine.Failure
import LinkEngine.Text.Utf8

/-!
# A socket that follows a script

An `Endpoint` is the engine's side of a connection whose behaviour is written
down beforehand: the bytes that will arrive, how many of them one read delivers,
how many bytes one write takes, which calls fail, what readiness the probes
claim, and what happens while the engine waits. Once a part of the script is
used up the endpoint behaves plainly: it delivers and takes all it can, and
tells its readiness truly. Every finite run of a socket that keeps the rules is
such a script.

What happens during a wait may be more than bytes arriving: an entry may hold
requests to the engine, of whatever type `ω` they are.
-/

namespace LinkEngine.Socket

open Text (Bytes)

/-- Whether a read would find something. -/
inductive Readiness where
  /-- There is input. -/
  | ready
  /-- Nothing yet. -/
  | pending
  /-- The peer closed its side. -/
  | closed
  deriving DecidableEq, Repr, Inhabited

/-- What is known of an encrypted connection. -/
structure TlsInfo where
  protocol : Option String := none
  cipher : Option String := none
  serverName : Option String := none
  deriving DecidableEq, Repr

/-- The calls a socket answers. -/
inductive Call where
  | read
  | write
  | flush
  | poll
  | wait
  | close
  | setReadTimeout
  deriving DecidableEq, Repr

/-- Every call, in a fixed order. -/
def Call.all : List Call := [.read, .write, .flush, .poll, .wait, .close, .setReadTimeout]

/-- The word a call is reported under. -/
def Call.name : Call → String
  | .read => "read"
  | .write => "write"
  | .flush => "flush"
  | .poll => "poll"
  | .wait => "wait"
  | .close => "close"
  | .setReadTimeout => "set_read_timeout"

/-- One value for each call. -/
structure PerCall (α : Type) where
  read : α
  write : α
  flush : α
  poll : α
  wait : α
  close : α
  setReadTimeout : α
  deriving DecidableEq, Repr

namespace PerCall

/-- The same value for each call. -/
def all {α : Type} (a : α) : PerCall α := ⟨a, a, a, a, a, a, a⟩

/-- The value for one call. -/
def get {α : Type} (p : PerCall α) : Call → α
  | .read => p.read
  | .write => p.write
  | .flush => p.flush
  | .poll => p.poll
  | .wait => p.wait
  | .close => p.close
  | .setReadTimeout => p.setReadTimeout

/-- Replaces the value for one call. -/
def set {α : Type} (p : PerCall α) (c : Call) (a : α) : PerCall α :=
  match c with
  | .read => { p with read := a }
  | .write => { p with write := a }
  | .flush => { p with flush := a }
  | .poll => { p with poll := a }
  | .wait => { p with wait := a }
  | .close => { p with close := a }
  | .setReadTimeout => { p with setReadTimeout := a }

@[simp] theorem get_set {α : Type} (p : PerCall α) (c d : Call) (a : α) :
    (p.set c a).get d = if c = d then a else p.get d := by
  cases c <;> cases d <;> rfl

end PerCall

/-- What happens while the engine waits. -/
inductive Interlude (ω : Type) where
  /-- Nothing. -/
  | pending
  /-- Input arrives. -/
  | feed (bytes : Bytes)
  /-- The peer closes its side. -/
  | eof
  /-- The wait fails. -/
  | fail (kind : IoKind)
  /-- Requests are made to the engine. -/
  | act (requests : List ω)
  deriving Repr

/-- A socket with its script. -/
structure Endpoint (ω : Type) where
  /-- Input that was not read. -/
  input : Bytes := []
  /-- Nothing comes after the input. -/
  eof : Bool := false
  /-- The most bytes one read delivers. -/
  chunk : Option Nat := none
  /-- The most bytes successive reads deliver. -/
  readLimits : List Nat := []
  /-- The most bytes successive writes take. -/
  writeLimits : List Nat := []
  /-- What successive calls fail with, if they do. -/
  failures : PerCall (List (Option IoKind)) := .all []
  /-- What successive probes claim. -/
  claims : List Readiness := []
  /-- What happens in successive waits. -/
  interludes : List (Interlude ω) := []
  /-- A wait in which nothing happens any more takes a moment, and does not find
  the connection closed. -/
  idlePending : Bool := false
  localAddress : Option String := none
  remoteAddress : Option String := none
  tls : Option TlsInfo := none
  /-- A wait can be interrupted from outside. -/
  interruptible : Bool := true
  /-- It has a descriptor that can be watched. -/
  hasDescriptor : Bool := false
  /-- The read timeout that was set, in milliseconds. -/
  readTimeout : Option Nat := none
  interrupts : Nat := 0
  /-- What was taken by writes. -/
  sent : Bytes := []
  /-- How often each call was made. -/
  calls : PerCall Nat := .all 0
  deriving Repr

namespace Endpoint

variable {ω : Type}

/-- Counts a call and takes the failure the script has for it. -/
def enter (e : Endpoint ω) (c : Call) : Option IoKind × Endpoint ω :=
  let e := { e with calls := e.calls.set c (e.calls.get c + 1) }
  match e.failures.get c with
  | [] => (none, e)
  | f :: rest => (f, { e with failures := e.failures.set c rest })

/-- The most bytes the next read delivers. -/
def readLimit (e : Endpoint ω) : Option Nat :=
  match e.readLimits with
  | n :: _ => some n
  | [] => e.chunk

/-- Reads up to `space` bytes. Where nothing is left, that is the end of the
input or a timeout. -/
def read (e : Endpoint ω) (space : Nat) : Except IoKind Bytes × Endpoint ω :=
  match e.enter .read with
  | (some kind, e) => (.error kind, e)
  | (none, e) =>
    if e.input.isEmpty then (if e.eof then .ok [] else .error .timedOut, e)
    else
      let n := min space (e.readLimit.getD space)
      (.ok (e.input.take n),
        { e with input := e.input.drop n, readLimits := e.readLimits.tail })

/-- Writes some of the bytes, and answers how many. -/
def write (e : Endpoint ω) (bytes : Bytes) : Except IoKind Nat × Endpoint ω :=
  match e.enter .write with
  | (some kind, e) => (.error kind, e)
  | (none, e) =>
    let n := min bytes.length (e.writeLimits.headD bytes.length)
    (.ok n,
      { e with sent := e.sent ++ bytes.take n, writeLimits := e.writeLimits.tail })

/-- A call that does nothing but perhaps fail. -/
def perform (e : Endpoint ω) (c : Call) : Except IoKind Unit × Endpoint ω :=
  match e.enter c with
  | (some kind, e) => (.error kind, e)
  | (none, e) => (.ok (), e)

/-- Hands on everything that was written. -/
def flush (e : Endpoint ω) : Except IoKind Unit × Endpoint ω := e.perform .flush

/-- Closes the connection. -/
def close (e : Endpoint ω) : Except IoKind Unit × Endpoint ω := e.perform .close

/-- Sets how long a read may block. -/
def setReadTimeout (e : Endpoint ω) (millis : Nat) : Except IoKind Unit × Endpoint ω :=
  match e.perform .setReadTimeout with
  | (.ok (), e) => (.ok (), { e with readTimeout := some millis })
  | (.error kind, e) => (.error kind, e)

/-- What a read would find. -/
def readiness (e : Endpoint ω) : Readiness :=
  if !e.input.isEmpty then .ready else if e.eof then .closed else .pending

/-- What a probe claims. -/
def claim (e : Endpoint ω) : Readiness × Endpoint ω :=
  match e.claims with
  | r :: rest => (r, { e with claims := rest })
  | [] => (e.readiness, e)

/-- Asks what a read would find. -/
def poll (e : Endpoint ω) : Except IoKind Readiness × Endpoint ω :=
  match e.enter .poll with
  | (some kind, e) => (.error kind, e)
  | (none, e) => let (r, e) := e.claim; (.ok r, e)

/-- More input arrives. -/
def feed (e : Endpoint ω) (bytes : Bytes) : Endpoint ω := { e with input := e.input ++ bytes }

/-- The peer closes its side. -/
def hangUp (e : Endpoint ω) : Endpoint ω := { e with eof := true }

/-- What came of a wait. -/
inductive Waiting (ω : Type) where
  /-- It is over, after so many milliseconds. -/
  | over (result : Except IoKind Readiness) (elapsed : Nat)
  /-- Requests are made meanwhile; then it is over, and the endpoint tells what
  a read would find. -/
  | meanwhile (requests : List ω)

/-- Waits until a read would find something. -/
def wait (e : Endpoint ω) : Waiting ω × Endpoint ω :=
  match e.enter .wait with
  | (some kind, e) => (.over (.error kind) 0, e)
  | (none, e) =>
    match e.claim with
    | (.ready, e) => (.over (.ok .ready) 0, e)
    | (.closed, e) => (.over (.ok .closed) 0, e)
    | (.pending, e) =>
      match e.interludes with
      | [] => if e.idlePending then (.over (.ok .pending) 1, e) else (.over (.ok .closed) 0, e)
      | i :: rest =>
        let e := { e with interludes := rest }
        match i with
        | .pending => (.over (.ok e.readiness) 0, e)
        | .feed bytes => let e := e.feed bytes; (.over (.ok e.readiness) 0, e)
        | .eof => let e := e.hangUp; (.over (.ok e.readiness) 0, e)
        | .fail kind => (.over (.error kind) 0, e)
        | .act requests => (.meanwhile requests, e)

/-- Makes coming calls fail. -/
def addFailures (e : Endpoint ω) (c : Call) (kinds : List (Option IoKind)) : Endpoint ω :=
  { e with failures := e.failures.set c (e.failures.get c ++ kinds) }

/-- Interrupts a wait. -/
def interrupt (e : Endpoint ω) : Endpoint ω := { e with interrupts := e.interrupts + 1 }

end Endpoint

end LinkEngine.Socket

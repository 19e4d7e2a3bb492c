import LinkEngine.Engine.Operating

/-!
# Calling a handler

A hook of a handler runs its actions in order. An action that fails ends the
hook with its failure, unless the handler tolerates that; a panic ends it at
once; an action may also return. What the hook read and wrote is counted when it
returns or fails, but not when it panics.
-/

namespace LinkEngine.Engine

open Link (Answer Ending Note Upgrade Upgrades)
open Socket (Readiness)

/-- Waits once for input on the stream of a link. Time may pass meanwhile, and
operations may be done. -/
def awaitReadable (l : Nat) (s : Engine) : Except IoKind Readiness × Engine :=
  match s.link? l with
  | none => (.ok .closed, s)
  | some k =>
    let (waiting, stream) := k.stream.wait
    let s := s.setLink l { k with stream }
    match waiting with
    | .over r elapsed => (r, { s with now := s.now + elapsed })
    | .meanwhile ops =>
      let s := performAll tearDown l ops s
      (.ok ((s.link? l).elim .closed fun k => k.stream.socket.readiness), s)

/-- What came of an action. -/
inductive Deed where
  | answered (a : Answer)
  | failed (f : Failure)
  | returned (a : Answer) (keep : Bool)
  | panicked

/-- What came of input or output. -/
def Deed.ofTransfer : Except IoKind Stream.Moved → Deed
  | .ok m => .answered (.moved m)
  | .error kind => .failed (.ofKind kind)

/-- Refuses an upgrade that the hook may not ask for, or that is not the first
it asks for. -/
def checkUpgrade (k : Link) (upgrades : Upgrades) (u : Upgrade) : Except Failure Unit :=
  if !upgrades.allow u then
    .error (.protocolViolation (u.name ++ " upgrade not allowed here"))
  else if k.pending ≠ .none then
    .error (.protocolViolation (u.name ++ " upgrade requested twice in one call"))
  else .ok ()

/-- Begins a suspended request, and answers its handle. Its number is written
into the history. -/
def startComet (l : Nat) (k : Link) (upgrades : Upgrades) (timeout : Option Time.Duration) :
    Except Failure (Handle × Link) :=
  match checkUpgrade k upgrades .comet with
  | .error f => .error f
  | .ok () =>
    match k.request.beginAsync with
    | .error r => .error (.request r)
    | .ok r =>
      let generation := k.cometGeneration + 1
      let k := { k with
        request := r
        cometGeneration := generation
        pending := .comet { generation, timeout } }
      .ok ({ link := l, generation }, k.note (.cycle generation))

/-- Begins a two-way stream. -/
def startDuplex (k : Link) (upgrades : Upgrades) : Except Failure Link :=
  match checkUpgrade k upgrades .duplex with
  | .error f => .error f
  | .ok () => .ok { k with pending := .duplex }

/-- Reads a line and writes it back. -/
def echoLine (stream : Stream Operation) : Deed × Stream Operation :=
  match stream.readLine with
  | (.error kind, stream) => (.failed (.ofKind kind), stream)
  | (.ok (0, _), stream) => (.returned .nothing false, stream)
  | (.ok (_, text), stream) =>
    let bytes := Text.encode text
    match stream.writeAll bytes with
    | (.error kind, stream) => (.failed (.ofKind kind), stream)
    | (.ok (), stream) => (.answered (.moved (.bytes bytes)), stream)

/-- One action of a handler on link `l`. -/
def act (l : Nat) (upgrades : Upgrades) (a : Action.Kind) (s : Engine) :
    Deed × Engine :=
  match s.link? l with
  | none => (.panicked, s)
  | some k =>
    match a with
    | .transfer t =>
      let (r, stream) := k.stream.transfer t
      (.ofTransfer r, s.setLink l { k with stream })
    | .wait => let (r, s) := awaitReadable l s; (.ofTransfer (r.map .readiness), s)
    | .operate op => let (answer, s) := perform l op s; (.answered answer, s)
    | .echoLine => let (deed, stream) := echoLine k.stream; (deed, s.setLink l { k with stream })
    | .comet name timeout =>
      match startComet l k upgrades timeout with
      | .error f => (.failed f, s)
      | .ok (h, k) =>
        let s := s.setLink l k
        (.answered .done, name.elim s fun n => { s with handles := (n, h) :: s.handles })
    | .duplex =>
      match startDuplex k upgrades with
      | .error f => (.failed f, s)
      | .ok k => (.answered .done, s.setLink l k)
    | .duplexClose =>
      match k.duplex with
      | some d =>
        (.answered (.flag true), s.setLink l { k with duplex := some { d with closed := true } })
      | none => (.answered .nothing, s)
    | .duplexInfo =>
      match k.duplex with
      | some d => (.answered (.duplex d), s)
      | none => (.answered .nothing, s)
    | .kill => (.answered .nothing, s.setLink l { k with killKeepalive := true })
    | .closing => (.answered (.flag (s.isClosing k)), s)
    | .closeSelf reason =>
      (.answered .nothing, closeWith tearDown l (reason.getD .shutdown) s)
    | .view => (.answered (.view k.look), s)
    | .addresses =>
      let socket := k.stream.socket
      (.answered (.addresses socket.localAddress socket.remoteAddress socket.tls), s)
    | .counts =>
      (.answered (.counts k.stream.bytesRead k.stream.bytesWritten k.stream.buffered), s)
    | .pendingTimers => (.answered (.count s.scheduler.pending), s)
    | .fail f => (.failed f, s)
    | .panic => (.panicked, s)
    | .return keep => (.returned (.flag keep) keep, s)

/-- The actions of a hook, one after the other. A hook that does not return
before its end wishes to keep the connection. -/
def actAll (l : Nat) (upgrades : Upgrades) :
    List Action → Engine → Ending × Engine
  | [], s => (.returned true, s)
  | a :: rest, s =>
    match act l upgrades a.kind s with
    | (.panicked, s) => (.panicked, s)
    | (.answered x, s) => actAll l upgrades rest (s.note l (.did a.label x))
    | (.returned x keep, s) => (.returned keep, s.note l (.did a.label x))
    | (.failed f, s) =>
      let s := s.note l (.did a.label (.failed f))
      if a.lenient then actAll l upgrades rest s else (.failed f, s)

/-- What a hook does where the handler has none of its own. -/
def defaultEnding : Hook → Ending
  | .start | .suspendTimeout | .close => .returned true
  | .request | .resume => .returned false
  | .service => .failed (.protocolViolation "handler does not support duplex mode")

/-- Runs a hook of a link. -/
def runHook (l : Nat) (k : Link) (hook : Hook) (upgrades : Upgrades) (s : Engine) :
    Ending × Engine :=
  if k.handler.minimal ∧ hook ≠ .request then (defaultEnding hook, s)
  else actAll l upgrades (k.handler.actions hook (k.callsOf hook)) s

/-- Calls a hook of a link: runs it, and counts the bytes it moved unless it
panicked. -/
def callHook (l : Nat) (hook : Hook) (upgrades : Upgrades) (s : Engine) : Ending × Engine :=
  match s.link? l with
  | none => (.panicked, s)
  | some k =>
    let (ending, s) := runHook l k hook upgrades (s.note l (.began hook))
    let s := s.note l (.ended hook ending)
    match ending, s.link? l with
    | .panicked, _ | _, none => (ending, s)
    | _, some after =>
      let read := after.stream.bytesRead - k.stream.bytesRead
      let written := after.stream.bytesWritten - k.stream.bytesWritten
      (ending, s.modifyListener k.listener fun x =>
        { x with stats := x.stats.recordBytes read written })

end LinkEngine.Engine

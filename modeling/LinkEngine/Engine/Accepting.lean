import LinkEngine.Engine.Driving
import LinkEngine.Settings.Fault

/-!
# Listeners and new links

A listener is built on an engine whose scheduler runs, and keeps house from then
on; if the process shuts down already, so does the listener at once. A new
connection is turned away while its listener shuts down or has as many
connections as it may have; otherwise it becomes a link, and a task is handed to
the pool to start it.
-/

namespace LinkEngine.Engine

/-- An engine without listeners; its scheduler was started at `now`. -/
def create (scheduler : Settings.Scheduler) (now : Nat) : Engine :=
  { scheduler := .create scheduler now, now := now }

/-- Adds a listener. Settings it cannot run with are refused, and so is a
scheduler that was shut down. -/
def build (settings : Settings.Listener) (multiplexer : Option Multiplexer)
    (platform : Platform := {}) (s : Engine) : Except Failure Unit × Engine :=
  match settings.validate with
  | .error fault => (.error (.config fault.message), s)
  | .ok () =>
    let i := s.listeners.length
    let (t, s) := s.newTimer (.housekeeping i)
    match s.queueTimer t settings.housekeepingInterval with
    | (.error f, s) => (.error f, s)
    | (.ok (), s) =>
      let x : Listener :=
        { settings
          buffers :=
            .create settings.maxIdleBuffers settings.readBufferSize settings.writeBufferSize
              platform.storage
          listing := platform.listing
          housekeeping := some t
          multiplexer }
      let s := { s with listeners := s.listeners ++ [x] }
      (.ok (), if s.signal.isSome then shutdownListener tearDown i s else s)

/-- What is brought to a listener: a socket, the handler made for it, and what
is done to the engine while the handler is made. -/
structure Arrival where
  socket : Socket.Endpoint Operation
  handler : Handler := {}
  whileMaking : List NamedOperation := []

/-- What came of an arrival. -/
inductive Acceptance where
  /-- It is a link, registered or not. -/
  | accepted (link : Nat) (registered : Bool)
  | refused (f : Failure)
  deriving DecidableEq, Repr

/-- Turns an arrival away. -/
def turnAway (i : Nat) (f : Failure) (s : Engine) : Acceptance × Engine :=
  (.refused f, s.count i .rejected)

/-- Does operations while the handler of slot `l` is made, and answers what is to
be noted of them. -/
def makeHandler (l : Nat) : List NamedOperation → Engine → List Link.Note × Engine
  | [], s => ([], s)
  | op :: ops, s =>
    let (answer, s) := perform l op.operation s
    let (notes, s) := makeHandler l ops s
    (.did op.label answer :: notes, s)

/-- Makes the link of slot `l` and registers it with its listener. -/
def installLink (i l : Nat) (handler : Handler) (notes : List Link.Note) (s : Engine) : Engine :=
  match s.slots[l]? with
  | some (.turnedAway socket) =>
    let (buffers, pool) := (s.listener i).buffers.acquire
    let k : Link :=
      { listener := i, handler, stream := .create socket buffers, history := notes }
    let s := { s with slots := s.slots.set l (.link k) }
    s.modifyListener i fun x =>
      { x with
        buffers := pool
        registry := x.listing.arrange (x.registry ++ [l])
        stats := x.stats.record .accepted }
  | _ => s

/-- Starts a new link: hands it to a task. When the pool takes none the link is
torn down and the arrival refused. -/
def startLink (l : Nat) (s : Engine) : Acceptance × Engine :=
  match s.link? l with
  | none => (.refused (.poolRejected ("link " ++ toString l)), s)
  | some k =>
    match k.request.begin with
    | .error r => (.refused (.request r), tearDown l .shutdown s)
    | .ok r =>
      match schedule tearDown l .accept (s.setLink l { k with request := r }) with
      | (true, s) => (.accepted l ((s.listener k.listener).registry.contains l), s)
      | (false, s) =>
        (.refused (.poolRejected ("link " ++ toString l)),
          s.modifyLink l fun k => { k with held := false })

/-- Brings a connection to a listener. -/
def accept (i : Nat) (arrival : Arrival) (s : Engine) : Acceptance × Engine :=
  let l := s.slots.length
  let s := { s with slots := s.slots ++ [.turnedAway arrival.socket] }
  if s.isShuttingDown i then turnAway i .shuttingDown s
  else
    let limit := (s.listener i).settings.maxConnections
    match (s.listener i).tracker.join? limit with
    | none => turnAway i (.connectionLimit limit) s
    | some tracker =>
      let s := s.modifyListener i fun x => { x with tracker }
      let (notes, s) := makeHandler l arrival.whileMaking s
      let s := installLink i l arrival.handler notes s
      startLink l (if s.isShuttingDown i then closeWith tearDown l .shutdown s else s)

end LinkEngine.Engine

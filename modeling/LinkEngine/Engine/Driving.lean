import LinkEngine.Engine.Hooks

/-!
# Driving a link

A task of the pool drives one link from step to step until the link is parked or
closed. Each step is a function of its own here, `advance` is one step of the
task that drives a link, and `drive` goes on until the task is done. What a step
decides last is its `Outcome`; `conclude` carries that out.
-/

namespace LinkEngine.Engine

open Connection (CloseReason)
open Link (Entry Outcome Step Upgrades)
open Socket (Readiness)

/-- Moves the lifecycle of a link and goes on, unless that is refused. -/
def withTransition (l : Nat) (e : Connection.Event) (s : Engine)
    (go : Link → Engine → Outcome × Engine) : Outcome × Engine :=
  match s.link? l with
  | none => (.panic, s)
  | some k =>
    match k.transition e with
    | .error f => (.refused f, s)
    | .ok k => go k (s.setLink l k)

/-- Calls a hook and goes on with what it returned, or fails with it. -/
def withHook (l : Nat) (hook : Hook) (upgrades : Upgrades) (s : Engine)
    (go : Bool → Engine → Outcome × Engine) : Outcome × Engine :=
  match callHook l hook upgrades s with
  | (.returned keep, s) => go keep s
  | (.failed f, s) => (.fail f, s)
  | (.panicked, s) => (.panic, s)

/-- Flushes the stream of a link and goes on, or fails. -/
def withFlush (l : Nat) (s : Engine) (go : Link → Engine → Outcome × Engine) : Outcome × Engine :=
  match s.link? l with
  | none => (.panic, s)
  | some k =>
    let (r, stream) := k.stream.flush
    let k := { k with stream }
    let s := s.setLink l k
    match r with
    | .error kind => (.fail (.ofKind kind), s.note l (.unflushed kind))
    | .ok () => go k s

/-- The peer closed its side. -/
def peerClosed (s : Engine) (k : Link) : Outcome := .close (s.closeReasonOr k .peerClosed)

/-! ## The steps -/

/-- Starts a new connection: its reads get their deadline, and the handler is
told. -/
def stepAccept (l : Nat) (s : Engine) : Outcome × Engine :=
  withTransition l .accept s fun k s =>
    let (r, socket) := k.stream.socket.setReadTimeout (s.listener k.listener).settings.readTimeout.millis
    let s := s.setLink l { k with stream := { k.stream with socket } }
    match r with
    | .error kind => (.fail (.ofKind kind), s)
    | .ok () => withHook l .start .none s fun _ s => (.next .dispatch, s)

/-- Takes up a parked connection, for a timeout if its deadline took it over. -/
def stepResumeParked (l : Nat) (s : Engine) : Outcome × Engine :=
  match s.link? l with
  | none => (.panic, s)
  | some k =>
    let s := s.disarm l
    match k.machine.state with
    | .keepalive => if k.isTimedOut then (.close .keepaliveTimeout, s) else (.next .await, s)
    | .cometSuspend => (.next (.resume k.isTimedOut), s)
    | state => (.refused (.transition { state, event := .wake }), s)

/-- Has the handler serve a request, and flushes what it wrote. -/
def stepDispatch (l : Nat) (s : Engine) : Outcome × Engine :=
  withTransition l .dispatch s fun k s =>
    let s := (s.count k.listener .requests).setLink l { k with pending := .none }
    withHook l .request .any s fun keep s =>
      withFlush l s fun _ s => (.next (.after keep), s)

/-- Turns to the upgrade the handler asked for, or to the rest. -/
def stepAfter (l : Nat) (keep : Bool) (s : Engine) : Outcome × Engine :=
  match s.link? l with
  | none => (.panic, s)
  | some k =>
    match k.pending with
    | .duplex => (.next .upgrade, s.setLink l { k with pending := .none })
    | .comet c => (.next .suspend, s.setLink l { k with pending := .none, comet := some c })
    | .none => (.next (.rest (!keep || k.killKeepalive || s.isClosing k)), s)

/-- Rests until the next request, or closes if the connection is not kept. -/
def stepRest (l : Nat) (killed : Bool) (s : Engine) : Outcome × Engine :=
  match s.link? l with
  | none => (.panic, s)
  | some k =>
    let k := { k with comet := none }
    match k.machine.finish killed with
    | .error r => (.refused (.transition r), s.setLink l k)
    | .ok machine =>
      let k := { k with machine }
      if machine.state.isClosed then (.close (s.closeReasonOr k .normal), s.setLink l k)
      else
        let timeout := (s.listener k.listener).settings.keepaliveTimeout
        let k := { k with restUntil := Time.Millis.add s.now timeout.millis }
        (.next .await, (s.setLink l k).count k.listener .keepalives)

/-- Hands a resting link to the multiplexer of its listener. Answers whether it
took the link; none if it panicked. -/
def register (l : Nat) (k : Link) (m : Multiplexer) (s : Engine) : Option Bool × Engine :=
  let put (m : Multiplexer) (s : Engine) : Engine :=
    s.modifyListener k.listener fun x => { x with multiplexer := some m }
  match m with
  | .polling w =>
    let (b, w) := w.register l k.stream.socket.hasDescriptor
    (some b, put (.polling w) s)
  | .scripted script =>
    let r := script.headD {}
    go r.takes r.events (put (.scripted script.tail) s)
where
  go (takes : Bool) : List Multiplexer.Event → Engine → Option Bool × Engine
    | [], s => (some takes, s)
    | .notice :: rest, s => go takes rest (notify tearDown l s).2
    | .deadlines :: rest, s =>
      go takes rest (runTimers tearDown (s.elapse (deadlineWhile + elapseSlack))).2
    | .deadlinesAfterShutdown :: rest, s =>
      let s := s.elapse (deadlineWhile + elapseSlack)
      go takes rest (runTimers tearDown { s with scheduler := s.scheduler.shutdown }).2
    | .panic :: _, s => (none, s)

/-- Waits for the next request. With a multiplexer the link is parked, and
somebody wakes it; one the multiplexer does not take is waited for by the task,
unless somebody woke it already. -/
def stepAwait (l : Nat) (s : Engine) : Outcome × Engine :=
  match s.link? l with
  | none => (.panic, s)
  | some k =>
    let (r, stream) := k.stream.poll
    let k := { k with stream }
    let s := s.setLink l k
    match r with
    | .error kind => (.fail (.ofKind kind), s)
    | .ok .ready => (.next .dispatch, s)
    | .ok .closed => (peerClosed s k, s)
    | .ok .pending =>
      let remaining := k.restUntil - s.now
      if remaining = 0 then (.close .keepaliveTimeout, s)
      else
        match (s.listener k.listener).multiplexer with
        | none => (.next .block, s)
        | some m =>
          match k.request.rest with
          | .error r => (.refused (.request r), s)
          | .ok r =>
            match (s.setLink l { k with request := r }).arm l (.ofMillis remaining) with
            | (.error f, s) => (.fail f, s)
            | (.ok (), s) =>
              match register l k m s with
              | (none, s) => (.panic, s)
              | (some true, s) => (.park, s)
              | (some false, s) => declined s
where
  /-- Takes the wait back, unless a waker owns the link. -/
  declined (s : Engine) : Outcome × Engine :=
    match s.link? l with
    | none => (.panic, s)
    | some k =>
      match k.request.wakeKeepalive with
      | (.resume, r) => (.next .block, (s.setLink l { k with request := r }).disarm l)
      | _ => (.park, s)

/-- Waits once more for input, until a time: goes on when there is some, ends at
that time, and closes when the peer did or the link is to close. -/
def waitOnce (l : Nat) (deadline : Nat) (ready idle : Step) (late : CloseReason) (s : Engine) :
    Outcome × Engine :=
  match s.link? l with
  | none => (.panic, s)
  | some k =>
    if s.isClosing k then (peerClosed s k, s)
    else if deadline - s.now = 0 then (.close late, s)
    else
      match awaitReadable l s with
      | (.error kind, s) => (.fail (.ofKind kind), s)
      | (.ok .ready, s) => (.next ready, s)
      | (.ok .pending, s) => (.next idle, s)
      | (.ok .closed, s) => ((s.link? l).elim .panic (peerClosed s), s)

/-- Waits for the next request on the task. -/
def stepBlock (l : Nat) (s : Engine) : Outcome × Engine :=
  match s.link? l with
  | none => (.panic, s)
  | some k => waitOnce l k.restUntil .dispatch .block .keepaliveTimeout s

/-- Suspends the request until a handle or its deadline wakes it; a wake that
came already takes it up at once. -/
def stepSuspend (l : Nat) (s : Engine) : Outcome × Engine :=
  match s.link? l with
  | none => (.panic, s)
  | some k =>
    if k.closing then (.close k.requestedClose, s)
    else
      withTransition l .suspend s fun k s =>
        let timeout := (k.comet.bind (·.timeout)).getD (s.listener k.listener).settings.suspendTimeout
        match s.arm l timeout with
        | (.error f, s) => (.fail f, s)
        | (.ok (), s) => park (s.count k.listener .suspends)
where
  /-- Gives the link away, unless a wake came first. -/
  park (s : Engine) : Outcome × Engine :=
    match s.link? l with
    | none => (.panic, s)
    | some k =>
      match k.request.trySuspend with
      | .error r => (.refused (.request r), s)
      | .ok (.suspended, r) => (.park, s.setLink l { k with request := r })
      | .ok (.woken, r) =>
        (.next (.resume k.isTimedOut), (s.setLink l { k with request := r }).disarm l)

/-- Has the handler take the request up again, or, when its deadline passed,
tells it so and closes. -/
def stepResume (l : Nat) (timedOut : Bool) (s : Engine) : Outcome × Engine :=
  withTransition l .wake s fun k s =>
    let k := { k with comet := none }
    let s := s.setLink l k
    if timedOut then
      match callHook l .suspendTimeout .none s with
      | (.panicked, s) => (.panic, s)
      | (_, s) => (.close .suspendTimeout, flushAnyway s)
    else if k.closing then (.close k.requestedClose, s)
    else
      withHook l .resume .comet (s.count k.listener .wakes) fun keep s =>
        withFlush l s fun _ s => (.next (.after keep), s)
where
  /-- Flushes the stream, whether that works or not. -/
  flushAnyway (s : Engine) : Engine :=
    s.modifyLink l fun k =>
      match k.stream.flush with
      | (.ok (), stream) => { k with stream }
      | (.error kind, stream) => { k with stream }.note (.unflushed kind)

/-- When a two-way stream that stays silent from now on is closed. -/
def idleUntil (s : Engine) (k : Link) : Nat :=
  Time.Millis.add s.now (s.listener k.listener).settings.duplexIdleTimeout.millis

/-- Becomes a two-way stream. -/
def stepUpgrade (l : Nat) (s : Engine) : Outcome × Engine :=
  withTransition l .upgrade s fun k s =>
    (.next (.listen (idleUntil s k)),
      (s.setLink l { k with duplex := some {} }).count k.listener .duplexUpgrades)

/-- Has the handler serve the bytes of a two-way stream. It must consume some of
them, or end the stream. -/
def stepService (l : Nat) (s : Engine) : Outcome × Engine :=
  withTransition l .dispatch s fun before s =>
    withHook l .service .none s fun _ s =>
      withFlush l s fun k s =>
        let d := k.duplex.getD {}
        let consumed := k.stream.bytesRead - before.stream.bytesRead
        if d.closed then (.close (s.closeReasonOr k .normal), s)
        else if consumed = 0 then (.close .protocolViolation, s)
        else
          let d := { d with reads := d.reads + 1, bytesRead := d.bytesRead + consumed }
          withTransition l .keepalive (s.setLink l { k with duplex := some d }) fun k s =>
            (.next (.listen (idleUntil s k)), s)

/-- One step of a driving task. -/
def stepLink (l : Nat) (step : Step) (s : Engine) : Outcome × Engine :=
  match step with
  | .accept => stepAccept l s
  | .resumeParked => stepResumeParked l s
  | .dispatch => stepDispatch l s
  | .after keep => stepAfter l keep s
  | .rest killed => stepRest l killed s
  | .await => stepAwait l s
  | .block => stepBlock l s
  | .suspend => stepSuspend l s
  | .resume timedOut => stepResume l timedOut s
  | .upgrade => stepUpgrade l s
  | .listen deadline => waitOnce l deadline .service (.listen deadline) .timeout s
  | .service => stepService l s

/-! ## The task -/

/-- The reason a link closes for when its driving task failed: the one that was
asked for if somebody asked, but never in place of a lack of memory, which shuts
the process down. -/
def failureReason (l : Nat) (f : Failure) (s : Engine) : CloseReason × Engine :=
  match s.link? l with
  | none => (f.closeReason, s)
  | some k =>
    if k.closing ∧ !f.isOutOfMemory then (k.requestedClose, s)
    else if f.closeReason = .outOfMemory then
      (.outOfMemory, (trigger tearDown .outOfMemory s).2)
    else (f.closeReason, s)

/-- Carries out what a step decided. -/
def conclude (l : Nat) (outcome : Outcome) (s : Engine) : Engine :=
  let release (s : Engine) : Engine := s.modifyLink l fun k => { k with step := none }
  match outcome with
  | .next step => s.modifyLink l fun k => { k with step := some step }
  | .park => release s
  | .close reason => release (tearDown l reason s)
  | .fail f | .refused f =>
    let (reason, s) := failureReason l f s
    release (tearDown l reason s)
  | .panic => release (tearDown l .handlerError s)

/-- One step of the task that drives a link, if one does. -/
def advance (l : Nat) (s : Engine) : Engine :=
  match (s.link? l).bind (·.step) with
  | none => s
  | some step => let (outcome, s) := stepLink l step s; conclude l outcome s

/-- The task that drives a link goes on until it is done, for at most `fuel`
steps. -/
def drive (l : Nat) (s : Engine) : Nat → Engine
  | 0 => s
  | fuel + 1 =>
    match (s.link? l).bind (·.step) with
    | none => s
    | some _ => drive l (advance l s) fuel

/-- The pool begins the task at place `k` of its queue. A link that is closed
needs nothing more; one that is to close is torn down. A link that is driven
already cannot be driven twice. -/
def begin (k : Nat) (s : Engine) : Engine :=
  match s.tasks[k]? with
  | none => s
  | some task =>
    match s.link? task.link with
    | none => s
    | some link =>
      if link.isDriven then s
      else
        let s := { s with tasks := s.tasks.eraseIdx k }
        if link.closed then s
        else if link.closing then tearDown task.link link.requestedClose s
        else
          let step := match task.entry with
            | .accept => Step.accept
            | .resume => Step.resumeParked
          s.setLink task.link { link with step := some step }

/-- The pool runs the task at place `k` of its queue, for at most `fuel`
steps. -/
def run (k : Nat) (s : Engine) (fuel : Nat) : Engine :=
  match s.tasks[k]? with
  | none => s
  | some task => drive task.link (begin k s) fuel

end LinkEngine.Engine

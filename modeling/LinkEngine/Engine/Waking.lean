import LinkEngine.Engine.Basic

/-!
# Wakers

Those who wake a parked link, or ask for one to be closed, can be anywhere: a
handle, a notice of input, a deadline, a shutdown. Each asks the link's
ownership state, and whoever is told to take the link over either hands a task
to the pool or tears the link down itself. Tearing down calls the handler, whose
last operations may wake and close other links in turn; so everything here is
given the teardown as an argument.
-/

namespace LinkEngine.Engine

open Connection (CloseReason)

/-- A way to tear down a link for a reason. -/
abbrev Teardown := Nat → CloseReason → Engine → Engine

/-- How long a deadline waits before it asks a driven link again. -/
def deadlineRetry : Time.Duration := .ofMillis 1

/-- Hands a link that is taken over to the pool. When the pool takes no task the
link is torn down. -/
def schedule (tear : Teardown) (l : Nat) (entry : Link.Entry) (s : Engine) : Bool × Engine :=
  if s.refusing then (false, tear l .shutdown s)
  else (true, { s with tasks := s.tasks ++ [{ link := l, entry }] })

/-- Tells a link that input arrived. Answers whether that woke it. -/
def notify (tear : Teardown) (l : Nat) (s : Engine) : Bool × Engine :=
  match s.link? l with
  | none => (false, s)
  | some k =>
    match k.request.wakeKeepalive with
    | (.resume, r) => schedule tear l .resume (s.setLink l { k with request := r })
    | _ => (false, s)

/-- Wakes the suspended request that a handle stands for. Answers whether the
wake counts; one that does is written into the history. -/
def wakeComet (tear : Teardown) (h : Handle) (s : Engine) : Bool × Engine :=
  match s.link? h.link with
  | none => (false, s)
  | some k =>
    if k.cometGeneration ≠ h.generation ∨ k.closed then (false, s)
    else
      match k.request.wakeAsync with
      | (.resume, r) =>
        match schedule tear h.link .resume (s.setLink h.link { k with request := r }) with
        | (true, s) => (true, s.note h.link (.woke h.generation))
        | (false, s) => (false, s)
      | (.deferred, r) =>
        (true, (s.setLink h.link { k with request := r }).note h.link (.woke h.generation))
      | (.ignored, _) => (false, s)

/-- A handle's request is the current one of its link. -/
def isCurrent (s : Engine) (h : Handle) : Bool :=
  match s.link? h.link with
  | none => false
  | some k => !k.closed && k.cometGeneration == h.generation

/-- The deadline of wait `generation` fired. While a task drives the link, it
asks again a little later; a deadline of an earlier wait is void. Only a
deadline that takes the link over counts as a timeout. -/
def deadlineFired (tear : Teardown) (t l generation : Nat) (s : Engine) : Engine :=
  match s.link? l with
  | none => s
  | some k =>
    if k.isDriven then
      if k.waitGeneration = generation ∧ !k.closed then (s.queueTimer t deadlineRetry).2 else s
    else if k.waitGeneration ≠ generation then s
    else
      match k.request.wake with
      | (.resume, r) =>
        (schedule tear l .resume
          (s.setLink l { k with request := r, expiredGeneration := some generation })).2
      | (_, r) => s.setLink l { k with request := r }

/-- Asks for a link to be closed. A parked link is torn down at once; otherwise
the driving task, interrupted in its wait, sees to it. -/
def closeWith (tear : Teardown) (l : Nat) (reason : CloseReason) (s : Engine) : Engine :=
  match s.link? l with
  | none => s
  | some k =>
    if k.closed then s
    else
      let k := k.ask reason
      match k.request.wake with
      | (.resume, r) => tear l k.requestedClose (s.setLink l { k with request := r })
      | (_, r) => s.setLink l { k with request := r }.interrupt

/-- Closes links, one after the other. -/
def closeAll (tear : Teardown) (ls : List Nat) (reason : CloseReason) (s : Engine) : Engine :=
  ls.foldl (fun s l => closeWith tear l reason s) s

/-- Shuts a listener down: it accepts nothing more, keeps no house, and closes
its links. -/
def shutdownListener (tear : Teardown) (i : Nat) (s : Engine) : Engine :=
  let x := s.listener i
  if x.stopped then s
  else
    let s := s.modifyListener i fun x =>
      { x with stopped := true, tracker := x.tracker.stop, housekeeping := none }
    let s := x.housekeeping.elim s s.cancelTimer
    closeAll tear x.registry .shutdown s

/-- Triggers the shutdown signal, which shuts all listeners down. Answers whether
this was the first time. -/
def trigger (tear : Teardown) (reason : Shutdown.Reason) (s : Engine) : Bool × Engine :=
  match s.signal with
  | some _ => (false, s)
  | none =>
    (true, (List.range s.listeners.length).foldl (fun s i => shutdownListener tear i s)
      { s with signal := some reason })

/-- Trims the idle buffers of a listener, and asks to be called again unless it
shuts down. -/
def housekeeping (t i : Nat) (s : Engine) : Engine :=
  let s := s.modifyListener i fun x => { x with buffers := (x.buffers.trim (x.buffers.places / 2)).2 }
  if s.isShuttingDown i then s
  else (s.queueTimer t (s.listener i).settings.housekeepingInterval).2

/-- What a timer is for happens. -/
def alarm (tear : Teardown) (t : Nat) (s : Engine) : Engine :=
  match s.alarms[t]? with
  | none => s
  | some (.deadline l generation) => deadlineFired tear t l generation s
  | some (.housekeeping i) => housekeeping t i s

/-- The timers' pool runs the callback at place `place` of its queue; a
coordinator that waited for the permit goes on. -/
def runTimer (tear : Teardown) (place : Nat) (s : Engine) : Option Engine :=
  match s.scheduler.start place with
  | none => none
  | some (task, scheduler) =>
    let s := alarm tear task.timer { s with scheduler }
    let scheduler := s.scheduler.finish 0 false
    let scheduler :=
      if scheduler.waiting.isSome then scheduler.coordinateAll s.now (scheduler.pending + 1)
      else scheduler
    some { s with scheduler }

/-- The timers' pool runs its callbacks until there is none, but no more than
`fuel`. Answers how many. -/
def runTimersWithin (tear : Teardown) (s : Engine) : Nat → Nat × Engine
  | 0 => (0, s)
  | fuel + 1 =>
    match runTimer tear 0 s with
    | none => (0, s)
    | some s =>
      let (n, s) := runTimersWithin tear s fuel
      (n + 1, s)

/-- More callbacks than can run before every timer has fired and every link is
closed. -/
def timerFuel (s : Engine) : Nat :=
  (s.scheduler.ready.length + s.scheduler.pending + 1) * (s.openLinks + 2)

/-- The timers' pool runs its callbacks until there is none. -/
def runTimers (tear : Teardown) (s : Engine) : Nat × Engine :=
  runTimersWithin tear s s.timerFuel

end LinkEngine.Engine

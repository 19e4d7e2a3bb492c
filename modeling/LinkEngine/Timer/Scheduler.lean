import LinkEngine.Settings.Sections
import LinkEngine.Time.Clock
import LinkEngine.Timer.Heap
import LinkEngine.Timer.Throttle

/-!
# The scheduler

Timers are queued in a heap. One coordinator takes out those that are due, in
the order of the heap, and hands their callbacks to a pool of workers; an
ordinary callback needs a permit for that, an urgent one does not. While the
coordinator waits for a permit it holds the timer it took out and takes no
other.

Each function here is one atomic step of one of the parties: those who queue
and cancel (`queueAt`, `queue`, `cancel`), the coordinator (`coordinate`,
`rest`), the pool (`start`, `finish`, `discard`) and whoever shuts down. The
exact time is an argument.
-/

namespace LinkEngine.Timer

open Time (Clock Duration Millis.add)

/-- What a scheduler counts. -/
structure Counts where
  /-- Queuings, also those that moved a queued timer. -/
  scheduled : Nat := 0
  /-- Timers that were cancelled while queued. -/
  cancelled : Nat := 0
  /-- Timers the coordinator took out. -/
  fired : Nat := 0
  /-- Callbacks that panicked. -/
  panicked : Nat := 0
  /-- Fired timers whose callback was never handed to the pool. -/
  dropped : Nat := 0
  deriving DecidableEq, Repr, Inhabited

/-- A callback in the pool's hands. -/
structure Task where
  timer : Nat
  /-- It holds a permit. -/
  permit : Bool
  deriving DecidableEq, Repr, Inhabited

/-- A scheduler with its coordinator and its part of the pool. -/
structure Scheduler where
  settings : Settings.Scheduler
  clock : Clock
  heap : Heap := { number := 1 }
  table : Table := {}
  throttle : Throttle
  counts : Counts := {}
  stopped : Bool := false
  /-- The timer for which the coordinator waits for a permit. -/
  waiting : Option Nat := none
  /-- Somebody told the coordinator not to sleep on. -/
  notified : Bool := false
  /-- The pool takes no callbacks. -/
  refusing : Bool := false
  /-- Callbacks that were handed to the pool and not started. -/
  ready : List Task := []
  /-- Callbacks that run, the latest first. -/
  running : List Task := []
  deriving DecidableEq, Repr

namespace Scheduler

/-- A scheduler that was just started; its clock was sampled at `now`. -/
def create (settings : Settings.Scheduler) (now : Nat) : Scheduler :=
  { settings
    clock := (Clock.create settings.minSampleInterval settings.maxSampleInterval).sample now
    throttle := .create settings.dispatchLimit }

/-- How many timers are queued. -/
def pending (s : Scheduler) : Nat := s.heap.size

/-- The timer is queued. -/
def isQueued (s : Scheduler) (t : Nat) : Bool := (s.table.get t).position != 0

/-- The wake time of the earliest timer, if one is queued. -/
def nextWake? (s : Scheduler) : Option Nat := s.heap.nextWake? s.table

/-! ## Queuing -/

/-- Queues timer `t` to wake at the time `at`, or moves it there. The coordinator
is told when the timer came to the root. -/
def queueAt (s : Scheduler) (t wake : Nat) : Except Failure Unit × Scheduler :=
  if s.stopped then (.error .schedulerShutdown, s)
  else
    match s.heap.insert s.table t wake with
    | .error f => (.error f, s)
    | .ok (root, heap, table) =>
      (.ok (),
        { s with
          heap, table
          counts := { s.counts with scheduled := s.counts.scheduled + 1 }
          notified := s.notified || root })

/-- The wake time of a delay that begins at `now`. Readings drop the fraction of
a millisecond and the published clock lags by up to the longest sampling
interval; both are made up for, so that no timer wakes before its delay has
passed. -/
def wakeTime (settings : Settings.Scheduler) (approx now : Nat) (delay : Duration) : Nat :=
  let base :=
    if settings.approxThreshold.le delay then
      Millis.add approx settings.maxSampleInterval.millis
    else now
  Millis.add (Millis.add base 1) delay.millisCeil

/-- Queues timer `t` to wake after a delay. Long delays are measured from the
published clock. -/
def queue (s : Scheduler) (t now : Nat) (delay : Duration) : Except Failure Unit × Scheduler :=
  let at' := wakeTime s.settings s.clock.approx now delay
  let s := if s.settings.approxThreshold.le delay then { s with clock := s.clock.read.2 } else s
  s.queueAt t at'

/-- Takes timer `t` out of the queue, and answers whether it was queued. -/
def cancel (s : Scheduler) (t : Nat) : Bool × Scheduler :=
  let (removed, heap, table) := s.heap.remove s.table t
  if removed then
    (true,
      { s with heap, table, counts := { s.counts with cancelled := s.counts.cancelled + 1 } })
  else (false, s)

/-! ## The coordinator -/

/-- One fired timer is lost. -/
def drop (s : Scheduler) : Scheduler :=
  { s with counts := { s.counts with dropped := s.counts.dropped + 1 } }

/-- Gives back the permit of a callback that has one. -/
def giveBack (s : Scheduler) (permit : Bool) : Scheduler :=
  if permit then { s with throttle := s.throttle.release } else s

/-- Hands a callback to the pool. When the pool takes none, the timer is lost
and its permit comes back. -/
def submit (s : Scheduler) (task : Task) : Scheduler :=
  if s.refusing then (s.giveBack task.permit).drop
  else { s with ready := s.ready ++ [task] }

/-- Hands on the callback of a timer that was taken out: at once if it is
urgent, else with a permit, for which the coordinator may have to wait. -/
def dispatch (s : Scheduler) (t : Nat) : Scheduler :=
  let s := { s with counts := { s.counts with fired := s.counts.fired + 1 } }
  if (s.table.get t).urgent then s.submit { timer := t, permit := false }
  else if s.throttle.isFull then { s with throttle := s.throttle.noteWait, waiting := some t }
  else { s with throttle := s.throttle.take }.submit { timer := t, permit := true }

/-- One step of the coordinator at the time `now`: it takes up the permit it
waits for, or takes out a due timer and hands it on. It has no step while it
waits, while nothing is due, and after the shutdown. -/
def coordinate (s : Scheduler) (now : Nat) : Option Scheduler :=
  if s.stopped then none
  else
    match s.waiting with
    | some t =>
      if s.throttle.isFull then none
      else
        some ({ s with waiting := none, throttle := s.throttle.take }.submit
          { timer := t, permit := true })
    | none =>
      match s.heap.popDue s.table now with
      | none => none
      | some (t, heap, table) => some ({ s with heap, table }.dispatch t)

/-- The steps the coordinator has at `now`, one after the other; `fuel` bounds
their number. -/
def coordinateAll (s : Scheduler) (now : Nat) : Nat → Scheduler
  | 0 => s
  | fuel + 1 =>
    match s.coordinate now with
    | none => s
    | some s' => s'.coordinateAll now fuel

/-- The wake time of the earliest timer, or the end of the longest sleep. -/
def nextDue (s : Scheduler) (now : Nat) : Nat :=
  s.nextWake?.getD (Millis.add now s.settings.fallbackWindow.millis)

/-- The coordinator goes to sleep at `now`. Answers for how long, unless
somebody tells it to wake. -/
def rest (s : Scheduler) (now : Nat) : Nat × Scheduler :=
  (max (s.nextDue now - now) 1, { s with notified := false })

/-! ## The pool -/

/-- The pool starts the callback at place `k` of those handed to it. -/
def start (s : Scheduler) (k : Nat) : Option (Task × Scheduler) :=
  match s.ready[k]? with
  | none => none
  | some task => some (task, { s with ready := s.ready.eraseIdx k, running := task :: s.running })

/-- The running callback at place `k` ends. A panic is counted, and in any case
the permit comes back. -/
def finish (s : Scheduler) (k : Nat) (panicked : Bool) : Scheduler :=
  match s.running[k]? with
  | none => s
  | some task =>
    let s := { s with running := s.running.eraseIdx k }
    let s :=
      if panicked then { s with counts := { s.counts with panicked := s.counts.panicked + 1 } }
      else s
    s.giveBack task.permit

/-- The pool throws away the callback at place `k` of those handed to it. -/
def discard (s : Scheduler) (k : Nat) : Scheduler :=
  match s.ready[k]? with
  | none => s
  | some task => { s with ready := s.ready.eraseIdx k }.giveBack task.permit

/-! ## Shutting down -/

/-- Stops the coordinator and drops every queued timer. A timer for which the
coordinator waits is lost, unless a permit has come back for it meanwhile.
Callbacks in the pool's hands still run. -/
def shutdown (s : Scheduler) : Scheduler :=
  if s.stopped then s
  else
    let s := { s with stopped := true, notified := true }
    let s :=
      match s.waiting with
      | none => s
      | some t =>
        let s := { s with waiting := none }
        if s.throttle.isFull then s.drop
        else { s with throttle := s.throttle.take }.submit { timer := t, permit := true }
    let (_, heap, table) := s.heap.drain s.table
    { s with heap, table }

end Scheduler

end LinkEngine.Timer

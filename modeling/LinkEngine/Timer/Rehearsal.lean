import LinkEngine.Timer.Scheduler

/-!
# Leading a scheduler by hand

A `Rehearsal` leads the coordinator of a scheduler through its steps, so that
there is one order of events. A sentinel, an urgent timer of its own with
number zero, is queued behind everything that is due; the coordinator runs until
it meets the sentinel, or until it waits for a permit. Timer `t` of a rehearsal
has number `t + 1`, and its callback is a short program of further requests.
-/

namespace LinkEngine.Timer

open Time (Duration Millis.add Millis.max)

namespace Rehearsal

/-- A request to the scheduler, or a panic of the callback that makes it. A
callback's request may be limited to its first few firings. -/
inductive Action where
  | queueAt (timer wake : Nat)
  | queueFar (timer : Nat)
  | queueDelay (timer : Nat) (delay : Duration)
  | scheduleAt (wake : Nat) (body : List (Option Nat × Action))
  | scheduleFar (urgent : Bool) (body : List (Option Nat × Action))
  | cancel (timer : Nat)
  | refuse (on : Bool)
  | shutdown
  | panic
  deriving Inhabited

/-- The requests of a callback, each with the last firing that makes it. -/
abbrev Program := List (Option Nat × Action)

/-- What the scheduler answers. -/
inductive Answer where
  | done
  | failed (f : Failure)
  /-- The delay is queued; the flag says whether it is not cut short. -/
  | delayed (whole : Bool)
  /-- A timer was made and queued. -/
  | created (timer : Nat)
  | flag (b : Bool)
  | nothing
  deriving Repr

/-- What is noted while callbacks run. -/
inductive Note where
  /-- Timer `timer` fired for the `count`-th time. -/
  | fired (timer count : Nat)
  | did (action : Action) (answer : Answer)

/-- What came of leading the coordinator on. -/
inductive Pumping where
  /-- It met the sentinel. -/
  | held
  /-- It waits for a permit. -/
  | blocked
  | stopped
  deriving DecidableEq, Repr

/-- What came of letting the pool run one callback. -/
inductive Running where
  | urgent
  | ordinary
  /-- There was none. -/
  | idle
  deriving DecidableEq, Repr

end Rehearsal

open Rehearsal in
/-- A scheduler that is led by hand. -/
structure Rehearsal where
  scheduler : Scheduler
  programs : List Program
  /-- How often each timer fired. -/
  firings : List Nat
  log : List Note := []

namespace Rehearsal

/-- The sentinel's number. -/
def sentinel : Nat := 0

/-- The number of a rehearsal's timer. -/
def number (t : Nat) : Nat := t + 1

/-- The time of a rehearsal: past every time that is due. -/
def now : Nat := 12

/-- Where the sentinel waits. -/
def sentinelWake : Nat := 10

/-- The delay that is never due: about as many seconds as 40 bits hold. -/
def farDelay : Duration := .ofSeconds 0x10000000000

/-- Answers a queuing. -/
def queued : Except Failure Unit → Answer
  | .ok () => .done
  | .error f => .failed f

/-- Makes a timer and queues it by `put`; when that fails there is no timer. -/
def create (r : Rehearsal) (urgent : Bool) (body : Program)
    (put : Scheduler → Nat → Except Failure Unit × Scheduler) : Answer × Rehearsal :=
  let t := r.programs.length
  let s := { r.scheduler with
    table := r.scheduler.table.set (number t) { urgent := urgent } }
  match put s (number t) with
  | (.error f, s) => (.failed f, { r with scheduler := s })
  | (.ok (), s) =>
    (.created t,
      { r with scheduler := s, programs := r.programs ++ [body], firings := r.firings ++ [0] })

/-- A wake time leaves room for the whole delay. -/
def isWhole (wake : Nat) (delay : Duration) : Bool :=
  wake == Millis.max ||
    now * Duration.nanosPerMilli + delay.nanos ≤ wake * Duration.nanosPerMilli

/-- Makes one request. -/
def perform (r : Rehearsal) : Action → Answer × Rehearsal
  | .queueAt t wake =>
    let (e, s) := r.scheduler.queueAt (number t) wake
    (queued e, { r with scheduler := s })
  | .queueFar t =>
    let (e, s) := r.scheduler.queue (number t) now .longest
    (queued e, { r with scheduler := s })
  | .queueDelay t delay =>
    match r.scheduler.queue (number t) now delay with
    | (.ok (), s) =>
      (.delayed (isWhole (s.table.get (number t)).wake delay), { r with scheduler := s })
    | (.error f, s) => (.failed f, { r with scheduler := s })
  | .scheduleAt wake body => r.create false body fun s t => s.queueAt t wake
  | .scheduleFar urgent body => r.create urgent body fun s t => s.queue t now farDelay
  | .cancel t =>
    let (b, s) := r.scheduler.cancel (number t)
    (.flag b, { r with scheduler := s })
  | .refuse on => (.nothing, { r with scheduler := { r.scheduler with refusing := on } })
  | .shutdown => (.nothing, { r with scheduler := r.scheduler.shutdown })
  | .panic => (.nothing, r)

/-- Runs a callback's program at its `count`-th firing. Answers whether it
panicked. -/
def runProgram (count : Nat) : Program → Rehearsal → Bool × Rehearsal
  | [], r => (false, r)
  | (limit, action) :: rest, r =>
    if limit.any (· < count) then runProgram count rest r
    else
      match action with
      | .panic => (true, r)
      | action =>
        let (answer, r) := r.perform action
        runProgram count rest { r with log := r.log ++ [.did action answer] }

/-- Lets the coordinator run until it meets the sentinel or waits. The sentinel's
callback is kept from the pool. `fuel` bounds the number of steps. -/
def lead (r : Rehearsal) : Nat → Pumping × Rehearsal
  | 0 => (.blocked, r)
  | fuel + 1 =>
    let s := r.scheduler
    if s.waiting = none ∧ s.heap.root? = some sentinel then
      let (_, heap, table) := s.heap.remove s.table sentinel
      (.held, { r with scheduler := { s with
        heap, table, counts := { s.counts with fired := s.counts.fired + 1 } } })
    else
      match s.coordinate now with
      | none => (.blocked, r)
      | some s => { r with scheduler := s }.lead fuel

/-- Leads the coordinator on from where it is. -/
def leadOn (r : Rehearsal) : Pumping × Rehearsal := r.lead (r.scheduler.pending + 2)

/-- Queues the sentinel at a time. -/
def postSentinel (r : Rehearsal) (wake : Nat) : Rehearsal :=
  { r with scheduler := (r.scheduler.queueAt sentinel wake).2 }

/-- Queues the sentinel behind what is due and leads the coordinator there. -/
def pump (r : Rehearsal) : Pumping × Rehearsal :=
  if r.scheduler.stopped then (.stopped, r)
  else if r.scheduler.waiting.isSome then (.blocked, r)
  else (r.postSentinel sentinelWake).leadOn

/-- Lets the pool run its first callback. When that frees the permit for which
the coordinator waits, the coordinator goes on. -/
def run (r : Rehearsal) : Running × Rehearsal :=
  match r.scheduler.start 0 with
  | none => (.idle, r)
  | some (task, s) =>
    let t := task.timer - 1
    let count := r.firings.getD t 0 + 1
    let r := { r with
      scheduler := s
      firings := r.firings.set t count
      log := r.log ++ [.fired t count] }
    let (panicked, r) := runProgram count (r.programs.getD t []) r
    let r := { r with scheduler := r.scheduler.finish 0 panicked }
    let r := if r.scheduler.waiting.isSome && task.permit then r.leadOn.2 else r
    (if task.permit then .ordinary else .urgent, r)

/-- A timer as a rehearsal is given it. -/
structure Given where
  owner : String
  urgent : Bool
  program : Program

/-- A scheduler whose coordinator already met the sentinel once. -/
def begin (settings : Settings.Scheduler) (timers : List Given) : Rehearsal :=
  let table : Table :=
    { entries := { urgent := true } ::
        timers.map fun g => { owner := g.owner, urgent := g.urgent } }
  let r : Rehearsal :=
    { scheduler := { Scheduler.create settings now with table := table }
      programs := timers.map (·.program)
      firings := timers.map fun _ => 0 }
  (r.postSentinel 0).leadOn.2

/-- What can be asked of a rehearsal. -/
inductive Request where
  | act (action : Action)
  | pump
  | run

/-- What a rehearsal replies. -/
inductive Reply where
  | answer (a : Answer)
  | pumping (p : Pumping)
  | running (r : Running)

/-- Answers one request, with an empty log to begin with. -/
def reply (r : Rehearsal) (q : Request) : Reply × Rehearsal :=
  let r := { r with log := [] }
  match q with
  | .act action => let (a, r) := r.perform action; (.answer a, r)
  | .pump => let (p, r) := r.pump; (.pumping p, r)
  | .run => let (x, r) := r.run; (.running x, r)

/-- The replies to a sequence of requests, each with the rehearsal it left. -/
def replies (r : Rehearsal) : List Request → List (Reply × Rehearsal)
  | [] => []
  | q :: qs =>
    let step := r.reply q
    step :: step.2.replies qs

/-- The rehearsal's timers that are queued. -/
def queuedTimers (r : Rehearsal) : List Nat :=
  (List.range r.programs.length).filter fun t => r.scheduler.isQueued (number t)

/-- What is known of a rehearsal's timer. -/
def timer (r : Rehearsal) (t : Nat) : Timer := r.scheduler.table.get (number t)

end Rehearsal

end LinkEngine.Timer

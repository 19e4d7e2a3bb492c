import LinkEngine.Failure
import LinkEngine.Settings.Sections

/-!
# The worker pool

A pool has two lanes of threads, one for requests and one kept for urgent work.
Each lane starts its tasks in the order in which they came, as many at once as
it has threads. A task may have to wait at a gate before it does its work; the
gate lets one task through for each ticket. `Pool.settle` lets everything happen
that can.
-/

namespace LinkEngine.Worker

/-- A task for the pool. A task that ends in a panic counts as completed like
any other, so nothing is said of that here. -/
structure Task where
  name : String
  urgent : Bool
  /-- It waits at the gate before it does its work. -/
  gated : Bool
  deriving DecidableEq, Repr

/-- What a pool counts. -/
structure Stats where
  submitted : Nat := 0
  completed : Nat := 0
  rejected : Nat := 0
  active : Nat := 0
  /-- The most tasks that ran at once. -/
  peak : Nat := 0
  deriving DecidableEq, Repr

/-- One lane: the name of its threads, their number, and its tasks. -/
structure Lane where
  threadName : String
  threads : Nat
  queue : List Task := []
  /-- Tasks that were started and wait at the gate. -/
  started : List Task := []
  deriving DecidableEq, Repr

/-- A pool with its lanes. -/
structure Pool where
  requests : Lane
  urgent : Lane
  stats : Stats := {}
  tickets : Nat := 0
  closed : Bool := false
  /-- The tasks that did their work, with the threads they ran on. -/
  log : List (String × String) := []
  deriving DecidableEq, Repr

namespace Pool

/-- A pool on a machine with so many processors. -/
def create (settings : Settings.Worker) (processors : Nat) : Pool :=
  { requests :=
      { threadName := settings.namePrefix ++ "-req"
        threads := match settings.threads with
          | .exactly n => n
          | .perProcessor n => n * processors }
    urgent :=
      { threadName := settings.namePrefix ++ "-pri", threads := max settings.priorityThreads 1 } }

/-- Why a closed pool refuses a task. -/
def closedFailure : Failure := .poolRejected "pool is shut down"

/-- A task does its work and ends. -/
def complete (p : Pool) (thread : String) (task : Task) : Pool :=
  { p with
    stats := { p.stats with active := p.stats.active - 1, completed := p.stats.completed + 1 }
    log := p.log ++ [(task.name, thread)] }

/-- A task begins to run. -/
def activate (p : Pool) : Pool :=
  { p with stats := { p.stats with
      active := p.stats.active + 1, peak := max p.stats.peak (p.stats.active + 1) } }

/-- The one thing a lane can do next: let a started task through the gate, or
start the next task. -/
def laneStep (p : Pool) (lane : Lane) : Option (Pool × Lane) :=
  match p.tickets, lane.started with
  | tickets + 1, task :: started =>
    some ({ p with tickets := tickets }.complete lane.threadName task,
      { lane with started := started })
  | _, _ =>
    match lane.queue with
    | task :: queue =>
      if lane.started.length < lane.threads then
        if task.gated then
          some (p.activate, { lane with queue := queue, started := lane.started ++ [task] })
        else some (p.activate.complete lane.threadName task, { lane with queue := queue })
      else none
    | [] => none

/-- Lets everything happen that can; `fuel` bounds the number of events. -/
def settleWithin (p : Pool) : Nat → Pool
  | 0 => p
  | fuel + 1 =>
    match p.laneStep p.requests with
    | some (p, lane) => { p with requests := lane }.settleWithin fuel
    | none =>
      match p.laneStep p.urgent with
      | some (p, lane) => { p with urgent := lane }.settleWithin fuel
      | none => p

/-- How many events may still happen in a lane. -/
def Lane.load (l : Lane) : Nat := 2 * l.queue.length + l.started.length

/-- Lets everything happen that can. -/
def settle (p : Pool) : Pool := p.settleWithin (Lane.load p.requests + Lane.load p.urgent)

/-- Hands a task to its lane; a closed pool refuses it. -/
def schedule (p : Pool) (task : Task) : Except Failure Unit × Pool :=
  if p.closed then
    (.error closedFailure, { p with stats := { p.stats with rejected := p.stats.rejected + 1 } })
  else
    let p := { p with stats := { p.stats with submitted := p.stats.submitted + 1 } }
    let p :=
      if task.urgent then { p with urgent := { p.urgent with queue := p.urgent.queue ++ [task] } }
      else { p with requests := { p.requests with queue := p.requests.queue ++ [task] } }
    (.ok (), p.settle)

/-- Gives the gate more tickets. -/
def openGate (p : Pool) (n : Nat) : Pool := { p with tickets := p.tickets + n }.settle

/-- Closes the pool. Tasks that were not started are thrown away. -/
def shutdown (p : Pool) : Pool :=
  { p with
    closed := true
    requests := { p.requests with queue := [] }
    urgent := { p.urgent with queue := [] } }

/-- What can be asked of a pool. -/
inductive Request where
  | schedule (task : Task)
  | openGate (n : Nat)
  /-- Waits until as many tasks are completed. -/
  | awaitCompleted (n : Nat)
  /-- Waits until as many tasks run. -/
  | awaitActive (n : Nat)
  | stats
  | shutdown
  deriving DecidableEq, Repr

/-- What a pool answers. -/
inductive Answer where
  | done
  | refused (f : Failure)
  | flag (b : Bool)
  | stats (s : Stats)
  | nothing
  deriving DecidableEq, Repr

/-- What is told of the log: all that is new, at the requests that look at
it. -/
def tell (p : Pool) : List (String × String) × Pool := (p.log, { p with log := [] })

/-- Answers one request, with what it tells of the log. -/
def answer (p : Pool) : Request → Answer × List (String × String) × Pool
  | .schedule task =>
    match p.schedule task with
    | (.ok (), p) => (.done, [], p)
    | (.error f, p) => (.refused f, [], p)
  | .openGate n => (.nothing, [], p.openGate n)
  | .awaitCompleted n => (.flag (n ≤ p.stats.completed), p.tell)
  | .awaitActive n => (.flag (n ≤ p.stats.active), [], p)
  | .stats => (.stats p.stats, p.tell)
  | .shutdown => (.nothing, [], p.shutdown)

/-- The answers to a sequence of requests. -/
def answers (p : Pool) : List Request → List (Answer × List (String × String))
  | [] => []
  | r :: rs =>
    let (a, told, p) := p.answer r
    (a, told) :: p.answers rs

end Pool

end LinkEngine.Worker

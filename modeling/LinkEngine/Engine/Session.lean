import LinkEngine.Engine.Accepting
import LinkEngine.Engine.Polling

/-!
# Leading an engine by hand

A session works on an engine with one listener, one command after the other, and
reports after each what can be seen from outside: the reply, the length of the
task queue, the live connections, the counters that changed, and for each link
whose looks changed, or that noted or sent something, what is new of it.
-/

namespace LinkEngine.Engine

open Connection (CloseReason Counter)
open Text (Bytes)

namespace Session

/-- The listener of a session. -/
def listener : Nat := 0

/-- How an engine is set up for a session. -/
structure Setup where
  settings : Settings.Listener := {}
  scheduler : Settings.Scheduler := {}
  multiplexer : Option Multiplexer := none
  /-- The signal was triggered before. -/
  triggered : Option Shutdown.Reason := none
  /-- The scheduler was shut down before. -/
  schedulerStopped : Bool := false

/-- An engine set up with its listener, or the failure to build that. -/
def open? (x : Setup) : Except Failure Engine :=
  let s := Engine.create x.scheduler 0
  let s := { s with signal := x.triggered }
  let s := if x.schedulerStopped then { s with scheduler := s.scheduler.shutdown } else s
  match s.build x.settings x.multiplexer with
  | (.error f, _) => .error f
  | (.ok (), s) => .ok s

/-- What can be asked for. -/
inductive Command where
  | accept (arrival : Arrival)
  /-- The pool runs its first task. -/
  | run
  /-- The pool runs its tasks until there is none. -/
  | runAll
  | operate (op : Operation)
  /-- Whether all connections are gone. -/
  | drain
  /-- Whether the listener knows a link. -/
  | registered (link : Nat)
  | buffers
  /-- Nobody outside refers to a link any more. -/
  | forget (link : Nat)
  /-- Waits for the watcher to have done its rounds. -/
  | awaitWatcher
  | stopWatcher

/-- What is replied. -/
inductive Reply where
  | acceptance (a : Acceptance)
  /-- The pool ran a task, or had none. -/
  | ran (b : Bool)
  | answer (a : Link.Answer)
  | pool (p : Stream.BufferPool)
  | watcher (w : Multiplexer.Watcher)

/-- More steps than any task takes that comes to an end. -/
def patience : Nat := 100000

/-- The pool runs its tasks until there is none. Answers how many. -/
def runAllWithin (s : Engine) : Nat → Nat × Engine
  | 0 => (0, s)
  | fuel + 1 =>
    if s.tasks.isEmpty then (0, s)
    else
      let (n, s) := runAllWithin (s.run 0 patience) fuel
      (n + 1, s)

/-- The watcher of the session's listener; one that watches nothing, where there
is none. -/
def watcher (s : Engine) : Multiplexer.Watcher := (s.watcher? listener).getD { places := 0 }

/-- The watcher does its rounds until nothing is left to do. -/
def settle (s : Engine) : Engine := s.pollRound listener |>.pollRound listener

/-- Carries out one command. -/
def obey (s : Engine) : Command → Reply × Engine
  | .accept arrival => let (a, s) := s.accept listener arrival; (.acceptance a, s)
  | .run =>
    if s.tasks.isEmpty then (.ran false, s) else (.ran true, s.run 0 patience)
  | .runAll => let (n, s) := runAllWithin s patience; (.answer (.count n), s)
  | .operate op => let (a, s) := s.perform 0 op; (.answer a, s)
  | .drain => (.answer (.flag (s.listener listener).tracker.isDrained), s)
  | .registered l => (.answer (.flag ((s.listener listener).registry.contains l)), s)
  | .buffers => (.pool (s.listener listener).buffers, s)
  | .forget l => (.answer .nothing, s.modifyLink l fun k => { k with held := false })
  | .awaitWatcher => let s := settle s; (.watcher (watcher s), s)
  | .stopWatcher =>
    let s := s.stopWatcher listener
    (.answer (.count (watcher s).watched), s)

/-! ## Reports -/

/-- What can be seen of a link as long as somebody refers to it. -/
structure Life where
  state : Connection.State
  request : Connection.Request
  closed : Bool
  closing : Bool
  reason : Option CloseReason
  deriving DecidableEq, Repr

/-- What can be seen of a slot. -/
structure Looks where
  /-- Input the socket still holds. -/
  left : Nat
  closes : Nat
  interrupts : Nat
  /-- The read timeout in milliseconds. -/
  timeout : Option Nat
  life : Option Life
  deriving DecidableEq, Repr

/-- What can be seen of a slot now. -/
def looks (s : Engine) (l : Nat) (slot : Slot) : Looks :=
  let socket := slot.socket
  { left := socket.input.length
    closes := socket.calls.close
    interrupts := socket.interrupts
    timeout := socket.readTimeout
    life := match slot with
      | .turnedAway _ => none
      | .link k =>
        if s.isReachable l then
          some
            { state := k.machine.state
              request := k.request
              closed := k.closed
              closing := s.isClosing k
              reason := k.closeReason }
        else none }

/-- A handler with one hook of its own says nothing of the others, and no handler
says when a hook ends or what the engine noted by itself. -/
def isShown (minimal : Bool) : Link.Note → Bool
  | .began hook => !minimal || hook = .request
  | .closing _ => !minimal
  | .did _ _ => true
  | _ => false

/-- The notes of a slot that are shown. -/
def notes : Slot → List Link.Note
  | .turnedAway _ => []
  | .link k => k.history.filter (isShown k.handler.minimal)

/-- What is new of a slot. -/
structure News where
  looks : Looks
  notes : List Link.Note
  sent : Bytes

/-- What is new of the slot at place `l`, if anything is. -/
def news? (before after : Engine) (l : Nat) : Option News :=
  match after.slots[l]? with
  | none => none
  | some slot =>
    let then? := before.slots[l]?
    let now := looks after l slot
    let fresh := (notes slot).drop (then?.elim 0 fun x => (notes x).length)
    let sent := slot.socket.sent.drop (then?.elim 0 fun x => x.socket.sent.length)
    if then?.map (looks before l) = some now ∧ fresh.isEmpty ∧ sent.isEmpty then none
    else some { looks := now, notes := fresh, sent := sent }

/-- What is reported after a command. -/
structure Report where
  reply : Reply
  tasks : Nat
  active : Nat
  /-- The counters that changed, with their values. -/
  counters : List (Counter × UInt64)
  /-- The links of which something is new. -/
  links : List (Nat × News)

/-- What is reported of a command, given the engine before and after it. -/
def report (reply : Reply) (before after : Engine) : Report :=
  let old := (before.listener listener).stats
  let new := (after.listener listener).stats
  { reply
    tasks := after.tasks.length
    active := (after.listener listener).tracker.active
    counters := (Counter.all.filter fun c => old.get c ≠ new.get c).map fun c => (c, new.get c)
    links := (List.range after.slots.length).filterMap fun l =>
      (news? before after l).map fun n => (l, n) }

/-- The reports of a sequence of commands, with the engine they leave. A command
may wait for the watcher before it is reported. -/
def reports (s : Engine) : List (Command × Bool) → List Report × Engine
  | [] => ([], s)
  | (c, waits) :: cs =>
    let (reply, after) := obey s c
    let after := if waits then settle after else after
    let (rs, last) := reports after cs
    (report reply s after :: rs, last)

end Session

end LinkEngine.Engine

import LinkEngine.Connection.Stats
import LinkEngine.Link.Basic
import LinkEngine.Multiplexer.Watcher
import LinkEngine.Settings.Sections
import LinkEngine.Shutdown.Tracker
import LinkEngine.Stream.BufferPool
import LinkEngine.Timer.Scheduler

/-!
# The engine

An `Engine` is a process with its listeners, their links, the pool of tasks
that drive the links, the scheduler of their deadlines and the shutdown signal
all listeners share. This module says what it consists of and how its parts are
reached; what happens in it is said in the modules after it.

Links are numbered in the order of the attempts to accept them. An attempt that
failed leaves the socket it was made with.
-/

namespace LinkEngine

open Connection (Counter)

/-- How the resting links of a listener are watched. -/
inductive Multiplexer where
  | scripted (script : List Multiplexer.Registration)
  | polling (watcher : Multiplexer.Watcher)
  deriving DecidableEq, Repr, Inhabited

/-- In which order a map of links lists them. The map has no order of its own, and
may rearrange its entries whenever it takes in another. -/
structure Listing where
  /-- How links are listed that were listed so before, but for the last one, which
  was just taken in. -/
  arrange : List Nat → List Nat
  perm (links : List Nat) : (arrange links).Perm links

namespace Listing

/-- Each link comes after those that were taken in before it. -/
def byAge : Listing := ⟨id, .refl⟩

instance : Inhabited Listing := ⟨byAge⟩

end Listing

/-- What a listener is built on, and has no say in. -/
structure Platform where
  /-- What its buffers are made in. -/
  storage : Stream.Storage := .doubling
  listing : Listing := .byAge

/-- A listener and what it keeps for its links. -/
structure Listener where
  settings : Settings.Listener := {}
  tracker : Shutdown.Tracker := {}
  stats : Connection.Stats := {}
  buffers : Stream.BufferPool
  listing : Listing := .byAge
  /-- The links that are registered, as they are listed. -/
  registry : List Nat := []
  /-- The timer of its housekeeping. -/
  housekeeping : Option Nat := none
  stopped : Bool := false
  multiplexer : Option Multiplexer := none
  deriving Inhabited

namespace Engine

/-- What a timer of the engine is for. -/
inductive Alarm where
  /-- The deadline of a wait of a link. -/
  | deadline (link generation : Nat)
  | housekeeping (listener : Nat)
  deriving DecidableEq, Repr

/-- A task in the pool. -/
structure Task where
  link : Nat
  entry : Link.Entry
  deriving DecidableEq, Repr

/-- A handle of a suspended request. -/
structure Handle where
  link : Nat
  generation : Nat
  deriving DecidableEq, Repr

/-- What became of an attempt to accept. -/
inductive Slot where
  | link (k : Link)
  | turnedAway (socket : Socket.Endpoint Operation)

/-- The link of a slot, if it has one. -/
def Slot.link? : Slot → Option Link
  | .link k => some k
  | .turnedAway _ => none

/-- The socket of a slot. -/
def Slot.socket : Slot → Socket.Endpoint Operation
  | .link k => k.stream.socket
  | .turnedAway socket => socket

/-- Works on the link of a slot, if it has one. -/
def Slot.withLink (f : Link → Link) : Slot → Slot
  | .link k => .link (f k)
  | .turnedAway socket => .turnedAway socket

/-- Works on the socket of a slot. -/
def Slot.withSocket (f : Socket.Endpoint Operation → Socket.Endpoint Operation) : Slot → Slot
  | .link k => .link (k.withSocket f)
  | .turnedAway socket => .turnedAway (f socket)

end Engine

open Engine in
/-- A process with its listeners and links. -/
structure Engine where
  listeners : List Listener := []
  slots : List Slot := []
  /-- Tasks in the pool, in the order in which they came. -/
  tasks : List Task := []
  /-- The pool takes no tasks. -/
  refusing : Bool := false
  scheduler : Timer.Scheduler
  /-- What each timer is for. -/
  alarms : List Alarm := []
  /-- The exact time. -/
  now : Nat := 0
  /-- Why the process shuts down, once it does. -/
  signal : Option Shutdown.Reason := none
  /-- The handles that were kept, the latest first. -/
  handles : List (String × Handle) := []

namespace Engine

/-! ## Links -/

/-- The link with this number, if there is one. -/
def link? (s : Engine) (l : Nat) : Option Link := s.slots[l]?.bind Slot.link?

/-- Works on a link. -/
def modifyLink (s : Engine) (l : Nat) (f : Link → Link) : Engine :=
  { s with slots := s.slots.modify l (Slot.withLink f) }

/-- Puts a link in the place of an earlier state of it. -/
def setLink (s : Engine) (l : Nat) (k : Link) : Engine := s.modifyLink l fun _ => k

/-- Writes into the history of a link. -/
def note (s : Engine) (l : Nat) (n : Link.Note) : Engine := s.modifyLink l (·.note n)

/-- Every link that was ever made. -/
def links (s : Engine) : List Link := s.slots.filterMap Slot.link?

/-- How many links are not closed. -/
def openLinks (s : Engine) : Nat := s.links.countP (!·.closed)

/-! ## Listeners -/

/-- The listener with this number. -/
def listener (s : Engine) (i : Nat) : Listener := s.listeners.getD i default

/-- Works on a listener. -/
def modifyListener (s : Engine) (i : Nat) (f : Listener → Listener) : Engine :=
  { s with listeners := s.listeners.modify i f }

/-- Counts something on a listener. -/
def count (s : Engine) (i : Nat) (c : Counter) : Engine :=
  s.modifyListener i fun x => { x with stats := x.stats.record c }

/-- A listener takes no more connections, because it was shut down or because
the process shuts down. -/
def isShuttingDown (s : Engine) (i : Nat) : Bool := (s.listener i).stopped || s.signal.isSome

/-- A link is to close. -/
def isClosing (s : Engine) (k : Link) : Bool := k.closing || s.isShuttingDown k.listener

/-- The reason a link closes for: the one that was asked for if it is to close,
else its own. -/
def closeReasonOr (s : Engine) (k : Link) (own : Connection.CloseReason) :
    Connection.CloseReason :=
  if s.isClosing k then k.requestedClose else own

/-- Somebody still refers to a link: the one who accepted it, its listener, or a
task. -/
def isReachable (s : Engine) (l : Nat) : Bool :=
  match s.link? l with
  | none => false
  | some k =>
    k.held || (s.listener k.listener).registry.contains l || s.tasks.any (·.link == l) ||
      k.isDriven

/-! ## Timers -/

/-- Makes a timer. -/
def newTimer (s : Engine) (a : Alarm) : Nat × Engine :=
  (s.alarms.length, { s with alarms := s.alarms ++ [a] })

/-- Queues a timer to fire after a delay. -/
def queueTimer (s : Engine) (t : Nat) (delay : Time.Duration) : Except Failure Unit × Engine :=
  let (r, scheduler) := s.scheduler.queue t s.now delay
  (r, { s with scheduler })

/-- Takes a timer out of the queue. -/
def cancelTimer (s : Engine) (t : Nat) : Engine :=
  { s with scheduler := (s.scheduler.cancel t).2 }

/-- Sets the deadline of the next wait of a link. Where that fails the wait has a
number but no deadline, and the history says so. -/
def arm (s : Engine) (l : Nat) (delay : Time.Duration) : Except Failure Unit × Engine :=
  match s.link? l with
  | none => (.ok (), s)
  | some k =>
    let k := { k with waitGeneration := k.waitGeneration + 1 }
    let (t, s) := (s.setLink l k).newTimer (.deadline l k.waitGeneration)
    match s.queueTimer t delay with
    | (.error f, s) => (.error f, s.note l (.unarmed f))
    | (.ok (), s) =>
      let s := s.setLink l { k with deadline := some t }
      match k.deadline with
      | some previous => (.ok (), s.cancelTimer previous)
      | none => (.ok (), s)

/-- Takes back the deadline of a wait, if there is one. What is left of it
belongs to no wait any more. -/
def disarm (s : Engine) (l : Nat) : Engine :=
  match s.link? l with
  | none => s
  | some k =>
    match k.deadline with
    | none => s
    | some t =>
      (s.setLink l { k with deadline := none, waitGeneration := k.waitGeneration + 1 }).cancelTimer t

/-- Time passes. The clock is sampled, and the timers that come due are handed
to their pool. -/
def elapse (s : Engine) (millis : Nat) : Engine :=
  let now := s.now + millis
  let scheduler := { s.scheduler with clock := s.scheduler.clock.sample now }
  { s with now, scheduler := scheduler.coordinateAll now (scheduler.pending + 1) }

end Engine

end LinkEngine

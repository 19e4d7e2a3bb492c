import LinkEngine.Engine.Accepting
import LinkEngine.Engine.Polling

/-!
# Runs of an engine

A run begins with an engine that was just created and consists of moves, in any
order. A task of the pool is not one move but several: it begins, and then takes
one step after the other, so the steps of tasks that run at the same time, and
whatever else happens, come between one another as they may. The same holds of
the timers' pool, which runs its callbacks in any order.

Whatever hooks, sockets, multiplexers and the platform of a listener do is written
down in what the moves bring in, so the moves decide the whole run.
-/

namespace LinkEngine.Engine

/-- What can happen next in a run. -/
inductive Move where
  /-- A listener is built. -/
  | build (settings : Settings.Listener) (multiplexer : Option Multiplexer)
    (platform : Platform := {})
  /-- A connection is brought to a listener. -/
  | accept (listener : Nat) (arrival : Arrival)
  /-- The pool begins the task at this place of its queue. -/
  | begin (place : Nat)
  /-- The task that drives this link takes a step. -/
  | advance (link : Nat)
  /-- An operation is done, in the context of a link. -/
  | perform (self : Nat) (op : Operation)
  /-- Somebody wakes a suspended request through a copy of a handle. -/
  | wake (handle : Handle)
  /-- Time passes, and the coordinator of the timers sleeps on. -/
  | pass (millis : Nat)
  /-- The coordinator of the timers takes its steps. -/
  | coordinate
  /-- The timers' pool runs the callback at this place of its queue. -/
  | fire (place : Nat)
  /-- The watcher of a listener does one round. -/
  | poll (listener : Nat)
  /-- The watcher of a listener is stopped. -/
  | stopWatcher (listener : Nat)
  /-- Nobody outside refers to a link any more. -/
  | forget (link : Nat)

/-- The engine after a move. -/
def move : Move → Engine → Engine
  | .build settings multiplexer platform, s => (s.build settings multiplexer platform).2
  | .accept i arrival, s => if i < s.listeners.length then (s.accept i arrival).2 else s
  | .begin place, s => begin place s
  | .advance l, s => advance l s
  | .perform self op, s => (perform self op s).2
  | .wake h, s => (wakeComet tearDown h s).2
  | .pass millis, s => { s with now := s.now + millis }
  | .coordinate, s =>
    { s with scheduler := s.scheduler.coordinateAll s.now (s.scheduler.pending + 1) }
  | .fire place, s => (runTimer tearDown place s).getD s
  | .poll i, s => s.pollRound i
  | .stopWatcher i, s => s.stopWatcher i
  | .forget l, s => s.modifyLink l fun k => { k with held := false }

/-- The engine after a sequence of moves. -/
def follow (moves : List Move) (s : Engine) : Engine := moves.foldl (fun s m => move m s) s

/-- The engine after a run: it was created at `now`, and `moves` is what happened
since. -/
def after (settings : Settings.Scheduler) (now : Nat) (moves : List Move) : Engine :=
  follow moves (create settings now)

@[simp] theorem follow_nil (s : Engine) : follow [] s = s := rfl

@[simp] theorem follow_cons (m : Move) (moves : List Move) (s : Engine) :
    follow (m :: moves) s = follow moves (move m s) := rfl

@[simp] theorem follow_append (moves more : List Move) (s : Engine) :
    follow (moves ++ more) s = follow more (follow moves s) :=
  List.foldl_append ..

/-- A run goes on from where it was. -/
theorem after_append (settings : Settings.Scheduler) (now : Nat) (moves more : List Move) :
    after settings now (moves ++ more) = follow more (after settings now moves) :=
  follow_append moves more _

/-- A run goes on by one move. -/
theorem after_concat (settings : Settings.Scheduler) (now : Nat) (moves : List Move) (m : Move) :
    after settings now (moves ++ [m]) = move m (after settings now moves) :=
  after_append settings now moves [m]

/-- What holds at the beginning and is kept by each move holds throughout a
run. -/
theorem after_induction {P : Engine → Prop} {settings : Settings.Scheduler} {now : Nat}
    (h0 : P (create settings now)) (hstep : ∀ m s, P s → P (move m s)) (moves : List Move) :
    P (after settings now moves) := by
  suffices h : ∀ moves s, P s → P (follow moves s) from h moves _ h0
  intro moves
  induction moves with
  | nil => exact fun s hs => hs
  | cons m moves ih => exact fun s hs => ih _ (hstep m s hs)

end LinkEngine.Engine

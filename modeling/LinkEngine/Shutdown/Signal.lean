/-!
# The shutdown signal

A `Signal` is raised once, with a reason that never changes afterwards. Hooks
registered before it is raised wait and run in order when it is; a hook
registered later runs at once. A hook may itself trigger the signal and
register further hooks, so it is given here as a small program, `Hook`, and
running one is recursion on that program.
-/

namespace LinkEngine.Shutdown

/-- Why the process shuts down. -/
inductive Reason where
  | requested
  | outOfMemory
  | fatal
  deriving DecidableEq, Repr, Inhabited

namespace Reason

/-- Every reason, in a fixed order. -/
def all : List Reason := [.requested, .outOfMemory, .fatal]

/-- The phrase shown to people. -/
def phrase : Reason → String
  | .requested => "requested"
  | .outOfMemory => "out of memory"
  | .fatal => "fatal error"

end Reason

/-- What a hook does, step by step. -/
inductive Hook where
  | done
  /-- Notes that the hook of this name runs. -/
  | note (name : String) (next : Hook)
  /-- Triggers the signal, and notes whether that raised it. -/
  | trigger (reason : Reason) (next : Hook)
  /-- Registers another hook. -/
  | register (hook : Hook) (next : Hook)
  deriving DecidableEq, Repr, Inhabited

/-- What hooks note. -/
inductive Note where
  | ran (name : String) (reason : Reason)
  | triggered (won : Bool)
  deriving DecidableEq, Repr

/-- Runs a hook under a signal that was raised for `reason`. Triggering again
does not win, and a hook registered by the hook runs inside the
registration. -/
def Hook.run (reason : Reason) : Hook → List Note
  | .done => []
  | .note name next => .ran name reason :: next.run reason
  | .trigger _ next => .triggered false :: next.run reason
  | .register hook next => hook.run reason ++ next.run reason

/-- A signal with the hooks that wait for it. -/
structure Signal where
  reason : Option Reason := none
  waiting : List Hook := []
  deriving DecidableEq, Repr, Inhabited

namespace Signal

/-- The signal was raised. -/
def isTriggered (s : Signal) : Bool := s.reason.isSome

/-- Raises the signal, unless it is raised already, and runs the hooks that
waited for it in the order in which they were registered. -/
def trigger (s : Signal) (reason : Reason) : Bool × Signal × List Note :=
  match s.reason with
  | some _ => (false, s, [])
  | none =>
    (true, { reason := some reason, waiting := [] },
      (s.waiting.map (Hook.run reason)).flatten)

/-- Registers a hook. It waits for the signal, or runs at once if the signal
was raised. -/
def register (s : Signal) (hook : Hook) : Signal × List Note :=
  match s.reason with
  | some reason => (s, hook.run reason)
  | none => ({ s with waiting := s.waiting ++ [hook] }, [])

/-- What can be asked of a signal. -/
inductive Request where
  | trigger (reason : Reason)
  | register (hook : Hook)
  /-- Waits for the signal without a limit. -/
  | wait
  /-- Waits for the signal for a while. -/
  | waitFor
  deriving DecidableEq, Repr

/-- What a signal answers. -/
inductive Answer where
  | won (b : Bool)
  | registered
  | reason (r : Option Reason)
  /-- The caller would wait for ever. -/
  | blocks
  deriving DecidableEq, Repr

/-- Answers one request; the notes are those of the hooks that ran for it. -/
def answer (s : Signal) : Request → Answer × Signal × List Note
  | .trigger reason => let (won, s', notes) := s.trigger reason; (.won won, s', notes)
  | .register hook => let (s', notes) := s.register hook; (.registered, s', notes)
  | .wait => (if s.isTriggered then .reason s.reason else .blocks, s, [])
  | .waitFor => (.reason s.reason, s, [])

/-- The answers to a sequence of requests, each with the signal it left and the
notes made for it. -/
def answers (s : Signal) : List Request → List (Answer × Signal × List Note)
  | [] => []
  | r :: rs =>
    let step := s.answer r
    step :: answers step.2.1 rs

end Signal

end LinkEngine.Shutdown

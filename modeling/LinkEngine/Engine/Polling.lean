import LinkEngine.Engine.Driving

/-!
# The rounds of a polling multiplexer

What the `Watcher` of a listener does in one round, with its effect on the
links: those that rest no more are let go of, and those with input, or whose
peer closed, are notified.
-/

namespace LinkEngine.Engine

/-- A link rests and can be woken by a notice. -/
def isResting (s : Engine) (l : Nat) : Bool := (s.link? l).any (·.request = .keepalive)

/-- A poll reports the descriptor of a link. -/
def isReported (s : Engine) (l : Nat) : Bool :=
  (s.link? l).any (·.stream.socket.readiness ≠ .pending)

/-- The watcher of a listener, if it polls. -/
def watcher? (s : Engine) (i : Nat) : Option Multiplexer.Watcher :=
  match (s.listener i).multiplexer with
  | some (.polling w) => some w
  | _ => none

/-- Replaces the watcher of a listener. -/
def setWatcher (s : Engine) (i : Nat) (w : Multiplexer.Watcher) : Engine :=
  s.modifyListener i fun x => { x with multiplexer := some (.polling w) }

/-- Notifies links on behalf of a watcher, which counts those that woke. -/
def notifyWatched (i : Nat) (ls : List Nat) (s : Engine) : Engine :=
  ls.foldl (fun s l =>
    let (woke, s) := notify tearDown l s
    if woke then (s.watcher? i).elim s fun w => s.setWatcher i w.noteWoken else s) s

/-- One round of the watcher of a listener, in which the poll answers this. -/
def pollRoundWith (poll : Multiplexer.Watcher.Poll) (i : Nat) (s : Engine) : Engine :=
  match s.watcher? i with
  | none => s
  | some w =>
    if w.stopped then s
    else
      let (out, w) := w.round s.isResting poll
      notifyWatched i out (s.setWatcher i w)

/-- One round of the watcher of a listener, in which the poll reports what there
is. -/
def pollRound (i : Nat) (s : Engine) : Engine :=
  pollRoundWith (fun ls => some (ls.map s.isReported)) i s

/-- Stops the watcher of a listener, which hands its links back. -/
def stopWatcher (i : Nat) (s : Engine) : Engine :=
  match s.watcher? i with
  | none => s
  | some w =>
    let (held, w) := w.stop
    held.foldl (fun s l => (notify tearDown l s).2) (s.setWatcher i w)

end LinkEngine.Engine

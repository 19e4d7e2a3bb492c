/-!
# The polling multiplexer

A `Watcher` keeps a list of watches, one for each resting connection that was
handed to it, and polls their descriptors round by round. In each round it takes
up what was registered meanwhile, lets go of the connections that no longer
rest, and takes out those the poll reported, which are then notified. When it
stops it hands back every connection it still holds.

A watch names its connection; which connections still rest, and what the poll
answers, are arguments. The answer is a list of marks in the order the watches had
when they were polled, and it is not brought up to date while watches are taken
out.
-/

namespace LinkEngine.Multiplexer

/-- The polling multiplexer. -/
structure Watcher where
  /-- How many connections are watched at once. -/
  places : Nat
  /-- Connections registered since the last round. -/
  incoming : List Nat := []
  /-- Connections that are polled. -/
  watches : List Nat := []
  /-- How many connections are watched. -/
  watched : Nat := 0
  /-- How many connections a notice woke. -/
  woken : Nat := 0
  /-- How many watches were let go of. -/
  pruned : Nat := 0
  stopped : Bool := false
  deriving DecidableEq, Repr, Inhabited

namespace Watcher

/-- Takes connection `l` to watch it, and answers whether it could. A connection
without a descriptor cannot be watched. -/
def register (w : Watcher) (l : Nat) (hasDescriptor : Bool) : Bool × Watcher :=
  if w.stopped || !hasDescriptor || w.places ≤ w.watched then (false, w)
  else (true, { w with incoming := w.incoming ++ [l], watched := w.watched + 1 })

/-- Takes up what was registered since the last round. -/
def absorb (w : Watcher) : Watcher := { w with watches := w.watches ++ w.incoming, incoming := [] }

/-- Lets go of the watches whose connection does not rest any more. -/
def prune (w : Watcher) (rests : Nat → Bool) : Watcher :=
  let kept := w.watches.filter rests
  let gone := w.watches.length - kept.length
  { w with watches := kept, pruned := w.pruned + gone, watched := w.watched - gone }

/-- Removes the element at place `i`; the last one takes its place. -/
def swapRemove (ws : List Nat) (i : Nat) : List Nat :=
  match ws.getLast? with
  | none => ws
  | some last => (ws.set i last).dropLast

/-- Takes out the watches at the marked places below `n`, from the last to the
first. Answers their connections in that order. -/
def extract (marks : List Bool) : Nat → List Nat → List Nat × List Nat
  | 0, ws => ([], ws)
  | n + 1, ws =>
    match marks[n]?, ws[n]? with
    | some true, some l =>
      let (out, rest) := extract marks n (swapRemove ws n)
      (l :: out, rest)
    | _, _ => extract marks n ws

/-- A poll of the descriptors of some connections. It marks, in their order, those
it has something to report of; one that fails answers nothing. -/
abbrev Poll := List Nat → Option (List Bool)

/-- One round: answers the connections to notify. -/
def round (w : Watcher) (rests : Nat → Bool) (poll : Poll) : List Nat × Watcher :=
  let w := w.absorb.prune rests
  match poll w.watches with
  | none => ([], w)
  | some marks =>
    let (out, kept) := extract marks w.watches.length w.watches
    (out, { w with watches := kept, watched := w.watched - out.length })

/-- A notice woke its connection. -/
def noteWoken (w : Watcher) : Watcher := { w with woken := w.woken + 1 }

/-- Stops, and answers the connections that were still held, in order. -/
def stop (w : Watcher) : List Nat × Watcher :=
  if w.stopped then ([], w)
  else
    (w.watches ++ w.incoming,
      { w with watches := [], incoming := [], watched := 0, stopped := true })

end Watcher

end LinkEngine.Multiplexer

import LinkEngine.Failure
import LinkEngine.Timer.Table

/-!
# The heap of queued timers

A heap keeps timer numbers so that no timer wakes before the one at half its
position; positions count from one. Each queued timer knows its position and
the number of the heap that holds it, so it can be moved or taken out without a
search, and no other heap touches it. The operations work on the heap together
with the table in which all heaps write.

Taking a timer out puts the last one into the gap, and the gap's new timer then
moves up or down to where it belongs.
-/

namespace LinkEngine.Timer

/-- A heap: its number, which is not zero, and the timers in the order of their
positions. -/
structure Heap where
  number : Nat
  items : List Nat := []
  deriving DecidableEq, Repr, Inhabited

namespace Heap

/-- The timer at a position. -/
def timerAt (h : Heap) (position : Nat) : Nat := h.items.getD (position - 1) 0

/-- How many timers are queued. -/
def size (h : Heap) : Nat := h.items.length

/-- No timer is queued. -/
def isEmpty (h : Heap) : Bool := h.items.isEmpty

/-- The timer at the root. -/
def root? (h : Heap) : Option Nat := h.items.head?

/-- The wake time of the timer at a position. -/
def wakeAt (h : Heap) (table : Table) (position : Nat) : Nat := (table.get (h.timerAt position)).wake

/-- The wake time of the root. -/
def nextWake? (h : Heap) (table : Table) : Option Nat := h.root?.map fun t => (table.get t).wake

/-- Puts timer `t` at a position, and tells it so. -/
def place (h : Heap) (table : Table) (position t : Nat) : Heap × Table :=
  ({ h with items := h.items.set (position - 1) t }, table.setPosition t position)

/-- Exchanges the timers at two positions. -/
def swap (h : Heap) (table : Table) (a b : Nat) : Heap × Table :=
  let x := h.timerAt a
  let y := h.timerAt b
  let (h, table) := h.place table a y
  h.place table b x

/-- Moves the timer at a position up until its parent does not wake later.
Answers where it came to rest. `fuel` is at least the position. -/
def siftUp : Heap → Table → Nat → Nat → Nat × Heap × Table
  | h, table, i, 0 => (i, h, table)
  | h, table, i, fuel + 1 =>
    if i ≤ 1 then (i, h, table)
    else if h.wakeAt table (i / 2) ≤ h.wakeAt table i then (i, h, table)
    else
      let (h, table) := h.swap table i (i / 2)
      siftUp h table (i / 2) fuel

/-- The position of the child that wakes first; of two that wake together, the
left one. -/
def earlierChild (h : Heap) (table : Table) (i : Nat) : Nat :=
  if 2 * i + 1 ≤ h.size ∧ h.wakeAt table (2 * i + 1) < h.wakeAt table (2 * i) then 2 * i + 1
  else 2 * i

/-- Moves the timer at a position down until no child wakes earlier. `fuel` is
at least the number of positions below it. -/
def siftDown : Heap → Table → Nat → Nat → Heap × Table
  | h, table, _, 0 => (h, table)
  | h, table, i, fuel + 1 =>
    if h.size < 2 * i then (h, table)
    else
      let child := h.earlierChild table i
      if h.wakeAt table i ≤ h.wakeAt table child then (h, table)
      else
        let (h, table) := h.swap table i child
        siftDown h table child fuel

/-- Mends the order at a position whose timer is new there. -/
def settle (h : Heap) (table : Table) (i : Nat) : Heap × Table :=
  if 1 < i ∧ h.wakeAt table i < h.wakeAt table (i / 2) then (h.siftUp table i i).2
  else h.siftDown table i h.size

/-- Takes out the timer at a position; the heap still counts as its holder. -/
def takeAt (h : Heap) (table : Table) (i : Nat) : Heap × Table :=
  let last := h.timerAt h.size
  let table := table.setPosition (h.timerAt i) 0
  let h := { h with items := (h.items.set (i - 1) last).dropLast }
  if i ≤ h.size then
    h.settle (table.setPosition last i) i
  else (h, table)

/-- Takes out the timer at a position and lets go of it. -/
def removeAt (h : Heap) (table : Table) (i : Nat) : Heap × Table :=
  let t := h.timerAt i
  let (h, table) := h.takeAt table i
  (h, table.setHolder t 0)

/-- Queues timer `t` to wake at `wake`, also if it is queued here already.
Answers whether it came to the root. A timer that another heap holds is
refused, and nothing changes. -/
def insert (h : Heap) (table : Table) (t wake : Nat) : Except Failure (Bool × Heap × Table) :=
  let entry := table.get t
  if entry.holder ≠ 0 ∧ entry.holder ≠ h.number then .error (.timerBusy t)
  else
    let table := table.setHolder t h.number
    let (h, table) :=
      if entry.position ≠ 0 then h.takeAt table entry.position else (h, table)
    let h := { h with items := h.items ++ [t] }
    let table := (table.setWake t wake).setPosition t h.size
    let (i, h, table) := h.siftUp table h.size h.size
    .ok (i == 1, h, table)

/-- Takes timer `t` out if it is queued here, and answers whether it was. -/
def remove (h : Heap) (table : Table) (t : Nat) : Bool × Heap × Table :=
  let entry := table.get t
  if entry.holder ≠ h.number then (false, h, table)
  else if entry.position = 0 ∨ h.size < entry.position ∨ h.timerAt entry.position ≠ t then
    (false, h, table)
  else (true, h.removeAt table entry.position)

/-- Takes out the root if it is due at `now`. -/
def popDue (h : Heap) (table : Table) (now : Nat) : Option (Nat × Heap × Table) :=
  match h.root? with
  | none => none
  | some t => if (table.get t).wake ≤ now then some (t, h.removeAt table 1) else none

/-- Takes out, one after the other, the timers that are due at `now`; `fuel` is
at least their number. -/
def popAll : Heap → Table → Nat → Nat → List Nat × Heap × Table
  | h, table, _, 0 => ([], h, table)
  | h, table, now, fuel + 1 =>
    match h.popDue table now with
    | none => ([], h, table)
    | some (t, h, table) =>
      let (ts, h, table) := popAll h table now fuel
      (t :: ts, h, table)

/-- Takes out everything and answers it in the order of the positions. -/
def drain (h : Heap) (table : Table) : List Nat × Heap × Table :=
  (h.items, { h with items := [] },
    h.items.foldl (fun table t => (table.setPosition t 0).setHolder t 0) table)

/-- Every timer in the heap wakes no earlier than its parent and knows its
position and its holder. -/
def isValid (h : Heap) (table : Table) : Bool :=
  (List.range h.size).all fun k =>
    let i := k + 1
    let entry := table.get (h.timerAt i)
    (i == 1 || h.wakeAt table (i / 2) ≤ entry.wake) &&
      entry.position == i && entry.holder == h.number

end Heap

end LinkEngine.Timer

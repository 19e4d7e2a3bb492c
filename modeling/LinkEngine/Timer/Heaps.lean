import LinkEngine.Timer.Heap

/-!
# Several heaps over the same timers

A timer is queued in at most one heap at a time; the table tells which. `Heaps`
is a row of heaps that share one table, and `Heaps.answer` one operation on one
of them.
-/

namespace LinkEngine.Timer

/-- A row of heaps with the timers they share. -/
structure Heaps where
  heaps : List Heap
  table : Table := {}
  deriving DecidableEq, Repr

namespace Heaps

/-- A row of `n` empty heaps, numbered from one. -/
def create (n : Nat) : Heaps := { heaps := (List.range n).map fun k => { number := k + 1 } }

/-- What can be asked of a heap. -/
inductive Request where
  | insert (timer wake : Nat)
  | remove (timer : Nat)
  | pop (now : Nat)
  | popAll (now : Nat)
  | drain
  deriving DecidableEq, Repr

/-- What a heap answers. -/
inductive Answer where
  /-- The timer is queued; the flag says whether it is the root. -/
  | inserted (root : Bool)
  | refused (f : Failure)
  | removed (was : Bool)
  | popped (timer : Option Nat)
  | timers (ts : List Nat)
  deriving DecidableEq, Repr

/-- One operation on one heap. -/
def operate (h : Heap) (table : Table) : Request → Answer × Heap × Table
  | .insert t wake =>
    match h.insert table t wake with
    | .ok (root, h, table) => (.inserted root, h, table)
    | .error f => (.refused f, h, table)
  | .remove t => let (was, h, table) := h.remove table t; (.removed was, h, table)
  | .pop now =>
    match h.popDue table now with
    | some (t, h, table) => (.popped (some t), h, table)
    | none => (.popped none, h, table)
  | .popAll now => let (ts, h, table) := h.popAll table now h.size; (.timers ts, h, table)
  | .drain => let (ts, h, table) := h.drain table; (.timers ts, h, table)

/-- The heap at a place in the row; beyond the row, one that holds nothing. -/
def heap (hs : Heaps) (k : Nat) : Heap := hs.heaps.getD k { number := 0 }

/-- One operation on the heap at a place in the row. -/
def answer (hs : Heaps) (k : Nat) (r : Request) : Answer × Heaps :=
  let (a, h, table) := operate (hs.heap k) hs.table r
  (a, { heaps := hs.heaps.set k h, table := table })

/-- The answers to a sequence of operations, each with the heaps it left. -/
def answers (hs : Heaps) : List (Nat × Request) → List (Answer × Heaps)
  | [] => []
  | (k, r) :: rs =>
    let step := hs.answer k r
    step :: step.2.answers rs

end Heaps

end LinkEngine.Timer

/-!
# Timers

A timer can be queued, fired and queued again any number of times. What is
known of each is kept in a `Table`: who made it, whether it is urgent, and,
written by the heap that holds it, its wake time and its position there. A
table answers for every number; one that was never written is an idle timer.
-/

namespace LinkEngine

/-- What is known of one timer. -/
structure Timer where
  owner : String := "timer"
  /-- Urgent timers pass the limit on callbacks under way. -/
  urgent : Bool := false
  /-- The wake time of the last queuing. -/
  wake : Nat := 0
  /-- The position in the heap that holds it; zero when none does. -/
  position : Nat := 0
  /-- The number of the heap that holds it; zero for none. -/
  holder : Nat := 0
  deriving DecidableEq, Repr, Inhabited

namespace Timer

/-- What is known of all timers, by their numbers. -/
structure Table where
  entries : List Timer := []
  deriving DecidableEq, Repr, Inhabited

namespace Table

/-- Writes an entry, with idle timers up to it where none was written. -/
def write (v : Timer) : List Timer → Nat → List Timer
  | [], 0 => [v]
  | [], t + 1 => {} :: write v [] t
  | _ :: es, 0 => v :: es
  | e :: es, t + 1 => e :: write v es t

/-- What is known of timer `t`. -/
def get (table : Table) (t : Nat) : Timer := table.entries.getD t {}

/-- Puts down what is known of timer `t`. -/
def set (table : Table) (t : Nat) (v : Timer) : Table :=
  { entries := write v table.entries t }

private theorem getD_write (v : Timer) (es : List Timer) (t u : Nat) :
    (write v es t).getD u {} = if u = t then v else es.getD u {} := by
  induction es, t using write.induct generalizing u with
  | case1 => cases u <;> simp [write]
  | case2 t ih =>
    cases u with
    | zero => simp [write]
    | succ u => simpa [write] using ih u
  | case3 e es => cases u <;> simp [write]
  | case4 e es t ih =>
    cases u with
    | zero => simp [write]
    | succ u => simpa [write] using ih u

@[simp] theorem get_set (table : Table) (t u : Nat) (v : Timer) :
    (table.set t v).get u = if u = t then v else table.get u :=
  getD_write v table.entries t u

/-- Writes the wake time of timer `t`. -/
def setWake (table : Table) (t wake : Nat) : Table :=
  table.set t { table.get t with wake := wake }

/-- Writes the position of timer `t`. -/
def setPosition (table : Table) (t position : Nat) : Table :=
  table.set t { table.get t with position := position }

/-- Writes the holder of timer `t`. -/
def setHolder (table : Table) (t holder : Nat) : Table :=
  table.set t { table.get t with holder := holder }

end Table

end Timer

end LinkEngine

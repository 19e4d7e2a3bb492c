import LinkEngine.Timer.Heap

/-!
# Which timers are urgent

Whether a timer is urgent is settled when it is made. What heaps write of the timers they
queue is where they are and when they wake, so no operation of theirs changes which timers
are urgent (`Table.urgency`).
-/

namespace LinkEngine.Timer

variable {h h' : Heap} {table table' : Table} {t now : Nat}

/-- Which timers are urgent. -/
def Table.urgency (table : Table) (t : Nat) : Bool := (table.get t).urgent

namespace Table

/-- Writing an entry with the same kind. -/
theorem urgency_set {v : Timer} (hv : v.urgent = (table.get t).urgent) :
    (table.set t v).urgency = table.urgency := by
  funext u
  rw [urgency, get_set]
  split
  next hu => rw [hu, hv, urgency]
  next => rfl

@[simp] theorem urgency_setWake (table : Table) (t wake : Nat) :
    (table.setWake t wake).urgency = table.urgency := urgency_set rfl

@[simp] theorem urgency_setPosition (table : Table) (t position : Nat) :
    (table.setPosition t position).urgency = table.urgency := urgency_set rfl

@[simp] theorem urgency_setHolder (table : Table) (t holder : Nat) :
    (table.setHolder t holder).urgency = table.urgency := urgency_set rfl

end Table

namespace Heap

@[simp] theorem urgency_swap (h : Heap) (table : Table) (a b : Nat) :
    (h.swap table a b).2.urgency = table.urgency := by
  simp only [swap, place, Table.urgency_setPosition]

@[simp] theorem urgency_siftUp (h : Heap) (table : Table) (i fuel : Nat) :
    (h.siftUp table i fuel).2.2.urgency = table.urgency := by
  induction fuel generalizing h table i with
  | zero => rfl
  | succ fuel ih =>
    unfold siftUp
    split
    · rfl
    · split
      · rfl
      · exact (ih ..).trans (urgency_swap ..)

@[simp] theorem urgency_siftDown (h : Heap) (table : Table) (i fuel : Nat) :
    (h.siftDown table i fuel).2.urgency = table.urgency := by
  induction fuel generalizing h table i with
  | zero => rfl
  | succ fuel ih =>
    unfold siftDown
    split
    · rfl
    · simp only
      split
      · rfl
      · exact (ih ..).trans (urgency_swap ..)

@[simp] theorem urgency_settle (h : Heap) (table : Table) (i : Nat) :
    (h.settle table i).2.urgency = table.urgency := by
  unfold settle
  split
  · exact urgency_siftUp ..
  · exact urgency_siftDown ..

@[simp] theorem urgency_takeAt (h : Heap) (table : Table) (i : Nat) :
    (h.takeAt table i).2.urgency = table.urgency := by
  unfold takeAt
  simp only
  split
  · simp only [urgency_settle, Table.urgency_setPosition]
  · exact Table.urgency_setPosition ..

@[simp] theorem urgency_removeAt (h : Heap) (table : Table) (i : Nat) :
    (h.removeAt table i).2.urgency = table.urgency := by
  simp only [removeAt, Table.urgency_setHolder, urgency_takeAt]

theorem urgency_insert {root : Bool} {wake : Nat} (hi : h.insert table t wake = .ok (root, h', table')) :
    table'.urgency = table.urgency := by
  unfold insert at hi
  simp only at hi
  split at hi
  · cases hi
  · simp only [Except.ok.injEq, Prod.mk.injEq] at hi
    rw [← hi.2.2, urgency_siftUp, Table.urgency_setPosition, Table.urgency_setWake]
    split
    · rw [urgency_takeAt, Table.urgency_setHolder]
    · exact Table.urgency_setHolder ..

@[simp] theorem urgency_remove (h : Heap) (table : Table) (t : Nat) :
    (h.remove table t).2.2.urgency = table.urgency := by
  unfold remove
  simp only
  split
  · rfl
  · split
    · rfl
    · exact urgency_removeAt ..

theorem urgency_popDue (hp : h.popDue table now = some (t, h', table')) :
    table'.urgency = table.urgency := by
  unfold popDue at hp
  split at hp
  · cases hp
  · split at hp
    · cases hp
      exact urgency_removeAt ..
    · cases hp

@[simp] theorem urgency_drain (h : Heap) (table : Table) :
    (h.drain table).2.2.urgency = table.urgency := by
  unfold drain
  simp only
  induction h.items generalizing table with
  | nil => rfl
  | cons t ts ih => rw [List.foldl_cons, ih, Table.urgency_setHolder, Table.urgency_setPosition]

end Heap

end LinkEngine.Timer

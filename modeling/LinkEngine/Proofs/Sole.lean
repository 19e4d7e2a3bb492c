import LinkEngine.Timer.Scheduler

/-!
# One scheduler, one heap

A timer is refused where another heap holds it. An engine has one scheduler and
that has one heap, so no other can: whatever is done to the scheduler, each timer
is held by its heap or by none (`Scheduler.Sole`), and the only failure to queue a
timer is that the scheduler was shut down (`queue_error`).
-/

namespace LinkEngine.Timer

open Time (Duration)

/-- No heap but the one with this number holds a timer. -/
def Table.HeldBy (table : Table) (n : Nat) : Prop :=
  ∀ t, (table.get t).holder = 0 ∨ (table.get t).holder = n

namespace Table.HeldBy

variable {table : Table} {n : Nat}

/-- Writing an entry that is held by no other heap. -/
private theorem set (h : table.HeldBy n) {t : Nat} {v : Timer}
    (hv : v.holder = 0 ∨ v.holder = n) : (table.set t v).HeldBy n := by
  intro u
  rw [get_set]
  split
  · exact hv
  · exact h u

theorem setWake (h : table.HeldBy n) (t wake : Nat) : (table.setWake t wake).HeldBy n :=
  h.set (h t)

theorem setPosition (h : table.HeldBy n) (t position : Nat) :
    (table.setPosition t position).HeldBy n :=
  h.set (h t)

theorem setHolder (h : table.HeldBy n) (t : Nat) {holder : Nat} (hh : holder = 0 ∨ holder = n) :
    (table.setHolder t holder).HeldBy n :=
  h.set hh

end Table.HeldBy

namespace Heap

/-- A heap and the table it writes in, in which no other heap holds a timer. -/
def Alone (n : Nat) (x : Heap × Table) : Prop := x.1.number = n ∧ x.2.HeldBy n

variable {h : Heap} {table : Table} {n : Nat}

theorem place_alone (ha : Alone n (h, table)) (position t : Nat) :
    Alone n (h.place table position t) :=
  ⟨ha.1, ha.2.setPosition t position⟩

theorem swap_alone (ha : Alone n (h, table)) (a b : Nat) : Alone n (h.swap table a b) :=
  place_alone (place_alone ha a _) b _

theorem siftUp_alone :
    ∀ (fuel : Nat) (h : Heap) (table : Table) (i : Nat), Alone n (h, table) →
      Alone n (h.siftUp table i fuel).2
  | 0, h, table, i, ha => ha
  | fuel + 1, h, table, i, ha => by
    unfold siftUp
    split
    · exact ha
    · split
      · exact ha
      · exact siftUp_alone fuel _ _ _ (swap_alone ha i (i / 2))

theorem siftDown_alone :
    ∀ (fuel : Nat) (h : Heap) (table : Table) (i : Nat), Alone n (h, table) →
      Alone n (h.siftDown table i fuel)
  | 0, h, table, i, ha => ha
  | fuel + 1, h, table, i, ha => by
    unfold siftDown
    split
    · exact ha
    · simp only
      split
      · exact ha
      · exact siftDown_alone fuel _ _ _ (swap_alone ha i _)

theorem settle_alone (ha : Alone n (h, table)) (i : Nat) : Alone n (h.settle table i) := by
  unfold settle
  split
  · exact siftUp_alone _ _ _ _ ha
  · exact siftDown_alone _ _ _ _ ha

theorem takeAt_alone (ha : Alone n (h, table)) (i : Nat) : Alone n (h.takeAt table i) := by
  unfold takeAt
  have hp := ha.2.setPosition (h.timerAt i) 0
  simp only
  split
  · refine settle_alone ?_ i
    exact ⟨ha.1, hp.setPosition _ i⟩
  · exact ⟨ha.1, hp⟩

theorem removeAt_alone (ha : Alone n (h, table)) (i : Nat) : Alone n (h.removeAt table i) := by
  have ht := takeAt_alone ha i
  exact ⟨ht.1, ht.2.setHolder _ (.inl rfl)⟩

/-- A timer that no other heap holds is taken. -/
theorem insert_alone (ha : Alone n (h, table)) (t wake : Nat) :
    ∃ root x, h.insert table t wake = .ok (root, x) ∧ Alone n x := by
  unfold insert
  -- The only heap that could have it is this one.
  have hfree : ¬ ((table.get t).holder ≠ 0 ∧ (table.get t).holder ≠ h.number) := by
    rw [ha.1]
    rcases ha.2 t with h0 | hn
    · exact fun hb => hb.1 h0
    · exact fun hb => hb.2 hn
  simp only
  rw [if_neg hfree]
  have hheld : Alone n (h, table.setHolder t h.number) :=
    ⟨ha.1, ha.2.setHolder t (.inr ha.1)⟩
  have htaken : Alone n (if (table.get t).position ≠ 0
      then h.takeAt (table.setHolder t h.number) (table.get t).position
      else (h, table.setHolder t h.number)) := by
    split
    · exact takeAt_alone hheld _
    · exact hheld
  exact ⟨_, _, rfl,
    siftUp_alone _ _ _ _ ⟨htaken.1, (htaken.2.setWake t wake).setPosition t _⟩⟩

theorem remove_alone (ha : Alone n (h, table)) (t : Nat) : Alone n (h.remove table t).2 := by
  unfold remove
  simp only
  split
  · exact ha
  · split
    · exact ha
    · exact removeAt_alone ha _

theorem popDue_alone (ha : Alone n (h, table)) {now t : Nat} {x : Heap × Table}
    (hp : h.popDue table now = some (t, x)) : Alone n x := by
  unfold popDue at hp
  split at hp
  · cases hp
  · split at hp
    · cases hp
      exact removeAt_alone ha 1
    · cases hp

theorem drain_alone (ha : Alone n (h, table)) : Alone n (h.drain table).2 := by
  refine ⟨ha.1, ?_⟩
  show ((h.items.foldl (fun table t => (table.setPosition t 0).setHolder t 0) table)).HeldBy n
  -- Each timer that is let go is held by none.
  have hfold : ∀ (ts : List Nat) (table : Table), table.HeldBy n →
      (ts.foldl (fun table t => (table.setPosition t 0).setHolder t 0) table).HeldBy n := by
    intro ts
    induction ts with
    | nil => exact fun _ h => h
    | cons t ts ih => exact fun _ h => ih _ ((h.setPosition t 0).setHolder t (.inl rfl))
  exact hfold _ _ ha.2

end Heap

namespace Scheduler

/-- The heap of the scheduler is the only one that holds timers. -/
def Sole (s : Scheduler) : Prop := Heap.Alone s.heap.number (s.heap, s.table)

variable {s : Scheduler}

private theorem sole_of_alone {x : Scheduler} {n : Nat} (h : Heap.Alone n (x.heap, x.table)) :
    x.Sole := by
  obtain ⟨rfl, ht⟩ := h
  exact ⟨rfl, ht⟩

/-- What does not touch the heap leaves it alone. -/
private theorem sole_congr {x : Scheduler} (h : s.Sole) (hh : x.heap = s.heap)
    (ht : x.table = s.table) : x.Sole := by
  unfold Sole
  rw [hh, ht]
  exact h

theorem create_sole (settings : Settings.Scheduler) (now : Nat) : (create settings now).Sole :=
  ⟨rfl, fun t => .inl (by cases t <;> rfl)⟩

private theorem queueAt_alone (h : s.Sole) (t wake : Nat) :
    (s.queueAt t wake).2.Sole ∧
      ∀ f, (s.queueAt t wake).1 = .error f → f = .schedulerShutdown := by
  unfold queueAt
  split
  · exact ⟨h, fun f hf => by cases hf; rfl⟩
  · obtain ⟨root, x, hx, ha⟩ := Heap.insert_alone h t wake
    rw [hx]
    exact ⟨sole_of_alone ha, fun f hf => by cases hf⟩

private theorem queue_alone (h : s.Sole) (t now : Nat) (delay : Duration) :
    (s.queue t now delay).2.Sole ∧
      ∀ f, (s.queue t now delay).1 = .error f → f = .schedulerShutdown := by
  unfold queue
  refine queueAt_alone ?_ t _
  split
  · exact sole_congr h rfl rfl
  · exact h

/-- **Queuing a timer fails only after the scheduler was shut down.** -/
theorem queue_error (h : s.Sole) {t now : Nat} {delay : Duration} {f : Failure}
    (hf : (s.queue t now delay).1 = .error f) : f = .schedulerShutdown :=
  (queue_alone h t now delay).2 f hf

theorem queue_sole (h : s.Sole) (t now : Nat) (delay : Duration) :
    (s.queue t now delay).2.Sole :=
  (queue_alone h t now delay).1

theorem cancel_sole (h : s.Sole) (t : Nat) : (s.cancel t).2.Sole := by
  unfold cancel
  simp only
  split
  · exact sole_of_alone (Heap.remove_alone h t)
  · exact h

private theorem heap_submit (s : Scheduler) (task : Task) :
    (s.submit task).heap = s.heap ∧ (s.submit task).table = s.table := by
  unfold submit drop giveBack
  split
  · split <;> exact ⟨rfl, rfl⟩
  · exact ⟨rfl, rfl⟩

private theorem heap_dispatch (s : Scheduler) (t : Nat) :
    (s.dispatch t).heap = s.heap ∧ (s.dispatch t).table = s.table := by
  unfold dispatch
  simp only
  split
  · exact heap_submit _ _
  · split
    · exact ⟨rfl, rfl⟩
    · exact heap_submit _ _

theorem coordinate_sole (h : s.Sole) {now : Nat} {x : Scheduler}
    (hx : s.coordinate now = some x) : x.Sole := by
  unfold coordinate at hx
  split at hx
  · cases hx
  · split at hx
    · split at hx
      · cases hx
      · cases hx
        exact sole_congr h (heap_submit _ _).1 (heap_submit _ _).2
    · split at hx
      · cases hx
      · next hp =>
        cases hx
        exact sole_congr (sole_of_alone (x := { s with heap := _, table := _ })
          (Heap.popDue_alone h hp)) (heap_dispatch _ _).1 (heap_dispatch _ _).2

theorem coordinateAll_sole :
    ∀ (fuel : Nat) (s : Scheduler) (now : Nat), s.Sole → (s.coordinateAll now fuel).Sole
  | 0, s, now, h => h
  | fuel + 1, s, now, h => by
    unfold coordinateAll
    split
    · exact h
    · next x hx => exact coordinateAll_sole fuel x now (coordinate_sole h hx)

theorem start_sole (h : s.Sole) {place : Nat} {task : Task} {x : Scheduler}
    (hx : s.start place = some (task, x)) : x.Sole := by
  unfold start at hx
  split at hx
  · cases hx
  · cases hx
    exact sole_congr h rfl rfl

theorem finish_sole (h : s.Sole) (place : Nat) (panicked : Bool) :
    (s.finish place panicked).Sole := by
  unfold finish giveBack
  split
  · exact h
  · simp only
    split <;> split <;> exact sole_congr h rfl rfl

theorem shutdown_sole (h : s.Sole) : s.shutdown.Sole := by
  unfold shutdown
  split
  · exact h
  · have hdrain : ∀ x : Scheduler, x.Sole →
        Sole { x with heap := (x.heap.drain x.table).2.1, table := (x.heap.drain x.table).2.2 } :=
      fun x hx => sole_of_alone (Heap.drain_alone hx)
    refine hdrain _ ?_
    simp only
    split
    · exact sole_congr h rfl rfl
    · split
      · exact sole_congr h rfl rfl
      · exact sole_congr h (heap_submit _ _).1 (heap_submit _ _).2

end Scheduler

end LinkEngine.Timer

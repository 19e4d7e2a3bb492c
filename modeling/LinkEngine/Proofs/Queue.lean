import LinkEngine.Proofs.Sift
import LinkEngine.Timer.Heaps

/-!
# One heap of timers

A heap as it should be (`Heap.Kept`) has its timers in order, each at the position it
knows of, and they are those that have the heap for their holder. Every operation
leaves the heap so, and of the table that it shares with other heaps it rewrites only
what it may: timers that it holds, or that nobody holds (`Minds`). Both together are
`Tended`, which is shown of each operation and so of `operate`.
-/

namespace LinkEngine.Timer

variable {h h' h'' : Heap} {table table' table'' : Table} {i j n t u wake now fuel : Nat}

/-- A timer that heap `n` may queue: it holds it, or nobody does. -/
def IsFor (n : Nat) (e : Timer) : Prop := e.holder = n ∨ e.holder = 0 ∧ e.position = 0

/-- Nothing was rewritten but timers that heap `n` may queue. -/
def Minds (n : Nat) (table table' : Table) : Prop :=
  ∀ t, table'.get t = table.get t ∨ IsFor n (table.get t) ∧ IsFor n (table'.get t)

/-- A timer that nobody holds has no position. -/
def Table.Idle (table : Table) : Prop := ∀ t, (table.get t).holder = 0 → (table.get t).position = 0

/-- A timer that no other heap holds. -/
theorem Table.Idle.isFor (hi : table.Idle)
    (hfree : ¬((table.get t).holder ≠ 0 ∧ (table.get t).holder ≠ n)) : IsFor n (table.get t) := by
  by_cases h0 : (table.get t).holder = 0
  · exact .inr ⟨h0, hi t h0⟩
  · exact .inl (not_not.1 fun hne => hfree ⟨h0, hne⟩)

theorem Minds.refl : Minds n table table := fun _ => .inl rfl

theorem Minds.trans (h₁ : Minds n table table') (h₂ : Minds n table' table'') :
    Minds n table table'' := by
  intro t
  rcases h₂ t with heq | ⟨hbefore, hafter⟩
  · rw [heq]
    exact h₁ t
  · rcases h₁ t with heq | ⟨hfirst, -⟩
    · exact .inr ⟨heq ▸ hbefore, hafter⟩
    · exact .inr ⟨hfirst, hafter⟩

theorem Minds.idle (h : Minds n table table') (hn : n ≠ 0) (hi : table.Idle) : table'.Idle := by
  intro t ht
  rcases h t with heq | ⟨-, hown | hfree⟩
  · rw [heq] at ht ⊢
    exact hi t ht
  · exact absurd (hown.symm.trans ht) hn
  · exact hfree.2

namespace Heap

/-- A heap as it should be: its timers know their positions, none wakes before its
parent, and they are those that have it for their holder. -/
structure Kept (h : Heap) (table : Table) : Prop where
  number : h.number ≠ 0
  indexed : h.Indexed table
  ordered : h.Ordered table
  holds : ∀ t, t ∈ h.items ↔ (table.get t).holder = h.number

/-- What an operation leaves: the heap as it should be, and other heaps' timers as
they were. -/
structure Tended (h : Heap) (table : Table) (h' : Heap) (table' : Table) : Prop where
  number : h'.number = h.number
  kept : h'.Kept table'
  minds : Minds h.number table table'

theorem Kept.tended (hk : h.Kept table) : Tended h table h table := ⟨rfl, hk, .refl⟩

theorem Tended.trans (h₁ : Tended h table h' table') (h₂ : Tended h' table' h'' table'') :
    Tended h table h'' table'' :=
  ⟨h₂.number.trans h₁.number, h₂.kept, h₁.minds.trans (h₁.number ▸ h₂.minds)⟩

/-! ## Taking out -/

/-- Everything is in order but the timer at `i` with its parent and its children. -/
structure GapReady (h : Heap) (table : Table) (i : Nat) : Prop where
  others : ∀ j, 1 < j → j ≤ h.size → j ≠ i → j / 2 ≠ i →
    h.wakeAt table (j / 2) ≤ h.wakeAt table j
  grand : 1 < i → ∀ j, j ≤ h.size → j / 2 = i → h.wakeAt table (i / 2) ≤ h.wakeAt table j

/-- A timer that is new at its position moves up or down to where it belongs. -/
theorem settle_spec (hi : h.IsPosition i) (hr : h.GapReady table i) :
    Shuffled h table (h.settle table i).1 (h.settle table i).2 ∧
      (h.settle table i).1.Ordered (h.settle table i).2 := by
  unfold settle
  split
  next hup =>
    refine siftUp_spec hi (Nat.le_refl i) ⟨fun j hj1 hjs hji => ?_, hr.grand⟩
    by_cases hchild : j / 2 = i
    · -- It wakes before its parent, so before its children.
      have := hr.grand hup.1 j hjs hchild
      rw [hchild]
      omega
    · exact hr.others j hj1 hjs hji hchild
  next hdown =>
    refine siftDown_spec hi (by have := hi.pos; omega) ⟨fun j hj1 hjs hchild => ?_, hr.grand⟩
    by_cases hji : j = i
    · subst hji
      exact Nat.le_of_not_lt fun hlt => hdown ⟨hj1, hlt⟩
    · exact hr.others j hj1 hjs hji hchild

/-- Timer `t` was taken out of the heap, which still counts as its holder. -/
structure Taken (h : Heap) (table : Table) (t : Nat) (h' : Heap) (table' : Table) : Prop where
  number : h'.number = h.number
  perm : h.items.Perm (t :: h'.items)
  out : t ∉ h'.items
  entry : ∀ u, ∃ p, table'.get u = { table.get u with position := p }
  away : ∀ u, u ∉ h.items → table'.get u = table.get u
  position : (table'.get t).position = 0
  indexed : h'.Indexed table'

theorem Taken.shuffled (ht : Taken h table t h' table') (hs : Shuffled h' table' h'' table'') :
    Taken h table t h'' table'' where
  number := hs.number.trans ht.number
  perm := ht.perm.trans (hs.perm.symm.cons t)
  out := mt hs.perm.mem_iff.1 ht.out
  entry u := by
    obtain ⟨p, hp⟩ := ht.entry u
    obtain ⟨q, hq⟩ := hs.entry u
    exact ⟨q, by rw [hq, hp]⟩
  away u hu := by
    have hu' : u ∉ h'.items := fun h => hu (ht.perm.mem_iff.2 (List.mem_cons_of_mem t h))
    rw [hs.away u hu', ht.away u hu]
  position := by rw [hs.away t ht.out, ht.position]
  indexed := hs.indexed ht.indexed

/-- The heap without the timer at `i`, the last one put into the gap. -/
def fillGap (h : Heap) (i : Nat) : Heap :=
  { h with items := (h.items.set (i - 1) (h.timerAt h.size)).dropLast }

theorem size_fillGap : (h.fillGap i).size = h.size - 1 := by
  simp [fillGap, size]

theorem isPosition_fillGap : (h.fillGap i).IsPosition j ↔ h.IsPosition j ∧ j ≠ h.size := by
  constructor
  · rintro ⟨hpos, hle⟩
    rw [size_fillGap] at hle
    exact ⟨⟨hpos, by omega⟩, by omega⟩
  · rintro ⟨⟨hpos, hle⟩, hne⟩
    exact ⟨hpos, by rw [size_fillGap]; omega⟩

theorem timerAt_fillGap (hi : h.IsPosition i) (hj : h.IsPosition j) (hne : j ≠ h.size) :
    (h.fillGap i).timerAt j = if j = i then h.timerAt h.size else h.timerAt j := by
  rw [timerAt_eq_getElem (isPosition_fillGap.2 ⟨hj, hne⟩).lt, timerAt_eq_getElem hj.lt]
  have := hi.pos
  have := hj.pos
  have hij : i - 1 = j - 1 ↔ j = i := by omega
  simp only [fillGap, List.getElem_dropLast, List.getElem_set, hij]

/-- Filling the gap takes out the timer and leaves the others. -/
theorem fillGap_perm (hi : h.IsPosition i) :
    h.items.Perm (h.timerAt i :: (h.fillGap i).items) := by
  have hn : h.items ≠ [] := by
    intro hnil
    have := hi.lt
    rw [hnil] at this
    exact absurd this (by simp)
  have hsize : h.IsPosition h.size := ⟨Nat.lt_of_lt_of_le hi.pos hi.le, Nat.le_refl _⟩
  have hlast : h.timerAt h.size = h.items.getLast hn := by
    rw [timerAt_eq_getElem hsize.lt, List.getLast_eq_getElem]
    rfl
  have hsplit := List.dropLast_append_getLast hn
  by_cases hend : i = h.size
  · subst hend
    have hset : h.items.set (h.size - 1) (h.timerAt h.size) = h.items := by
      rw [timerAt_eq_getElem hi.lt]
      exact List.set_getElem_self _
    simp only [fillGap, hset]
    rw [hlast]
    exact (List.Perm.of_eq hsplit.symm).trans (List.perm_append_singleton _ _)
  · have hlt : i - 1 < h.items.dropLast.length := by
      rw [List.length_dropLast]
      have := hi.pos
      have := hi.le
      simp only [size] at this hend
      omega
    have hset : (h.items.set (i - 1) (h.timerAt h.size)).dropLast =
        h.items.dropLast.set (i - 1) (h.timerAt h.size) := by
      apply List.ext_getElem <;> simp [List.getElem_set]
    have ht : h.timerAt i = h.items.dropLast[i - 1] := by
      rw [timerAt_eq_getElem hi.lt, List.getElem_dropLast]
    simp only [fillGap, hset]
    calc h.items
      List.Perm _ (h.items.dropLast ++ [h.timerAt h.size]) := .of_eq (by rw [hlast, hsplit])
      List.Perm _ (h.timerAt h.size :: h.items.dropLast) := List.perm_append_singleton _ _
      List.Perm _ (h.timerAt h.size :: h.timerAt i :: h.items.dropLast.eraseIdx (i - 1)) := by
        rw [ht]
        exact (List.getElem_cons_eraseIdx_perm hlt).symm.cons _
      List.Perm _ (h.timerAt i :: h.timerAt h.size :: h.items.dropLast.eraseIdx (i - 1)) := .swap ..
      List.Perm _ (h.timerAt i :: h.items.dropLast.set (i - 1) (h.timerAt h.size)) :=
        (List.set_perm_cons_eraseIdx hlt _).symm.cons _

/-- Taking out the last timer leaves no gap. -/
theorem fillGap_size_taken (hx : h.Indexed table) (hs : h.IsPosition h.size) :
    Taken h table (h.timerAt h.size) (h.fillGap h.size)
      (table.setPosition (h.timerAt h.size) 0) where
  number := rfl
  perm := fillGap_perm hs
  out := (List.nodup_cons.1 ((fillGap_perm hs).nodup_iff.1 hx.nodup)).1
  entry u := by
    rw [Table.setPosition, Table.get_set]
    split
    next hu => exact ⟨0, by rw [hu]⟩
    next => exact ⟨_, rfl⟩
  away u hu := by
    rw [Table.setPosition, Table.get_set, if_neg]
    rintro rfl
    exact hu (mem_items.2 ⟨_, hs, rfl⟩)
  position := by rw [Table.setPosition, Table.get_set, if_pos rfl]
  indexed j hj := by
    rw [isPosition_fillGap] at hj
    have hne : h.timerAt j ≠ h.timerAt h.size := fun heq => hj.2 (hx.injective hj.1 hs heq)
    rw [timerAt_fillGap hs hj.1 hj.2, if_neg hj.2, Table.setPosition, Table.get_set, if_neg hne,
      hx j hj.1]

/-- Taking out another timer puts the last one into the gap. -/
theorem fillGap_taken (hx : h.Indexed table) (hi : h.IsPosition i) (hne : i ≠ h.size) :
    Taken h table (h.timerAt i) (h.fillGap i)
      ((table.setPosition (h.timerAt i) 0).setPosition (h.timerAt h.size) i) := by
  have hs : h.IsPosition h.size := ⟨Nat.lt_of_lt_of_le hi.pos hi.le, Nat.le_refl _⟩
  have hlast : h.timerAt i ≠ h.timerAt h.size := fun heq => hne (hx.injective hi hs heq)
  have hget (u : Nat) :
      ((table.setPosition (h.timerAt i) 0).setPosition (h.timerAt h.size) i).get u =
        if u = h.timerAt h.size then { table.get u with position := i }
        else if u = h.timerAt i then { table.get u with position := 0 } else table.get u := by
    simp only [Table.setPosition, Table.get_set]
    split
    next hu => rw [hu, if_neg hlast.symm]
    next => split <;> simp_all
  refine ⟨rfl, fillGap_perm hi, ?_, fun u => ?_, fun u hu => ?_, ?_, fun j hj => ?_⟩
  · exact (List.nodup_cons.1 ((fillGap_perm hi).nodup_iff.1 hx.nodup)).1
  · rw [hget]
    split
    · exact ⟨i, rfl⟩
    · split
      · exact ⟨0, rfl⟩
      · exact ⟨_, rfl⟩
  · have haway {k : Nat} (hk : h.IsPosition k) : u ≠ h.timerAt k := by
      rintro rfl
      exact hu (mem_items.2 ⟨k, hk, rfl⟩)
    rw [hget, if_neg (haway hs), if_neg (haway hi)]
  · rw [hget, if_neg hlast, if_pos rfl]
  · rw [isPosition_fillGap] at hj
    rw [timerAt_fillGap hi hj.1 hj.2, hget]
    by_cases hji : j = i
    · rw [if_pos hji, if_pos rfl, hji]
    · have hjs : h.timerAt j ≠ h.timerAt h.size := fun heq => hj.2 (hx.injective hj.1 hs heq)
      have hjt : h.timerAt j ≠ h.timerAt i := fun heq => hji (hx.injective hj.1 hi heq)
      rw [if_neg hji, if_neg hjs, if_neg hjt, hx j hj.1]

/-- Wherever wake times are as they were, the last timer is new at the gap. -/
theorem wakeAt_fillGap (hi : h.IsPosition i) (hw : ∀ u, (table'.get u).wake = (table.get u).wake)
    (hj : h.IsPosition j) (hne : j ≠ h.size) :
    (h.fillGap i).wakeAt table' j = if j = i then h.wakeAt table h.size else h.wakeAt table j := by
  rw [wakeAt, hw, timerAt_fillGap hi hj hne]
  split <;> rfl

theorem fillGap_ready (ho : h.Ordered table) (hi : h.IsPosition i)
    (hw : ∀ u, (table'.get u).wake = (table.get u).wake) : (h.fillGap i).GapReady table' i := by
  have hat {j : Nat} (h0 : 0 < j) (hj : j ≤ h.size - 1) (hji : j ≠ i) :
      (h.fillGap i).wakeAt table' j = h.wakeAt table j := by
    rw [wakeAt_fillGap hi hw ⟨h0, by omega⟩ (by omega), if_neg hji]
  have := hi.pos
  constructor
  · intro j hj1 hjs hji hchild
    rw [size_fillGap] at hjs
    rw [hat (by omega) (by omega) hchild, hat (by omega) hjs hji]
    exact ho j hj1 (by omega)
  · intro h1 j hjs hchild
    rw [size_fillGap] at hjs
    rw [hat (by omega) (by omega) (by omega), hat (by omega) hjs (by omega)]
    -- The timer that was there stood between them.
    refine Nat.le_trans (ho i h1 hi.le) ?_
    have := ho j (by omega) (by omega)
    rwa [hchild] at this

theorem Taken.wake_eq (ht : Taken h table t h' table') (u : Nat) :
    (table'.get u).wake = (table.get u).wake := by
  obtain ⟨p, hp⟩ := ht.entry u
  rw [hp]

theorem Taken.holder_eq (ht : Taken h table t h' table') (u : Nat) :
    (table'.get u).holder = (table.get u).holder := by
  obtain ⟨p, hp⟩ := ht.entry u
  rw [hp]

/-- **Taking out** the timer at a position leaves the others in order. -/
theorem takeAt_taken (hx : h.Indexed table) (ho : h.Ordered table) (hi : h.IsPosition i) :
    Taken h table (h.timerAt i) (h.takeAt table i).1 (h.takeAt table i).2 ∧
      (h.takeAt table i).1.Ordered (h.takeAt table i).2 := by
  have hunfold : h.takeAt table i =
      if i ≤ (h.fillGap i).size then
        (h.fillGap i).settle ((table.setPosition (h.timerAt i) 0).setPosition (h.timerAt h.size) i) i
      else (h.fillGap i, table.setPosition (h.timerAt i) 0) := rfl
  rw [hunfold, size_fillGap]
  have := hi.pos
  have := hi.le
  by_cases hend : i = h.size
  · rw [if_neg (by omega)]
    subst hend
    have htaken := fillGap_size_taken hx hi
    refine ⟨htaken, fun j hj1 hjs => ?_⟩
    rw [size_fillGap] at hjs
    rw [wakeAt_fillGap hi htaken.wake_eq ⟨by omega, by omega⟩ (by omega), if_neg (by omega),
      wakeAt_fillGap hi htaken.wake_eq ⟨by omega, by omega⟩ (by omega), if_neg (by omega)]
    exact ho j hj1 (by omega)
  · rw [if_pos (by omega)]
    have htaken := fillGap_taken hx hi hend
    obtain ⟨hshuffled, hordered⟩ := settle_spec (isPosition_fillGap.2 ⟨hi, hend⟩)
      (fillGap_ready ho hi htaken.wake_eq)
    exact ⟨htaken.shuffled hshuffled, hordered⟩

/-! ## Removing -/

theorem Taken.mem_iff (ht : Taken h table t h' table') (u : Nat) :
    u ∈ h'.items ↔ u ∈ h.items ∧ u ≠ t := by
  rw [ht.perm.mem_iff, List.mem_cons]
  constructor
  · refine fun hu => ⟨.inr hu, ?_⟩
    rintro rfl
    exact ht.out hu
  · rintro ⟨rfl | hu, hne⟩
    · exact absurd rfl hne
    · exact hu

/-- A timer that was taken out is let go of, and the heap is as it should be. -/
theorem Taken.released (ht : Taken h table t h' table') (hk : h.Kept table)
    (ho : h'.Ordered table') : Tended h table h' (table'.setHolder t 0) := by
  have hget (u : Nat) : (table'.setHolder t 0).get u =
      if u = t then { table'.get u with holder := 0 } else table'.get u := by
    rw [Table.setHolder, Table.get_set]
    split
    next hu => rw [hu]
    next => rfl
  have hother {j : Nat} (hj : h'.IsPosition j) : h'.timerAt j ≠ t :=
    ((ht.mem_iff _).1 (mem_items.2 ⟨j, hj, rfl⟩)).2
  refine ⟨ht.number, ⟨?_, fun j hj => ?_, fun j hj1 hjs => ?_, fun u => ?_⟩, fun u => ?_⟩
  · rw [ht.number]
    exact hk.number
  · rw [hget, if_neg (hother hj)]
    exact ht.indexed j hj
  · rw [wakeAt, hget, if_neg (hother ⟨by omega, by omega⟩), wakeAt, hget,
      if_neg (hother ⟨by omega, hjs⟩)]
    exact ho j hj1 hjs
  · rw [ht.mem_iff, hget, hk.holds, ht.number]
    split
    next hu => exact ⟨fun h => absurd hu h.2, fun h => absurd h.symm hk.number⟩
    next hu =>
      rw [ht.holder_eq]
      exact and_iff_left hu
  · have hmem : t ∈ h.items := ht.perm.mem_iff.2 (List.mem_cons_self ..)
    rw [hget]
    split
    next hu =>
      rw [hu]
      exact .inr ⟨.inl ((hk.holds t).1 hmem), .inr ⟨rfl, ht.position⟩⟩
    next =>
      by_cases hu : u ∈ h.items
      · have hholder := (hk.holds u).1 hu
        exact .inr ⟨.inl hholder, .inl ((ht.holder_eq u).trans hholder)⟩
      · exact .inl (ht.away u hu)

/-- A timer that is removed is gone from the heap, and nothing else is. -/
theorem removeAt_tended (hk : h.Kept table) (hi : h.IsPosition i) :
    Tended h table (h.removeAt table i).1 (h.removeAt table i).2 ∧
      h.items.Perm (h.timerAt i :: (h.removeAt table i).1.items) := by
  obtain ⟨ht, ho⟩ := takeAt_taken hk.indexed hk.ordered hi
  exact ⟨ht.released hk ho, ht.perm⟩

/-- Removing a timer rewrites no wake time. -/
theorem wake_removeAt (hk : h.Kept table) (hi : h.IsPosition i) (u : Nat) :
    ((h.removeAt table i).2.get u).wake = (table.get u).wake := by
  simp only [removeAt, Table.setHolder, Table.get_set]
  have hwake := (takeAt_taken hk.indexed hk.ordered hi).1.wake_eq
  split
  next hu => rw [hu, hwake]
  next => exact hwake u

theorem Kept.isPosition (hk : h.Kept table) (ht : t ∈ h.items) :
    h.IsPosition (table.get t).position ∧ h.timerAt (table.get t).position = t := by
  obtain ⟨i, hi, rfl⟩ := mem_items.1 ht
  rw [hk.indexed i hi]
  exact ⟨hi, rfl⟩

/-- A timer that the heap holds is removed. -/
theorem remove_of_mem (hk : h.Kept table) (ht : t ∈ h.items) :
    h.remove table t = (true, h.removeAt table (table.get t).position) := by
  obtain ⟨hi, hat⟩ := hk.isPosition ht
  have := hi.pos
  have := hi.le
  unfold remove
  rw [if_neg (not_not_intro ((hk.holds t).1 ht)), if_neg]
  rintro (h0 | hlt | hne)
  · omega
  · omega
  · exact hne hat

/-- A timer that the heap does not hold is not removed, and nothing changes. -/
theorem remove_of_not_mem (hk : h.Kept table) (ht : t ∉ h.items) :
    h.remove table t = (false, h, table) := by
  unfold remove
  exact if_pos (mt (hk.holds t).2 ht)

theorem remove_tended (hk : h.Kept table) (t : Nat) :
    Tended h table (h.remove table t).2.1 (h.remove table t).2.2 := by
  by_cases ht : t ∈ h.items
  · rw [remove_of_mem hk ht]
    exact (removeAt_tended hk (hk.isPosition ht).1).1
  · rw [remove_of_not_mem hk ht]
    exact hk.tended

/-- The root is the timer at the first position. -/
theorem root?_eq_some : h.root? = some t ↔ h.IsPosition 1 ∧ h.timerAt 1 = t := by
  rw [root?, List.head?_eq_getElem?]
  constructor
  · intro ht
    obtain ⟨hlt, ht⟩ := List.getElem?_eq_some_iff.1 ht
    have hpos : h.IsPosition 1 := ⟨Nat.one_pos, hlt⟩
    exact ⟨hpos, (timerAt_eq_getElem hpos.lt).trans ht⟩
  · rintro ⟨hpos, rfl⟩
    exact List.getElem?_eq_some_iff.2 ⟨hpos.lt, (timerAt_eq_getElem hpos.lt).symm⟩

/-- What is popped is the root, which is due, and it is removed. -/
theorem popDue_eq_some : h.popDue table now = some (t, h', table') ↔
    h.root? = some t ∧ (table.get t).wake ≤ now ∧ h.removeAt table 1 = (h', table') := by
  unfold popDue
  split
  next hroot => simp [hroot]
  next r hroot =>
    rw [hroot]
    split
    next hdue =>
      constructor
      · intro hp
        obtain ⟨rfl, hremoved⟩ := Prod.mk.inj (Option.some.inj hp)
        exact ⟨rfl, hdue, hremoved⟩
      · rintro ⟨hrt, -, hremoved⟩
        rw [← Option.some.inj hrt, hremoved]
    next hdue =>
      constructor
      · intro hp
        cases hp
      · rintro ⟨hrt, hle, -⟩
        exact absurd (Option.some.inj hrt ▸ hle) hdue

theorem popDue_tended (hk : h.Kept table) (hp : h.popDue table now = some (t, h', table')) :
    Tended h table h' table' := by
  obtain ⟨hroot, -, hremoved⟩ := popDue_eq_some.1 hp
  have htended := (removeAt_tended hk (root?_eq_some.1 hroot).1).1
  rwa [hremoved] at htended

theorem popAll_tended (hk : h.Kept table) :
    Tended h table (h.popAll table now fuel).2.1 (h.popAll table now fuel).2.2 := by
  induction fuel generalizing h table with
  | zero => exact hk.tended
  | succ fuel ih =>
    rw [popAll]
    split
    · exact hk.tended
    next hp =>
      have htended := popDue_tended hk hp
      exact htended.trans (ih htended.kept)

/-! ## Queuing -/

/-- Timer `t` is about to be queued: the heap has it no more, if it ever did, and is
its holder. -/
structure Cleared (h : Heap) (table : Table) (t : Nat) (h' : Heap) (table' : Table) : Prop where
  number : h'.number = h.number
  perm : h'.items.Perm (h.items.erase t)
  out : t ∉ h'.items
  holder : (table'.get t).holder = h.number
  entry : ∀ u, u ≠ t → ∃ p, table'.get u = { table.get u with position := p }
  away : ∀ u, u ≠ t → u ∉ h.items → table'.get u = table.get u
  indexed : h'.Indexed table'
  ordered : h'.Ordered table'

/-- The heap and the table in which timer `t` is about to be queued. -/
def clear (h : Heap) (table : Table) (t : Nat) : Heap × Table :=
  if (table.get t).position ≠ 0 then
    h.takeAt (table.setHolder t h.number) (table.get t).position
  else (h, table.setHolder t h.number)

theorem clear_cleared (hk : h.Kept table) (ht : IsFor h.number (table.get t)) :
    Cleared h table t (h.clear table t).1 (h.clear table t).2 := by
  have hget (u : Nat) : (table.setHolder t h.number).get u =
      if u = t then { table.get u with holder := h.number } else table.get u := by
    rw [Table.setHolder, Table.get_set]
    split
    next hu => rw [hu]
    next => rfl
  have hindexed : h.Indexed (table.setHolder t h.number) := by
    intro j hj
    rw [hget]
    split
    next => exact hk.indexed j hj
    next => exact hk.indexed j hj
  have hordered : h.Ordered (table.setHolder t h.number) := by
    have hwake (j : Nat) : h.wakeAt (table.setHolder t h.number) j = h.wakeAt table j := by
      rw [wakeAt, hget]
      split <;> rfl
    intro j hj1 hjs
    rw [hwake, hwake]
    exact hk.ordered j hj1 hjs
  unfold clear
  split
  next hp =>
    -- It has a position, so it is queued here.
    have hmem : t ∈ h.items := (hk.holds t).2 (ht.resolve_right fun hfree => hp hfree.2)
    obtain ⟨hi, hat⟩ := hk.isPosition hmem
    obtain ⟨htaken, ho⟩ := takeAt_taken hindexed hordered hi
    rw [hat] at htaken
    refine ⟨htaken.number, ?_, htaken.out, ?_, fun u hu => ?_, fun u hu hmem => ?_,
      htaken.indexed, ho⟩
    · have := htaken.perm.erase t
      rw [List.erase_cons_head] at this
      exact this.symm
    · rw [htaken.holder_eq, hget, if_pos rfl]
    · obtain ⟨p, hp⟩ := htaken.entry u
      exact ⟨p, by rw [hp, hget, if_neg hu]⟩
    · rw [htaken.away u hmem, hget, if_neg hu]
  next hp =>
    have hout : t ∉ h.items := fun hmem => hp (Nat.ne_of_gt (hk.isPosition hmem).1.pos)
    refine ⟨rfl, ?_, hout, ?_, fun u hu => ⟨(table.get u).position, ?_⟩, fun u hu _ => ?_,
      hindexed, hordered⟩
    · rw [List.erase_of_not_mem hout]
    · rw [hget, if_pos rfl]
    · rw [hget, if_neg hu]
    · rw [hget, if_neg hu]

/-- The heap with timer `t` put last. -/
def push (h : Heap) (t : Nat) : Heap := { h with items := h.items ++ [t] }

theorem size_push : (h.push t).size = h.size + 1 := by
  simp [push, size]

theorem timerAt_push (hi : (h.push t).IsPosition i) :
    (h.push t).timerAt i = if i = h.size + 1 then t else h.timerAt i := by
  have := hi.pos
  have hle := hi.le
  rw [size_push] at hle
  rw [timerAt_eq_getElem hi.lt]
  simp only [push]
  split
  next hend => simp [hend, size]
  next hne =>
    have hlt : h.IsPosition i := ⟨hi.pos, by omega⟩
    rw [List.getElem_append_left, timerAt_eq_getElem hlt.lt]

/-- A timer that was put last is where it says, and moves up from there. -/
theorem push_ready (hx : h.Indexed table) (ho : h.Ordered table) (ht : t ∉ h.items)
    (hget : ∀ u, u ≠ t → table'.get u = table.get u)
    (hposition : (table'.get t).position = (h.push t).size) :
    (h.push t).Indexed table' ∧ (h.push t).UpReady table' (h.push t).size := by
  rw [size_push] at hposition
  have hother {j : Nat} (hj : h.IsPosition j) : h.timerAt j ≠ t := by
    rintro rfl
    exact ht (mem_items.2 ⟨j, hj, rfl⟩)
  have hwake {j : Nat} (hj : h.IsPosition j) : (h.push t).wakeAt table' j = h.wakeAt table j := by
    rw [wakeAt, timerAt_push ⟨hj.pos, by rw [size_push]; exact Nat.le_succ_of_le hj.le⟩,
      if_neg (Nat.ne_of_lt (Nat.lt_succ_of_le hj.le)), hget _ (hother hj), wakeAt]
  refine ⟨fun j hj => ?_, fun j hj1 hjs hne => ?_, fun _ j hjs hj => ?_⟩
  · have hle := hj.le
    rw [size_push] at hle
    rw [timerAt_push hj]
    split
    next hend => rw [hposition, hend]
    next hne =>
      have hj' : h.IsPosition j := ⟨hj.pos, by omega⟩
      rw [hget _ (hother hj'), hx j hj']
  · rw [size_push] at hjs hne
    rw [hwake ⟨by omega, by omega⟩, hwake ⟨by omega, by omega⟩]
    exact ho j hj1 (by omega)
  · omega

/-- A timer that the heap may queue is put last, wherever it was, and moves up. -/
theorem insert_eq (ht : IsFor h.number (table.get t)) (wake : Nat) :
    h.insert table t wake =
      let cleared := h.clear table t
      let pushed := cleared.1.push t
      let sifted := pushed.siftUp ((cleared.2.setWake t wake).setPosition t pushed.size)
        pushed.size pushed.size
      .ok (sifted.1 == 1, sifted.2.1, sifted.2.2) := by
  have hfree : ¬((table.get t).holder ≠ 0 ∧ (table.get t).holder ≠ h.number) := by
    rintro ⟨h0, hne⟩
    exact ht.elim hne fun h => h0 h.1
  unfold insert
  rw [if_neg hfree]
  rfl

/-- What queuing timer `t` comes to: it is in the heap once, with its new wake time, and
no other wake time is another. -/
structure Queued (h : Heap) (table : Table) (t wake : Nat) (h' : Heap) (table' : Table) : Prop where
  tended : Tended h table h' table'
  perm : h'.items.Perm (t :: h.items.erase t)
  wake : (table'.get t).wake = wake
  others : ∀ u, u ≠ t → (table'.get u).wake = (table.get u).wake

theorem Cleared.queued (hc : Cleared h table t h' table') (hk : h.Kept table)
    (ht : IsFor h.number (table.get t))
    (hs : Shuffled (h'.push t) ((table'.setWake t wake).setPosition t (h'.push t).size) h'' table'')
    (ho : h''.Ordered table'') (hx : h''.Indexed table'') : Queued h table t wake h'' table'' := by
  have hget (u : Nat) : ((table'.setWake t wake).setPosition t (h'.push t).size).get u =
      if u = t then { table'.get u with wake := wake, position := (h'.push t).size }
      else table'.get u := by
    simp only [Table.setWake, Table.setPosition, Table.get_set]
    split
    next hu => simp [hu]
    next => rfl
  have hperm : h''.items.Perm (t :: h.items.erase t) :=
    hs.perm.trans ((List.perm_append_singleton _ _).trans (hc.perm.cons t))
  have hmem (u : Nat) : u ∈ h''.items ↔ u = t ∨ u ∈ h.items := by
    rw [hperm.mem_iff, List.mem_cons, hk.indexed.nodup.mem_erase_iff]
    by_cases hu : u = t
    · simp [hu]
    · simp [hu]
  have hself : (table''.get t).holder = h.number ∧ (table''.get t).wake = wake := by
    obtain ⟨p, hp⟩ := hs.entry t
    rw [hp, hget, if_pos rfl]
    exact ⟨hc.holder, rfl⟩
  have hentry {u : Nat} (hu : u ≠ t) : ∃ p, table''.get u = { table.get u with position := p } := by
    obtain ⟨p, hp⟩ := hc.entry u hu
    obtain ⟨q, hq⟩ := hs.entry u
    exact ⟨q, by rw [hq, hget, if_neg hu, hp]⟩
  have hother {u : Nat} (hu : u ≠ t) : (table''.get u).holder = (table.get u).holder := by
    obtain ⟨p, hp⟩ := hentry hu
    rw [hp]
  have hnumber : h''.number = h.number := hs.number.trans hc.number
  refine ⟨⟨hnumber, ⟨?_, hx, ho, fun u => ?_⟩, fun u => ?_⟩, hperm, hself.2, fun u hu => ?_⟩
  · rw [hnumber]
    exact hk.number
  · rw [hmem, hnumber]
    by_cases hu : u = t
    · rw [hu, hself.1]
      exact ⟨fun _ => rfl, fun _ => .inl rfl⟩
    · rw [hother hu, ← hk.holds]
      exact or_iff_right hu
  · by_cases hu : u = t
    · rw [hu]
      exact .inr ⟨ht, .inl hself.1⟩
    · by_cases hin : u ∈ h.items
      · have hholder := (hk.holds u).1 hin
        exact .inr ⟨.inl hholder, .inl ((hother hu).trans hholder)⟩
      · have hout : u ∉ (h'.push t).items := by
          rw [← hs.perm.mem_iff, hmem]
          exact fun h => h.elim hu hin
        rw [hs.away u hout, hget, if_neg hu, hc.away u hu hin]
        exact .inl rfl
  · obtain ⟨p, hp⟩ := hentry hu
    rw [hp]

/-- **A timer that the heap may queue is queued**, once. -/
theorem insert_queued (hk : h.Kept table) (ht : IsFor h.number (table.get t)) (wake : Nat) :
    ∃ root h' table', h.insert table t wake = .ok (root, h', table') ∧
      Queued h table t wake h' table' := by
  have hc := clear_cleared hk ht
  rw [insert_eq ht]
  generalize h.clear table t = cleared at hc
  obtain ⟨h₁, table₁⟩ := cleared
  have hother (u : Nat) (hu : u ≠ t) :
      ((table₁.setWake t wake).setPosition t (h₁.push t).size).get u = table₁.get u := by
    simp only [Table.setWake, Table.setPosition, Table.get_set, if_neg hu]
  obtain ⟨hx, hr⟩ := push_ready hc.indexed hc.ordered hc.out hother
    (by rw [Table.setPosition, Table.get_set, if_pos rfl])
  obtain ⟨hs, ho⟩ := siftUp_spec (i := (h₁.push t).size) ⟨by rw [size_push]; omega, Nat.le_refl _⟩
    (Nat.le_refl _) hr
  exact ⟨_, _, _, rfl, hc.queued hk ht hs ho (hs.indexed hx)⟩

/-- A timer that another heap holds is refused. -/
theorem insert_of_busy (h0 : (table.get t).holder ≠ 0) (hne : (table.get t).holder ≠ h.number)
    (wake : Nat) : h.insert table t wake = .error (.timerBusy t) :=
  if_pos ⟨h0, hne⟩

/-! ## Draining -/

/-- What is let go of, one after the other. -/
private theorem get_foldl_release (ts : List Nat) (table : Table) (u : Nat) :
    (ts.foldl (fun table t => (table.setPosition t 0).setHolder t 0) table).get u =
      if u ∈ ts then { table.get u with position := 0, holder := 0 } else table.get u := by
  induction ts generalizing table with
  | nil => rfl
  | cons t ts ih =>
    rw [List.foldl_cons, ih]
    simp only [Table.setPosition, Table.setHolder, Table.get_set, List.mem_cons]
    by_cases hut : u = t
    · simp [hut]
    · simp [hut]

theorem drain_tended (hk : h.Kept table) :
    Tended h table (h.drain table).2.1 (h.drain table).2.2 := by
  refine ⟨rfl, ⟨hk.number, fun j hj => ?_, fun j _ hjs => ?_, fun u => ?_⟩, fun u => ?_⟩
  · exact absurd hj.le (Nat.not_le_of_lt hj.pos)
  · exact absurd hjs (by simp only [drain, size, List.length_nil]; omega)
  · simp only [drain, get_foldl_release]
    split
    next => exact ⟨fun hu => absurd hu List.not_mem_nil, fun hn => absurd hn.symm hk.number⟩
    next hu =>
      exact ⟨fun hu => absurd hu List.not_mem_nil, fun hn => absurd ((hk.holds u).2 hn) hu⟩
  · simp only [drain, get_foldl_release]
    split
    next hu => exact .inr ⟨.inl ((hk.holds u).1 hu), .inr ⟨rfl, rfl⟩⟩
    next => exact .inl rfl

end Heap

/-! ## Any operation -/

/-- **Whatever is asked of a heap**, it is left as it should be, and other heaps' timers
as they were. -/
theorem Heaps.operate_tended (hk : h.Kept table) (hi : table.Idle) (r : Request) :
    h.Tended table (operate h table r).2.1 (operate h table r).2.2 := by
  cases r with
  | insert t wake =>
    by_cases hbusy : (table.get t).holder ≠ 0 ∧ (table.get t).holder ≠ h.number
    · simp only [operate, Heap.insert_of_busy hbusy.1 hbusy.2]
      exact hk.tended
    · obtain ⟨root, h', table', hinsert, hqueued⟩ := Heap.insert_queued hk (hi.isFor hbusy) wake
      simp only [operate, hinsert]
      exact hqueued.tended
  | remove t => exact Heap.remove_tended hk t
  | pop now =>
    cases hp : h.popDue table now with
    | none =>
      simp only [operate, hp]
      exact hk.tended
    | some popped =>
      simp only [operate, hp]
      exact Heap.popDue_tended hk hp
  | popAll now => exact Heap.popAll_tended hk
  | drain => exact Heap.drain_tended hk

end LinkEngine.Timer

import LinkEngine.Proofs.Queue

/-!
# Heaps that share their timers

Heaps in a row, each with a number of its own, queue timers that any of them may ask
for. Each looks after its own part of the table they share, so whatever is asked of
whichever, all of them are left as they should be (`Row`). A timer's entry then tells
where the timer is: in which heap and at which position, or in none (`Represented`).
What a heap refuses changes nothing.
-/

namespace LinkEngine.Timer

variable {g h : Heap} {table table' : Table} {hs hs' : Heaps} {i j k n t : Nat}

/-- What heap `n` may queue heap `g` does not hold. -/
theorem Heap.Kept.holder_ne {e : Timer} (hk : g.Kept table) (hne : g.number ≠ n) (he : IsFor n e) :
    e.holder ≠ g.number := by
  rcases he with hown | hfree
  · exact fun h => hne (h.symm.trans hown)
  · exact fun h => hk.number (h.symm.trans hfree.1)

/-- Another heap that minds its own timers rewrites none of this one's. -/
theorem Heap.Kept.get_minds (hk : g.Kept table) (hm : Minds n table table') (hne : g.number ≠ n)
    (ht : t ∈ g.items) : table'.get t = table.get t := by
  rcases hm t with heq | ⟨hbefore, -⟩
  · exact heq
  · exact absurd ((hk.holds t).1 ht) (hk.holder_ne hne hbefore)

/-- A heap is as it should be also when another minds its own timers. -/
theorem Heap.Kept.minds (hk : g.Kept table) (hm : Minds n table table') (hne : g.number ≠ n) :
    g.Kept table' := by
  have hat {i : Nat} (hi : g.IsPosition i) : table'.get (g.timerAt i) = table.get (g.timerAt i) :=
    hk.get_minds hm hne (Heap.mem_items.2 ⟨i, hi, rfl⟩)
  refine ⟨hk.number, fun i hi => ?_, fun i h1 his => ?_, fun t => ?_⟩
  · rw [hat hi, hk.indexed i hi]
  · rw [Heap.wakeAt, hat ⟨by omega, by omega⟩, Heap.wakeAt, hat ⟨by omega, his⟩]
    exact hk.ordered i h1 his
  · rcases hm t with heq | ⟨hbefore, hafter⟩
    · rw [heq, hk.holds]
    · rw [hk.holds]
      exact ⟨fun h => absurd h (hk.holder_ne hne hbefore), fun h => absurd h (hk.holder_ne hne hafter)⟩

/-- A heap as it should be passes its own check. -/
theorem Heap.Kept.isValid (hk : h.Kept table) : h.isValid table = true := by
  refine List.all_eq_true.2 fun m hm => ?_
  have hi : h.IsPosition (m + 1) := ⟨Nat.succ_pos m, List.mem_range.1 hm⟩
  have hholder := (hk.holds _).1 (Heap.mem_items.2 ⟨m + 1, hi, rfl⟩)
  simp only [Bool.and_eq_true, Bool.or_eq_true, beq_iff_eq, decide_eq_true_eq]
  refine ⟨⟨?_, hk.indexed _ hi⟩, hholder⟩
  rcases Nat.eq_zero_or_pos m with rfl | hm
  · exact .inl rfl
  · exact .inr (hk.ordered (m + 1) (Nat.succ_lt_succ hm) hi.le)

namespace Heaps

/-! ## A row of heaps -/

/-- `n` heaps, numbered from one, each as it should be; whoever holds a timer is one of
them. -/
structure Row (n : Nat) (hs : Heaps) : Prop where
  length : hs.heaps.length = n
  number : ∀ k < n, (hs.heap k).number = k + 1
  kept : ∀ k < n, (hs.heap k).Kept hs.table
  idle : hs.table.Idle
  holder : ∀ t, (hs.table.get t).holder ≤ n

theorem heap_eq_getElem (hk : k < hs.heaps.length) : hs.heap k = hs.heaps[k] :=
  (List.getElem_eq_getD _).symm

theorem create_row (n : Nat) : Row n (create n) := by
  have hheap {k : Nat} (hk : k < n) : (create n).heap k = { number := k + 1 } := by
    rw [heap_eq_getElem (by simpa [create] using hk)]
    simp [create]
  refine ⟨by simp [create], fun k hk => by rw [hheap hk], fun k hk => ?_, fun t _ => ?_, fun t => ?_⟩
  · rw [hheap hk]
    refine ⟨Nat.succ_ne_zero k, fun i hi => ?_, fun i h1 his => ?_, fun t => ?_⟩
    · exact absurd hi.le (Nat.not_le_of_lt hi.pos)
    · exact absurd his (Nat.not_le_of_lt (Nat.lt_trans Nat.one_pos h1))
    · exact ⟨fun h => absurd h List.not_mem_nil, fun h => nomatch h⟩
  · rfl
  · exact Nat.zero_le n

theorem heap_answer (hk : k < hs.heaps.length) (r : Request) :
    (hs.answer k r).2.heap j =
      if j = k then (operate (hs.heap k) hs.table r).2.1 else hs.heap j := by
  simp only [answer, heap, List.getD_eq_getElem?_getD, List.getElem?_set]
  by_cases hjk : j = k
  · subst hjk
    simp [hk]
  · rw [if_neg (Ne.symm hjk), if_neg hjk]

theorem table_answer (r : Request) :
    (hs.answer k r).2.table = (operate (hs.heap k) hs.table r).2.2 := rfl

/-- An operation on one of the heaps leaves all of them as they should be. -/
theorem Row.answer (hr : Row n hs) (hk : k < n) (r : Request) : Row n (hs.answer k r).2 := by
  have htended := operate_tended (hr.kept k hk) hr.idle r
  have hheap {j : Nat} := heap_answer (j := j) (hr.length.symm ▸ hk) r
  refine ⟨?_, fun j hj => ?_, fun j hj => ?_, ?_, fun t => ?_⟩
  · rw [← hr.length]
    exact List.length_set
  · rw [hheap]
    split
    next hjk => rw [htended.number, hr.number k hk, hjk]
    next => exact hr.number j hj
  · rw [hheap, table_answer]
    split
    next => exact htended.kept
    next hjk =>
      refine (hr.kept j hj).minds htended.minds ?_
      rw [hr.number j hj, hr.number k hk]
      omega
  · exact htended.minds.idle (hr.kept k hk).number hr.idle
  · rw [table_answer]
    rcases htended.minds t with heq | ⟨-, hown | hfree⟩
    · rw [heq]
      exact hr.holder t
    · rw [hown, hr.number k hk]
      exact hk
    · rw [hfree.1]
      exact Nat.zero_le n

/-- The heaps after a sequence of operations, from `n` empty ones. -/
def after (rs : List (Fin n × Request)) : Heaps :=
  rs.foldl (fun hs kr => (hs.answer kr.1 kr.2).2) (create n)

/-- **All heaps are as they should be**, whatever was asked of them. -/
theorem after_row (rs : List (Fin n × Request)) : Row n (after rs) := by
  suffices h : ∀ hs, Row n hs → Row n (rs.foldl (fun hs kr => (hs.answer kr.1 kr.2).2) hs) from
    h _ (create_row n)
  induction rs with
  | nil => exact fun _ hr => hr
  | cons kr rs ih => exact fun hs hr => ih _ (hr.answer kr.1.isLt kr.2)

/-! ## What the entries tell -/

/-- The timers' entries tell where the timers are. -/
structure Represented (hs : Heaps) : Prop where
  /-- No timer wakes before its parent. -/
  ordered : ∀ h ∈ hs.heaps, ∀ i, 1 < i → i ≤ h.size →
    h.wakeAt hs.table (i / 2) ≤ h.wakeAt hs.table i
  /-- The timer at a position knows it, and the heap. -/
  indexed : ∀ h ∈ hs.heaps, ∀ i, 1 ≤ i → i ≤ h.size →
    (hs.table.get (h.timerAt i)).position = i ∧ (hs.table.get (h.timerAt i)).holder = h.number
  /-- The heaps have different numbers, and none has the number for no heap. -/
  numbered : (hs.heaps.map Heap.number).Nodup ∧ 0 ∉ hs.heaps.map Heap.number
  /-- No timer is queued twice: not in one heap, and not in two. -/
  once : ∀ h ∈ hs.heaps, h.items.Nodup
  apart : hs.heaps.Pairwise fun g h => ∀ t ∈ g.items, t ∉ h.items
  /-- A timer that is in no heap says so. -/
  idle : ∀ t, (∀ h ∈ hs.heaps, t ∉ h.items) →
    (hs.table.get t).position = 0 ∧ (hs.table.get t).holder = 0
  /-- Each heap passes its own check. -/
  valid : ∀ h ∈ hs.heaps, h.isValid hs.table = true

theorem Row.exists_of_mem (hr : Row n hs) (hh : h ∈ hs.heaps) : ∃ k < n, hs.heap k = h := by
  obtain ⟨k, hk, rfl⟩ := List.getElem_of_mem hh
  exact ⟨k, hr.length ▸ hk, heap_eq_getElem hk⟩

/-- A timer that one heap of the row holds no other does. -/
theorem Row.not_mem (hr : Row n hs) (hj : j < n) (hk : k < n) (hjk : j ≠ k)
    (ht : t ∈ (hs.heap j).items) : t ∉ (hs.heap k).items := by
  rw [(hr.kept k hk).holds, ((hr.kept j hj).holds t).1 ht, hr.number j hj, hr.number k hk]
  omega

theorem Row.represented (hr : Row n hs) : hs.Represented where
  ordered h hh := by
    obtain ⟨k, hk, rfl⟩ := hr.exists_of_mem hh
    exact (hr.kept k hk).ordered
  indexed h hh i h1 his := by
    obtain ⟨k, hk, rfl⟩ := hr.exists_of_mem hh
    exact ⟨(hr.kept k hk).indexed i ⟨h1, his⟩,
      ((hr.kept k hk).holds _).1 (Heap.mem_items.2 ⟨i, ⟨h1, his⟩, rfl⟩)⟩
  numbered := by
    constructor
    · rw [List.Nodup, List.pairwise_map, List.pairwise_iff_getElem]
      intro j k hj hk hjk
      rw [← heap_eq_getElem hj, ← heap_eq_getElem hk, hr.number j (hr.length ▸ hj),
        hr.number k (hr.length ▸ hk)]
      omega
    · intro h0
      obtain ⟨h, hh, h0⟩ := List.mem_map.1 h0
      obtain ⟨k, hk, rfl⟩ := hr.exists_of_mem hh
      exact (hr.kept k hk).number h0
  once h hh := by
    obtain ⟨k, hk, rfl⟩ := hr.exists_of_mem hh
    exact (hr.kept k hk).indexed.nodup
  apart := by
    refine List.pairwise_iff_getElem.2 fun j k hj hk hjk t ht => ?_
    rw [← heap_eq_getElem hj] at ht
    rw [← heap_eq_getElem hk]
    exact hr.not_mem (hr.length ▸ hj) (hr.length ▸ hk) (Nat.ne_of_lt hjk) ht
  idle t ht := by
    suffices h0 : (hs.table.get t).holder = 0 from ⟨hr.idle t h0, h0⟩
    by_contra h0
    -- Its holder would be one of the heaps, which would have it.
    obtain ⟨k, hk⟩ := Nat.exists_eq_succ_of_ne_zero h0
    have hkn : k < n := by
      have := hr.holder t
      omega
    have hlen : k < hs.heaps.length := hr.length.symm ▸ hkn
    refine ht (hs.heap k) (heap_eq_getElem hlen ▸ List.getElem_mem hlen) ?_
    rw [(hr.kept k hkn).holds, hk, hr.number k hkn]
  valid h hh := by
    obtain ⟨k, hk, rfl⟩ := hr.exists_of_mem hh
    exact (hr.kept k hk).isValid

/-! ## What is refused, and what is not -/

/-- An operation that changes neither its heap nor the table changes nothing. -/
theorem answer_eq_self {r : Request} {a : Answer} (hk : k < hs.heaps.length)
    (h : operate (hs.heap k) hs.table r = (a, hs.heap k, hs.table)) : hs.answer k r = (a, hs) := by
  simp only [answer, h]
  rw [heap_eq_getElem hk, List.set_getElem_self hk]

/-- What queuing timer `t` in heap `k` and removing it from there come to, by where it
is. -/
structure Minded (hs : Heaps) (k t : Nat) : Prop where
  /-- A timer that another heap holds is refused, and nothing changes. -/
  busy : ∀ j wake, j ≠ k → t ∈ (hs.heap j).items →
    hs.answer k (.insert t wake) = (.refused (.timerBusy t), hs)
  /-- A timer that no other heap holds is queued, once. -/
  queued : ∀ wake, (∀ j, j ≠ k → t ∉ (hs.heap j).items) → ∃ root hs',
    hs.answer k (.insert t wake) = (.inserted root, hs') ∧
      (hs'.heap k).items.Perm (t :: (hs.heap k).items.erase t) ∧ (hs'.table.get t).wake = wake
  /-- One that the heap held already is moved. -/
  again : ∀ wake, t ∈ (hs.heap k).items → ∃ root hs',
    hs.answer k (.insert t wake) = (.inserted root, hs') ∧
      (hs'.heap k).items.Perm (hs.heap k).items ∧ (hs'.heap k).size = (hs.heap k).size ∧
      (hs'.table.get t).wake = wake
  /-- A timer that the heap does not hold is not removed, and nothing changes. -/
  absent : t ∉ (hs.heap k).items → hs.answer k (.remove t) = (.removed false, hs)
  removed : t ∈ (hs.heap k).items → ∃ hs', hs.answer k (.remove t) = (.removed true, hs') ∧
    (hs'.heap k).items.Perm ((hs.heap k).items.erase t)

/-- A heap beyond the row holds nothing. -/
theorem Row.lt_of_mem (hr : Row n hs) (ht : t ∈ (hs.heap j).items) : j < n := by
  by_contra hj
  have hnone : hs.heaps[j]? = none := List.getElem?_eq_none (by rw [hr.length]; omega)
  rw [heap, List.getD_eq_getElem?_getD, hnone] at ht
  exact List.not_mem_nil ht

theorem Row.queued (hr : Row n hs) (hk : k < n) (ht : IsFor (hs.heap k).number (hs.table.get t))
    (wake : Nat) : ∃ root hs', hs.answer k (.insert t wake) = (.inserted root, hs') ∧
      (hs'.heap k).items.Perm (t :: (hs.heap k).items.erase t) ∧ (hs'.table.get t).wake = wake := by
  obtain ⟨root, h', table', hinsert, hqueued⟩ := Heap.insert_queued (hr.kept k hk) ht wake
  have hoperate : operate (hs.heap k) hs.table (.insert t wake) = (.inserted root, h', table') := by
    simp only [operate, hinsert]
  have hanswer : (hs.answer k (.insert t wake)).1 = .inserted root := congrArg (·.1) hoperate
  refine ⟨root, (hs.answer k (.insert t wake)).2, Prod.ext hanswer rfl, ?_, ?_⟩
  · rw [heap_answer (hr.length.symm ▸ hk), if_pos rfl, hoperate]
    exact hqueued.perm
  · rw [table_answer, hoperate]
    exact hqueued.wake

theorem Row.minded (hr : Row n hs) (hk : k < n) (t : Nat) : hs.Minded k t where
  busy j wake hjk ht := by
    have hj := hr.lt_of_mem ht
    have hholder := ((hr.kept j hj).holds t).1 ht
    rw [hr.number j hj] at hholder
    refine answer_eq_self (hr.length.symm ▸ hk) ?_
    have hfree : (hs.table.get t).holder ≠ 0 := by omega
    have hother : (hs.table.get t).holder ≠ (hs.heap k).number := by
      rw [hr.number k hk]
      omega
    simp only [operate, Heap.insert_of_busy hfree hother]
  queued wake hfree := by
    refine hr.queued hk ?_ wake
    by_cases h0 : (hs.table.get t).holder = 0
    · exact .inr ⟨h0, hr.idle t h0⟩
    · -- Its holder is one of the heaps, and none but this one.
      obtain ⟨j, hj⟩ := Nat.exists_eq_succ_of_ne_zero h0
      have hjn : j < n := by
        have := hr.holder t
        omega
      have hmem : t ∈ (hs.heap j).items := by
        rw [(hr.kept j hjn).holds, hj, hr.number j hjn]
      have hjk : j = k := not_not.1 fun hne => hfree j hne hmem
      exact .inl (by rw [hj, hjk, hr.number k hk])
  again wake ht := by
    obtain ⟨root, hs', hanswer, hperm, hwake⟩ := hr.queued hk
      (.inl (((hr.kept k hk).holds t).1 ht)) wake
    have hsame := hperm.trans (List.perm_cons_erase ht).symm
    exact ⟨root, hs', hanswer, hsame, hsame.length_eq, hwake⟩
  absent ht := by
    refine answer_eq_self (hr.length.symm ▸ hk) ?_
    simp only [operate, Heap.remove_of_not_mem (hr.kept k hk) ht]
  removed ht := by
    have hremove := Heap.remove_of_mem (hr.kept k hk) ht
    obtain ⟨hi, hat⟩ := (hr.kept k hk).isPosition ht
    have hperm := (Heap.removeAt_tended (hr.kept k hk) hi).2.erase t
    rw [hat, List.erase_cons_head] at hperm
    have hoperate : operate (hs.heap k) hs.table (.remove t) =
        (.removed true, (hs.heap k).removeAt hs.table (hs.table.get t).position) := by
      simp only [operate, hremove]
    refine ⟨(hs.answer k (.remove t)).2, Prod.ext (congrArg (·.1) hoperate) rfl, ?_⟩
    rw [heap_answer (hr.length.symm ▸ hk), if_pos rfl, hoperate]
    exact hperm.symm

/-- **The entries of timers tell where they are**, after any operations on any heaps
that share them; and what a heap does not hold it neither takes nor lets go of. -/
theorem heaps_represented (rs : List (Fin n × Request)) :
    (after rs).Represented ∧ ∀ (k : Fin n) (t : Nat), (after rs).Minded k t :=
  ⟨(after_row rs).represented, fun k t => (after_row rs).minded k.isLt t⟩

end Heaps

end LinkEngine.Timer

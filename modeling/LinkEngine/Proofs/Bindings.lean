import LinkEngine.Proofs.Heaps
import Mathlib.Data.Finmap
import Mathlib.Order.Bounds.Basic

/-!
# What a heap stands for

A heap stands for a finite map from the timers that are queued to their wake times
(`Heap.bindings`), and what is asked of it comes to an operation on the map: queuing
binds, removing and popping erase, draining leaves nothing. The order of the positions
shows only in which of the timers that wake first is popped. `Follows` says so of heaps
in a row along any sequence of operations, each heap with a map of its own.
-/

namespace LinkEngine.Timer

/-- Wake times, by the timers they are bound to. -/
abbrev Bindings := Finmap fun _ : Nat => Nat

namespace Heap

variable {h h' : Heap} {table table' : Table} {i t now wake : Nat} {root : Bool}

/-- The timers of a heap, bound to their wake times. -/
def bindings (h : Heap) (table : Table) : Bindings :=
  (h.items.map fun t => (⟨t, (table.get t).wake⟩ : Σ _ : Nat, Nat)).toFinmap

theorem lookup_bindings (h : Heap) (table : Table) (t : Nat) :
    (h.bindings table).lookup t = if t ∈ h.items then some (table.get t).wake else none := by
  rw [bindings, Finmap.dlookup_list_toFinmap]
  induction h.items with
  | nil => rfl
  | cons u us ih =>
    by_cases hu : t = u
    · subst hu
      simp
    · rw [List.map_cons, List.dlookup_cons_ne _ _ hu, ih]
      simp [hu]

theorem lookup_bindings_eq_some :
    (h.bindings table).lookup t = some wake ↔ t ∈ h.items ∧ (table.get t).wake = wake := by
  rw [lookup_bindings]
  split
  next ht => simp [ht]
  next ht => simp [ht]

theorem mem_bindings : t ∈ h.bindings table ↔ t ∈ h.items := by
  rw [← Finmap.lookup_isSome, lookup_bindings]
  split
  next ht => simp [ht]
  next ht => simp [ht]

theorem bindings_eq_empty : h.bindings table = ∅ ↔ h.items = [] := by
  rw [List.eq_nil_iff_forall_not_mem]
  constructor
  · intro hm t ht
    rw [← mem_bindings, hm] at ht
    exact Finmap.notMem_empty ht
  · intro hno
    refine Finmap.ext_lookup fun t => ?_
    rw [lookup_bindings, if_neg (hno t), Finmap.lookup_empty]

/-- The same timers with the same wake times are the same bindings. -/
theorem bindings_congr (hmem : ∀ t, t ∈ h'.items ↔ t ∈ h.items)
    (hwake : ∀ t ∈ h.items, (table'.get t).wake = (table.get t).wake) :
    h'.bindings table' = h.bindings table := by
  refine Finmap.ext_lookup fun t => ?_
  rw [lookup_bindings, lookup_bindings]
  by_cases ht : t ∈ h.items
  · rw [if_pos ht, if_pos ((hmem t).2 ht), hwake t ht]
  · rw [if_neg ht, if_neg (mt (hmem t).1 ht)]

/-! ## The root -/

/-- The root wakes no later than any other: so does its parent, by the order. -/
theorem Ordered.wakeAt_one_le (ho : h.Ordered table) (hi : h.IsPosition i) :
    h.wakeAt table 1 ≤ h.wakeAt table i := by
  induction i using Nat.strongRecOn with
  | ind i ih =>
    have hpos := hi.pos
    have hle := hi.le
    by_cases h1 : i = 1
    · rw [h1]
    · exact Nat.le_trans (ih (i / 2) (by omega) ⟨by omega, by omega⟩) (ho i (by omega) hle)

theorem Kept.root_le {u : Nat} (hk : h.Kept table) (hroot : h.root? = some t) (hu : u ∈ h.items) :
    (table.get t).wake ≤ (table.get u).wake := by
  obtain ⟨-, rfl⟩ := root?_eq_some.1 hroot
  obtain ⟨i, hi, rfl⟩ := mem_items.1 hu
  exact hk.ordered.wakeAt_one_le hi

theorem mem_of_root? (hroot : h.root? = some t) : t ∈ h.items := by
  obtain ⟨hpos, rfl⟩ := root?_eq_some.1 hroot
  exact mem_items.2 ⟨1, hpos, rfl⟩

/-- There is no next wake time when nothing is bound. -/
theorem nextWake?_eq_none : h.nextWake? table = none ↔ h.bindings table = ∅ := by
  rw [nextWake?, Option.map_eq_none_iff, root?, List.head?_eq_none_iff, bindings_eq_empty]

/-- The next wake time is the least that is bound. -/
theorem Kept.nextWake?_eq_some (hk : h.Kept table) : h.nextWake? table = some wake ↔
    IsLeast {w | ∃ t, (h.bindings table).lookup t = some w} wake := by
  -- The root's wake time is the least, and there is only one least.
  have hleast {t : Nat} (hroot : h.root? = some t) :
      IsLeast {w | ∃ t, (h.bindings table).lookup t = some w} (table.get t).wake := by
    refine ⟨⟨t, lookup_bindings_eq_some.2 ⟨mem_of_root? hroot, rfl⟩⟩, ?_⟩
    rintro w ⟨u, hu⟩
    obtain ⟨hmem, rfl⟩ := lookup_bindings_eq_some.1 hu
    exact hk.root_le hroot hmem
  constructor
  · intro hnext
    obtain ⟨t, hroot, rfl⟩ := Option.map_eq_some_iff.1 hnext
    exact hleast hroot
  · intro hw
    obtain ⟨u, hu⟩ := hw.1
    have hmem := (lookup_bindings_eq_some.1 hu).1
    cases hroot : h.root? with
    | none =>
      rw [root?, List.head?_eq_none_iff] at hroot
      rw [hroot] at hmem
      exact absurd hmem List.not_mem_nil
    | some t => rw [nextWake?, hroot, Option.map_some, (hleast hroot).unique hw]

/-! ## The operations -/

/-- **Queuing binds** the timer, whatever it was bound to. -/
theorem Queued.bindings_eq (hq : Queued h table t wake h' table') (hk : h.Kept table) :
    h'.bindings table' = (h.bindings table).insert t wake := by
  refine Finmap.ext_lookup fun u => ?_
  have hmem : u ∈ h'.items ↔ u = t ∨ u ∈ h.items.erase t := by
    rw [hq.perm.mem_iff, List.mem_cons]
  rw [lookup_bindings]
  by_cases hu : u = t
  · rw [if_pos (hmem.2 (.inl hu)), hu, hq.wake, Finmap.lookup_insert]
  · rw [Finmap.lookup_insert_of_ne _ hu, lookup_bindings, hq.others u hu]
    simp only [hmem, hk.indexed.nodup.mem_erase_iff, hu, false_or, ne_eq, not_false_iff, true_and]

/-- Queuing tells whether the timer is at the root. -/
theorem insert_root (hk : h.Kept table) (ht : IsFor h.number (table.get t))
    (hi : h.insert table t wake = .ok (root, h', table')) :
    root = true ↔ h'.root? = some t := by
  obtain ⟨_, _, _, hinsert, hqueued⟩ := insert_queued hk ht wake
  rw [hi] at hinsert
  cases hinsert
  have hx := hqueued.tended.kept.indexed
  rw [insert_eq ht] at hi
  generalize h.clear table t = cleared at hi
  obtain ⟨h₁, table₁⟩ := cleared
  have hsize : (h₁.push t).IsPosition (h₁.push t).size := ⟨by rw [size_push]; omega, Nat.le_refl _⟩
  have hrests := @siftUp_rests (h₁.push t) ((table₁.setWake t wake).setPosition t (h₁.push t).size) _
    (h₁.push t).size hsize
  rw [timerAt_push hsize, if_pos size_push] at hrests
  simp only [Except.ok.injEq, Prod.mk.injEq] at hi
  obtain ⟨rfl, rfl, rfl⟩ := hi
  obtain ⟨hpos, hat⟩ := hrests
  rw [beq_iff_eq, root?_eq_some]
  constructor
  · intro h1
    rw [h1] at hpos hat
    exact ⟨hpos, hat⟩
  · rintro ⟨hone, hat'⟩
    exact hx.injective hpos hone (hat.trans hat'.symm)

/-- **Removing erases** the timer. -/
theorem bindings_removeAt (hk : h.Kept table) (hi : h.IsPosition i) :
    (h.removeAt table i).1.bindings (h.removeAt table i).2 =
      (h.bindings table).erase (h.timerAt i) := by
  have hperm := (removeAt_tended hk hi).2
  have hnodup := hperm.nodup_iff.1 hk.indexed.nodup
  refine Finmap.ext_lookup fun u => ?_
  rw [lookup_bindings, wake_removeAt hk hi]
  by_cases hu : u = h.timerAt i
  · rw [hu, Finmap.lookup_erase, if_neg (List.nodup_cons.1 hnodup).1]
  · rw [Finmap.lookup_erase_ne hu, lookup_bindings]
    simp only [hperm.mem_iff, List.mem_cons, hu, false_or]

/-- What `remove` answers is whether the timer was bound, and afterwards it is not. -/
theorem remove_bindings (hk : h.Kept table) (t : Nat) :
    (h.remove table t).1 = decide (t ∈ h.bindings table) ∧
      (h.remove table t).2.1.bindings (h.remove table t).2.2 = (h.bindings table).erase t := by
  by_cases ht : t ∈ h.items
  · obtain ⟨hi, hat⟩ := hk.isPosition ht
    rw [remove_of_mem hk ht, bindings_removeAt hk hi, hat]
    exact ⟨(decide_eq_true (mem_bindings.2 ht)).symm, rfl⟩
  · rw [remove_of_not_mem hk ht]
    refine ⟨(decide_eq_false (mt mem_bindings.1 ht)).symm, Finmap.ext_lookup fun u => ?_⟩
    by_cases hu : u = t
    · rw [hu, Finmap.lookup_erase, Finmap.lookup_eq_none, mem_bindings]
      exact ht
    · rw [Finmap.lookup_erase_ne hu]

/-- What is popped was bound to the least wake time, which is due; it is erased. -/
theorem popDue_bindings (hk : h.Kept table) (hp : h.popDue table now = some (t, h', table')) :
    (∃ wake, (h.bindings table).lookup t = some wake ∧ wake ≤ now ∧
        ∀ u w, (h.bindings table).lookup u = some w → wake ≤ w) ∧
      h'.bindings table' = (h.bindings table).erase t := by
  obtain ⟨hroot, hdue, hremoved⟩ := popDue_eq_some.1 hp
  refine ⟨⟨_, lookup_bindings_eq_some.2 ⟨mem_of_root? hroot, rfl⟩, hdue, fun u w hu => ?_⟩, ?_⟩
  · obtain ⟨hmem, rfl⟩ := lookup_bindings_eq_some.1 hu
    exact hk.root_le hroot hmem
  · obtain ⟨hpos, hat⟩ := root?_eq_some.1 hroot
    have herase := bindings_removeAt hk hpos
    rwa [hremoved, hat] at herase

/-- Nothing is popped when nothing that is bound is due. -/
theorem popDue_eq_none (hk : h.Kept table) (hp : h.popDue table now = none) (t wake : Nat)
    (ht : (h.bindings table).lookup t = some wake) : now < wake := by
  obtain ⟨hmem, rfl⟩ := lookup_bindings_eq_some.1 ht
  unfold popDue at hp
  split at hp
  next hroot =>
    rw [root?, List.head?_eq_none_iff] at hroot
    rw [hroot] at hmem
    exact absurd hmem List.not_mem_nil
  next r hroot =>
    split at hp
    next => cases hp
    next hlate => exact Nat.lt_of_lt_of_le (Nat.lt_of_not_le hlate) (hk.root_le hroot hmem)

theorem drain_bindings (h : Heap) (table : Table) :
    (h.drain table).2.1.bindings (h.drain table).2.2 = ∅ := bindings_eq_empty.2 rfl

end Heap

/-! ## All that is due -/

/-- The timers `ts` are those that are due at `now`, each once and in the order of
their wake times; those that are not due are left. -/
structure Bindings.Due (m : Bindings) (now : Nat) (ts : List Nat) (left : Bindings) : Prop where
  nodup : ts.Nodup
  mem_iff : ∀ t, t ∈ ts ↔ ∃ wake, m.lookup t = some wake ∧ wake ≤ now
  sorted : ts.Pairwise fun t u => ∀ v w, m.lookup t = some v → m.lookup u = some w → v ≤ w
  left : ∀ t wake, left.lookup t = some wake ↔ m.lookup t = some wake ∧ now < wake

namespace Bindings

variable {m left : Bindings} {t now wake : Nat} {ts : List Nat}

/-- Nothing is due when all that is bound wakes later. -/
theorem Due.nil (hlate : ∀ t wake, m.lookup t = some wake → now < wake) : m.Due now [] m where
  nodup := .nil
  mem_iff t := by
    refine ⟨fun ht => absurd ht List.not_mem_nil, ?_⟩
    rintro ⟨wake, ht, hdue⟩
    exact absurd hdue (Nat.not_le_of_lt (hlate t wake ht))
  sorted := .nil
  left t wake := ⟨fun ht => ⟨ht, hlate t wake ht⟩, And.left⟩

/-- First one that wakes first, then the others that are due. -/
theorem Due.cons (ht : m.lookup t = some wake) (hdue : wake ≤ now)
    (hleast : ∀ u w, m.lookup u = some w → wake ≤ w) (hrest : Due (m.erase t) now ts left) :
    m.Due now (t :: ts) left := by
  have hout : t ∉ ts := by
    intro hmem
    obtain ⟨w, hw, -⟩ := (hrest.mem_iff t).1 hmem
    rw [Finmap.lookup_erase] at hw
    cases hw
  have hlookup {u : Nat} (hu : u ∈ ts) : (m.erase t).lookup u = m.lookup u := by
    refine Finmap.lookup_erase_ne ?_
    rintro rfl
    exact hout hu
  refine ⟨List.nodup_cons.2 ⟨hout, hrest.nodup⟩, fun u => ?_, List.pairwise_cons.2 ⟨?_, ?_⟩,
    fun u w => (hrest.left u w).trans ?_⟩
  · rw [List.mem_cons]
    by_cases hu : u = t
    · subst hu
      exact ⟨fun _ => ⟨wake, ht, hdue⟩, fun _ => .inl rfl⟩
    · rw [hrest.mem_iff, Finmap.lookup_erase_ne hu]
      exact or_iff_right hu
  · intro u _ v w hv hw
    rw [ht] at hv
    cases hv
    exact hleast u w hw
  · refine hrest.sorted.imp_of_mem fun {a b} ha hb hab v w hv hw => hab v w ?_ ?_
    · rw [hlookup ha, hv]
    · rw [hlookup hb, hw]
  · by_cases hu : u = t
    · subst hu
      rw [Finmap.lookup_erase, ht]
      constructor
      · rintro ⟨hw, -⟩
        cases hw
      · rintro ⟨hw, hlt⟩
        cases hw
        exact absurd hdue (Nat.not_le_of_lt hlt)
    · rw [Finmap.lookup_erase_ne hu]

end Bindings

namespace Heap

variable {h h' : Heap} {table table' : Table} {t now fuel : Nat}

/-- Popping takes one timer out. -/
theorem popDue_size (hk : h.Kept table) (hp : h.popDue table now = some (t, h', table')) :
    h.size = h'.size + 1 := by
  obtain ⟨hroot, -, hremoved⟩ := popDue_eq_some.1 hp
  have hperm := (removeAt_tended hk (root?_eq_some.1 hroot).1).2
  rw [hremoved] at hperm
  exact hperm.length_eq

/-- **Popping again and again** answers what is due and leaves what is not. -/
theorem popAll_bindings (hk : h.Kept table) (hf : h.size ≤ fuel) :
    (h.bindings table).Due now (h.popAll table now fuel).1
      ((h.popAll table now fuel).2.1.bindings (h.popAll table now fuel).2.2) := by
  induction fuel generalizing h table with
  | zero =>
    have hnil : h.bindings table = ∅ :=
      bindings_eq_empty.2 (List.eq_nil_of_length_eq_zero (Nat.le_zero.1 hf))
    refine .nil fun t wake ht => ?_
    rw [hnil, Finmap.lookup_empty] at ht
    cases ht
  | succ fuel ih =>
    rw [popAll]
    split
    next hp => exact .nil (popDue_eq_none hk hp)
    next t h' table' hp =>
      obtain ⟨⟨first, ht, hdue, hleast⟩, herase⟩ := popDue_bindings hk hp
      have hsize := popDue_size hk hp
      have hrest := ih (popDue_tended hk hp).kept (by omega)
      rw [herase] at hrest
      exact .cons ht hdue hleast hrest

end Heap

/-! ## Heaps in a row -/

namespace Heaps

variable {n : Nat} {hs : Heaps}

/-- What operation `r` answers on a heap that stands for `m`, and the bindings it
leaves. `busy` are the timers that other heaps hold, `root?` is the root it leaves. -/
inductive Meets (busy : Nat → Prop) (root? : Option Nat) (m : Bindings) :
    Request → Answer → Bindings → Prop
  | inserted {t wake : Nat} {root : Bool} (hfree : ¬busy t) (hroot : root = true ↔ root? = some t) :
    Meets busy root? m (.insert t wake) (.inserted root) (m.insert t wake)
  | refused {t wake : Nat} (hbusy : busy t) :
    Meets busy root? m (.insert t wake) (.refused (.timerBusy t)) m
  | removed {t : Nat} : Meets busy root? m (.remove t) (.removed (decide (t ∈ m))) (m.erase t)
  | popped {t now wake : Nat} (ht : m.lookup t = some wake) (hdue : wake ≤ now)
    (hleast : ∀ u w, m.lookup u = some w → wake ≤ w) :
    Meets busy root? m (.pop now) (.popped (some t)) (m.erase t)
  | notDue {now : Nat} (hlate : ∀ t wake, m.lookup t = some wake → now < wake) :
    Meets busy root? m (.pop now) (.popped none) m
  | poppedAll {now : Nat} {ts : List Nat} {left : Bindings} (hdue : m.Due now ts left) :
    Meets busy root? m (.popAll now) (.timers ts) left
  | drained {ts : List Nat} (hnodup : ts.Nodup) (hmem : ∀ t, t ∈ ts ↔ t ∈ m) :
    Meets busy root? m .drain (.timers ts) ∅

/-- The heaps of a row stand for the maps `ms`: what is queued, each timer once, is what
is bound, and the next wake time is the least that is bound. -/
structure Shows (ms : Fin n → Bindings) (hs : Heaps) : Prop where
  queued : ∀ (k : Fin n) t wake, (ms k).lookup t = some wake ↔
    t ∈ (hs.heap k).items ∧ (hs.table.get t).wake = wake
  once : ∀ k : Fin n, (hs.heap k).items.Nodup
  empty : ∀ k : Fin n, (hs.heap k).nextWake? hs.table = none ↔ ms k = ∅
  least : ∀ (k : Fin n) wake, (hs.heap k).nextWake? hs.table = some wake ↔
    IsLeast {w | ∃ t, (ms k).lookup t = some w} wake

/-- Along a sequence of operations on heaps in a row, the heaps stand for the maps `ms`
first, and for what each operation makes of its heap's map afterwards. What is refused
or finds nothing to do changes nothing at all. -/
inductive Follows : (Fin n → Bindings) → Heaps → List (Fin n × Request) → List (Answer × Heaps) → Prop
  | nil {ms : Fin n → Bindings} {hs : Heaps} (hshows : Shows ms hs) : Follows ms hs [] []
  | cons {ms : Fin n → Bindings} {hs hs' : Heaps} {k : Fin n} {r : Request} {a : Answer} {m' : Bindings}
    {rs : List (Fin n × Request)} {as : List (Answer × Heaps)} (hshows : Shows ms hs)
    (hmeets : Meets (fun t => ∃ j, j ≠ k ∧ t ∈ ms j) (hs'.heap k).root? (ms k) r a m')
    (hsame : a = .popped none ∨ a = .removed false ∨ (∃ f, a = .refused f) → hs' = hs)
    (hrest : Follows (Function.update ms k m') hs' rs as) :
    Follows ms hs ((k, r) :: rs) ((a, hs') :: as)

/-- **One operation on one heap**, which keeps away from what others hold. -/
theorem operate_meets {h : Heap} {table : Table} (hk : h.Kept table) (hi : table.Idle) (r : Request) :
    Meets (fun t => (table.get t).holder ≠ 0 ∧ (table.get t).holder ≠ h.number)
        (operate h table r).2.1.root? (h.bindings table) r (operate h table r).1
        ((operate h table r).2.1.bindings (operate h table r).2.2) ∧
      ((operate h table r).1 = .popped none ∨ (operate h table r).1 = .removed false ∨
        (∃ f, (operate h table r).1 = .refused f) → (operate h table r).2 = (h, table)) := by
  cases r with
  | insert t wake =>
    by_cases hbusy : (table.get t).holder ≠ 0 ∧ (table.get t).holder ≠ h.number
    · simp only [operate, Heap.insert_of_busy hbusy.1 hbusy.2]
      exact ⟨.refused hbusy, fun _ => trivial⟩
    · have ht := hi.isFor hbusy
      obtain ⟨root, h', table', hinsert, hqueued⟩ := Heap.insert_queued hk ht wake
      simp only [operate, hinsert, hqueued.bindings_eq hk]
      refine ⟨.inserted hbusy (Heap.insert_root hk ht hinsert), ?_⟩
      rintro (ha | ha | ⟨f, ha⟩) <;> cases ha
  | remove t =>
    obtain ⟨hwas, hleft⟩ := Heap.remove_bindings hk t
    simp only [operate, hwas, hleft]
    refine ⟨.removed, ?_⟩
    rintro (ha | ha | ⟨f, ha⟩)
    · cases ha
    · have ht : t ∉ h.bindings table := by simpa using ha
      rw [Heap.mem_bindings] at ht
      rw [Heap.remove_of_not_mem hk ht]
    · cases ha
  | pop now =>
    cases hp : h.popDue table now with
    | none =>
      simp only [operate, hp]
      exact ⟨.notDue (Heap.popDue_eq_none hk hp), fun _ => trivial⟩
    | some popped =>
      obtain ⟨t, h', table'⟩ := popped
      obtain ⟨⟨wake, ht, hdue, hleast⟩, herase⟩ := Heap.popDue_bindings hk hp
      simp only [operate, hp, herase]
      refine ⟨.popped ht hdue hleast, ?_⟩
      rintro (ha | ha | ⟨f, ha⟩) <;> cases ha
  | popAll now =>
    refine ⟨.poppedAll (Heap.popAll_bindings hk (Nat.le_refl _)), ?_⟩
    rintro (ha | ha | ⟨f, ha⟩) <;> cases ha
  | drain =>
    simp only [operate, Heap.drain_bindings]
    refine ⟨.drained hk.indexed.nodup fun t => Heap.mem_bindings.symm, ?_⟩
    rintro (ha | ha | ⟨f, ha⟩) <;> cases ha

/-- The bindings that the heaps of a row stand for. -/
def bindings (hs : Heaps) (k : Fin n) : Bindings := (hs.heap k).bindings hs.table

theorem Row.shows (hr : Row n hs) : Shows (n := n) hs.bindings hs where
  queued _ _ _ := Heap.lookup_bindings_eq_some
  once k := (hr.kept k k.isLt).indexed.nodup
  empty _ := Heap.nextWake?_eq_none
  least k _ := (hr.kept k k.isLt).nextWake?_eq_some

/-- Who holds a timer that this heap does not is another of the row. -/
theorem Row.busy_iff (hr : Row n hs) (k : Fin n) (t : Nat) :
    (∃ j : Fin n, j ≠ k ∧ t ∈ hs.bindings j) ↔
      (hs.table.get t).holder ≠ 0 ∧ (hs.table.get t).holder ≠ (hs.heap k).number := by
  have hnumber (j : Fin n) : (hs.heap j).number = j + 1 := hr.number j j.isLt
  have hmem (j : Fin n) : t ∈ hs.bindings j ↔ (hs.table.get t).holder = j + 1 := by
    rw [bindings, Heap.mem_bindings, (hr.kept j j.isLt).holds, hnumber]
  simp only [hmem, hnumber]
  constructor
  · rintro ⟨j, hjk, hj⟩
    have : (j : Nat) ≠ k := fun h => hjk (Fin.ext h)
    omega
  · rintro ⟨h0, hne⟩
    have hle := hr.holder t
    exact ⟨⟨(hs.table.get t).holder - 1, by omega⟩, fun h => hne (by rw [← h]; simp; omega),
      by simp; omega⟩

/-- An operation on one of the heaps leaves the others standing for what they stood. -/
theorem Row.bindings_answer (hr : Row n hs) (k : Fin n) (r : Request) :
    (hs.answer k r).2.bindings = Function.update hs.bindings k
      ((operate (hs.heap k) hs.table r).2.1.bindings (operate (hs.heap k) hs.table r).2.2) := by
  have htended := operate_tended (hr.kept k k.isLt) hr.idle r
  funext j
  rw [bindings, heap_answer (hr.length.symm ▸ k.isLt), table_answer]
  by_cases hjk : j = k
  · rw [hjk, if_pos rfl, Function.update_self]
  · have hjk' : (j : Nat) ≠ k := fun h => hjk (Fin.ext h)
    rw [if_neg hjk', Function.update_of_ne hjk]
    refine Heap.bindings_congr (fun _ => Iff.rfl) fun t ht => ?_
    rw [(hr.kept j j.isLt).get_minds htended.minds _ ht]
    rw [hr.number j j.isLt, hr.number k k.isLt]
    omega

theorem Row.follows (hr : Row n hs) (rs : List (Fin n × Request)) :
    Follows hs.bindings hs rs (hs.answers (rs.map fun kr => (kr.1.val, kr.2))) := by
  induction rs generalizing hs with
  | nil => exact .nil hr.shows
  | cons kr rs ih =>
    obtain ⟨k, r⟩ := kr
    have hk : (k : Nat) < hs.heaps.length := hr.length.symm ▸ k.isLt
    obtain ⟨hmeets, hsame⟩ := operate_meets (hr.kept k k.isLt) hr.idle r
    have hrest := ih (hr.answer k.isLt r)
    rw [hr.bindings_answer k r] at hrest
    have hanswer : Meets (fun t => ∃ j : Fin n, j ≠ k ∧ t ∈ hs.bindings j)
        ((hs.answer k r).2.heap k).root? (hs.bindings k) r (hs.answer k r).1
        ((operate (hs.heap k) hs.table r).2.1.bindings (operate (hs.heap k) hs.table r).2.2) := by
      rw [heap_answer hk, if_pos rfl]
      simp only [hr.busy_iff]
      exact hmeets
    exact .cons hr.shows hanswer
      (fun hquiet => congrArg Prod.snd (answer_eq_self hk (Prod.ext rfl (hsame hquiet)))) hrest

theorem bindings_create (n : Nat) : (create n).bindings = fun _ : Fin n => ∅ := by
  funext k
  refine Heap.bindings_eq_empty.2 ?_
  rw [heap_eq_getElem (by simp [create])]
  simp [create]

/-- What popping `c` times answers, in terms of `popAll`. -/
theorem Row.answers_pop (hr : Row n hs) (k : Fin n) (now c : Nat) :
    (hs.answers (List.replicate c (k.val, .pop now))).map Prod.fst =
      ((hs.heap k).popAll hs.table now c).1.map (fun t => .popped (some t)) ++
        List.replicate (c - ((hs.heap k).popAll hs.table now c).1.length) (.popped none) := by
  induction c generalizing hs with
  | zero => rfl
  | succ c ih =>
    have hk : (k : Nat) < hs.heaps.length := hr.length.symm ▸ k.isLt
    have hnext := hr.answer k.isLt (.pop now)
    rw [List.replicate_succ, answers, List.map_cons, ih hnext, Heap.popAll]
    cases hp : (hs.heap k).popDue hs.table now with
    | none =>
      have hself : hs.answer k (.pop now) = (.popped none, hs) :=
        answer_eq_self hk (by simp only [operate, hp])
      have hnil : ((hs.heap k).popAll hs.table now c).1 = [] := by
        cases c with
        | zero => rfl
        | succ c => rw [Heap.popAll, hp]
      rw [hself, hnil]
      rfl
    | some popped =>
      obtain ⟨t, h', table'⟩ := popped
      have hoperate : operate (hs.heap k) hs.table (.pop now) = (.popped (some t), h', table') := by
        simp only [operate, hp]
      have hfirst : (hs.answer k (.pop now)).1 = .popped (some t) := congrArg Prod.fst hoperate
      rw [heap_answer hk, if_pos rfl, table_answer, hoperate, hfirst]
      simp only [List.map_cons, List.cons_append, List.length_cons, Nat.add_sub_add_right]

/-- **A heap stands for a finite map** from timers to wake times, along every sequence of
operations on any heaps that share their timers. Popping it as often as it has timers, or
more often, yields what is due. -/
theorem answers_follow (rs : List (Fin n × Request)) :
    Follows (fun _ => ∅) (create n) rs ((create n).answers (rs.map fun kr => (kr.1.val, kr.2))) ∧
      ∀ (k : Fin n) (now more : Nat), let c := ((after rs).heap k).size + more
        ∃ ts left, ((after rs).bindings k).Due now ts left ∧
          ((after rs).answers (List.replicate c (k.val, .pop now))).map Prod.fst =
            ts.map (fun t => .popped (some t)) ++ List.replicate (c - ts.length) (.popped none) := by
  constructor
  · have hfollows := (create_row n).follows rs
    rwa [bindings_create] at hfollows
  · intro k now more
    have hr := after_row rs
    exact ⟨_, _, Heap.popAll_bindings (hr.kept k k.isLt) (Nat.le_add_right _ _), hr.answers_pop k now _⟩

end Heaps

end LinkEngine.Timer

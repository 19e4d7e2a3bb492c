import LinkEngine.Timer.Heap
import Mathlib.Data.List.Perm.Basic

/-!
# Sifting

A timer that is out of order moves up or down by exchanges until it is in order. An
exchange only rewrites the positions of the two timers (`Shuffled`), so what a heap
knows of its timers it still knows after it was sifted. Of the order, a timer that
moves up needs that everything but itself is in order (`UpReady`), one that moves down
that everything but its children is (`DownReady`); both ask that the children are in
order with the parent, which is what makes an exchange safe.
-/

namespace LinkEngine.Timer

namespace Heap

variable {h h' h'' : Heap} {table table' table'' : Table} {a b i j t fuel : Nat}

/-! ## Positions -/

/-- A position of the heap; positions count from one. -/
structure IsPosition (h : Heap) (i : Nat) : Prop where
  pos : 0 < i
  le : i ≤ h.size

theorem IsPosition.lt (hi : h.IsPosition i) : i - 1 < h.items.length :=
  Nat.sub_one_lt_of_le hi.pos hi.le

theorem timerAt_eq_getElem (hi : i - 1 < h.items.length) : h.timerAt i = h.items[i - 1] :=
  (List.getElem_eq_getD 0).symm

/-- The timers of a heap are those at its positions. -/
theorem mem_items : t ∈ h.items ↔ ∃ i, h.IsPosition i ∧ h.timerAt i = t := by
  constructor
  · intro ht
    obtain ⟨n, hn, rfl⟩ := List.getElem_of_mem ht
    have hi : h.IsPosition (n + 1) := ⟨Nat.succ_pos n, hn⟩
    exact ⟨n + 1, hi, timerAt_eq_getElem hi.lt⟩
  · rintro ⟨i, hi, rfl⟩
    rw [timerAt_eq_getElem hi.lt]
    exact List.getElem_mem _

/-- Each timer of the heap knows its position there. -/
def Indexed (h : Heap) (table : Table) : Prop :=
  ∀ i, h.IsPosition i → (table.get (h.timerAt i)).position = i

/-- No timer wakes before its parent. -/
def Ordered (h : Heap) (table : Table) : Prop :=
  ∀ i, 1 < i → i ≤ h.size → h.wakeAt table (i / 2) ≤ h.wakeAt table i

/-- The timers at different positions are different. -/
theorem Indexed.injective (hx : h.Indexed table) (ha : h.IsPosition a) (hb : h.IsPosition b)
    (hab : h.timerAt a = h.timerAt b) : a = b := by
  rw [← hx a ha, ← hx b hb, hab]

theorem Indexed.nodup (hx : h.Indexed table) : h.items.Nodup := by
  refine List.pairwise_iff_getElem.2 fun m n hm hn hlt heq => ?_
  have ha : h.IsPosition (m + 1) := ⟨Nat.succ_pos m, hm⟩
  have hb : h.IsPosition (n + 1) := ⟨Nat.succ_pos n, hn⟩
  have := hx.injective ha hb (by rw [timerAt_eq_getElem ha.lt, timerAt_eq_getElem hb.lt]; exact heq)
  omega

/-! ## Exchanges -/

/-- The same timers in another order: nothing but their positions was rewritten, and
those are right if they were. -/
structure Shuffled (h : Heap) (table : Table) (h' : Heap) (table' : Table) : Prop where
  number : h'.number = h.number
  perm : h'.items.Perm h.items
  entry : ∀ t, ∃ p, table'.get t = { table.get t with position := p }
  away : ∀ t, t ∉ h.items → table'.get t = table.get t
  indexed : h.Indexed table → h'.Indexed table'

namespace Shuffled

theorem refl : Shuffled h table h table := ⟨rfl, .rfl, fun _ => ⟨_, rfl⟩, fun _ _ => rfl, id⟩

theorem trans (h₁ : Shuffled h table h' table') (h₂ : Shuffled h' table' h'' table'') :
    Shuffled h table h'' table'' where
  number := h₂.number.trans h₁.number
  perm := h₂.perm.trans h₁.perm
  entry t := by
    obtain ⟨p, hp⟩ := h₁.entry t
    obtain ⟨q, hq⟩ := h₂.entry t
    exact ⟨q, by rw [hq, hp]⟩
  away t ht := (h₂.away t (mt h₁.perm.mem_iff.1 ht)).trans (h₁.away t ht)
  indexed := h₂.indexed ∘ h₁.indexed

theorem size (hs : Shuffled h table h' table') : h'.size = h.size := hs.perm.length_eq

end Shuffled

theorem size_swap : (h.swap table a b).1.size = h.size := by
  simp [swap, place, size]

theorem isPosition_swap : (h.swap table a b).1.IsPosition i ↔ h.IsPosition i := by
  constructor <;> rintro ⟨hpos, hle⟩
  · exact ⟨hpos, size_swap ▸ hle⟩
  · exact ⟨hpos, size_swap.symm ▸ hle⟩

theorem timerAt_swap (ha : h.IsPosition a) (hb : h.IsPosition b) (hi : h.IsPosition i) :
    (h.swap table a b).1.timerAt i =
      if i = b then h.timerAt a else if i = a then h.timerAt b else h.timerAt i := by
  rw [timerAt_eq_getElem (isPosition_swap.2 hi).lt, timerAt_eq_getElem hi.lt]
  have := ha.pos
  have := hb.pos
  have := hi.pos
  have hib : b - 1 = i - 1 ↔ i = b := by omega
  have hia : a - 1 = i - 1 ↔ i = a := by omega
  simp only [swap, place, List.getElem_set, hib, hia]

theorem get_swap : (h.swap table a b).2.get t =
    if t = h.timerAt a then { table.get t with position := b }
    else if t = h.timerAt b then { table.get t with position := a } else table.get t := by
  simp only [swap, place, Table.setPosition, Table.get_set]
  split <;> split <;> simp_all

theorem wakeAt_swap (table : Table) (ha : h.IsPosition a) (hb : h.IsPosition b) (hi : h.IsPosition i) :
    (h.swap table a b).1.wakeAt (h.swap table a b).2 i =
      if i = b then h.wakeAt table a else if i = a then h.wakeAt table b
      else h.wakeAt table i := by
  have hwake (t : Nat) : ((h.swap table a b).2.get t).wake = (table.get t).wake := by
    rw [get_swap]
    split
    · rfl
    · split <;> rfl
  simp only [wakeAt, hwake, timerAt_swap ha hb hi]
  split
  · rfl
  · split <;> rfl

theorem swap_shuffled (ha : h.IsPosition a) (hb : h.IsPosition b) :
    Shuffled h table (h.swap table a b).1 (h.swap table a b).2 where
  number := rfl
  perm := by
    simp only [swap, place, timerAt_eq_getElem ha.lt, timerAt_eq_getElem hb.lt]
    exact List.set_set_perm ha.lt hb.lt
  entry t := by
    rw [get_swap]
    split
    · exact ⟨b, rfl⟩
    · split
      · exact ⟨a, rfl⟩
      · exact ⟨_, rfl⟩
  away t ht := by
    have hne {i : Nat} (hi : h.IsPosition i) : t ≠ h.timerAt i := by
      rintro rfl
      exact ht (mem_items.2 ⟨i, hi, rfl⟩)
    rw [get_swap, if_neg (hne ha), if_neg (hne hb)]
  indexed hx i hi := by
    rw [isPosition_swap] at hi
    rw [timerAt_swap ha hb hi, get_swap]
    by_cases hib : i = b
    · rw [if_pos hib, if_pos rfl, hib]
    · by_cases hia : i = a
      · have hne : h.timerAt b ≠ h.timerAt a := fun heq => hib (hia.trans (hx.injective hb ha heq).symm)
        rw [if_neg hib, if_pos hia, if_neg hne, if_pos rfl, hia]
      · have hna : h.timerAt i ≠ h.timerAt a := fun heq => hia (hx.injective hi ha heq)
        have hnb : h.timerAt i ≠ h.timerAt b := fun heq => hib (hx.injective hi hb heq)
        rw [if_neg hib, if_neg hia, if_neg hna, if_neg hnb, hx i hi]

/-! ## Moving up -/

/-- All are in order with their parents but the timer at `i`, and its children are in
order with its parent. -/
structure UpReady (h : Heap) (table : Table) (i : Nat) : Prop where
  others : ∀ j, 1 < j → j ≤ h.size → j ≠ i → h.wakeAt table (j / 2) ≤ h.wakeAt table j
  grand : 1 < i → ∀ j, j ≤ h.size → j / 2 = i → h.wakeAt table (i / 2) ≤ h.wakeAt table j

theorem UpReady.swap (hr : h.UpReady table i) (hi : h.IsPosition i) (h1 : 1 < i)
    (hlt : h.wakeAt table i < h.wakeAt table (i / 2)) :
    (h.swap table i (i / 2)).1.UpReady (h.swap table i (i / 2)).2 (i / 2) := by
  have hp : h.IsPosition (i / 2) := ⟨by omega, by have := hi.le; omega⟩
  have hw {j : Nat} (h0 : 0 < j) (hj : j ≤ h.size) := wakeAt_swap table hi hp ⟨h0, hj⟩
  constructor
  · intro j hj1 hjs hjp
    rw [size_swap] at hjs
    rw [hw (by omega) (by omega), hw (by omega) hjs, if_neg hjp]
    by_cases hji : j = i
    · subst hji
      simp only [if_true]
      exact Nat.le_of_lt hlt
    · rw [if_neg hji]
      by_cases hjp2 : j / 2 = i / 2
      · -- The other child of the parent.
        rw [if_pos hjp2]
        have := hr.others j hj1 hjs hji
        rw [hjp2] at this
        omega
      · rw [if_neg hjp2]
        by_cases hji2 : j / 2 = i
        · rw [if_pos hji2]
          exact hr.grand h1 j hjs hji2
        · rw [if_neg hji2]
          exact hr.others j hj1 hjs hji
  · intro hp1 j hjs hjp
    rw [size_swap] at hjs
    have hpp := hr.others (i / 2) hp1 hp.le (by omega)
    rw [hw (by omega) (by omega), hw (by omega) hjs, if_neg (by omega), if_neg (by omega),
      if_neg (by omega)]
    by_cases hji : j = i
    · rw [if_pos hji]
      exact hpp
    · rw [if_neg hji]
      have := hr.others j (by omega) hjs hji
      rw [hjp] at this
      omega

/-- A timer that is in order with its parent has come to rest. -/
theorem UpReady.ordered (hr : h.UpReady table i)
    (hi : 1 < i → h.wakeAt table (i / 2) ≤ h.wakeAt table i) : h.Ordered table := by
  intro j hj1 hjs
  by_cases hji : j = i
  · subst hji
    exact hi hj1
  · exact hr.others j hj1 hjs hji

/-- **Moving up** exchanges timers until all are in order. -/
theorem siftUp_spec (hi : h.IsPosition i) (hf : i ≤ fuel) (hr : h.UpReady table i) :
    Shuffled h table (h.siftUp table i fuel).2.1 (h.siftUp table i fuel).2.2 ∧
      (h.siftUp table i fuel).2.1.Ordered (h.siftUp table i fuel).2.2 := by
  induction fuel generalizing h table i with
  | zero => exact absurd hi.pos (by omega)
  | succ fuel ih =>
    rw [siftUp]
    split
    next hroot => exact ⟨.refl, hr.ordered fun h1 => absurd h1 (by omega)⟩
    next hroot =>
    split
    next hle => exact ⟨.refl, hr.ordered fun _ => hle⟩
    next hlt =>
    have hp : h.IsPosition (i / 2) := ⟨by omega, by have := hi.le; omega⟩
    obtain ⟨hshuffled, hordered⟩ := ih (isPosition_swap.2 hp) (by omega)
      (hr.swap hi (by omega) (by omega))
    exact ⟨(swap_shuffled hi hp).trans hshuffled, hordered⟩

/-- The timer that moves up is the one at the answered position. -/
theorem siftUp_rests (hi : h.IsPosition i) :
    (h.siftUp table i fuel).2.1.IsPosition (h.siftUp table i fuel).1 ∧
      (h.siftUp table i fuel).2.1.timerAt (h.siftUp table i fuel).1 = h.timerAt i := by
  induction fuel generalizing h table i with
  | zero => exact ⟨hi, rfl⟩
  | succ fuel ih =>
    rw [siftUp]
    split
    · exact ⟨hi, rfl⟩
    next hroot =>
    split
    · exact ⟨hi, rfl⟩
    next =>
    have hp : h.IsPosition (i / 2) := ⟨by omega, by have := hi.le; omega⟩
    have hp' : (h.swap table i (i / 2)).1.IsPosition (i / 2) := isPosition_swap.2 hp
    have hat : (h.swap table i (i / 2)).1.timerAt (i / 2) = h.timerAt i := by
      rw [timerAt_swap hi hp hp, if_pos rfl]
    rw [← hat]
    exact ih hp'

/-! ## Moving down -/

/-- All are in order with their parents but the children of the timer at `i`, and these
are in order with its parent. -/
structure DownReady (h : Heap) (table : Table) (i : Nat) : Prop where
  others : ∀ j, 1 < j → j ≤ h.size → j / 2 ≠ i → h.wakeAt table (j / 2) ≤ h.wakeAt table j
  grand : 1 < i → ∀ j, j ≤ h.size → j / 2 = i → h.wakeAt table (i / 2) ≤ h.wakeAt table j

/-- The earlier child is one, and wakes no later than any other. -/
theorem earlierChild_spec (table : Table) (h2 : 2 * i ≤ h.size) :
    h.earlierChild table i / 2 = i ∧ h.earlierChild table i ≤ h.size ∧
      ∀ j, j ≤ h.size → j / 2 = i →
        h.wakeAt table (h.earlierChild table i) ≤ h.wakeAt table j := by
  have hchild {j : Nat} (hj : j / 2 = i) : j = 2 * i ∨ j = 2 * i + 1 := by omega
  unfold earlierChild
  split
  next hright =>
    refine ⟨by omega, hright.1, fun j hjs hj => ?_⟩
    rcases hchild hj with rfl | rfl
    · exact Nat.le_of_lt hright.2
    · exact Nat.le_refl _
  next hleft =>
    refine ⟨by omega, h2, fun j hjs hj => ?_⟩
    rcases hchild hj with rfl | rfl
    · exact Nat.le_refl _
    · exact Nat.le_of_not_lt fun hlt => hleft ⟨hjs, hlt⟩

theorem DownReady.swap {c : Nat} (hr : h.DownReady table i) (hi : h.IsPosition i)
    (hc : c / 2 = i) (hcs : c ≤ h.size)
    (hleast : ∀ j, j ≤ h.size → j / 2 = i → h.wakeAt table c ≤ h.wakeAt table j)
    (hlt : h.wakeAt table c < h.wakeAt table i) :
    (h.swap table i c).1.DownReady (h.swap table i c).2 c := by
  have hi0 := hi.pos
  have hcp : h.IsPosition c := ⟨by omega, hcs⟩
  have hw {j : Nat} (h0 : 0 < j) (hj : j ≤ h.size) := wakeAt_swap table hi hcp ⟨h0, hj⟩
  constructor
  · intro j hj1 hjs hjc
    rw [size_swap] at hjs
    rw [hw (by omega) (by omega), hw (by omega) hjs, if_neg hjc]
    by_cases hji : j = i
    · -- The timer that moved up, and its parent.
      rw [if_neg (by omega), if_neg (by omega), if_pos hji, hji]
      exact hr.grand (by omega) c hcs hc
    · by_cases hji2 : j / 2 = i
      · rw [if_pos hji2, if_neg hji]
        split
        · exact Nat.le_of_lt hlt
        · exact hleast j hjs hji2
      · rw [if_neg hji2, if_neg (by omega), if_neg hji]
        exact hr.others j hj1 hjs hji2
  · intro hc1 j hjs hjc
    rw [size_swap] at hjs
    rw [hw (by omega) (by omega), hw (by omega) hjs, if_neg (by omega), if_pos hc,
      if_neg (by omega), if_neg (by omega)]
    have := hr.others j (by omega) hjs (by omega)
    rwa [hjc] at this

/-- A timer that no child wakes before has come to rest. -/
theorem DownReady.ordered (hr : h.DownReady table i)
    (hi : ∀ j, j ≤ h.size → j / 2 = i → h.wakeAt table i ≤ h.wakeAt table j) :
    h.Ordered table := by
  intro j hj1 hjs
  by_cases hji : j / 2 = i
  · rw [hji]
    exact hi j hjs hji
  · exact hr.others j hj1 hjs hji

/-- **Moving down** exchanges timers until all are in order. -/
theorem siftDown_spec (hi : h.IsPosition i) (hf : h.size < i + fuel) (hr : h.DownReady table i) :
    Shuffled h table (h.siftDown table i fuel).1 (h.siftDown table i fuel).2 ∧
      (h.siftDown table i fuel).1.Ordered (h.siftDown table i fuel).2 := by
  induction fuel generalizing h table i with
  | zero => exact absurd hi.le (by omega)
  | succ fuel ih =>
    have hi0 := hi.pos
    rw [siftDown]
    split
    next hleaf => exact ⟨.refl, hr.ordered fun j hjs hj => absurd hjs (by omega)⟩
    next hinner =>
    obtain ⟨hc, hcs, hleast⟩ := earlierChild_spec table (by omega : 2 * i ≤ h.size)
    simp only
    split
    next hle => exact ⟨.refl, hr.ordered fun j hjs hj => Nat.le_trans hle (hleast j hjs hj)⟩
    next hlt =>
    have hcp : h.IsPosition (h.earlierChild table i) := ⟨by omega, hcs⟩
    obtain ⟨hshuffled, hordered⟩ := ih (isPosition_swap.2 hcp) (by rw [size_swap]; omega)
      (hr.swap hi hc hcs hleast (by omega))
    exact ⟨(swap_shuffled hi hcp).trans hshuffled, hordered⟩

end Heap

end LinkEngine.Timer

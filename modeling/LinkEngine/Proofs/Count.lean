import LinkEngine.Proofs.Frame

/-!
# Counting links

How many links have a property changes with one link by one at most, and the
number of links that are not closed, which bounds how deep teardowns nest, never
grows by what is done to a link that exists.
-/

namespace LinkEngine.Engine

variable {s : Engine} {l : Nat} {k k' : Link}

private theorem countP_modify (p : Link → Bool) (f : Link → Link) :
    ∀ (slots : List Slot) (l : Nat) (k : Link), slots[l]? = some (.link k) →
      ((slots.modify l (Slot.withLink f)).filterMap Slot.link?).countP p +
          (if p k then 1 else 0) =
        (slots.filterMap Slot.link?).countP p + (if p (f k) then 1 else 0)
  | [], l, k, h => by simp at h
  | slot :: slots, 0, k, h => by
    obtain rfl : slot = .link k := by simpa using h
    rw [List.modify_zero_cons]
    simp only [Slot.withLink, List.filterMap_cons, Slot.link?, List.countP_cons]
    omega
  | slot :: slots, l + 1, k, h => by
    have ih := countP_modify p f slots l k (by simpa using h)
    rw [List.modify_succ_cons]
    cases slot with
    | link k' =>
      simp only [List.filterMap_cons, Slot.link?, List.countP_cons]
      omega
    | turnedAway socket => simpa only [List.filterMap_cons, Slot.link?] using ih

/-- Putting a link in the place of an earlier state of it changes a count by
what these two contribute to it. -/
theorem countP_links_setLink (p : Link → Bool) (h : s.link? l = some k) (k' : Link) :
    (s.setLink l k').links.countP p + (if p k then 1 else 0) =
      s.links.countP p + (if p k' then 1 else 0) :=
  countP_modify p (fun _ => k') s.slots l k (link?_eq_some.1 h)

theorem mem_links : k ∈ s.links ↔ ∃ l, s.link? l = some k := by
  constructor
  · intro h
    obtain ⟨slot, hslot, hlink⟩ := List.mem_filterMap.1 h
    obtain ⟨l, hl⟩ := List.getElem?_of_mem hslot
    refine ⟨l, ?_⟩
    unfold link?
    rw [hl]
    exact hlink
  · rintro ⟨l, h⟩
    exact List.mem_filterMap.2 ⟨.link k, List.mem_of_getElem? (link?_eq_some.1 h), rfl⟩

/-- A link that exists is counted. -/
theorem countP_links_pos {p : Link → Bool} (h : s.link? l = some k) (hp : p k = true) :
    0 < s.links.countP p :=
  List.countP_pos_iff.2 ⟨k, mem_links.2 ⟨l, h⟩, hp⟩

/-- A link that is closed already, or still open, is as one as it was the
other. -/
theorem openLinks_setLink {x : Link} (h : s.link? l = some k) (hc : x.closed = k.closed) :
    (s.setLink l x).openLinks = s.openLinks := by
  have := countP_links_setLink (fun k => !k.closed) h x
  simp only [hc] at this
  exact Nat.add_right_cancel this

/-- Closing a link that was open leaves one open link less. -/
theorem openLinks_setLink_closed (h : s.link? l = some k) (hc : k.closed = false)
    (hc' : k'.closed = true) : (s.setLink l k').openLinks + 1 = s.openLinks := by
  have := countP_links_setLink (fun k => !k.closed) h k'
  simp only [hc, hc', Bool.not_false, Bool.not_true, if_true, Bool.false_eq_true, if_false] at this
  exact this

@[simp] theorem openLinks_note (s : Engine) (l : Nat) (n : Link.Note) :
    (s.note l n).openLinks = s.openLinks := by
  cases hk : s.link? l with
  | none => rw [show s.note l n = s from modifyLink_of_none hk _]
  | some k =>
    rw [note_eq_setLink hk]
    exact openLinks_setLink hk rfl

theorem openLinks_pos (h : s.link? l = some k) (hc : k.closed = false) : 0 < s.openLinks :=
  countP_links_pos h (by simp [hc])

private theorem countP_modify_socket (p : Link → Bool)
    (f : Socket.Endpoint Operation → Socket.Endpoint Operation)
    (hp : ∀ k : Link, p (k.withSocket f) = p k) :
    ∀ (slots : List Slot) (l : Nat),
      ((slots.modify l (Slot.withSocket f)).filterMap Slot.link?).countP p =
        (slots.filterMap Slot.link?).countP p
  | [], l => by simp
  | slot :: slots, 0 => by
    rw [List.modify_zero_cons]
    cases slot with
    | link k => simp only [Slot.withSocket, List.filterMap_cons, Slot.link?, List.countP_cons, hp]
    | turnedAway socket => simp only [Slot.withSocket, List.filterMap_cons, Slot.link?]
  | slot :: slots, l + 1 => by
    have ih := countP_modify_socket p f hp slots l
    rw [List.modify_succ_cons]
    cases slot with
    | link k => simp only [List.filterMap_cons, Slot.link?, List.countP_cons, ih]
    | turnedAway socket => simpa only [List.filterMap_cons, Slot.link?] using ih

/-- Working on a socket changes no count that does not look at sockets. -/
theorem countP_links_modifySocket {p : Link → Bool}
    {f : Socket.Endpoint Operation → Socket.Endpoint Operation}
    (hp : ∀ k : Link, p (k.withSocket f) = p k) (s : Engine) (l : Nat) :
    (s.modifySocket l f).links.countP p = s.links.countP p :=
  countP_modify_socket p f hp s.slots l

end LinkEngine.Engine

import LinkEngine.Engine.Running

/-!
# What a write leaves as it was

The engine is written to in few ways: a link is put in the place of an earlier
state of it, a listener is worked on, the scheduler or one of the plain fields is
replaced. The lemmas here say what each of these lets be seen afterwards of the
links, and that writing twice to one link is writing once.
-/

namespace LinkEngine.Engine

variable {s : Engine} {l : Nat} {k : Link}

/-- The slot a link is read from. -/
theorem link?_eq_some : s.link? l = some k ↔ s.slots[l]? = some (.link k) := by
  unfold link?
  cases s.slots[l]? with
  | none => simp
  | some slot => cases slot <;> simp [Slot.link?]

/-- Only links that were made have a slot. -/
theorem lt_length_of_link? (hk : s.link? l = some k) : l < s.slots.length :=
  (List.getElem?_eq_some_iff.1 (link?_eq_some.1 hk)).1

@[simp] theorem link?_modifyLink (s : Engine) (l m : Nat) (f : Link → Link) :
    (s.modifyLink l f).link? m = if m = l then (s.link? m).map f else s.link? m := by
  unfold modifyLink link?
  simp only [List.getElem?_modify]
  by_cases h : l = m
  · subst h
    rw [if_pos rfl]
    cases s.slots[l]? with
    | none => rfl
    | some slot => cases slot <;> simp [Slot.withLink, Slot.link?]
  · rw [if_neg fun e => h e.symm]
    cases s.slots[m]? with
    | none => rfl
    | some slot => simp [h]

theorem link?_setLink_self (h : s.link? l = some k) (k' : Link) :
    (s.setLink l k').link? l = some k' := by
  simp [setLink, h]

theorem link?_setLink_ne {m : Nat} (h : m ≠ l) (s : Engine) (k : Link) :
    (s.setLink l k).link? m = s.link? m := by
  simp [setLink, h]

/-- Work that does the same to the link that is there is the same work. -/
theorem modifyLink_congr {f g : Link → Link} (h : ∀ k, s.link? l = some k → f k = g k) :
    s.modifyLink l f = s.modifyLink l g := by
  unfold modifyLink
  congr 1
  refine List.ext_getElem? ?_
  intro m
  simp only [List.getElem?_modify]
  by_cases hm : l = m
  · subst hm
    cases hs : s.slots[l]? with
    | none => rfl
    | some slot =>
      cases slot with
      | link k => simp [Slot.withLink, h k (link?_eq_some.2 hs)]
      | turnedAway socket => simp [Slot.withLink]
  · simp [hm]

/-- Working on a link that exists is putting it there anew. -/
theorem modifyLink_eq_setLink (h : s.link? l = some k) (f : Link → Link) :
    s.modifyLink l f = s.setLink l (f k) :=
  modifyLink_congr fun k' hk' => by
    rw [h] at hk'
    cases hk'
    rfl

theorem modifyLink_id (s : Engine) (l : Nat) : s.modifyLink l id = s := by
  have hid : Slot.withLink id = id := by
    funext slot
    cases slot <;> rfl
  unfold modifyLink
  rw [hid, List.modify_id]

/-- Working on a link that is not there changes nothing. -/
theorem modifyLink_of_none (h : s.link? l = none) (f : Link → Link) : s.modifyLink l f = s := by
  rw [modifyLink_congr (g := id), modifyLink_id]
  intro k hk
  rw [h] at hk
  cases hk

@[simp] theorem modifyLink_modifyLink (s : Engine) (l : Nat) (f g : Link → Link) :
    (s.modifyLink l f).modifyLink l g = s.modifyLink l (g ∘ f) := by
  unfold modifyLink
  rw [List.modify_modify_eq]
  congr 2
  funext slot
  cases slot <;> rfl

theorem setLink_self (h : s.link? l = some k) : s.setLink l k = s :=
  (modifyLink_eq_setLink h id).symm.trans (modifyLink_id s l)

theorem note_eq_setLink (h : s.link? l = some k) (n : Link.Note) :
    s.note l n = s.setLink l (k.note n) :=
  modifyLink_eq_setLink h _

@[simp] theorem note_setLink (s : Engine) (l : Nat) (k : Link) (n : Link.Note) :
    (s.setLink l k).note l n = s.setLink l (k.note n) :=
  modifyLink_modifyLink ..

@[simp] theorem link?_modifyListener (s : Engine) (i m : Nat) (f : Listener → Listener) :
    (s.modifyListener i f).link? m = s.link? m := rfl

/-- Working on a socket works on the link that has it. -/
@[simp] theorem link?_modifySocket (s : Engine) (l m : Nat)
    (f : Socket.Endpoint Operation → Socket.Endpoint Operation) :
    (s.modifySocket l f).link? m =
      if m = l then (s.link? m).map (·.withSocket f) else s.link? m := by
  unfold modifySocket link?
  simp only [List.getElem?_modify]
  by_cases h : l = m
  · subst h
    rw [if_pos rfl]
    cases s.slots[l]? with
    | none => rfl
    | some slot => cases slot <;> simp [Slot.withSocket, Slot.link?]
  · rw [if_neg fun e => h e.symm]
    cases s.slots[m]? with
    | none => rfl
    | some slot => simp [h]

end LinkEngine.Engine

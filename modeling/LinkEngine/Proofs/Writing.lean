import LinkEngine.Proofs.Choices

/-!
# Every choice can be written

There is a document for every choice of settings (`exists_isWritten`): a number is
written in its digits, and a text with its quotes, backslashes and controls escaped.
-/

namespace LinkEngine

namespace Json

/-! ## Texts and numbers -/

/-- A unit that is no half of a pair is a character of its own. -/
theorem text?_unit {u : Nat} (hhigh : isHighUnit u = false) (hlow : isLowUnit u = false)
    (t : Literal) : Literal.text? (.unit u :: t) = (Literal.text? t).map (Char.ofNat u :: ·) := by
  cases t with
  | nil => simp only [Literal.text?, hhigh, hlow, Bool.or_self, Bool.false_eq_true, if_false]
  | cons i t =>
    cases i with
    | char c => simp only [Literal.text?, hhigh, hlow, Bool.or_self, Bool.false_eq_true, if_false]
    | unit v => simp only [Literal.text?, hhigh, hlow, Bool.false_eq_true, if_false]

/-- A hexadecimal digit of each value. -/
theorem exists_isHex {v : Nat} (h : v < 16) : ∃ c, IsHex c v :=
  ⟨smallDigits.get ⟨v, h⟩, .inl (List.getElem?_eq_getElem h)⟩

/-- Every character has an item of its own: a quote or a backslash is escaped by its letter,
and a control by its number. -/
theorem exists_item (c : Char) : ∃ (i : Item) (cs : List Char), i.Spelt cs ∧
    ∀ t, Literal.text? (i :: t) = (Literal.text? t).map (c :: ·) := by
  by_cases hq : c = '"'
  · exact ⟨.char c, ['\\', '"'], .escape (by rw [hq]; decide), fun _ => rfl⟩
  by_cases hb : c = '\\'
  · exact ⟨.char c, ['\\', '\\'], .escape (by rw [hb]; decide), fun _ => rfl⟩
  by_cases hc : 0x20 ≤ c.toNat
  · exact ⟨.char c, [c], .plain hq hb hc, fun _ => rfl⟩
  -- A control is the unit with its own number.
  obtain ⟨high, hhigh⟩ := exists_isHex (v := c.toNat / 16) (by omega)
  obtain ⟨low, hlow⟩ := exists_isHex (v := c.toNat % 16) (by omega)
  have hzero : IsHex '0' 0 := .inl rfl
  have hnumber : 0 * 16 ^ 3 + 0 * 16 ^ 2 + c.toNat / 16 * 16 + c.toNat % 16 = c.toNat := by omega
  refine ⟨.unit c.toNat, ['\\', 'u', '0', '0', high, low], ?_, fun t => ?_⟩
  · have hunit := Item.Spelt.unit hzero hzero hhigh hlow
    rwa [hnumber] at hunit
  · rw [text?_unit (by simp [isHighUnit]; omega) (by simp [isLowUnit]; omega), Char.ofNat_toNat]

/-- Every text can be written as a string. -/
theorem exists_literal (cs : List Char) :
    ∃ (t : Literal) (ds : List Char), t.Spelt ds ∧ t.text? = some cs := by
  induction cs with
  | nil => exact ⟨[], [], .nil, rfl⟩
  | cons c cs ih =>
    obtain ⟨t, ds, ht, htext⟩ := ih
    obtain ⟨i, es, hi, hitem⟩ := exists_item c
    exact ⟨i :: t, es ++ ds, .cons hi ht, by rw [hitem, htext]; rfl⟩

/-- The digits of a number other than zero do not begin with zero. -/
theorem head?_toDigits_ne {n : Nat} (h : 0 < n) : (Nat.toDigits 10 n).head? ≠ some '0' := by
  induction n using Nat.strongRecOn with
  | _ n ih =>
    by_cases hlt : n < 10
    · rw [Nat.toDigits_of_lt_base hlt]
      have hdigits : ∀ k : Fin 10, 0 < k.val → [Nat.digitChar k.val].head? ≠ some '0' := by decide
      exact hdigits ⟨n, hlt⟩ h
    · rw [Nat.toDigits_of_base_le (by decide) (by omega), List.head?_append]
      have hrest := ih (n / 10) (by omega) (by omega)
      cases hd : (Nat.toDigits 10 (n / 10)).head? with
      | none => exact absurd (List.head?_eq_none_iff.1 hd) Nat.toDigits_ne_nil
      | some d =>
        rw [hd] at hrest
        exact hrest

end Json

namespace Settings

open Json (Value Literal)

/-- Every number is written in its digits. -/
theorem spelt_plain (n : Nat) : (plain n).Spelt (Text.decimal n) := by
  have hdigits : Json.Digits (Text.decimal n) := ⟨Nat.toDigits_ne_nil, isDigit_of_mem_decimal n⟩
  have hzero : (Text.decimal n).head? = some '0' → Text.decimal n = ['0'] := by
    intro hhead
    by_cases h : n = 0
    · rw [h]
      rfl
    · exact absurd hhead (Json.head?_toDigits_ne (Nat.pos_of_ne_zero h))
  have hspelt : (plain n).Spelt ([] ++ (Text.decimal n ++ ([] ++ []))) :=
    .mk hdigits hzero .absent .absent
  rwa [List.nil_append, List.append_nil, List.append_nil] at hspelt

/-- Something can be written for a setting. -/
def Writable (is : Value → Prop) : Prop := ∃ v cs, is v ∧ v.Spelt cs

@[simp] theorem writable_isNumber (n : UInt64) : Writable (IsNumber n) :=
  ⟨_, _, rfl, .number (spelt_plain n.toNat)⟩

@[simp] theorem writable_isText (s : String) : Writable (IsText s) := by
  obtain ⟨t, ds, ht, htext⟩ := Json.exists_literal s.toList
  exact ⟨_, _, ⟨t, rfl, htext⟩, .text ht⟩

@[simp] theorem writable_isFlag (b : Bool) : Writable (IsFlag b) := by
  cases b with
  | true => exact ⟨_, _, rfl, .true⟩
  | false => exact ⟨_, _, rfl, .false⟩

@[simp] theorem writable_isOptional (o : Option UInt64) : Writable (IsOptional o) := by
  cases o with
  | none => exact ⟨_, _, rfl, .null⟩
  | some n => exact writable_isNumber n

/-- Something can be written for every setting of a table that is given. -/
def TableWritable (table : List Row) : Prop := ∀ r ∈ table, ∀ is ∈ r.written, Writable is

@[simp] theorem tableWritable_nil : TableWritable [] := nofun

@[simp] theorem tableWritable_cons {α : Type} {name : String} {o : Option α}
    {is : α → Value → Prop} {table : List Row} (his : ∀ a, Writable (is a)) :
    TableWritable (row name o is :: table) ↔ TableWritable table := by
  have hrow : ∀ p ∈ (row name o is).written, Writable p := by
    intro p hp
    obtain ⟨a, -, rfl⟩ := Option.map_eq_some_iff.1 hp
    exact his a
  exact List.forall_mem_cons.trans (and_iff_right hrow)

/-- Settings can be written one after the other. -/
theorem exists_members (known : List String) (entries : List (String × (Value → Prop)))
    (h : ∀ e ∈ entries, Writable e.2) :
    ∃ members, InOrder known entries members ∧
      (members = [] ∨ ∃ cs, Json.MembersSpelt members cs) := by
  induction entries with
  | nil => exact ⟨[], .nil, .inl rfl⟩
  | cons e entries ih =>
    obtain ⟨members, horder, hspelt⟩ := ih fun d hd => h d (List.mem_cons_of_mem e hd)
    obtain ⟨v, cs, hv, hcs⟩ := h e List.mem_cons_self
    obtain ⟨key, ks, hkey, htext⟩ := Json.exists_literal e.1.toList
    have hmember := Json.MemberSpelt.mk Json.blank_nil hkey Json.blank_nil Json.blank_nil hcs
      Json.blank_nil
    refine ⟨(key, v) :: members, .setting htext hv horder, .inr ?_⟩
    rcases hspelt with rfl | ⟨ds, hds⟩
    · exact ⟨_, .one hmember⟩
    · exact ⟨_, .more hmember hds⟩

theorem writable_isSection {table : List Row} (h : TableWritable table) :
    Writable (IsSection table) := by
  have hentries : ∀ e ∈ given table, Writable e.2 := by
    intro e he
    obtain ⟨r, hr, hw⟩ := List.mem_filterMap.1 he
    obtain ⟨is, his, rfl⟩ := Option.map_eq_some_iff.1 hw
    exact h r hr is his
  obtain ⟨members, horder, hspelt⟩ := exists_members (table.map (·.name)) _ hentries
  have hwrites : Writes table members := ⟨_, .refl _, horder⟩
  rcases hspelt with rfl | ⟨cs, hcs⟩
  · exact ⟨_, _, ⟨_, rfl, hwrites⟩, .noMembers Json.blank_nil⟩
  · exact ⟨_, _, ⟨_, rfl, hwrites⟩, .object hcs⟩

theorem Listener.Choice.writable (c : Listener.Choice) : TableWritable c.table := by
  simp [table]

theorem Scheduler.Choice.writable (c : Scheduler.Choice) : TableWritable c.table := by
  simp [table]

theorem Worker.Choice.writable (c : Worker.Choice) : TableWritable c.table := by
  simp [table]

theorem Multiplexer.Choice.writable (c : Multiplexer.Choice) : TableWritable c.table := by
  simp [table]

theorem Choice.writable (c : Choice) : TableWritable c.table := by
  simp [table, writable_isSection, Listener.Choice.writable, Scheduler.Choice.writable,
    Worker.Choice.writable, Multiplexer.Choice.writable]

/-- **Every choice of settings can be written.** -/
theorem Choice.exists_isWritten (c : Choice) : ∃ cs, c.IsWritten cs := by
  obtain ⟨v, cs, hsection, hspelt⟩ := writable_isSection c.writable
  exact ⟨cs, v, ⟨[], cs, [], Json.blank_nil, hspelt, Json.blank_nil, by simp⟩, hsection⟩

end Settings

end LinkEngine

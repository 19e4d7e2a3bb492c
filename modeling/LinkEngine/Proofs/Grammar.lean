import LinkEngine.Json.Reader
import Mathlib.Algebra.Group.Nat.Defs

/-!
# The grammar of documents

How a document may be written is stated here without any regard to how it is read:
`Value.Spelt v cs` says that the characters `cs` are one way to write `v`, with white
space wherever the grammar has room for it. The reader takes every text the grammar
allows for what it was written for (`takes_read?`). A number is the one token without
an end of its own, so what is read next must not go on with it (`Ends`).
-/

namespace LinkEngine.Json

/-! ## The grammar -/

/-- White space between tokens. -/
def Blank (cs : List Char) : Prop := ∀ c ∈ cs, c ∈ [' ', '\t', '\n', '\r']

theorem blank_nil : Blank [] := nofun

/-- A row of digits that is not empty. -/
def Digits (cs : List Char) : Prop := cs ≠ [] ∧ ∀ c ∈ cs, c.isDigit = true

/-- The fraction of a number, if it has one. -/
inductive Fraction : Bool → List Char → Prop where
  | absent : Fraction false []
  | present {ds : List Char} (h : Digits ds) : Fraction true ('.' :: ds)

/-- The exponent of a number, if it has one. -/
inductive Exponent : Bool → List Char → Prop where
  | absent : Exponent false []
  | present {e : Char} {sign ds : List Char} (he : e ∈ ['e', 'E'])
      (hs : sign ∈ [[], ['+'], ['-']]) (h : Digits ds) : Exponent true (e :: (sign ++ ds))

/-- A number; only zero begins with the digit zero. -/
inductive Number.Spelt : Number → List Char → Prop where
  | mk {negative hasFraction hasExponent : Bool} {digits fraction exponent : List Char}
      (hd : Digits digits) (hz : digits.head? = some '0' → digits = ['0'])
      (hf : Fraction hasFraction fraction) (he : Exponent hasExponent exponent) :
      Number.Spelt { negative, digits, hasFraction, hasExponent }
        ((if negative then ['-'] else []) ++ (digits ++ (fraction ++ exponent)))

/-- The hexadecimal digits in small letters, each at the place of its value. -/
def smallDigits : List Char :=
  ['0', '1', '2', '3', '4', '5', '6', '7', '8', '9', 'a', 'b', 'c', 'd', 'e', 'f']

/-- The hexadecimal digits in capitals. -/
def capitalDigits : List Char :=
  ['0', '1', '2', '3', '4', '5', '6', '7', '8', '9', 'A', 'B', 'C', 'D', 'E', 'F']

/-- A hexadecimal digit with its value, in small letters or in capitals. -/
def IsHex (c : Char) (v : Nat) : Prop := smallDigits[v]? = some c ∨ capitalDigits[v]? = some c

/-- The letters of the short escapes, with the characters they stand for. -/
def escapes : List (Char × Char) :=
  [('"', '"'), ('\\', '\\'), ('/', '/'), ('b', Char.ofNat 8), ('f', Char.ofNat 12), ('n', '\n'),
    ('r', '\r'), ('t', '\t')]

/-- An item of a string: a character as it is, unless it is a quote, a backslash or a
control; a short escape; or a unit of sixteen bits in hexadecimal digits. -/
inductive Item.Spelt : Item → List Char → Prop where
  | plain {c : Char} (hq : c ≠ '"') (hb : c ≠ '\\') (hc : 0x20 ≤ c.toNat) :
      Item.Spelt (.char c) [c]
  | escape {letter c : Char} (h : (letter, c) ∈ escapes) : Item.Spelt (.char c) ['\\', letter]
  | unit {a b c d : Char} {va vb vc vd : Nat} (ha : IsHex a va) (hb : IsHex b vb)
      (hc : IsHex c vc) (hd : IsHex d vd) :
      Item.Spelt (.unit (va * 16 ^ 3 + vb * 16 ^ 2 + vc * 16 + vd)) ['\\', 'u', a, b, c, d]

/-- The items of a string, without its quotes. -/
inductive Literal.Spelt : Literal → List Char → Prop where
  | nil : Literal.Spelt [] []
  | cons {i : Item} {t : Literal} {cs ds : List Char} (h : i.Spelt cs)
      (rest : Literal.Spelt t ds) : Literal.Spelt (i :: t) (cs ++ ds)

mutual

/-- A value, without white space around it. -/
inductive Value.Spelt : Value → List Char → Prop where
  | null : Value.Spelt .null ['n', 'u', 'l', 'l']
  | true : Value.Spelt (.bool true) ['t', 'r', 'u', 'e']
  | false : Value.Spelt (.bool false) ['f', 'a', 'l', 's', 'e']
  | number {n : Number} {cs : List Char} (h : n.Spelt cs) : Value.Spelt (.number n) cs
  | text {t : Literal} {cs : List Char} (h : t.Spelt cs) :
      Value.Spelt (.text t) ('"' :: (cs ++ ['"']))
  | noItems {blank : List Char} (hb : Blank blank) :
      Value.Spelt (.array []) ('[' :: (blank ++ [']']))
  | array {items : List Value} {cs : List Char} (h : ItemsSpelt items cs) :
      Value.Spelt (.array items) ('[' :: (cs ++ [']']))
  | noMembers {blank : List Char} (hb : Blank blank) :
      Value.Spelt (.object []) ('\x7b' :: (blank ++ ['\x7d']))
  | object {members : List (Literal × Value)} {cs : List Char} (h : MembersSpelt members cs) :
      Value.Spelt (.object members) ('\x7b' :: (cs ++ ['\x7d']))

/-- The items of an array that has some, with commas between them. -/
inductive ItemsSpelt : List Value → List Char → Prop where
  | one {v : Value} {before cs after : List Char} (hb : Blank before) (h : v.Spelt cs)
      (ha : Blank after) : ItemsSpelt [v] (before ++ (cs ++ after))
  | more {v : Value} {items : List Value} {before cs after rest : List Char}
      (hb : Blank before) (h : v.Spelt cs) (ha : Blank after) (hr : ItemsSpelt items rest) :
      ItemsSpelt (v :: items) (before ++ (cs ++ (after ++ ',' :: rest)))

/-- One member of an object, with the white space around it. -/
inductive MemberSpelt : Literal × Value → List Char → Prop where
  | mk {key : Literal} {v : Value} {before ks gap gap' cs after : List Char}
      (hb : Blank before) (hk : key.Spelt ks) (hg : Blank gap) (hg' : Blank gap')
      (h : v.Spelt cs) (ha : Blank after) :
      MemberSpelt (key, v)
        (before ++ '"' :: (ks ++ '"' :: (gap ++ ':' :: (gap' ++ (cs ++ after)))))

/-- The members of an object that has some, with commas between them. -/
inductive MembersSpelt : List (Literal × Value) → List Char → Prop where
  | one {m : Literal × Value} {cs : List Char} (h : MemberSpelt m cs) : MembersSpelt [m] cs
  | more {m : Literal × Value} {members : List (Literal × Value)} {cs rest : List Char}
      (h : MemberSpelt m cs) (hr : MembersSpelt members rest) :
      MembersSpelt (m :: members) (cs ++ ',' :: rest)

end

/-- A value that fills a text, with white space around it. -/
def Value.Fills (v : Value) (cs : List Char) : Prop :=
  ∃ before body after, Blank before ∧ v.Spelt body ∧ Blank after ∧ cs = before ++ (body ++ after)

/-! ## White space -/

theorem isSpace_iff {c : Char} : isSpace c = true ↔ c ∈ [' ', '\t', '\n', '\r'] := by
  simp only [isSpace, Bool.or_eq_true, beq_iff_eq, List.mem_cons, List.not_mem_nil, or_false]
  grind

theorem skipSpace_append {blank : List Char} (h : Blank blank) (cs : List Char) :
    skipSpace (blank ++ cs) = skipSpace cs :=
  List.dropWhile_append_of_pos fun c hc => isSpace_iff.2 (h c hc)

theorem skipSpace_cons {c : Char} (h : isSpace c = false) (cs : List Char) :
    skipSpace (c :: cs) = c :: cs := by
  rw [skipSpace, List.dropWhile_cons, h]
  rfl

theorem skipSpace_eq_nil {blank : List Char} (h : Blank blank) : skipSpace blank = [] := by
  have := skipSpace_append h []
  rwa [List.append_nil] at this

/-! ## Numbers -/

/-- A text that no number goes on with: it is empty or begins with white space or with a
mark that ends or parts values. -/
def Ends (rest : List Char) : Prop :=
  ∀ c, rest.head? = some c → c ∈ [' ', '\t', '\n', '\r', ',', ']', '\x7d']

theorem isDigit_iff {c : Char} : isDigit c = true ↔ c.isDigit = true := by
  simp only [isDigit, Text.digitValue?, Char.isDigit, Bool.and_eq_true, decide_eq_true_eq,
    UInt32.le_iff_toNat_le]
  split
  · next h => exact ⟨fun _ => h, fun _ => rfl⟩
  · next h => exact ⟨fun hf => absurd hf Bool.false_ne_true, fun hc => absurd hc h⟩

/-- What a text begins with, if it is not empty, has this property. -/
def Begins (p : Char → Prop) (cs : List Char) : Prop := ∀ c, cs.head? = some c → p c

theorem Ends.begins {rest : List Char} (h : Ends rest) :
    Begins (fun c => isDigit c = false ∧ c ≠ '.' ∧ c ≠ 'e' ∧ c ≠ 'E') rest := by
  intro c hc
  have hmem := h c hc
  simp only [List.mem_cons, List.not_mem_nil, or_false] at hmem
  rcases hmem with rfl | rfl | rfl | rfl | rfl | rfl | rfl <;> decide

/-- Reading digits takes the digits there are. -/
theorem span_digits {ds rest : List Char} (hd : Digits ds)
    (hr : Begins (fun c => isDigit c = false) rest) :
    (ds ++ rest).takeWhile isDigit = ds ∧ (ds ++ rest).dropWhile isDigit = rest := by
  have hall : ∀ c ∈ ds, isDigit c = true := fun c hc => isDigit_iff.2 (hd.2 c hc)
  rw [List.takeWhile_append_of_pos hall, List.dropWhile_append_of_pos hall]
  cases rest with
  | nil => exact ⟨List.append_nil ds, rfl⟩
  | cons c cs =>
    rw [List.takeWhile_cons, List.dropWhile_cons, hr c rfl]
    exact ⟨List.append_nil ds, rfl⟩

theorem Digits.head {ds : List Char} (h : Digits ds) (rest : List Char) :
    ∃ d tail, ds ++ rest = d :: tail ∧ isDigit d = true := by
  obtain ⟨hne, hall⟩ := h
  cases ds with
  | nil => exact absurd rfl hne
  | cons d ds => exact ⟨d, ds ++ rest, rfl, isDigit_iff.2 (hall d List.mem_cons_self)⟩

theorem readFraction_of_fraction {b : Bool} {fs rest : List Char} (h : Fraction b fs)
    (hr : Begins (fun c => isDigit c = false ∧ c ≠ '.') rest) :
    readFraction (fs ++ rest) = some (b, rest) := by
  cases h with
  | absent =>
    rw [List.nil_append]
    unfold readFraction
    split
    · exact absurd rfl (hr _ rfl).2
    · rfl
  | present hd =>
    obtain ⟨d, tail, heq, hdigit⟩ := hd.head rest
    have hspan := (span_digits hd fun c hc => (hr c hc).1).2
    rw [List.cons_append, heq]
    rw [heq] at hspan
    simp only [readFraction, hdigit, if_true, hspan]

theorem skipSign_append {sign ds : List Char} (hs : sign ∈ [[], ['+'], ['-']])
    (hd : Digits ds) (rest : List Char) : skipSign (sign ++ ds ++ rest) = ds ++ rest := by
  obtain ⟨d, tail, heq, hdigit⟩ := hd.head rest
  simp only [List.mem_cons, List.not_mem_nil, or_false] at hs
  rw [List.append_assoc, heq]
  rcases hs with rfl | rfl | rfl
  · rw [List.nil_append]
    unfold skipSign
    split
    · next h =>
      cases h
      cases hdigit
    · next h =>
      cases h
      cases hdigit
    · rfl
  · rfl
  · rfl

theorem readExponent_of_exponent {b : Bool} {es rest : List Char} (h : Exponent b es)
    (hr : Begins (fun c => isDigit c = false ∧ c ≠ 'e' ∧ c ≠ 'E') rest) :
    readExponent (es ++ rest) = some (b, rest) := by
  cases h with
  | absent =>
    rw [List.nil_append]
    cases rest with
    | nil => rfl
    | cons c cs =>
      obtain ⟨-, hsmall, hlarge⟩ := hr c rfl
      simp only [readExponent, beq_iff_eq, hsmall, hlarge, Bool.or_eq_true, or_self, if_false]
  | @present e sign ds he hs hd =>
    obtain ⟨d, tail, heq, hdigit⟩ := hd.head rest
    have hspan := (span_digits hd fun c hc => (hr c hc).1).2
    have hskip := skipSign_append hs hd rest
    have hletter : (e == 'e' || e == 'E') = true := by
      simpa using he
    rw [heq] at hspan hskip
    simp only [List.cons_append, readExponent, hletter, if_true, hskip, hdigit, hspan]

/-- A number is read up to its end. -/
theorem readNumberToken_of_spelt {n : Number} {cs rest : List Char} (h : n.Spelt cs)
    (hr : Ends rest) : readNumberToken (cs ++ rest) = some (n, rest) := by
  cases h with
  | @mk negative hasFraction hasExponent digits fraction exponent hd hz hf he =>
  -- After the digits stands no further digit, and after the fraction no point.
  have hexponent : Begins (fun c => isDigit c = false ∧ c ≠ '.') (exponent ++ rest) := by
    cases he with
    | absent => exact fun c hc => ⟨(hr.begins c hc).1, (hr.begins c hc).2.1⟩
    | present he _ _ =>
      intro c hc
      cases hc
      simp only [List.mem_cons, List.not_mem_nil, or_false] at he
      rcases he with rfl | rfl <;> decide
  have hfraction : Begins (fun c => isDigit c = false) (fraction ++ (exponent ++ rest)) := by
    cases hf with
    | absent => exact fun c hc => (hexponent c hc).1
    | present _ =>
      intro c hc
      cases hc
      rfl
  obtain ⟨htake, hdrop⟩ := span_digits hd hfraction
  have hreadFraction := readFraction_of_fraction hf hexponent
  have hreadExponent := readExponent_of_exponent he fun c hc =>
    ⟨(hr.begins c hc).1, (hr.begins c hc).2.2⟩
  obtain ⟨d, tail, heq, hdigit⟩ := hd.head (fraction ++ (exponent ++ rest))
  have hplain : ¬(digits = [] || (digits.head? = some '0' && digits.length ≠ 1)) = true := by
    simp only [Bool.or_eq_true, decide_eq_true_eq, Bool.and_eq_true, not_or, not_and]
    refine ⟨hd.1, fun hhead => ?_⟩
    rw [hz hhead]
    simp
  cases negative with
  | true =>
    simp only [if_true, List.cons_append, List.nil_append, List.append_assoc, readNumberToken,
      htake, hdrop, if_neg hplain, hreadFraction, hreadExponent, Option.bind_eq_bind,
      Option.bind_some]
  | false =>
    have hminus : d ≠ '-' := by
      rintro rfl
      cases hdigit
    simp only [Bool.false_eq_true, if_false, List.nil_append, List.append_assoc, heq,
      readNumberToken]
    rw [heq] at htake hdrop
    split
    · next hcons =>
      cases hcons
      exact absurd rfl hminus
    · simp only [htake, hdrop, if_neg hplain, hreadFraction, hreadExponent, Option.bind_eq_bind,
        Option.bind_some]

/-- How a number begins. -/
theorem Number.Spelt.head {n : Number} {cs : List Char} (h : n.Spelt cs) :
    ∃ c tail, cs = c :: tail ∧ (c = '-' ∨ isDigit c = true) := by
  cases h with
  | @mk negative _ _ _ fraction exponent hd =>
    cases negative with
    | true => exact ⟨'-', _, rfl, .inl rfl⟩
    | false =>
      obtain ⟨d, tail, heq, hdigit⟩ := hd.head (fraction ++ exponent)
      exact ⟨d, tail, heq, .inr hdigit⟩

/-- No other value begins the way a number does. -/
theorem notable_of_begins {c : Char} (h : c = '-' ∨ isDigit c = true) :
    isSpace c = false ∧ c ∉ ['n', 't', 'f', '"', '[', ']', '\x7b'] := by
  rcases h with rfl | h
  · decide
  · refine ⟨?_, ?_⟩
    · cases hs : isSpace c with
      | false => rfl
      | true =>
        have hmem := isSpace_iff.1 hs
        simp only [List.mem_cons, List.not_mem_nil, or_false] at hmem
        rcases hmem with rfl | rfl | rfl | rfl <;> cases h
    · intro hmem
      simp only [List.mem_cons, List.not_mem_nil, or_false] at hmem
      rcases hmem with rfl | rfl | rfl | rfl | rfl | rfl | rfl <;> cases h

/-! ## Strings -/

theorem hexValue?_of_isHex {c : Char} {v : Nat} (h : IsHex c v) : hexValue? c = some v := by
  have hlt : v < 16 := by
    rcases h with h | h <;> exact (List.getElem?_eq_some_iff.1 h).1
  have hall : ∀ v : Fin 16, smallDigits[v.val]?.bind hexValue? = some v.val ∧
      capitalDigits[v.val]?.bind hexValue? = some v.val := by decide
  obtain ⟨hsmall, hcapital⟩ := hall ⟨v, hlt⟩
  rcases h with h | h
  · rwa [h] at hsmall
  · rwa [h] at hcapital

theorem readUnit_of_isHex {a b c d : Char} {va vb vc vd : Nat} (ha : IsHex a va)
    (hb : IsHex b vb) (hc : IsHex c vc) (hd : IsHex d vd) :
    readUnit a b c d = some (va * 16 ^ 3 + vb * 16 ^ 2 + vc * 16 + vd) := by
  simp only [readUnit, hexValue?_of_isHex ha, hexValue?_of_isHex hb, hexValue?_of_isHex hc,
    hexValue?_of_isHex hd, Option.bind_eq_bind, Option.bind_some, Option.some.injEq]
  omega

theorem simpleEscape?_of_mem {letter c : Char} (h : (letter, c) ∈ escapes) :
    simpleEscape? letter = some c ∧ letter ≠ 'u' := by
  simp only [escapes, List.mem_cons, List.not_mem_nil, or_false, Prod.mk.injEq] at h
  rcases h with ⟨rfl, rfl⟩ | ⟨rfl, rfl⟩ | ⟨rfl, rfl⟩ | ⟨rfl, rfl⟩ | ⟨rfl, rfl⟩ | ⟨rfl, rfl⟩ |
    ⟨rfl, rfl⟩ | ⟨rfl, rfl⟩ <;> decide

/-- One item is read, and then the others. -/
theorem readLiteral_cons {i : Item} {cs : List Char} (h : i.Spelt cs) (rest : List Char) :
    readLiteral (cs ++ rest) = (readLiteral rest).map fun (t, left) => (i :: t, left) := by
  cases h with
  | @plain c hq hb hc =>
    have hrefused : ¬(decide (c.toNat < 0x20) || c == '\\') = true := by
      simp only [Bool.or_eq_true, decide_eq_true_eq, beq_iff_eq, not_or]
      exact ⟨by omega, hb⟩
    rw [List.singleton_append, readLiteral]
    · rw [if_neg hrefused]
      cases readLiteral rest with
      | none => rfl
      | some r => rfl
    · exact hq
    · exact fun _ _ _ _ _ hc' _ => hb hc'
    · exact fun _ _ hc' _ => hb hc'
  | @escape letter c h =>
    obtain ⟨hletter, hu⟩ := simpleEscape?_of_mem h
    rw [List.cons_append, List.cons_append, List.nil_append, readLiteral]
    · rw [hletter]
      cases readLiteral rest with
      | none => rfl
      | some r => rfl
    · exact fun _ _ _ _ _ hu' _ => hu hu'
  | unit ha hb hc hd =>
    simp only [List.cons_append, List.nil_append, readLiteral, readUnit_of_isHex ha hb hc hd]
    cases readLiteral rest with
    | none => rfl
    | some r => rfl

/-- A string is read up to its closing quote. -/
theorem readLiteral_of_spelt {t : Literal} {cs : List Char} (h : t.Spelt cs)
    (rest : List Char) : readLiteral (cs ++ '"' :: rest) = some (t, rest) := by
  induction h with
  | nil => rfl
  | cons h _ ih => rw [List.append_assoc, readLiteral_cons h, ih, Option.map_some]

/-- Characters that need no escape are written as they are. -/
theorem spelt_chars (cs : List Char)
    (h : ∀ c ∈ cs, c ≠ '"' ∧ c ≠ '\\' ∧ 0x20 ≤ c.toNat) :
    Literal.Spelt (cs.map .char) cs := by
  induction cs with
  | nil => exact .nil
  | cons c cs ih =>
    obtain ⟨hq, hb, hc⟩ := h c List.mem_cons_self
    exact .cons (.plain hq hb hc) (ih fun d hd => h d (List.mem_cons_of_mem c hd))

theorem text?_chars (cs : List Char) : Literal.text? (cs.map .char) = some cs := by
  induction cs with
  | nil => rfl
  | cons c cs ih =>
    show (Literal.text? (cs.map .char)).map (c :: ·) = some (c :: cs)
    rw [ih]
    rfl

/-! ## Values -/

theorem Blank.ends {blank : List Char} (h : Blank blank) {c : Char}
    (hc : c ∈ [',', ']', '\x7d']) (rest : List Char) : Ends (blank ++ c :: rest) := by
  intro d hd
  cases blank with
  | nil =>
    cases hd
    exact List.mem_append_right [' ', '\t', '\n', '\r'] hc
  | cons b bs =>
    cases hd
    exact List.mem_append_left [',', ']', '\x7d'] (h _ List.mem_cons_self)

/-- How a value begins: with no white space and no closing bracket. -/
theorem head_of_spelt {v : Value} {cs : List Char} (h : v.Spelt cs) :
    ∃ c tail, cs = c :: tail ∧ isSpace c = false ∧ c ≠ ']' := by
  cases h with
  | number h =>
    obtain ⟨c, tail, heq, hc⟩ := h.head
    obtain ⟨hspace, hother⟩ := notable_of_begins hc
    exact ⟨c, tail, heq, hspace, fun h => hother (by rw [h]; decide)⟩
  | _ => exact ⟨_, _, rfl, by decide, by decide⟩

/-- One step of the bound on nested values. -/
private theorem exists_step {n fuel : Nat} (h : 2 * (n + 1) ≤ fuel) :
    ∃ k, fuel = k + 1 ∧ 2 * n + 1 ≤ k :=
  ⟨fuel - 1, by omega, by omega⟩

/-- Where an array has items, the first token after its bracket does not close it. -/
theorem skipSpace_items {items : List Value} {cs : List Char} (h : ItemsSpelt items cs)
    (rest : List Char) : ∃ c tail, skipSpace (cs ++ rest) = c :: tail ∧ c ≠ ']' := by
  have hfirst : ∀ {v : Value} {before cs : List Char} (more : List Char), Blank before →
      v.Spelt cs → ∃ c tail, skipSpace (before ++ (cs ++ more)) = c :: tail ∧ c ≠ ']' := by
    intro v before cs more hb h
    obtain ⟨c, tail, rfl, hspace, hc⟩ := head_of_spelt h
    refine ⟨c, tail ++ more, ?_, hc⟩
    rw [skipSpace_append hb, List.cons_append, skipSpace_cons hspace]
  cases h with
  | one hb h _ =>
    rw [List.append_assoc, List.append_assoc]
    exact hfirst _ hb h
  | more hb h _ _ =>
    rw [List.append_assoc, List.append_assoc]
    exact hfirst _ hb h

/-- Where an object has members, the first token after its brace is a quote. -/
theorem skipSpace_members {members : List (Literal × Value)} {cs : List Char}
    (h : MembersSpelt members cs) (rest : List Char) :
    ∃ tail, skipSpace (cs ++ rest) = '"' :: tail := by
  have hfirst : ∀ {m : Literal × Value} {cs : List Char} (more : List Char), MemberSpelt m cs →
      ∃ tail, skipSpace (cs ++ more) = '"' :: tail := by
    intro m cs more h
    cases h with
    | @mk _ _ _ ks gap gap' body after hb _ _ _ _ _ =>
      refine ⟨ks ++ '"' :: (gap ++ ':' :: (gap' ++ (body ++ after))) ++ more, ?_⟩
      rw [List.append_assoc, skipSpace_append hb, List.cons_append, skipSpace_cons (by decide)]
  cases h with
  | one h => exact hfirst _ h
  | more h _ =>
    rw [List.append_assoc]
    exact hfirst _ h

mutual

/-- **What is written as a value is read as that value**, and what follows it is left. -/
theorem readValue_of_spelt {v : Value} {cs : List Char} (h : v.Spelt cs) {fuel : Nat}
    {before rest : List Char} (hfuel : 2 * cs.length ≤ fuel) (hb : Blank before)
    (hr : Ends rest) : readValue fuel (before ++ (cs ++ rest)) = some (v, rest) := by
  cases h with
  | null =>
    obtain ⟨k, rfl, -⟩ := exists_step hfuel
    simp only [readValue, skipSpace_append hb, List.cons_append, List.nil_append]
    rw [skipSpace_cons (by decide)]
    rfl
  | true =>
    obtain ⟨k, rfl, -⟩ := exists_step hfuel
    simp only [readValue, skipSpace_append hb, List.cons_append, List.nil_append]
    rw [skipSpace_cons (by decide)]
    rfl
  | false =>
    obtain ⟨k, rfl, -⟩ := exists_step hfuel
    simp only [readValue, skipSpace_append hb, List.cons_append, List.nil_append]
    rw [skipSpace_cons (by decide)]
    rfl
  | number h =>
    obtain ⟨c, tail, rfl, hc⟩ := h.head
    obtain ⟨k, rfl, -⟩ := exists_step hfuel
    obtain ⟨hspace, hother⟩ := notable_of_begins hc
    simp only [List.mem_cons, List.not_mem_nil, or_false, not_or] at hother
    have hread := readNumberToken_of_spelt h hr
    rw [List.cons_append] at hread
    rw [readValue, skipSpace_append hb, List.cons_append, skipSpace_cons hspace]
    split
    · next h => cases h
    · next h => exact absurd (List.cons.inj h).1 hother.1
    · next h => exact absurd (List.cons.inj h).1 hother.2.1
    · next h => exact absurd (List.cons.inj h).1 hother.2.2.1
    · next h => exact absurd (List.cons.inj h).1 hother.2.2.2.1
    · next h => exact absurd (List.cons.inj h).1 hother.2.2.2.2.1
    · next h => exact absurd (List.cons.inj h).1 hother.2.2.2.2.2.2
    · next h =>
      obtain ⟨rfl, rfl⟩ := List.cons.inj h
      rw [hread]
      rfl
  | @text t cs h =>
    obtain ⟨k, rfl, -⟩ := exists_step hfuel
    have hread := readLiteral_of_spelt h rest
    rw [readValue, skipSpace_append hb, List.cons_append, skipSpace_cons (by decide),
      List.append_assoc, List.singleton_append]
    simp only [hread, Option.map_some]
  | @noItems blank hb' =>
    obtain ⟨k, rfl, -⟩ := exists_step hfuel
    have hclose : skipSpace (blank ++ [']'] ++ rest) = ']' :: rest := by
      rw [List.append_assoc, skipSpace_append hb', List.singleton_append,
        skipSpace_cons (by decide)]
    rw [readValue, skipSpace_append hb, List.cons_append, skipSpace_cons (by decide)]
    simp only [hclose]
  | @array items cs h =>
    obtain ⟨k, rfl, hk⟩ := exists_step hfuel
    have hread : readItems k (cs ++ ']' :: rest) = some (items, rest) :=
      readItems_of_spelt h (by grind)
    rw [readValue, skipSpace_append hb, List.cons_append, skipSpace_cons (by decide),
      List.append_assoc, List.singleton_append]
    obtain ⟨c, tail, heq, hc⟩ := skipSpace_items h (']' :: rest)
    simp only [heq, hread]
    split
    · next hclose => exact absurd (List.cons.inj hclose).1 hc
    · rfl
  | @noMembers blank hb' =>
    obtain ⟨k, rfl, -⟩ := exists_step hfuel
    have hclose : skipSpace (blank ++ ['\x7d'] ++ rest) = '\x7d' :: rest := by
      rw [List.append_assoc, skipSpace_append hb', List.singleton_append,
        skipSpace_cons (by decide)]
    rw [readValue, skipSpace_append hb, List.cons_append, skipSpace_cons (by decide)]
    simp only [hclose]
  | @object members cs h =>
    obtain ⟨k, rfl, hk⟩ := exists_step hfuel
    have hread : readMembers k (cs ++ '\x7d' :: rest) = some (members, rest) :=
      readMembers_of_spelt h (by grind)
    rw [readValue, skipSpace_append hb, List.cons_append, skipSpace_cons (by decide),
      List.append_assoc, List.singleton_append]
    obtain ⟨tail, heq⟩ := skipSpace_members h ('\x7d' :: rest)
    simp only [heq, hread, Option.map_some]
    rfl

theorem readItems_of_spelt {items : List Value} {cs : List Char} (h : ItemsSpelt items cs)
    {fuel : Nat} {rest : List Char} (hfuel : 2 * (cs.length + 1) ≤ fuel) :
    readItems fuel (cs ++ ']' :: rest) = some (items, rest) := by
  cases h with
  | @one v before cs after hb h ha =>
    obtain ⟨k, rfl, hk⟩ := exists_step hfuel
    simp only [List.length_append] at hk
    have hread : readValue k (before ++ (cs ++ (after ++ ']' :: rest))) =
        some (v, after ++ ']' :: rest) :=
      readValue_of_spelt h (by omega) hb (ha.ends (by decide) rest)
    have hclose : skipSpace (after ++ ']' :: rest) = ']' :: rest := by
      rw [skipSpace_append ha, skipSpace_cons (by decide)]
    simp only [List.append_assoc, readItems, hread, hclose]
  | @more v items before cs after more hb h ha hr =>
    obtain ⟨k, rfl, hk⟩ := exists_step hfuel
    simp only [List.length_append, List.length_cons] at hk
    have hread : readValue k (before ++ (cs ++ (after ++ ',' :: (more ++ ']' :: rest)))) =
        some (v, after ++ ',' :: (more ++ ']' :: rest)) :=
      readValue_of_spelt h (by omega) hb (ha.ends (by decide) _)
    have hcomma : skipSpace (after ++ ',' :: (more ++ ']' :: rest)) =
        ',' :: (more ++ ']' :: rest) := by
      rw [skipSpace_append ha, skipSpace_cons (by decide)]
    have hrest : readItems k (more ++ ']' :: rest) = some (items, rest) :=
      readItems_of_spelt hr (by omega)
    simp only [List.append_assoc, List.cons_append, readItems, hread, hcomma, hrest,
      Option.map_some]

/-- A member is read up to the mark after it, which tells whether there are others. -/
theorem readMembers_of_memberSpelt {m : Literal × Value} {cs : List Char}
    (h : MemberSpelt m cs) {fuel : Nat} {mark : Char} {rest : List Char}
    (hfuel : 2 * cs.length ≤ fuel) (hmark : mark ∈ [',', '\x7d']) :
    readMembers (fuel + 1) (cs ++ mark :: rest) =
      match mark :: rest with
      | ',' :: rest => (readMembers fuel rest).map fun (members, left) => (m :: members, left)
      | '\x7d' :: left => some ([m], left)
      | _ => none := by
  cases h with
  | @mk key v before ks gap gap' cs after hb hk hg hg' h ha =>
    simp only [List.length_append, List.length_cons] at hfuel
    simp only [List.mem_cons, List.not_mem_nil, or_false] at hmark
    have hends : mark ∈ [',', ']', '\x7d'] ∧ isSpace mark = false := by
      rcases hmark with rfl | rfl <;> decide
    have hquote := (skipSpace_append hb _).trans (skipSpace_cons (c := '"') (by decide)
      (ks ++ '"' :: (gap ++ ':' :: (gap' ++ (cs ++ (after ++ mark :: rest))))))
    have hkey := readLiteral_of_spelt hk (gap ++ ':' :: (gap' ++ (cs ++ (after ++ mark :: rest))))
    have hcolon := (skipSpace_append hg _).trans (skipSpace_cons (c := ':') (by decide)
      (gap' ++ (cs ++ (after ++ mark :: rest))))
    have hread : readValue fuel (gap' ++ (cs ++ (after ++ mark :: rest))) =
        some (v, after ++ mark :: rest) :=
      readValue_of_spelt h (by omega) hg' (ha.ends hends.1 rest)
    have hend := (skipSpace_append ha _).trans (skipSpace_cons hends.2 rest)
    rcases hmark with rfl | rfl <;>
      simp only [List.append_assoc, List.cons_append, readMembers, hquote, hkey, hcolon, hread,
        hend]

theorem readMembers_of_spelt {members : List (Literal × Value)} {cs : List Char}
    (h : MembersSpelt members cs) {fuel : Nat} {rest : List Char}
    (hfuel : 2 * (cs.length + 1) ≤ fuel) :
    readMembers fuel (cs ++ '\x7d' :: rest) = some (members, rest) := by
  cases h with
  | one h =>
    obtain ⟨k, rfl, hk⟩ := exists_step hfuel
    rw [readMembers_of_memberSpelt h (by omega) (by decide)]
    rfl
  | @more m members cs more h hr =>
    obtain ⟨k, rfl, hk⟩ := exists_step hfuel
    simp only [List.length_append, List.length_cons] at hk
    have hrest : readMembers k (more ++ '\x7d' :: rest) = some (members, rest) :=
      readMembers_of_spelt hr (by omega)
    rw [List.append_assoc, List.cons_append,
      readMembers_of_memberSpelt h (by omega) (by decide)]
    simp only [hrest, Option.map_some]

end

/-- **A document is read as what was written**, whatever white space stands around it. -/
theorem read?_of_fills {v : Value} {cs : List Char} (h : v.Fills cs) : read? cs = some v := by
  obtain ⟨before, body, after, hb, hbody, ha, rfl⟩ := h
  have hends : Ends after := by
    intro c hc
    cases after with
    | nil => cases hc
    | cons d ds =>
      cases hc
      exact List.mem_append_left [',', ']', '\x7d'] (ha _ List.mem_cons_self)
  have hread : readValue (2 * (before ++ (body ++ after)).length + 2)
      (before ++ (body ++ after)) = some (v, after) :=
    readValue_of_spelt hbody (by grind) hb hends
  rw [read?, hread]
  simp only [skipSpace_eq_nil ha, if_true]

/-- This way to read documents takes a document for what is written in it. -/
def Takes (read : List Char → Option Value) (cs : List Char) : Prop :=
  ∀ v : Value, v.Fills cs → read cs = some v

theorem takes_read? (cs : List Char) : Takes read? cs := fun _ h => read?_of_fills h

end LinkEngine.Json

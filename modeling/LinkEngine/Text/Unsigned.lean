/-!
# Unsigned numbers in decimal notation

`readUnsigned` reads a number as people set it in a variable: digits, perhaps
after one plus sign, and no greater than the word allows. `decimal` is the
plain way to write one. A row of digits is read as the number it stands for
(`readDigits_of_isDigit`).
-/

namespace LinkEngine.Text

/-- The greatest number a word of 64 bits holds. -/
def maxWord : Nat := UInt64.size - 1

/-- The value of a decimal digit. -/
def digitValue? (c : Char) : Option Nat :=
  if '0'.toNat ≤ c.toNat ∧ c.toNat ≤ '9'.toNat then some (c.toNat - '0'.toNat) else none

/-- Reads the digits that follow a number read so far. -/
def readDigits (value : Nat) : List Char → Option Nat
  | [] => some value
  | c :: cs =>
    match digitValue? c with
    | some d => readDigits (10 * value + d) cs
    | none => none

/-- Reads a nonempty row of digits. -/
def readNumber : List Char → Option Nat
  | [] => none
  | cs => readDigits 0 cs

/-- What follows a plus sign, if there is one. -/
def withoutPlus : List Char → List Char
  | '+' :: rest => rest
  | cs => cs

/-- Reads a number of at most 64 bits, with one plus sign allowed before it. -/
def readUnsigned (cs : List Char) : Option Nat :=
  match readNumber (withoutPlus cs) with
  | some n => if n ≤ maxWord then some n else none
  | none => none

/-- A number in decimal digits, without leading zeros. -/
def decimal (n : Nat) : List Char := Nat.toDigits 10 n

theorem digitValue?_of_isDigit {c : Char} (h : c.isDigit) :
    digitValue? c = some (c.toNat - '0'.toNat) := by
  have hb : '0'.toNat ≤ c.toNat ∧ c.toNat ≤ '9'.toNat := by
    simpa [Char.isDigit, UInt32.le_iff_toNat_le] using h
  simp only [digitValue?, hb, and_self, if_true]

theorem readDigits_of_isDigit {cs : List Char} (h : ∀ c ∈ cs, c.isDigit) (value : Nat) :
    readDigits value cs = some (Nat.ofDigitChars 10 cs value) := by
  induction cs generalizing value with
  | nil => simp [readDigits]
  | cons c cs ih =>
    rw [readDigits, digitValue?_of_isDigit (h c (by simp)), Nat.ofDigitChars_cons]
    exact ih (fun d hd => h d (by simp [hd])) _

end LinkEngine.Text

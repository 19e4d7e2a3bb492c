import LinkEngine.Text.Unsigned

/-!
# Documents as values

A document is kept the way it was written: a number as its parts and a string
as the row of characters and escapes between its quotes. What a number or a
string means is decided only where it is used (`Number.natural?`,
`Literal.text?`), so members nobody asks for may hold numbers too large for any
word and escapes that are no character.
-/

namespace LinkEngine.Json

/-- A number as written: its sign, its digits before the point, and whether a
fraction or an exponent follows. -/
structure Number where
  negative : Bool
  digits : List Char
  hasFraction : Bool
  hasExponent : Bool
  deriving DecidableEq, Repr

/-- The number a plain nonnegative integer of at most 64 bits stands for. -/
def Number.natural? (n : Number) : Option Nat :=
  if n.negative || n.hasFraction || n.hasExponent then none
  else
    match Text.readNumber n.digits with
    | some v => if v ≤ Text.maxWord then some v else none
    | none => none

/-- One item of a string as written. -/
inductive Item where
  | char (c : Char)
  /-- A numeric escape: one unit of sixteen bits. -/
  | unit (u : Nat)
  deriving DecidableEq, Repr

/-- A string as written. -/
abbrev Literal := List Item

/-- The unit opens a pair. -/
def isHighUnit (u : Nat) : Bool := 0xD800 ≤ u && u ≤ 0xDBFF

/-- The unit ends a pair. -/
def isLowUnit (u : Nat) : Bool := 0xDC00 ≤ u && u ≤ 0xDFFF

/-- The character of a pair of units. -/
def pairedChar (high low : Nat) : Char :=
  Char.ofNat (0x10000 + (high - 0xD800) * 0x400 + (low - 0xDC00))

/-- The text a string stands for. Two units that form a pair are one character;
half a pair alone is none. -/
def Literal.text? : Literal → Option (List Char)
  | [] => some []
  | .char c :: rest => (Literal.text? rest).map (c :: ·)
  | .unit u :: .unit v :: rest =>
    if isHighUnit u then
      if isLowUnit v then (Literal.text? rest).map (pairedChar u v :: ·) else none
    else if isLowUnit u then none
    else (Literal.text? (.unit v :: rest)).map (Char.ofNat u :: ·)
  | .unit u :: rest =>
    if isHighUnit u || isLowUnit u then none
    else (Literal.text? rest).map (Char.ofNat u :: ·)

/-- A document, or a part of one. -/
inductive Value where
  | null
  | bool (b : Bool)
  | number (n : Number)
  | text (t : Literal)
  | array (items : List Value)
  | object (members : List (Literal × Value))
  deriving Repr, Inhabited

end LinkEngine.Json

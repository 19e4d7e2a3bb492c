import LinkEngine.Text.Hidden

/-!
# Quoted text

A text that is shown to people stands between double quotes. The quote and the
backslash are written after a backslash, four controls have a letter of their
own, and every other character that cannot be shown is written as the
hexadecimal number of its code point in braces.
-/

namespace LinkEngine.Text

/-- A number in small hexadecimal digits, without leading zeros. -/
def hexDigits (n : Nat) : List Char := Nat.toDigits 16 n

/-- One character of a quoted text. -/
def quoteChar (c : Char) : List Char :=
  if c = '"' ∨ c = '\\' then ['\\', c]
  else if c = '\t' then ['\\', 't']
  else if c = '\n' then ['\\', 'n']
  else if c = '\r' then ['\\', 'r']
  else if c.toNat = 0 then ['\\', '0']
  else if isHidden c then ['\\', 'u', '\x7b'] ++ hexDigits c.toNat ++ ['\x7d']
  else [c]

/-- A text between quotes. -/
def quote (cs : List Char) : String :=
  String.ofList ('"' :: cs.flatMap quoteChar ++ ['"'])

end LinkEngine.Text

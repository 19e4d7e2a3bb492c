import LinkEngine.Json.Value

/-!
# Reading documents

`read?` reads one document and refuses anything after it but white space. The
grammar is that of JSON without exceptions: no comments, no comma before a
closing bracket, no byte-order mark. Every function takes the characters that
are left and answers what it read with the characters left after it. Nested
values are read with a bound on their number, for which the length of the
document is always enough.
-/

namespace LinkEngine.Json

/-- White space between the tokens of a document. -/
def isSpace (c : Char) : Bool := c == ' ' || c == '\n' || c == '\t' || c == '\r'

/-- The characters left after white space. -/
def skipSpace (cs : List Char) : List Char := cs.dropWhile isSpace

/-- The value of a hexadecimal digit. -/
def hexValue? (c : Char) : Option Nat :=
  let n := c.toNat
  if 0x30 ≤ n ∧ n ≤ 0x39 then some (n - 0x30)
  else if 0x41 ≤ n ∧ n ≤ 0x46 then some (n - 0x41 + 10)
  else if 0x61 ≤ n ∧ n ≤ 0x66 then some (n - 0x61 + 10)
  else none

/-- The unit of a numeric escape, from its four digits. -/
def readUnit (a b c d : Char) : Option Nat := do
  let a ← hexValue? a
  let b ← hexValue? b
  let c ← hexValue? c
  let d ← hexValue? d
  some (((a * 16 + b) * 16 + c) * 16 + d)

/-- The character an escape of one letter stands for. -/
def simpleEscape? : Char → Option Char
  | '"' => some '"'
  | '\\' => some '\\'
  | '/' => some '/'
  | 'b' => some (Char.ofNat 8)
  | 'f' => some (Char.ofNat 12)
  | 'n' => some '\n'
  | 'r' => some '\r'
  | 't' => some '\t'
  | _ => none

/-- Reads a string up to its closing quote; the opening one has been read. A
control has to be escaped. -/
def readLiteral : List Char → Option (Literal × List Char)
  | [] => none
  | '"' :: rest => some ([], rest)
  | '\\' :: 'u' :: a :: b :: c :: d :: rest =>
    match readUnit a b c d, readLiteral rest with
    | some u, some (t, left) => some (.unit u :: t, left)
    | _, _ => none
  | '\\' :: c :: rest =>
    match simpleEscape? c, readLiteral rest with
    | some c', some (t, left) => some (.char c' :: t, left)
    | _, _ => none
  | c :: rest =>
    if c.toNat < 0x20 || c == '\\' then none
    else
      match readLiteral rest with
      | some (t, left) => some (.char c :: t, left)
      | none => none

/-- The character is a decimal digit. -/
def isDigit (c : Char) : Bool := (Text.digitValue? c).isSome

/-- Reads the fraction of a number, if there is one. A point needs a digit. -/
def readFraction : List Char → Option (Bool × List Char)
  | '.' :: rest =>
    match rest with
    | c :: _ => if isDigit c then some (true, rest.dropWhile isDigit) else none
    | [] => none
  | cs => some (false, cs)

/-- The characters after the sign of an exponent. -/
def skipSign : List Char → List Char
  | '+' :: rest => rest
  | '-' :: rest => rest
  | cs => cs

/-- Reads the exponent of a number, if there is one. It needs a digit. -/
def readExponent : List Char → Option (Bool × List Char)
  | c :: rest =>
    if c == 'e' || c == 'E' then
      let digits := skipSign rest
      match digits with
      | d :: _ => if isDigit d then some (true, digits.dropWhile isDigit) else none
      | [] => none
    else some (false, c :: rest)
  | [] => some (false, [])

/-- Reads a number. Only zero begins with the digit zero. -/
def readNumberToken (cs : List Char) : Option (Number × List Char) :=
  let (negative, cs) := match cs with
    | '-' :: rest => (true, rest)
    | _ => (false, cs)
  let digits := cs.takeWhile isDigit
  let left := cs.dropWhile isDigit
  if digits = [] || (digits.head? = some '0' && digits.length ≠ 1) then none
  else do
    let (hasFraction, left) ← readFraction left
    let (hasExponent, left) ← readExponent left
    some ({ negative, digits, hasFraction, hasExponent }, left)

/-- Takes the given characters off the front. -/
def expect : List Char → List Char → Option (List Char)
  | [], cs => some cs
  | w :: ws, c :: cs => if w = c then expect ws cs else none
  | _ :: _, [] => none

mutual

/-- Reads one value, with white space before it. -/
def readValue : Nat → List Char → Option (Value × List Char)
  | 0, _ => none
  | fuel + 1, cs =>
    match skipSpace cs with
    | [] => none
    | 'n' :: rest => (expect ['u', 'l', 'l'] rest).map (fun left => (.null, left))
    | 't' :: rest => (expect ['r', 'u', 'e'] rest).map (fun left => (.bool true, left))
    | 'f' :: rest =>
      (expect ['a', 'l', 's', 'e'] rest).map (fun left => (.bool false, left))
    | '"' :: rest => (readLiteral rest).map (fun (t, left) => (.text t, left))
    | '[' :: rest =>
      match skipSpace rest with
      | ']' :: left => some (.array [], left)
      | _ => (readItems fuel rest).map (fun (items, left) => (.array items, left))
    | '\x7b' :: rest =>
      match skipSpace rest with
      | '\x7d' :: left => some (.object [], left)
      | _ => (readMembers fuel rest).map (fun (members, left) => (.object members, left))
    | c :: rest =>
      (readNumberToken (c :: rest)).map (fun (n, left) => (.number n, left))

/-- Reads the items of an array up to its closing bracket. -/
def readItems : Nat → List Char → Option (List Value × List Char)
  | 0, _ => none
  | fuel + 1, cs =>
    match readValue fuel cs with
    | none => none
    | some (item, rest) =>
      match skipSpace rest with
      | ',' :: rest =>
        (readItems fuel rest).map (fun (items, left) => (item :: items, left))
      | ']' :: left => some ([item], left)
      | _ => none

/-- Reads the members of an object up to its closing brace. -/
def readMembers : Nat → List Char → Option (List (Literal × Value) × List Char)
  | 0, _ => none
  | fuel + 1, cs =>
    match skipSpace cs with
    | '"' :: rest =>
      match readLiteral rest with
      | none => none
      | some (key, rest) =>
        match skipSpace rest with
        | ':' :: rest =>
          match readValue fuel rest with
          | none => none
          | some (value, rest) =>
            match skipSpace rest with
            | ',' :: rest =>
              (readMembers fuel rest).map
                (fun (members, left) => ((key, value) :: members, left))
            | '\x7d' :: left => some ([(key, value)], left)
            | _ => none
        | _ => none
    | _ => none

end

/-- Reads a document that fills the whole text. -/
def read? (cs : List Char) : Option Value :=
  match readValue (2 * cs.length + 2) cs with
  | some (v, left) => if skipSpace left = [] then some v else none
  | none => none

end LinkEngine.Json

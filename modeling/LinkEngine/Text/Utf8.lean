/-!
# Bytes and text

Bytes are lists of octets. A text is written as bytes in UTF-8, and bytes are
read as a text when they are well-formed UTF-8.
-/

namespace LinkEngine.Text

/-- A row of octets. -/
abbrev Bytes := List UInt8

/-- The octets of a text. -/
def encode (s : String) : Bytes := s.toUTF8.toList

/-- The text of a row of octets, if they are well-formed. -/
def decode? (bs : Bytes) : Option String :=
  String.fromUTF8? (ByteArray.mk bs.toArray)

/-- The octets are well-formed. -/
def isText (bs : Bytes) : Bool := (decode? bs).isSome

/-- The end of a line. -/
def newline : UInt8 := 10

end LinkEngine.Text

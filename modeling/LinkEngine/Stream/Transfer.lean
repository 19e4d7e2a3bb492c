import LinkEngine.Stream.Basic

/-!
# Whole transfers over a stream

Reading an exact number of bytes, reading a line and writing all of a row of
bytes, each by as many single reads or writes as it takes. An interrupted call
is made again.
-/

namespace LinkEngine.Stream

open Text (Bytes)

variable {ω : Type}

/-- A bound on how many reads can be made before the input or the failures of
the script run out. -/
def readFuel (s : Stream ω) : Nat :=
  s.input.length + s.socket.input.length + (s.socket.failures.get .read).length + 2

/-- Reads the bytes that are missing after those in `got`. -/
def readExactWithin (s : Stream ω) (missing : Nat) (got : Bytes) :
    Nat → Except IoKind Bytes × Stream ω
  | 0 => (.error .unexpectedEof, s)
  | fuel + 1 =>
    if missing = 0 then (.ok got, s)
    else
      match s.read missing with
      | (.ok [], s) => (.error .unexpectedEof, s)
      | (.ok bytes, s) => s.readExactWithin (missing - bytes.length) (got ++ bytes) fuel
      | (.error .interrupted, s) => s.readExactWithin missing got fuel
      | (.error kind, s) => (.error kind, s)

/-- Reads exactly `n` bytes. What was read before a failure is lost. -/
def readExact (s : Stream ω) (n : Nat) : Except IoKind Bytes × Stream ω :=
  s.readExactWithin n [] s.readFuel

/-- The bytes up to and with the first end of a line, if there is one. -/
def lineEnd (bytes : Bytes) : Option Nat :=
  (bytes.findIdx? (· == Text.newline)).map (· + 1)

/-- Reads on to the end of a line or of the input, after the bytes in `got`. -/
def readUntilWithin (s : Stream ω) (got : Bytes) : Nat → Except IoKind Unit × Bytes × Stream ω
  | 0 => (.ok (), got, s)
  | fuel + 1 =>
    match s.fill with
    | (.error .interrupted, s) => s.readUntilWithin got fuel
    | (.error kind, s) => (.error kind, got, s)
    | (.ok bytes, s) =>
      match lineEnd bytes with
      | some n => (.ok (), got ++ bytes.take n, s.consume n)
      | none =>
        if bytes.isEmpty then (.ok (), got, s)
        else (s.consume bytes.length).readUntilWithin (got ++ bytes) fuel

/-- Reads a line with its end; at the end of the input, what is left. The bytes
are consumed also where they are no text. -/
def readLine (s : Stream ω) : Except IoKind (Nat × String) × Stream ω :=
  match s.readUntilWithin [] s.readFuel with
  | (.error kind, _, s) => (.error kind, s)
  | (.ok (), bytes, s) =>
    match Text.decode? bytes with
    | some text => (.ok (bytes.length, text), s)
    | none => (.error .invalidData, s)

/-- Writes the bytes; `fuel` bounds the number of attempts. -/
def writeAllWithin (s : Stream ω) (bytes : Bytes) : Nat → Except IoKind Unit × Stream ω
  | 0 => (.error .writeZero, s)
  | fuel + 1 =>
    if bytes.isEmpty then (.ok (), s)
    else
      match s.write bytes with
      | (.ok 0, s) => (.error .writeZero, s)
      | (.ok (n + 1), s) => s.writeAllWithin (bytes.drop (n + 1)) fuel
      | (.error .interrupted, s) => s.writeAllWithin bytes fuel
      | (.error kind, s) => (.error kind, s)

/-- Writes all of the bytes. -/
def writeAll (s : Stream ω) (bytes : Bytes) : Except IoKind Unit × Stream ω :=
  s.writeAllWithin bytes (bytes.length + (s.socket.failures.get .write).length + 1)

/-! ## Calls as values -/

/-- One call on a stream that moves bytes. -/
inductive Transfer where
  | read (n : Nat)
  | readExact (n : Nat)
  | readLine
  | fill
  | consume (n : Nat)
  | write (bytes : Bytes)
  | writeAll (bytes : Bytes)
  | flush
  | poll
  | close
  deriving DecidableEq, Repr

/-- What a transfer answers. -/
inductive Moved where
  | bytes (b : Bytes)
  | line (length : Nat) (text : String)
  | count (n : Nat)
  | done
  | nothing
  | readiness (r : Socket.Readiness)
  deriving DecidableEq, Repr

/-- Makes one call. -/
def transfer (s : Stream ω) : Transfer → Except IoKind Moved × Stream ω
  | .read n => let (r, s) := s.read n; (r.map .bytes, s)
  | .readExact n => let (r, s) := s.readExact n; (r.map .bytes, s)
  | .readLine => let (r, s) := s.readLine; (r.map fun (n, t) => .line n t, s)
  | .fill => let (r, s) := s.fill; (r.map .bytes, s)
  | .consume n => (.ok .nothing, s.consume n)
  | .write bytes => let (r, s) := s.write bytes; (r.map .count, s)
  | .writeAll bytes => let (r, s) := s.writeAll bytes; (r.map fun () => .done, s)
  | .flush => let (r, s) := s.flush; (r.map fun () => .done, s)
  | .poll => let (r, s) := s.poll; (r.map .readiness, s)
  | .close => let (r, s) := s.close; (r.map fun () => .done, s)

end LinkEngine.Stream

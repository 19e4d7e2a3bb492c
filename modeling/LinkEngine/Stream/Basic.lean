import LinkEngine.Socket.Endpoint
import LinkEngine.Stream.Buffer

/-!
# Buffered streams

A `Stream` reads and writes a socket through a pair of buffers and counts the
bytes its user consumed and handed in. Large reads and writes pass the buffers
by. A failed read changes nothing, and a failed write keeps in the buffer what
the socket did not take.
-/

namespace LinkEngine

open Text (Bytes)
open Socket (Endpoint Readiness)

/-- A socket with its buffers. -/
structure Stream (ω : Type) where
  socket : Endpoint ω
  /-- Input that was read and not consumed. -/
  input : Stream.Buffer
  /-- Output that was not handed to the socket. -/
  output : Stream.Buffer
  readSize : Nat
  writeSize : Nat
  /-- How many bytes were consumed. -/
  bytesRead : Nat := 0
  /-- How many bytes were handed in. -/
  bytesWritten : Nat := 0

namespace Stream

variable {ω : Type}

/-- A stream over a socket. Its sizes are the capacities its buffers have
now. -/
def create (socket : Endpoint ω) (buffers : Buffers) : Stream ω :=
  { socket
    input := buffers.read
    output := buffers.write
    readSize := max buffers.read.capacity 1
    writeSize := max buffers.write.capacity 1 }

/-- How many bytes wait to be consumed. -/
def buffered (s : Stream ω) : Nat := s.input.length

/-! ## Input -/

/-- Asks whether a read would find something; bytes in the buffer settle it. -/
def poll (s : Stream ω) : Except IoKind Readiness × Stream ω :=
  if !s.input.isEmpty then (.ok .ready, s)
  else let (r, socket) := s.socket.poll; (r, { s with socket })

/-- Waits until a read would find something; bytes in the buffer settle it. -/
def wait (s : Stream ω) : Endpoint.Waiting ω × Stream ω :=
  if !s.input.isEmpty then (.over (.ok .ready) 0, s)
  else let (r, socket) := s.socket.wait; (r, { s with socket })

/-- Fills an empty buffer, and shows what it holds. -/
def fill (s : Stream ω) : Except IoKind Bytes × Stream ω :=
  if !s.input.isEmpty then (.ok s.input.bytes, s)
  else
    match s.socket.read s.readSize with
    | (.ok bytes, socket) =>
      (.ok bytes, { s with socket, input := s.input.fill s.readSize bytes })
    | (.error kind, socket) =>
      (.error kind, { s with socket, input := s.input.fill s.readSize [] })

/-- Consumes up to `n` bytes of the buffer. -/
def consume (s : Stream ω) (n : Nat) : Stream ω :=
  let n := min n s.input.length
  { s with input := s.input.advance n, bytesRead := s.bytesRead + n }

/-- Reads up to `n` bytes. -/
def read (s : Stream ω) (n : Nat) : Except IoKind Bytes × Stream ω :=
  if s.input.isEmpty ∧ s.readSize ≤ n then
    match s.socket.read n with
    | (.ok bytes, socket) =>
      (.ok bytes, { s with socket, bytesRead := s.bytesRead + bytes.length })
    | (.error kind, socket) => (.error kind, { s with socket })
  else
    match s.fill with
    | (.error kind, s) => (.error kind, s)
    | (.ok bytes, s) => (.ok (bytes.take n), s.consume n)

/-! ## Output -/

/-- Hands the buffer to the socket. An interrupted write is tried again. `fuel`
bounds the number of attempts. -/
def flushWithin (s : Stream ω) : Nat → Except IoKind Unit × Stream ω
  | 0 => (.ok (), s)
  | fuel + 1 =>
    if s.output.isEmpty then (.ok (), s)
    else
      match s.socket.write s.output.bytes with
      | (.ok 0, socket) => (.error .writeZero, { s with socket })
      | (.ok (n + 1), socket) =>
        { s with socket, output := s.output.advance (n + 1) }.flushWithin fuel
      | (.error .interrupted, socket) => { s with socket }.flushWithin fuel
      | (.error kind, socket) => (.error kind, { s with socket })

/-- A bound on the attempts it takes to hand the buffer to the socket: each
either takes a byte off the buffer or a failure off the script. -/
def flushFuel (s : Stream ω) : Nat :=
  s.output.length + (s.socket.failures.get .write).length + 1

/-- Hands the buffer to the socket. -/
def flushBuffer (s : Stream ω) : Except IoKind Unit × Stream ω := s.flushWithin s.flushFuel

/-- Hands the buffer to the socket and has the socket hand it on. -/
def flush (s : Stream ω) : Except IoKind Unit × Stream ω :=
  match s.flushBuffer with
  | (.error kind, s) => (.error kind, s)
  | (.ok (), s) => let (r, socket) := s.socket.flush; (r, { s with socket })

/-- Writes bytes, and answers how many were taken. The buffer is handed on first
when they do not fit; more than a buffer holds goes to the socket at once. -/
def write (s : Stream ω) (bytes : Bytes) : Except IoKind Nat × Stream ω :=
  let (cleared, s) :=
    if s.writeSize < s.output.length + bytes.length then s.flushBuffer else (.ok (), s)
  match cleared with
  | .error kind => (.error kind, s)
  | .ok () =>
    if s.writeSize ≤ bytes.length then
      match s.socket.write bytes with
      | (.ok n, socket) => (.ok n, { s with socket, bytesWritten := s.bytesWritten + n })
      | (.error kind, socket) => (.error kind, { s with socket })
    else
      (.ok bytes.length,
        { s with
          output := s.output.append bytes
          bytesWritten := s.bytesWritten + bytes.length })

/-! ## Both -/

/-- Flushes, and closes the socket whether that worked or not. Answers the first
failure. -/
def close (s : Stream ω) : Except IoKind Unit × Stream ω :=
  let (flushed, s) := s.flush
  let (closed, socket) := s.socket.close
  let s := { s with socket }
  match flushed with
  | .error kind => (.error kind, s)
  | .ok () => (closed, s)

/-- Gives the buffers away. -/
def takeBuffers (s : Stream ω) : Buffers × Stream ω :=
  ({ read := s.input, write := s.output },
    { s with input := .withCapacity 0 s.input.storage, output := .withCapacity 0 s.output.storage })

/-- Works on the socket beneath. -/
def withSocket (s : Stream ω) (f : Endpoint ω → Endpoint ω) : Stream ω :=
  { s with socket := f s.socket }

end Stream

end LinkEngine

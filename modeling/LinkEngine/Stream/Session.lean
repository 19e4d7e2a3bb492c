import LinkEngine.Stream.BufferPool
import LinkEngine.Stream.Transfer

/-!
# Streams that share buffer pools

A `Session` opens streams over scripted sockets with buffers from one of two
pools, works on them, and gives their buffers back.
-/

namespace LinkEngine.Stream

open Text (Bytes)
open Socket (Endpoint Readiness)

/-- Streams with the pools their buffers come from. -/
structure Session where
  first : BufferPool
  second : BufferPool
  streams : List (Stream Empty) := []

namespace Session

/-- Which of the two pools. -/
inductive Which where
  | first
  | second
  deriving DecidableEq, Repr

/-- What can be asked of a session. -/
inductive Request where
  /-- Opens a stream, with a read timeout in milliseconds if one is given. -/
  | openOver (socket : Endpoint Empty) (timeout : Option Nat) (pool : Which)
  | transfer (stream : Nat) (t : Transfer)
  | wait (stream : Nat)
  | feed (stream : Nat) (bytes : Bytes)
  | hangUp (stream : Nat)
  | release (stream : Nat) (pool : Which)
  | trim (keep : Nat) (pool : Which)

/-- What a session answers, and about what. -/
inductive Answer where
  | opened (stream : Nat)
  | moved (stream : Nat) (r : Except IoKind Moved)
  | done (stream : Nat)
  | released (kept : Bool) (pool : Which)
  | trimmed (n : Nat) (pool : Which)

/-- One of the pools. -/
def pool (x : Session) : Which → BufferPool
  | .first => x.first
  | .second => x.second

/-- Replaces one of the pools. -/
def setPool (x : Session) : Which → BufferPool → Session
  | .first, p => { x with first := p }
  | .second, p => { x with second := p }

/-- A stream, if it was opened. -/
def stream? (x : Session) (i : Nat) : Option (Stream Empty) := x.streams[i]?

/-- Works on a stream. -/
def modify (x : Session) (i : Nat) (f : Stream Empty → Stream Empty) : Session :=
  { x with streams := x.streams.modify i f }

/-- What a wait comes to where no requests can be made meanwhile. -/
def waited : Endpoint.Waiting Empty → Except IoKind Moved
  | .over r _ => r.map .readiness
  | .meanwhile _ => .ok (.readiness .pending)

/-- Answers one request. -/
def answer (x : Session) : Request → Answer × Session
  | .openOver socket timeout which =>
    let (buffers, p) := (x.pool which).acquire
    let s := Stream.create socket buffers
    let s := match timeout with
      | some ms => s.withSocket fun e => (e.setReadTimeout ms).2
      | none => s
    (.opened x.streams.length, { x.setPool which p with streams := x.streams ++ [s] })
  | .transfer i t =>
    match x.stream? i with
    | none => (.done i, x)
    | some s => let (r, s) := s.transfer t; (.moved i r, x.modify i fun _ => s)
  | .wait i =>
    match x.stream? i with
    | none => (.done i, x)
    | some s => let (r, s) := s.wait; (.moved i (waited r), x.modify i fun _ => s)
  | .feed i bytes => (.done i, x.modify i (·.withSocket (·.feed bytes)))
  | .hangUp i => (.done i, x.modify i (·.withSocket (·.hangUp)))
  | .release i which =>
    match x.stream? i with
    | none => (.done i, x)
    | some s =>
      let (buffers, s) := s.takeBuffers
      let (kept, p) := (x.pool which).release buffers
      (.released kept which, (x.setPool which p).modify i fun _ => s)
  | .trim keep which =>
    let (n, p) := (x.pool which).trim keep
    (.trimmed n which, x.setPool which p)

/-- What a socket took since a stream was last looked at. -/
def sentSince (before : Session) (after : Session) (i : Nat) : Bytes :=
  match after.stream? i with
  | none => []
  | some s => s.socket.sent.drop ((before.stream? i).elim 0 fun s => s.socket.sent.length)

/-- One answered request: the answer, the session before it and the one it
left. -/
structure Step where
  answer : Answer
  before : Session
  after : Session

/-- The steps of a sequence of requests. -/
def steps (x : Session) : List Request → List Step
  | [] => []
  | r :: rs =>
    let (a, y) := x.answer r
    { answer := a, before := x, after := y } :: y.steps rs

end Session

end LinkEngine.Stream

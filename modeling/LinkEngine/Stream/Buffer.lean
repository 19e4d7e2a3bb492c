import LinkEngine.Text.Utf8

/-!
# Buffers

A buffer holds bytes in a block of storage. Consuming bytes at its front moves
its beginning into the block, so its capacity, the room from there to the end
of the block, shrinks; where the room does not suffice, the storage makes some
(`Storage`). The capacity decides which buffers a pool keeps, so it is part of
what a buffer means.
-/

namespace LinkEngine.Stream

open Text (Bytes)

/-! ## Storage -/

/-- How storage makes room. By which rule it does so is its own affair. -/
structure Storage where
  /-- What becomes of a block of size `block`, in which `length` bytes begin at
  `start`, when there is to be room for `more` after them: the size of the block
  they are in then, and where in it they begin. -/
  makeRoom (block start length more : Nat) : Nat × Nat
  /-- There is room then. -/
  room (block start length more : Nat) : block - start - length < more →
    length + more ≤ (makeRoom block start length more).1 - (makeRoom block start length more).2

namespace Storage

/-- The smallest block that is ever taken. -/
def leastBlock : Nat := 8

/-- Moves the bytes to the front of their block when that suffices and they do not
overlap with where they were, and otherwise takes a block at least twice as large. -/
def doubling : Storage where
  makeRoom block start length more :=
    if length ≤ start ∧ more ≤ block - length then (block, 0)
    else (max (max (2 * block) (start + length + more)) leastBlock, start)
  room block start length more h := by
    split
    · show length + more ≤ block - 0
      omega
    · show length + more ≤ max (max (2 * block) (start + length + more)) leastBlock - start
      omega

instance : Inhabited Storage := ⟨doubling⟩

end Storage

/-! ## Buffers -/

/-- Bytes in a block of storage. -/
structure Buffer where
  bytes : Bytes := []
  /-- The size of the block. -/
  block : Nat := 0
  /-- Where in the block the bytes begin. -/
  start : Nat := 0
  storage : Storage := .doubling
  deriving Inhabited

namespace Buffer

/-- An empty buffer in a block of its own. -/
def withCapacity (n : Nat) (storage : Storage := .doubling) : Buffer := { block := n, storage }

/-- How many bytes it holds. -/
def length (b : Buffer) : Nat := b.bytes.length

/-- It holds nothing. -/
def isEmpty (b : Buffer) : Bool := b.bytes.isEmpty

/-- The room from its beginning to the end of its block. -/
def capacity (b : Buffer) : Nat := b.block - b.start

/-- Makes room for `n` more bytes. -/
def reserve (b : Buffer) (n : Nat) : Buffer :=
  if n ≤ b.capacity - b.length then b
  else
    let (block, start) := b.storage.makeRoom b.block b.start b.length n
    { b with block, start }

/-- Appends bytes. -/
def append (b : Buffer) (more : Bytes) : Buffer :=
  let b := b.reserve more.length
  { b with bytes := b.bytes ++ more }

/-- Fills an empty buffer, with room made for `n` bytes. -/
def fill (b : Buffer) (n : Nat) (bytes : Bytes) : Buffer :=
  { b.reserve n with bytes := bytes }

/-- Drops the first `n` bytes. -/
def advance (b : Buffer) (n : Nat) : Buffer :=
  { b with bytes := b.bytes.drop n, start := b.start + n }

/-- Drops all bytes, and keeps its beginning where it is. -/
def clear (b : Buffer) : Buffer := { b with bytes := [] }

@[simp] theorem bytes_reserve (b : Buffer) (n : Nat) : (b.reserve n).bytes = b.bytes := by
  unfold reserve
  split <;> rfl

/-- There is room for as many bytes as was asked for. -/
theorem le_capacity_reserve (b : Buffer) (n : Nat) :
    n ≤ (b.reserve n).capacity - (b.reserve n).length := by
  unfold reserve
  split
  · assumption
  · next hlack =>
    have hroom := b.storage.room b.block b.start b.length n (Nat.lt_of_not_le hlack)
    exact Nat.le_sub_of_add_le' hroom

@[simp] theorem bytes_append (b : Buffer) (more : Bytes) :
    (b.append more).bytes = b.bytes ++ more := by
  simp [append]

@[simp] theorem bytes_fill (b : Buffer) (n : Nat) (bytes : Bytes) :
    (b.fill n bytes).bytes = bytes := rfl

@[simp] theorem bytes_advance (b : Buffer) (n : Nat) : (b.advance n).bytes = b.bytes.drop n := rfl

@[simp] theorem bytes_clear (b : Buffer) : b.clear.bytes = [] := rfl

end Buffer

/-- The two buffers of a stream. -/
structure Buffers where
  read : Buffer := {}
  write : Buffer := {}
  deriving Inhabited

namespace Buffers

/-- Empty buffers of these capacities. -/
def withCapacities (read write : Nat) (storage : Storage := .doubling) : Buffers :=
  { read := .withCapacity read storage, write := .withCapacity write storage }

/-- Drops all bytes of both. -/
def clear (b : Buffers) : Buffers := { read := b.read.clear, write := b.write.clear }

/-- Neither holds anything. -/
def isEmpty (b : Buffers) : Bool := b.read.isEmpty && b.write.isEmpty

end Buffers

end LinkEngine.Stream

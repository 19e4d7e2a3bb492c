import LinkEngine.Stream.Buffer

/-!
# The pool of idle buffers

Buffers of a closed connection are kept for the next one, as many pairs as the
pool has places. A pair that grew far beyond the pool's sizes is not worth
keeping. Whatever a pair held is dropped before it is kept.
-/

namespace LinkEngine.Stream

/-- Idle buffers, with what happened to them. -/
structure BufferPool where
  /-- How many pairs are kept. -/
  places : Nat
  readSize : Nat
  writeSize : Nat
  /-- What its pairs are made in. -/
  storage : Storage := .doubling
  /-- The pairs that are kept; the last one goes out first. -/
  idle : List Buffers := []
  /-- How often a kept pair was handed out. -/
  hits : Nat := 0
  /-- How often a new pair had to be made. -/
  misses : Nat := 0
  /-- How many pairs came back and were kept. -/
  returns : Nat := 0
  /-- How many pairs came back and were not kept. -/
  discards : Nat := 0
  deriving Inhabited

namespace BufferPool

/-- An empty pool; the sizes of its buffers are not zero. -/
def create (places readSize writeSize : Nat) (storage : Storage := .doubling) : BufferPool :=
  { places := places, readSize := max readSize 1, writeSize := max writeSize 1, storage }

/-- Hands out a pair. -/
def acquire (p : BufferPool) : Buffers × BufferPool :=
  match p.idle.getLast? with
  | some b => (b, { p with idle := p.idle.dropLast, hits := p.hits + 1 })
  | none => (.withCapacities p.readSize p.writeSize p.storage, { p with misses := p.misses + 1 })

/-- How much larger than its size a buffer may come back. -/
def growthLimit : Nat := 4

/-- The pair grew too large to be kept. -/
def isOvergrown (p : BufferPool) (b : Buffers) : Bool :=
  p.readSize * growthLimit < b.read.capacity || p.writeSize * growthLimit < b.write.capacity

/-- The pair as it is kept: empty, and with the room of the pool's sizes. -/
def prepare (p : BufferPool) (b : Buffers) : Buffers :=
  { read := b.clear.read.reserve p.readSize, write := b.clear.write.reserve p.writeSize }

/-- A pair that is kept has the room of the pool's sizes. -/
theorem le_capacity_prepare (p : BufferPool) (b : Buffers) :
    p.readSize ≤ (p.prepare b).read.capacity ∧ p.writeSize ≤ (p.prepare b).write.capacity :=
  ⟨Nat.le_trans (b.clear.read.le_capacity_reserve p.readSize) (Nat.sub_le ..),
    Nat.le_trans (b.clear.write.le_capacity_reserve p.writeSize) (Nat.sub_le ..)⟩

/-- Takes a pair back, and answers whether it is kept. -/
def release (p : BufferPool) (b : Buffers) : Bool × BufferPool :=
  if p.isOvergrown b.clear || p.places ≤ p.idle.length then
    (false, { p with discards := p.discards + 1 })
  else (true, { p with idle := p.idle ++ [p.prepare b], returns := p.returns + 1 })

/-- Drops all kept pairs but the first `keep`, and answers how many. -/
def trim (p : BufferPool) (keep : Nat) : Nat × BufferPool :=
  (p.idle.length - keep, { p with idle := p.idle.take keep })

/-- How often a pair was at hand, in percent. -/
def hitRate (p : BufferPool) : Float :=
  let hits := p.hits.toFloat
  let total := hits + p.misses.toFloat
  if total == 0 then 0 else hits / total * 100

end BufferPool

end LinkEngine.Stream

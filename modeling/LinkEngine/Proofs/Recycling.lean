import LinkEngine.Proofs.Exchanges
import LinkEngine.Stream.BufferPool

/-!
# What recycled buffers carry over

A pool hands its pairs of buffers from one link to the next. A `Commons` is a pool with
the links that were opened on its pairs; links are read and written, lose their pairs,
and the pool gets pairs back with whatever was left in them (`Deed`). Two things are
shown of every history. The books of the pool balance, and what it keeps is empty
(`BufferPool.Books`) and has the room of its sizes (`BufferPool.Roomy`). And a link is
what its own socket and its own calls make of an empty pair (`link_run`), so what its
reader sees came out of its own socket, in order, and what its socket took was handed in
by its own writer, in order (`recycled_carry_nothing_over`).
-/

namespace LinkEngine.Stream

open Text (Bytes)
open Socket (Endpoint)

/-! ## The books of a pool -/

namespace BufferPool

/-- What holds of a pool after so many pairs were handed out, came back, and were dropped
by trims. -/
structure Books (p : BufferPool) (most taken given dropped : Nat) : Prop where
  places : p.places = most
  empty : ∀ b ∈ p.idle, b.isEmpty = true
  room : p.idle.length ≤ most
  taken : p.hits + p.misses = taken
  given : p.returns + p.discards = given
  idle : p.idle.length + p.hits + dropped = p.returns

variable {p : BufferPool} {most taken given dropped : Nat}

theorem books_create (places readSize writeSize : Nat) (storage : Storage) :
    (create places readSize writeSize storage).Books places 0 0 0 :=
  ⟨rfl, nofun, Nat.zero_le _, rfl, rfl, rfl⟩

/-- A pair that is handed out is empty: a kept one was emptied when it came back. -/
theorem isEmpty_acquire (h : p.Books most taken given dropped) :
    p.acquire.1.isEmpty = true := by
  unfold acquire
  split
  · next b hlast => exact h.empty b (List.mem_of_getLast? hlast)
  · rfl

theorem books_acquire (h : p.Books most taken given dropped) :
    p.acquire.2.Books most (taken + 1) given dropped := by
  have htaken := h.taken
  have hidle := h.idle
  unfold acquire
  split
  · next b hlast =>
    have hpos : 0 < p.idle.length := List.length_pos_of_mem (List.mem_of_getLast? hlast)
    have hlength : p.idle.dropLast.length = p.idle.length - 1 := List.length_dropLast
    refine ⟨h.places, fun b hb => h.empty b (List.dropLast_subset _ hb), ?_, ?_, h.given, ?_⟩
    · have := h.room
      simp only
      omega
    · simp only
      omega
    · simp only
      omega
  · exact ⟨h.places, h.empty, h.room, by simp only; omega, h.given, h.idle⟩

/-- A pair is emptied before it is kept. -/
theorem isEmpty_prepare (p : BufferPool) (b : Buffers) : (p.prepare b).isEmpty = true := by
  simp [prepare, Buffers.isEmpty, Buffers.clear, Buffer.isEmpty]

theorem books_release (h : p.Books most taken given dropped) (b : Buffers) :
    (p.release b).2.Books most taken (given + 1) dropped := by
  have hgiven := h.given
  have hidle := h.idle
  unfold release
  split
  · exact ⟨h.places, h.empty, h.room, h.taken, by simp only; omega, h.idle⟩
  · next hkept =>
    simp only [Bool.or_eq_true, decide_eq_true_eq, not_or, Nat.not_le] at hkept
    have hplaces := h.places
    have hlength : (p.idle ++ [p.prepare b]).length = p.idle.length + 1 := List.length_append
    refine ⟨h.places, fun c hc => ?_, ?_, h.taken, ?_, ?_⟩
    · rcases List.mem_append.1 hc with hc | hc
      · exact h.empty c hc
      · rw [List.mem_singleton.1 hc]
        exact p.isEmpty_prepare b
    · simp only
      omega
    · simp only
      omega
    · simp only
      omega

theorem books_trim (h : p.Books most taken given dropped) (keep : Nat) :
    (p.trim keep).2.Books most taken given (dropped + (p.trim keep).1) := by
  have hidle := h.idle
  have hroom := h.room
  have hlength : (p.idle.take keep).length = min keep p.idle.length := List.length_take
  refine ⟨h.places, fun b hb => h.empty b (List.mem_of_mem_take hb), ?_, h.taken,
    h.given, ?_⟩
  · show (p.idle.take keep).length ≤ most
    omega
  · show (p.idle.take keep).length + p.hits + (dropped + (p.idle.length - keep)) = p.returns
    omega

/-- The pairs that are kept have the room of the sizes of the pool, which are at least these. -/
structure Roomy (p : BufferPool) (read write : Nat) : Prop where
  readSize : read ≤ p.readSize
  writeSize : write ≤ p.writeSize
  idle : ∀ b ∈ p.idle, p.readSize ≤ b.read.capacity ∧ p.writeSize ≤ b.write.capacity

variable {read write : Nat}

theorem roomy_create (places readSize writeSize : Nat) (storage : Storage) :
    (create places readSize writeSize storage).Roomy readSize writeSize :=
  ⟨Nat.le_max_left .., Nat.le_max_left .., nofun⟩

theorem Roomy.acquire (h : p.Roomy read write) : p.acquire.2.Roomy read write := by
  unfold BufferPool.acquire
  split
  · exact ⟨h.readSize, h.writeSize, fun b hb => h.idle b (List.dropLast_subset _ hb)⟩
  · exact ⟨h.readSize, h.writeSize, h.idle⟩

/-- A pair that is handed out has that room, be it kept or new. -/
theorem Roomy.le_capacity (h : p.Roomy read write) :
    read ≤ p.acquire.1.read.capacity ∧ write ≤ p.acquire.1.write.capacity := by
  unfold BufferPool.acquire
  split
  · next b hlast =>
    obtain ⟨hread, hwrite⟩ := h.idle b (List.mem_of_getLast? hlast)
    exact ⟨Nat.le_trans h.readSize hread, Nat.le_trans h.writeSize hwrite⟩
  · exact ⟨h.readSize, h.writeSize⟩

theorem Roomy.release (h : p.Roomy read write) (b : Buffers) :
    (p.release b).2.Roomy read write := by
  unfold BufferPool.release
  split
  · exact ⟨h.readSize, h.writeSize, h.idle⟩
  · refine ⟨h.readSize, h.writeSize, fun c hc => ?_⟩
    rcases List.mem_append.1 hc with hc | hc
    · exact h.idle c hc
    · rw [List.mem_singleton.1 hc]
      exact p.le_capacity_prepare b

theorem Roomy.trim (h : p.Roomy read write) (keep : Nat) : (p.trim keep).2.Roomy read write :=
  ⟨h.readSize, h.writeSize, fun b hb => h.idle b (List.mem_of_mem_take hb)⟩

/-- A pool answers that it keeps a pair exactly if it counts one that came back. -/
theorem release_kept (p : BufferPool) (b : Buffers) :
    (p.release b).1 = true ↔ (p.release b).2.returns = p.returns + 1 := by
  unfold release
  split
  · simp
  · simp

end BufferPool

/-! ## A link -/

variable {ω : Type}

/-- What can be done with the stream of a link. -/
inductive Act where
  | call (c : Call)
  /-- Its buffers are taken out, with what they hold. -/
  | takeBuffers
  deriving DecidableEq, Repr

/-- Does one thing with a stream. -/
def act (s : Stream ω) : Act → Stream ω
  | .call c => (s.call c).2
  | .takeBuffers => s.takeBuffers.2

/-- What it hands to the reader. -/
def Act.handed (s : Stream ω) : Act → Bytes
  | .call c => (Exchange.make s c).handed
  | .takeBuffers => []

/-- What it reports as taken from the writer. -/
def Act.accepted (s : Stream ω) : Act → Bytes
  | .call c => (Exchange.make s c).accepted
  | .takeBuffers => []

/-- Does one thing after the other. -/
def acting (s : Stream ω) : List Act → Stream ω
  | [] => s
  | a :: as => (s.act a).acting as

/-- What the reader was handed. -/
def readBy (s : Stream ω) : List Act → Bytes
  | [] => []
  | a :: as => a.handed s ++ (s.act a).readBy as

/-- What was taken from the writer. -/
def writtenBy (s : Stream ω) : List Act → Bytes
  | [] => []
  | a :: as => a.accepted s ++ (s.act a).writtenBy as

/-- Bytes that are seen were unread: a read hands out the front of what was, and a filled
buffer shows it. -/
theorem call_shows {s : Stream ω} {c : Call} {bytes : Bytes}
    (h : (s.call c).1 = .bytes (.ok bytes)) : bytes <+: s.unread := by
  cases c with
  | read n =>
    have hr := s.read_hands n
    have hok : (s.read n).1 = .ok bytes := Answer.bytes.inj h
    rw [show s.read n = (.ok bytes, (s.read n).2) from Prod.ext hok rfl] at hr
    exact ⟨_, hr.unread.symm⟩
  | fill =>
    obtain ⟨hhands, hshown, -⟩ := s.fill_hands
    have hinput : s.fill.2.input.bytes = bytes := hshown bytes (Answer.bytes.inj h)
    refine ⟨s.fill.2.socket.source, ?_⟩
    rw [hhands.unread, List.nil_append, Stream.unread, hinput]
  | _ => cases h

/-- What was handed out and what is unread are what was unread. Taking the buffers out
loses the part of it that had been read ahead. -/
theorem act_unread (s : Stream ω) (a : Act) :
    (a.handed s ++ (s.act a).unread).Sublist s.unread ∧
      (a ≠ .takeBuffers → a.handed s ++ (s.act a).unread = s.unread) := by
  cases a with
  | call c =>
    have hunread := (s.call_hands c).unread
    exact ⟨hunread ▸ List.Sublist.refl _, fun _ => hunread.symm⟩
  | takeBuffers => exact ⟨List.sublist_append_right s.input.bytes s.socket.source, absurd rfl⟩

/-- What a stream was given grows by what is taken from its writer. Taking the buffers out
loses the part of it that the socket had not got. -/
theorem act_produced (s : Stream ω) (a : Act) :
    (s.act a).produced.Sublist (s.produced ++ a.accepted s) ∧
      (a ≠ .takeBuffers → (s.act a).produced = s.produced ++ a.accepted s) := by
  cases a with
  | call c =>
    have hproduced := (s.call_takes c).produced
    exact ⟨hproduced ▸ List.Sublist.refl _, fun _ => hproduced⟩
  | takeBuffers =>
    refine ⟨?_, absurd rfl⟩
    show (s.socket.sent ++ []).Sublist (s.socket.sent ++ s.output.bytes ++ [])
    rw [List.append_nil, List.append_nil]
    exact List.sublist_append_left ..

theorem acting_unread (s : Stream ω) (acts : List Act) :
    (s.readBy acts ++ (s.acting acts).unread).Sublist s.unread ∧
      (.takeBuffers ∉ acts → s.readBy acts ++ (s.acting acts).unread = s.unread) := by
  induction acts generalizing s with
  | nil => exact ⟨.refl _, fun _ => rfl⟩
  | cons a as ih =>
    obtain ⟨hstep, hstep'⟩ := s.act_unread a
    obtain ⟨hrest, hrest'⟩ := ih (s.act a)
    simp only [readBy, acting, List.append_assoc]
    refine ⟨(hrest.append_left _).trans hstep, fun hnone => ?_⟩
    obtain ⟨ha, has⟩ := not_or.1 fun h => hnone (List.mem_cons.2 h)
    rw [hrest' has, hstep' (Ne.symm ha)]

theorem acting_produced (s : Stream ω) (acts : List Act) :
    (s.acting acts).produced.Sublist (s.produced ++ s.writtenBy acts) ∧
      (.takeBuffers ∉ acts → (s.acting acts).produced = s.produced ++ s.writtenBy acts) := by
  induction acts generalizing s with
  | nil =>
    have hnil : s.produced ++ s.writtenBy [] = s.produced := List.append_nil _
    rw [hnil]
    exact ⟨.refl _, fun _ => rfl⟩
  | cons a as ih =>
    obtain ⟨hstep, hstep'⟩ := s.act_produced a
    obtain ⟨hrest, hrest'⟩ := ih (s.act a)
    simp only [writtenBy, acting, ← List.append_assoc]
    refine ⟨hrest.trans (hstep.append_right _), fun hnone => ?_⟩
    obtain ⟨ha, has⟩ := not_or.1 fun h => hnone (List.mem_cons.2 h)
    rw [hrest' has, hstep' (Ne.symm ha)]

/-- What a link knows of others. Its reader was handed, and will be shown next, only what
came out of its own socket, and its socket was handed only what its own writer handed in:
each in its order, and all of it as long as the link keeps its buffers. -/
structure Apart (socket : Endpoint ω) (acts : List Act) (opened s : Stream ω) : Prop where
  read : (opened.readBy acts ++ s.unread).Sublist socket.source
  shown : ∀ c bytes, (s.call c).1 = .bytes (.ok bytes) →
    (opened.readBy acts ++ bytes).Sublist socket.source
  sent : (s.socket.sent ++ s.output.bytes).Sublist (socket.sent ++ opened.writtenBy acts)
  whole : .takeBuffers ∉ acts →
    opened.readBy acts ++ s.unread = socket.source ∧
      s.socket.sent ++ s.output.bytes = socket.sent ++ opened.writtenBy acts

/-- A link that is opened on an empty pair is apart from all others. -/
theorem apart_of_isEmpty (socket : Endpoint ω) {b : Buffers} (hb : b.isEmpty = true)
    (acts : List Act) :
    Apart socket acts (create socket b) ((create socket b).acting acts) := by
  obtain ⟨hread, hwrite⟩ := Bool.and_eq_true_iff.1 hb
  have hunread : (create socket b).unread = socket.source := by
    show b.read.bytes ++ socket.source = socket.source
    rw [List.isEmpty_iff.1 hread, List.nil_append]
  have hproduced : (create socket b).produced = socket.sent := by
    show socket.sent ++ b.write.bytes = socket.sent
    rw [List.isEmpty_iff.1 hwrite, List.append_nil]
  obtain ⟨hsub, heq⟩ := (create socket b).acting_unread acts
  obtain ⟨hsub', heq'⟩ := (create socket b).acting_produced acts
  rw [hunread] at hsub heq
  rw [hproduced] at hsub' heq'
  exact ⟨hsub, fun c bytes h => ((call_shows h).sublist.append_left _).trans hsub, hsub',
    fun hnone => ⟨heq hnone, heq' hnone⟩⟩

/-! ## Links that share a pool -/

/-- A pool, and the streams that were opened on its pairs. -/
structure Commons (ω : Type) where
  pool : BufferPool
  links : List (Stream ω) := []

/-- What happens to a pool and its links. -/
inductive Deed (ω : Type) where
  /-- A link is opened over a socket, with a pair of the pool. -/
  | acquire (socket : Endpoint ω)
  /-- Something is done with a link. -/
  | act (link : Nat) (a : Act)
  /-- A pair comes back: one that a link was left with, or any other, whatever it holds. -/
  | release (b : Buffers)
  | trim (keep : Nat)

namespace Deed

def isAcquire : Deed ω → Bool
  | .acquire _ => true
  | _ => false

def isRelease : Deed ω → Bool
  | .release _ => true
  | _ => false

/-- What is done with link `i`. -/
def actOn? (i : Nat) : Deed ω → Option Act
  | .act j a => if j = i then some a else none
  | _ => none

end Deed

namespace Commons

/-- Does one thing. -/
def perform (x : Commons ω) : Deed ω → Commons ω
  | .acquire socket =>
    { pool := x.pool.acquire.2, links := x.links ++ [.create socket x.pool.acquire.1] }
  | .act i a => { x with links := x.links.modify i (·.act a) }
  | .release b => { x with pool := (x.pool.release b).2 }
  | .trim keep => { x with pool := (x.pool.trim keep).2 }

/-- Does one thing after the other. -/
def run (x : Commons ω) : List (Deed ω) → Commons ω
  | [] => x
  | d :: ds => (x.perform d).run ds

/-- How many pairs a trim says it dropped. -/
def trims (x : Commons ω) : Deed ω → Nat
  | .trim keep => (x.pool.trim keep).1
  | _ => 0

/-- How many pairs all trims dropped. -/
def trimmed (x : Commons ω) : List (Deed ω) → Nat
  | [] => 0
  | d :: ds => x.trims d + (x.perform d).trimmed ds

variable {x : Commons ω} {most taken given dropped : Nat}

/-- One thing that happens is in the books. -/
theorem books_perform (h : x.pool.Books most taken given dropped) (d : Deed ω) :
    (x.perform d).pool.Books most (taken + [d].countP (·.isAcquire))
      (given + [d].countP (·.isRelease)) (dropped + x.trims d) := by
  cases d with
  | acquire socket => exact BufferPool.books_acquire h
  | act i a => exact h
  | release b => exact BufferPool.books_release h b
  | trim keep => exact BufferPool.books_trim h keep

theorem books_run (ds : List (Deed ω)) (h : x.pool.Books most taken given dropped) :
    (x.run ds).pool.Books most (taken + ds.countP (·.isAcquire))
      (given + ds.countP (·.isRelease)) (dropped + x.trimmed ds) := by
  induction ds generalizing x taken given dropped with
  | nil => exact h
  | cons d ds ih =>
    have hrest := ih (books_perform h d)
    rw [Nat.add_assoc, Nat.add_assoc, Nat.add_assoc, ← List.countP_append,
      ← List.countP_append] at hrest
    exact hrest

theorem roomy_perform {read write : Nat} (h : x.pool.Roomy read write) (d : Deed ω) :
    (x.perform d).pool.Roomy read write := by
  cases d with
  | acquire socket => exact h.acquire
  | act i a => exact h
  | release b => exact h.release b
  | trim keep => exact h.trim keep

theorem roomy_run {read write : Nat} (ds : List (Deed ω)) (h : x.pool.Roomy read write) :
    (x.run ds).pool.Roomy read write := by
  induction ds generalizing x with
  | nil => exact h
  | cons d ds ih => exact ih (roomy_perform h d)

/-- **Whatever happened to a pool, the pair that goes out next has the room of its sizes**, by
whatever rule its storage makes room. -/
theorem le_capacity_acquire (places readSize writeSize : Nat) (storage : Storage)
    (ds : List (Deed ω)) :
    let x := (⟨.create places readSize writeSize storage, []⟩ : Commons ω).run ds
    readSize ≤ x.pool.acquire.1.read.capacity ∧ writeSize ≤ x.pool.acquire.1.write.capacity :=
  (roomy_run ds (BufferPool.roomy_create places readSize writeSize storage)).le_capacity

/-- A link that is open is moved by what is done with it, and by nothing else. -/
theorem link_perform {i : Nat} {s : Stream ω} (h : x.links[i]? = some s) (d : Deed ω) :
    (x.perform d).links[i]? = some ((d.actOn? i).elim s s.act) := by
  cases d with
  | acquire socket =>
    have hi : i < x.links.length := (List.getElem?_eq_some_iff.1 h).1
    exact (List.getElem?_append_left hi).trans h
  | act j a =>
    show (x.links.modify j (·.act a))[i]? = _
    rw [List.getElem?_modify, h, Deed.actOn?]
    split <;> rfl
  | release b => exact h
  | trim keep => exact h

/-- A link is what its own acts make of it, whatever happens beside them. -/
theorem link_run (ds : List (Deed ω)) {i : Nat} {s : Stream ω} (h : x.links[i]? = some s) :
    (x.run ds).links[i]? = some (s.acting (ds.filterMap (·.actOn? i))) := by
  induction ds generalizing x s with
  | nil => exact h
  | cons d ds ih =>
    have hrest := ih (link_perform h d)
    rw [List.filterMap_cons]
    cases hd : d.actOn? i with
    | none =>
      rw [hd] at hrest
      exact hrest
    | some a =>
      rw [hd] at hrest
      exact hrest

end Commons

/-- **Recycled buffers carry nothing over.** Whatever happened to a pool and its links:
the pair that goes out next is empty, the pool keeps no more pairs than it has places, and
its counts tell how many pairs were handed out and came back, and what became of them; a
release answers that the pair is kept exactly if it counts one that came back. And whatever
happens after a link was opened, the link is what its own acts make of its socket and that
empty pair, and it is apart from all other links. -/
theorem recycled_carry_nothing_over (places readSize writeSize : Nat) (storage : Storage)
    (deeds : List (Deed ω)) :
    let start : Commons ω := { pool := .create places readSize writeSize storage }
    let x := start.run deeds
    x.pool.acquire.1.isEmpty = true ∧
      x.pool.idle.length ≤ places ∧
      x.pool.hits + x.pool.misses = deeds.countP (·.isAcquire) ∧
      x.pool.returns + x.pool.discards = deeds.countP (·.isRelease) ∧
      x.pool.idle.length + x.pool.hits + start.trimmed deeds = x.pool.returns ∧
      (∀ b, (x.pool.release b).1 = true ↔ (x.pool.release b).2.returns = x.pool.returns + 1) ∧
      ∀ (socket : Endpoint ω) (later : List (Deed ω)),
        let opened := Stream.create socket x.pool.acquire.1
        let acts := later.filterMap (·.actOn? x.links.length)
        ((x.perform (.acquire socket)).run later).links[x.links.length]? =
            some (opened.acting acts) ∧
          Apart socket acts opened (opened.acting acts) := by
  intro start x
  have hbooks := Commons.books_run deeds
    (x := start) (BufferPool.books_create places readSize writeSize storage)
  rw [Nat.zero_add, Nat.zero_add, Nat.zero_add] at hbooks
  have hempty := BufferPool.isEmpty_acquire hbooks
  refine ⟨hempty, hbooks.room, hbooks.taken, hbooks.given, hbooks.idle, x.pool.release_kept, ?_⟩
  intro socket later opened acts
  have hopened : (x.perform (.acquire socket)).links[x.links.length]? = some opened :=
    List.getElem?_concat_length ..
  exact ⟨Commons.link_run later hopened, apart_of_isEmpty socket hempty acts⟩

/-- A link reads one byte of three and leaves one that it wrote; the pair it is left with
goes to a second link, which finds nothing of it. -/
example :
    let first : Endpoint Empty := { input := [1, 2, 3], failures := .all [some .brokenPipe] }
    let start : Commons Empty := { pool := .create 1 4 4 }
    let left := start.run [.acquire first, .act 0 (.call .fill), .act 0 (.call .fill),
      .act 0 (.call (.consume 1)), .act 0 (.call (.write [9])), .act 0 (.call .flush)]
    let pair := left.links[0]?.elim {} fun s => s.takeBuffers.1
    let x := left.run [.act 0 .takeBuffers, .release pair, .acquire {}]
    pair.read.bytes = [2, 3] ∧ pair.write.bytes = [9] ∧ x.pool.hits = 1 ∧
      x.links[1]?.map (fun s => (s.input.bytes, s.output.bytes)) = some ([], []) := by
  decide

end LinkEngine.Stream

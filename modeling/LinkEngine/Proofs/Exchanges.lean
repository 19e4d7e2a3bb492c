import LinkEngine.Proofs.Closes
import LinkEngine.Proofs.Input
import LinkEngine.Proofs.Output

/-!
# What a sequence of calls on a stream comes to

A stream is called by its reader and its writer in any order (`Call`), and each call is an
exchange between the stream before it and the stream after it (`Exchange`). Over all
exchanges, what writes reported as taken is what the socket took and then what the buffer
still holds (`writes_in_order`), and what the reader was handed, the buffer and what the
socket still delivers are all the socket ever delivers (`reads_in_order`). The sizes of
the buffers have no part in either.
-/

namespace LinkEngine.Stream

open Text (Bytes)
open Socket (Endpoint PerCall Readiness)

variable {ω : Type}

/-- One call on a stream. -/
inductive Call where
  | read (n : Nat)
  | fill
  | consume (n : Nat)
  | poll
  | wait
  | write (bytes : Bytes)
  | flush
  | close
  deriving DecidableEq, Repr

/-- What a call answers. -/
inductive Answer (ω : Type) where
  | nothing
  | bytes (r : Except IoKind Bytes)
  | readiness (r : Except IoKind Readiness)
  | waiting (w : Endpoint.Waiting ω)
  | count (r : Except IoKind Nat)
  | done (r : Except IoKind Unit)

/-- Makes one call. -/
def call (s : Stream ω) : Call → Answer ω × Stream ω
  | .read n => (.bytes (s.read n).1, (s.read n).2)
  | .fill => (.bytes s.fill.1, s.fill.2)
  | .consume n => (.nothing, s.consume n)
  | .poll => (.readiness s.poll.1, s.poll.2)
  | .wait => (.waiting s.wait.1, s.wait.2)
  | .write bytes => (.count (s.write bytes).1, (s.write bytes).2)
  | .flush => (.done s.flush.1, s.flush.2)
  | .close => (.done s.close.1, s.close.2)

/-- The bytes a write reports as taken. -/
def Call.accepted : Call → Answer ω → Bytes
  | .write bytes, .count (.ok n) => bytes.take n
  | _, _ => []

/-- The bytes that reach the reader: those a read copies out, or those it saw in the buffer
and consumes. -/
def Call.handed (buffered : Bytes) : Call → Answer ω → Bytes
  | .read _, .bytes (.ok bytes) => bytes
  | .consume n, _ => buffered.take n
  | _, _ => []

/-- A call that was made, with its answer and the stream on both sides of it. -/
structure Exchange (ω : Type) where
  call : Call
  answer : Answer ω
  before : Stream ω
  after : Stream ω

namespace Exchange

/-- What a write reported as taken. -/
def accepted (x : Exchange ω) : Bytes := x.call.accepted x.answer

/-- What reached the reader. -/
def handed (x : Exchange ω) : Bytes := x.call.handed x.before.input.bytes x.answer

/-- The exchange that a call makes. -/
def make (s : Stream ω) (c : Call) : Exchange ω :=
  { call := c, answer := (s.call c).1, before := s, after := (s.call c).2 }

end Exchange

/-- The exchanges of a sequence of calls. -/
def exchanges (s : Stream ω) : List Call → List (Exchange ω)
  | [] => []
  | c :: cs => .make s c :: (s.call c).2.exchanges cs

/-- The stream after a sequence of calls. -/
def follow (s : Stream ω) : List Call → Stream ω
  | [] => s
  | c :: cs => (s.call c).2.follow cs

/-- What the calls reported as taken. -/
def accepted (s : Stream ω) (calls : List Call) : Bytes :=
  (s.exchanges calls).flatMap (·.accepted)

/-- What the calls handed to the reader. -/
def handed (s : Stream ω) (calls : List Call) : Bytes :=
  (s.exchanges calls).flatMap (·.handed)

theorem mem_exchanges {x : Exchange ω} {calls : List Call} {s : Stream ω}
    (h : x ∈ s.exchanges calls) : ∃ t c, x = .make t c := by
  induction calls generalizing s with
  | nil => cases h
  | cons c cs ih =>
    rcases List.mem_cons.1 h with rfl | h
    · exact ⟨s, c, rfl⟩
    · exact ih h

/-! ## Output -/

/-- A call takes the bytes it reports. -/
theorem call_takes (s : Stream ω) (c : Call) :
    s.Takes (s.call c).2 (Exchange.make s c).accepted := by
  cases c with
  | read n => exact (s.read_quiet n).takes
  | fill => exact s.fill_quiet.takes
  | consume n => exact (s.consume_quiet n).takes
  | poll => exact s.poll_quiet.takes
  | wait => exact s.wait_quiet.takes
  | flush => exact s.flush_takes
  | close => exact s.close_takes
  | write bytes =>
    have hw := s.write_takes bytes
    show s.Takes (s.write bytes).2 (Call.accepted (ω := ω) (.write bytes) (.count (s.write bytes).1))
    cases h : s.write bytes with
    | mk r t =>
      rw [h] at hw
      cases r with
      | ok n => exact hw.2
      | error kind => exact hw

theorem follow_takes (s : Stream ω) (calls : List Call) :
    s.Takes (s.follow calls) (s.accepted calls) := by
  induction calls generalizing s with
  | nil => exact (Quiet.refl s).takes
  | cons c cs ih => exact (s.call_takes c).trans (ih _)

/-- The buffer for output keeps within the capacity it had at first. A stream without any
capacity passes everything on. -/
structure Fits (capacity : Nat) (s : Stream ω) : Prop where
  size : s.writeSize = max capacity 1
  output : s.output.length ≤ capacity

variable {s : Stream ω} {capacity : Nat}

theorem fill_fits (hs : s.Fits capacity) : s.fill.2.Fits capacity := by
  unfold fill
  split
  · exact hs
  · split <;> exact ⟨hs.size, hs.output⟩

theorem read_fits (hs : s.Fits capacity) (n : Nat) : (s.read n).2.Fits capacity := by
  have hf := fill_fits hs
  unfold read
  split
  · split <;> exact ⟨hs.size, hs.output⟩
  · split <;> next h =>
      rw [h] at hf
      exact ⟨hf.size, hf.output⟩

theorem poll_fits (hs : s.Fits capacity) : s.poll.2.Fits capacity := by
  unfold poll
  split <;> exact ⟨hs.size, hs.output⟩

theorem wait_fits (hs : s.Fits capacity) : s.wait.2.Fits capacity := by
  unfold wait
  split <;> exact ⟨hs.size, hs.output⟩

theorem flushWithin_fits : ∀ (fuel : Nat) {s : Stream ω}, s.Fits capacity →
    (s.flushWithin fuel).2.Fits capacity
  | 0, _, hs => hs
  | fuel + 1, s, hs => by
    unfold flushWithin
    split
    · exact hs
    · split
      · exact ⟨hs.size, hs.output⟩
      · next n socket _ =>
        have hlength : (s.output.advance (n + 1)).length = s.output.length - (n + 1) :=
          List.length_drop
        exact flushWithin_fits fuel
          ⟨hs.size, hlength ▸ Nat.le_trans (Nat.sub_le ..) hs.output⟩
      · exact flushWithin_fits fuel ⟨hs.size, hs.output⟩
      · exact ⟨hs.size, hs.output⟩

theorem flush_fits (hs : s.Fits capacity) : s.flush.2.Fits capacity := by
  have hb : s.flushBuffer.2.Fits capacity := flushWithin_fits _ hs
  unfold flush
  split <;> next h =>
    rw [h] at hb
    exact ⟨hb.size, hb.output⟩

theorem close_fits (hs : s.Fits capacity) : s.close.2.Fits capacity := by
  have hf := flush_fits hs
  unfold close
  simp only
  split <;> exact ⟨hf.size, hf.output⟩

/-- A write buffers bytes only where they fit, and only fewer than a buffer holds. -/
theorem write_fits (hs : s.Fits capacity) (bytes : Bytes) :
    (s.write bytes).2.Fits capacity := by
  have hcleared : (if s.writeSize < s.output.length + bytes.length then s.flushBuffer
        else (.ok (), s)).2.Fits capacity ∧
      ((if s.writeSize < s.output.length + bytes.length then s.flushBuffer
          else (.ok (), s)).1 = .ok () →
        (if s.writeSize < s.output.length + bytes.length then s.flushBuffer
          else (.ok (), s)).2.output.length = 0 ∨
        (if s.writeSize < s.output.length + bytes.length then s.flushBuffer
          else (.ok (), s)).2.output.length + bytes.length ≤ max capacity 1) := by
    split
    · exact ⟨flushWithin_fits _ hs,
        fun hok => .inl (congrArg List.length (output_flushBuffer hok))⟩
    · next hfit => exact ⟨hs, fun _ => .inr (hs.size ▸ Nat.le_of_not_lt hfit)⟩
  unfold write
  simp only
  generalize (if s.writeSize < s.output.length + bytes.length then s.flushBuffer
    else (.ok (), s)) = cleared at hcleared
  obtain ⟨r, x⟩ := cleared
  obtain ⟨hx, hroom⟩ := hcleared
  cases r with
  | error kind => exact hx
  | ok _ =>
    dsimp only at hroom hx ⊢
    split
    · split <;> exact ⟨hx.size, hx.output⟩
    · next hsmall =>
      refine ⟨hx.size, ?_⟩
      have hlength : (x.output.append bytes).length = x.output.length + bytes.length := by
        simp only [Buffer.length, Buffer.bytes_append, List.length_append]
      have hsize := hx.size
      have houtput := hx.output
      have := hroom rfl
      show (x.output.append bytes).length ≤ capacity
      omega

theorem call_fits (hs : s.Fits capacity) (c : Call) : (s.call c).2.Fits capacity := by
  cases c with
  | read n => exact read_fits hs n
  | fill => exact fill_fits hs
  | consume n => exact ⟨hs.size, hs.output⟩
  | poll => exact poll_fits hs
  | wait => exact wait_fits hs
  | write bytes => exact write_fits hs bytes
  | flush => exact flush_fits hs
  | close => exact close_fits hs

theorem follow_fits (hs : s.Fits capacity) (calls : List Call) :
    (s.follow calls).Fits capacity := by
  induction calls generalizing s with
  | nil => exact hs
  | cons c cs ih => exact ih (call_fits hs c)

/-- Closing hands on the answer of the flush where that failed, and else the answer of the
socket, which is closed after the flush in either case. -/
theorem close_eq (s : Stream ω) :
    s.close = (s.flush.1.bind fun _ => s.flush.2.socket.close.1,
      s.flush.2.withSocket fun e => e.close.2) := by
  unfold close withSocket
  simp only
  cases s.flush.1 <;> rfl

/-- A flush or a closing that works leaves nothing in the buffer. -/
theorem call_done {c : Call} (h : (s.call c).1 = .done (.ok ())) :
    (s.call c).2.output.bytes = [] := by
  cases c with
  | flush => exact output_flush (Answer.done.inj h)
  | close =>
    have hok : s.close.1 = .ok () := Answer.done.inj h
    rw [close_eq] at hok
    show s.close.2.output.bytes = []
    rw [close_eq]
    cases hf : s.flush.1 with
    | ok _ => exact output_flush hf
    | error kind =>
      rw [hf] at hok
      cases hok
  | _ => cases h

/-- **No output is lost, repeated or reordered.** Whatever capacities the buffers of a
stream have, whatever its socket does and whatever calls are made: what the socket took
since the stream was made, and then what the buffer still holds, are the bytes that the
writes reported as taken, each of them a front part of what was offered, and as many as
were counted. The buffer never holds more than its capacity, and nothing after a flush that
works. To close the stream flushes it and closes the socket once, whether that worked or
not, and answers the first failure. -/
theorem writes_in_order (socket : Endpoint ω) (buffers : Buffers) (calls : List Call) :
    let s := Stream.create socket buffers.clear
    (s.follow calls).socket.sent ++ (s.follow calls).output.bytes =
        socket.sent ++ s.accepted calls ∧
      (s.follow calls).bytesWritten = (s.accepted calls).length ∧
      (s.follow calls).output.length ≤ buffers.write.capacity ∧
      ∀ x ∈ s.exchanges calls,
        (∀ bytes n, x.call = .write bytes → x.answer = .count (.ok n) → n ≤ bytes.length) ∧
        (x.answer = .done (.ok ()) → x.after.output.bytes = []) ∧
        (x.call = .close →
          x.answer = .done (x.before.flush.1.bind fun _ => x.before.flush.2.socket.close.1) ∧
          x.after.socket = x.before.flush.2.socket.close.2 ∧
          x.after.closes = x.before.closes + 1) := by
  intro s
  have htakes := s.follow_takes calls
  have hproduced : s.produced = socket.sent := List.append_nil _
  have hfits : s.Fits buffers.write.capacity := ⟨rfl, Nat.zero_le _⟩
  refine ⟨?_, ?_, (follow_fits hfits calls).output, ?_⟩
  · rw [← hproduced]
    exact htakes.produced
  · rw [htakes.written]
    exact Nat.zero_add _
  intro x hx
  obtain ⟨t, c, rfl⟩ := mem_exchanges hx
  refine ⟨?_, call_done, ?_⟩
  · intro bytes n hcall hanswer
    obtain rfl : c = .write bytes := hcall
    have hw := t.write_takes bytes
    have hok : (t.write bytes).1 = .ok n := Answer.count.inj hanswer
    rw [show t.write bytes = (.ok n, (t.write bytes).2) from Prod.ext hok rfl] at hw
    exact hw.1
  · intro hcall
    obtain rfl : c = .close := hcall
    refine ⟨?_, ?_, t.closes_close⟩
    · exact congrArg (fun r => Answer.done r.1) t.close_eq
    · exact congrArg (fun r => r.2.socket) t.close_eq

/-- A socket that takes two bytes, then fails once, and cannot be flushed. -/
def reluctant : Endpoint Empty :=
  { writeLimits := [2]
    failures := { PerCall.all [] with
      write := [none, some .connectionReset], flush := [some .brokenPipe] } }

/-- A write that breaks off in the middle of handing on the buffer, its repetition, and a
write past the buffer. -/
def insistent : List Call := [.write [1, 2, 3], .write [4, 5], .write [4, 5], .write [6, 7, 8, 9]]

/-- Nothing of it is lost, and closing the stream reports the failed flush. -/
theorem writes_in_order_reluctant :
    ((create reluctant (Buffers.withCapacities 4 4).clear).follow insistent).socket.sent ++
        ((create reluctant (Buffers.withCapacities 4 4).clear).follow insistent).output.bytes =
        reluctant.sent ++
          (create reluctant (Buffers.withCapacities 4 4).clear).accepted insistent ∧
      (create reluctant (Buffers.withCapacities 4 4).clear).accepted insistent =
        [1, 2, 3, 4, 5, 6, 7, 8, 9] ∧
      ((create reluctant (Buffers.withCapacities 4 4).clear).follow insistent).close.1 =
        .error .brokenPipe :=
  ⟨(writes_in_order reluctant (.withCapacities 4 4) insistent).1, by decide +kernel, rfl⟩

/-! ## Input -/

/-- A call hands out the bytes that reach the reader by it. -/
theorem call_hands (s : Stream ω) (c : Call) :
    s.Hands (s.call c).2 (Exchange.make s c).handed := by
  cases c with
  | fill => exact s.fill_hands.1
  | consume n => exact s.consume_hands n
  | poll => exact s.poll_holds.hands
  | wait => exact s.wait_holds.hands
  | write bytes => exact (s.write_holds bytes).hands
  | flush => exact s.flush_holds.hands
  | close => exact s.close_holds.hands
  | read n =>
    have hr := s.read_hands n
    show s.Hands (s.read n).2 (Call.handed s.input.bytes (.read n) (.bytes (s.read n).1))
    cases h : s.read n with
    | mk r t =>
      rw [h] at hr
      cases r with
      | ok bytes => exact hr
      | error kind => exact hr.hands

theorem follow_hands (s : Stream ω) (calls : List Call) :
    s.Hands (s.follow calls) (s.handed calls) := by
  induction calls generalizing s with
  | nil => exact (Holds.refl s).hands
  | cons c cs ih => exact (s.call_hands c).trans (ih _)

/-- A read that fails hands out nothing, and leaves what was read ahead. -/
theorem call_failed {c : Call} {kind : IoKind}
    (h : (s.call c).1 = .bytes (.error kind)) :
    (Exchange.make s c).handed = [] ∧ s.Holds (s.call c).2 := by
  cases c with
  | fill => exact ⟨rfl, s.fill_hands.2.2 kind (Answer.bytes.inj h)⟩
  | read n =>
    have hr := s.read_hands n
    have herror : (s.read n).1 = .error kind := Answer.bytes.inj h
    rw [show s.read n = (.error kind, (s.read n).2) from Prod.ext herror rfl] at hr
    refine ⟨?_, hr⟩
    show Call.handed s.input.bytes (.read n) (s.call (.read n)).1 = []
    rw [h]
    rfl
  | _ => cases h

/-- A probe of a stream with input ahead does not ask the socket. -/
theorem poll_ready (s : Stream ω) :
    s.poll.1 = .ok .ready ∧ s.poll.2.socket.calls = s.socket.calls ↔ s.input.bytes ≠ [] := by
  unfold poll
  cases h : s.input.bytes with
  | cons b bs => simp [Buffer.isEmpty, h]
  | nil =>
    have hcalls := s.socket.calls_poll
    refine ⟨fun ⟨_, hsame⟩ => ?_, fun hne => absurd rfl hne⟩
    simp only [Buffer.isEmpty, h, List.isEmpty_nil] at hsame
    have : s.socket.poll.2.calls = s.socket.calls := hsame
    rw [this] at hcalls
    omega

theorem wait_ready (s : Stream ω) :
    s.wait.1 = .over (.ok .ready) 0 ∧ s.wait.2.socket.calls = s.socket.calls ↔
      s.input.bytes ≠ [] := by
  unfold wait
  cases h : s.input.bytes with
  | cons b bs => simp [Buffer.isEmpty, h]
  | nil =>
    have hcalls := s.socket.calls_wait
    refine ⟨fun ⟨_, hsame⟩ => ?_, fun hne => absurd rfl hne⟩
    simp only [Buffer.isEmpty, h, List.isEmpty_nil] at hsame
    have : s.socket.wait.2.calls = s.socket.calls := hsame
    rw [this] at hcalls
    omega

/-- **No input is lost, repeated or reordered.** Whatever capacities the buffers of a
stream have, whatever its socket does and whatever calls are made: what was handed to the
reader, and then what the buffer holds, are the bytes that came out of the socket, and as
many were counted as were handed over. A read that fails changes neither. A probe answers
that there is input without asking the socket exactly if the buffer holds some. Two runs
over sockets with the same bytes to deliver hand out the same bytes, whatever the
capacities, the calls and the sizes in which the bytes arrive, as far as both got. -/
theorem reads_in_order (socket : Endpoint ω) (buffers : Buffers) (calls : List Call) :
    let s := Stream.create socket buffers.clear
    (∃ delivered, socket.source = delivered ++ (s.follow calls).socket.source ∧
        s.handed calls ++ (s.follow calls).input.bytes = delivered) ∧
      (s.follow calls).bytesRead = (s.handed calls).length ∧
      (∀ x ∈ s.exchanges calls,
        (∀ kind, x.answer = .bytes (.error kind) →
          x.handed = [] ∧ x.after.input.bytes = x.before.input.bytes ∧
          x.after.bytesRead = x.before.bytesRead) ∧
        (x.call = .poll →
          (x.answer = .readiness (.ok .ready) ∧ x.after.socket.calls = x.before.socket.calls ↔
            x.before.input.bytes ≠ [])) ∧
        (x.call = .wait →
          (x.answer = .waiting (.over (.ok .ready) 0) ∧
              x.after.socket.calls = x.before.socket.calls ↔
            x.before.input.bytes ≠ []))) ∧
      ∀ (socket' : Endpoint ω) (buffers' : Buffers) (calls' : List Call),
        socket'.source = socket.source →
        s.handed calls <+: (Stream.create socket' buffers'.clear).handed calls' ∨
        (Stream.create socket' buffers'.clear).handed calls' <+: s.handed calls := by
  intro s
  -- Nothing was read ahead at first, so all that was unread was still in the socket.
  have hunread : ∀ (socket : Endpoint ω) (buffers : Buffers) (calls : List Call),
      socket.source = (Stream.create socket buffers.clear).handed calls ++
        ((Stream.create socket buffers.clear).follow calls).unread := fun socket buffers calls =>
    ((Stream.create socket buffers.clear).follow_hands calls).unread
  have hhands := s.follow_hands calls
  refine ⟨⟨_, ?_, rfl⟩, ?_, ?_, ?_⟩
  · rw [List.append_assoc]
    exact hunread socket buffers calls
  · rw [hhands.count]
    exact Nat.zero_add _
  · intro x hx
    obtain ⟨t, c, rfl⟩ := mem_exchanges hx
    refine ⟨?_, ?_, ?_⟩
    · intro kind hanswer
      obtain ⟨hnone, hholds⟩ := call_failed hanswer
      exact ⟨hnone, hholds.input, hholds.count⟩
    · intro hcall
      obtain rfl : c = .poll := hcall
      exact ⟨fun ⟨h, hc⟩ => t.poll_ready.1 ⟨Answer.readiness.inj h, hc⟩, fun h =>
        ⟨congrArg Answer.readiness (t.poll_ready.2 h).1, (t.poll_ready.2 h).2⟩⟩
    · intro hcall
      obtain rfl : c = .wait := hcall
      exact ⟨fun ⟨h, hc⟩ => t.wait_ready.1 ⟨Answer.waiting.inj h, hc⟩, fun h =>
        ⟨congrArg Answer.waiting (t.wait_ready.2 h).1, (t.wait_ready.2 h).2⟩⟩
  · intro socket' buffers' calls' hsource
    exact List.prefix_or_prefix_of_prefix ⟨_, (hunread socket buffers calls).symm⟩
      ⟨_, (hsource ▸ hunread socket' buffers' calls').symm⟩

/-- A socket that delivers one byte, fails once, and then delivers four more of which one
arrives in a wait. -/
def halting : Endpoint Empty :=
  { input := [1, 2, 3, 4]
    readLimits := [1]
    failures := { PerCall.all [] with read := [none, some .interrupted] }
    claims := [.pending]
    interludes := [.feed [5]] }

/-- A socket that delivers the same at once. -/
def prompt : Endpoint Empty := { input := [1, 2, 3, 4, 5] }

/-- Small reads through a buffer and a large one past it hand out the same bytes. -/
theorem reads_in_order_halting :
    let s := Stream.create halting (Buffers.withCapacities 4 4).clear
    let calls := [.read 2, .fill, .fill, .consume 1, .read 1, .consume 9, .wait, .read 2]
    let t := Stream.create prompt (Buffers.withCapacities 2 2).clear
    s.handed calls = [1, 2, 3, 4, 5] ∧ t.handed [.read 3] = [1, 2, 3] ∧
      t.handed [.read 3] <+: s.handed calls := by
  intro s calls t
  have h := reads_in_order halting (.withCapacities 4 4) calls
  have hs : s.handed calls = [1, 2, 3, 4, 5] := by decide +kernel
  have ht : t.handed [.read 3] = [1, 2, 3] := by decide +kernel
  refine ⟨hs, ht, ?_⟩
  rcases h.2.2.2 prompt (.withCapacities 2 2) [.read 3] rfl with hlonger | hprefix
  · have hle : (s.handed calls).length ≤ (t.handed [.read 3]).length := hlonger.length_le
    rw [hs, ht] at hle
    exact absurd hle (by decide)
  · exact hprefix

end LinkEngine.Stream

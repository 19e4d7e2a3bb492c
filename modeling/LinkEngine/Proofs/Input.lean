import LinkEngine.Stream.Basic

/-!
# Where the bytes go that are read

What will ever come out of a socket is its unread input and what its waits still bring
(`Endpoint.source`). A read takes bytes off the front of that, and nothing else does.
What is unread in a stream is what lies in its buffer and then the source of its socket
(`Stream.unread`); whatever call its reader makes, bytes leave it only at the front, and
as many as were counted (`Hands`).
-/

namespace LinkEngine

open Text (Bytes)
open Socket (Endpoint)

namespace Socket

variable {ω : Type} {e d : Endpoint ω} {c : Call} {f : Option IoKind}

/-- The input a wait brings. -/
def Interlude.brings : Interlude ω → Bytes
  | .feed bytes => bytes
  | _ => []

namespace Endpoint

/-- Everything that reads can ever deliver: the unread input, and what the waits to come
bring. -/
def source (e : Endpoint ω) : Bytes := e.input ++ e.interludes.flatMap (·.brings)

theorem source_enter (e : Endpoint ω) (c : Call) : (e.enter c).2.source = e.source := by
  unfold enter
  simp only
  split <;> rfl

private theorem source_of_enter (h : e.enter c = (f, d)) : d.source = e.source := by
  have := e.source_enter c
  rwa [h] at this

/-- A read delivers the front of what is to come, and one that fails delivers nothing. -/
theorem source_read (e : Endpoint ω) (space : Nat) :
    match e.read space with
    | (.ok bytes, d) => e.source = bytes ++ d.source
    | (.error _, d) => d.source = e.source := by
  unfold read
  cases h : e.enter .read with
  | mk f d =>
    have hd := source_of_enter h
    cases f with
    | some kind => exact hd
    | none =>
      dsimp only
      by_cases hempty : d.input.isEmpty
      · rw [if_pos hempty]
        cases d.eof with
        | true => exact hd.symm
        | false => exact hd
      · rw [if_neg hempty]
        rw [← hd]
        simp only [source, ← List.append_assoc, List.take_append_drop]

theorem source_write (e : Endpoint ω) (bytes : Bytes) : (e.write bytes).2.source = e.source := by
  unfold write
  split
  · next h => exact source_of_enter h
  · next e' h => exact source_of_enter (d := e') h

theorem source_perform (e : Endpoint ω) (c : Call) : (e.perform c).2.source = e.source := by
  unfold perform
  split <;> next h => exact source_of_enter h

private theorem source_claim (e : Endpoint ω) : e.claim.2.source = e.source := by
  unfold claim
  split <;> rfl

theorem source_poll (e : Endpoint ω) : e.poll.2.source = e.source := by
  unfold poll
  split
  · next h => exact source_of_enter h
  · next e' h => exact (source_claim e').trans (source_of_enter h)

/-- Input that arrives during a wait was to come before. -/
theorem source_wait (e : Endpoint ω) : e.wait.2.source = e.source := by
  unfold wait
  split
  · next h => exact source_of_enter h
  · next e' h =>
    have he := (source_claim e').trans (source_of_enter h)
    split
    · next hc =>
      rw [hc] at he
      exact he
    · next hc =>
      rw [hc] at he
      exact he
    · next e'' hc =>
      rw [hc] at he
      split
      · split <;> exact he
      · next i rest hi =>
        rw [← he]
        have hsource : e''.source = e''.input ++ (i.brings ++ rest.flatMap (·.brings)) := by
          rw [source, hi, List.flatMap_cons]
        rw [hsource]
        cases i with
        | feed bytes => exact List.append_assoc ..
        | pending => rfl
        | eof => rfl
        | fail kind => rfl
        | act requests => rfl

/-- How often a call was made. -/
theorem calls_enter (e : Endpoint ω) (c : Call) :
    (e.enter c).2.calls.get c = e.calls.get c + 1 := by
  unfold enter
  simp only
  split <;> simp

private theorem calls_of_enter (h : e.enter c = (f, d)) :
    d.calls.get c = e.calls.get c + 1 := by
  have := e.calls_enter c
  rwa [h] at this

private theorem calls_claim (e : Endpoint ω) : e.claim.2.calls = e.calls := by
  unfold claim
  split <;> rfl

theorem calls_poll (e : Endpoint ω) : e.poll.2.calls.get .poll = e.calls.get .poll + 1 := by
  unfold poll
  split
  · next h => exact calls_of_enter h
  · next e' h => rw [calls_claim, calls_of_enter h]

theorem calls_wait (e : Endpoint ω) : e.wait.2.calls.get .wait = e.calls.get .wait + 1 := by
  unfold wait
  split
  · next h => exact calls_of_enter h
  · next e' h =>
    have he : e'.claim.2.calls.get .wait = e.calls.get .wait + 1 := by
      rw [calls_claim, calls_of_enter h]
    split
    · next hc =>
      rw [hc] at he
      exact he
    · next hc =>
      rw [hc] at he
      exact he
    · next hc =>
      rw [hc] at he
      split
      · split <;> exact he
      · simp only
        split <;> exact he

end Endpoint

end Socket

namespace Stream

variable {ω : Type} {s t u : Stream ω} {more more' : Bytes}

/-- What the reader was not handed yet: what lies in the buffer, and then what the socket
still delivers. -/
def unread (s : Stream ω) : Bytes := s.input.bytes ++ s.socket.source

/-- The reader was handed these bytes. -/
structure Hands (s t : Stream ω) (bytes : Bytes) : Prop where
  unread : s.unread = bytes ++ t.unread
  count : t.bytesRead = s.bytesRead + bytes.length

/-- The reader was handed nothing, and nothing was read ahead. -/
structure Holds (s t : Stream ω) : Prop where
  source : t.socket.source = s.socket.source
  input : t.input.bytes = s.input.bytes
  count : t.bytesRead = s.bytesRead

theorem Holds.refl (s : Stream ω) : s.Holds s := ⟨rfl, rfl, rfl⟩

theorem Holds.trans (h₁ : s.Holds t) (h₂ : t.Holds u) : s.Holds u :=
  ⟨h₂.source.trans h₁.source, h₂.input.trans h₁.input, h₂.count.trans h₁.count⟩

theorem Holds.hands (h : s.Holds t) : s.Hands t [] := by
  refine ⟨?_, h.count⟩
  rw [Stream.unread, ← h.source, ← h.input, List.nil_append, Stream.unread]

theorem Hands.trans (h₁ : s.Hands t more) (h₂ : t.Hands u more') : s.Hands u (more ++ more') := by
  refine ⟨?_, ?_⟩
  · rw [h₁.unread, h₂.unread, List.append_assoc]
  · rw [h₂.count, h₁.count, List.length_append, Nat.add_assoc]

/-! ## The reader's calls -/

theorem poll_holds (s : Stream ω) : s.Holds s.poll.2 := by
  unfold poll
  split
  · exact .refl s
  · exact ⟨s.socket.source_poll, rfl, rfl⟩

theorem wait_holds (s : Stream ω) : s.Holds s.wait.2 := by
  unfold wait
  split
  · exact .refl s
  · exact ⟨s.socket.source_wait, rfl, rfl⟩

theorem consume_hands (s : Stream ω) (n : Nat) : s.Hands (s.consume n) (s.input.bytes.take n) := by
  refine ⟨?_, ?_⟩
  · show s.input.bytes ++ s.socket.source = s.input.bytes.take n ++
      (s.input.bytes.drop (min n s.input.bytes.length) ++ s.socket.source)
    rw [← List.append_assoc, List.take_eq_take_min, List.take_append_drop]
  · exact congrArg (s.bytesRead + ·) List.length_take.symm

/-- Filling the buffer only moves bytes into it, and shows what it holds then; a fill that
fails leaves it empty, as it was. -/
theorem fill_hands (s : Stream ω) :
    s.Hands s.fill.2 [] ∧ (∀ bytes, s.fill.1 = .ok bytes → s.fill.2.input.bytes = bytes) ∧
      (∀ kind, s.fill.1 = .error kind → s.Holds s.fill.2) := by
  have hr := s.socket.source_read s.readSize
  unfold fill
  by_cases hempty : s.input.isEmpty
  · have hnil : s.input.bytes = [] := List.isEmpty_iff.1 hempty
    rw [if_neg (by rw [hempty]; decide)]
    cases h : s.socket.read s.readSize with
    | mk r socket =>
      rw [h] at hr
      cases r with
      | ok bytes =>
        refine ⟨⟨?_, rfl⟩, fun _ h => Except.ok.inj h, nofun⟩
        show s.input.bytes ++ s.socket.source = bytes ++ socket.source
        rw [hnil, hr, List.nil_append]
      | error kind =>
        have hholds : s.Holds { s with socket, input := s.input.fill s.readSize [] } :=
          ⟨hr, hnil.symm, rfl⟩
        exact ⟨hholds.hands, nofun, fun _ _ => hholds⟩
  · rw [if_pos (by simpa using hempty)]
    exact ⟨(Holds.refl s).hands, fun _ h => Except.ok.inj h, nofun⟩

/-- **A read hands out bytes from the front**, and one that fails hands out nothing and
leaves what was read ahead. -/
theorem read_hands (s : Stream ω) (n : Nat) :
    match s.read n with
    | (.ok bytes, t) => s.Hands t bytes
    | (.error _, t) => s.Holds t := by
  have hr := s.socket.source_read n
  obtain ⟨hhands, hshown, hheld⟩ := s.fill_hands
  unfold read
  by_cases hlarge : s.input.isEmpty ∧ s.readSize ≤ n
  · have hnil : s.input.bytes = [] := List.isEmpty_iff.1 hlarge.1
    rw [if_pos hlarge]
    cases h : s.socket.read n with
    | mk r socket =>
      rw [h] at hr
      cases r with
      | ok bytes =>
        refine ⟨?_, rfl⟩
        show s.input.bytes ++ s.socket.source = bytes ++ (s.input.bytes ++ socket.source)
        rw [hnil, hr, List.nil_append, List.nil_append]
      | error kind => exact ⟨hr, rfl, rfl⟩
  · rw [if_neg hlarge]
    cases h : s.fill with
    | mk r x =>
      rw [h] at hhands hshown hheld
      cases r with
      | error kind => exact hheld kind rfl
      | ok bytes =>
        rw [← hshown bytes rfl]
        exact hhands.trans (consume_hands x n)

/-! ## The writer's calls -/

theorem flushWithin_holds : ∀ (fuel : Nat) (s : Stream ω), s.Holds (s.flushWithin fuel).2
  | 0, s => .refl s
  | fuel + 1, s => by
    have hw := s.socket.source_write s.output.bytes
    have hwrote : ∀ {socket : Endpoint ω} (output : Buffer), socket.source = s.socket.source →
        s.Holds { s with socket, output } := fun _ h => ⟨h, rfl, rfl⟩
    unfold flushWithin
    split
    · exact .refl s
    · split
      · next h =>
        rw [h] at hw
        exact hwrote s.output hw
      · next n socket h =>
        rw [h] at hw
        exact (hwrote (s.output.advance (n + 1)) hw).trans (flushWithin_holds fuel _)
      · next h =>
        rw [h] at hw
        exact (hwrote s.output hw).trans (flushWithin_holds fuel _)
      · next h =>
        rw [h] at hw
        exact hwrote s.output hw

theorem flushBuffer_holds (s : Stream ω) : s.Holds s.flushBuffer.2 := flushWithin_holds _ s

theorem flush_holds (s : Stream ω) : s.Holds s.flush.2 := by
  have hb := s.flushBuffer_holds
  unfold flush
  split
  · next h =>
    rw [h] at hb
    exact hb
  · next x h =>
    rw [h] at hb
    exact hb.trans ⟨x.socket.source_perform .flush, rfl, rfl⟩

theorem write_holds (s : Stream ω) (bytes : Bytes) : s.Holds (s.write bytes).2 := by
  have hcleared : s.Holds (if s.writeSize < s.output.length + bytes.length then s.flushBuffer
      else (.ok (), s)).2 := by
    split
    · exact s.flushBuffer_holds
    · exact .refl s
  unfold write
  simp only
  generalize (if s.writeSize < s.output.length + bytes.length then s.flushBuffer
    else (.ok (), s)) = cleared at hcleared
  obtain ⟨r, x⟩ := cleared
  have hw := x.socket.source_write bytes
  cases r with
  | error kind => exact hcleared
  | ok _ =>
    simp only
    split
    · split
      · next h =>
        rw [h] at hw
        exact hcleared.trans ⟨hw, rfl, rfl⟩
      · next h =>
        rw [h] at hw
        exact hcleared.trans ⟨hw, rfl, rfl⟩
    · exact hcleared.trans ⟨rfl, rfl, rfl⟩

theorem close_holds (s : Stream ω) : s.Holds s.close.2 := by
  have hf := s.flush_holds
  have hc : s.flush.2.Holds { s.flush.2 with socket := s.flush.2.socket.close.2 } :=
    ⟨s.flush.2.socket.source_perform .close, rfl, rfl⟩
  unfold close
  simp only
  split <;> exact hf.trans hc

end Stream

end LinkEngine

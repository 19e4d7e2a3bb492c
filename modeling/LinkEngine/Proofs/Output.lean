import LinkEngine.Link.Script

/-!
# Where the bytes go that are written

What is handed in to a stream lies in its buffer until the socket takes it. Both
together are what the stream was given (`Stream.produced`), and whatever is done with a
stream, that only grows, by the bytes a write takes, in their order (`Takes`). A flush
that works leaves nothing in the buffer (`output_flush`): it is tried until the socket
took everything, and the bound on the attempts is never what ends it.
-/

namespace LinkEngine

open Text (Bytes)

namespace Socket.Endpoint

variable {ω : Type} {e d : Endpoint ω} {c : Call} {f : Option IoKind}

/-- How many failures of writes the script still has. -/
def writeFailures (e : Endpoint ω) : Nat := (e.failures.get .write).length

theorem sent_enter (e : Endpoint ω) (c : Call) : (e.enter c).2.sent = e.sent := by
  unfold enter
  simp only
  split <;> rfl

private theorem sent_of_enter (h : e.enter c = (f, d)) : d.sent = e.sent := by
  have := e.sent_enter c
  rwa [h] at this

/-- A failure is taken off the script. -/
private theorem writeFailures_of_enter (h : e.enter .write = (f, d)) :
    d.writeFailures + (if f.isSome then 1 else 0) ≤ e.writeFailures := by
  unfold enter at h
  simp only at h
  split at h <;> cases h
  · exact Nat.le_refl _
  · next rest hf =>
    have hd : writeFailures { e with
        calls := e.calls.set .write (e.calls.get .write + 1)
        failures := e.failures.set .write rest } = rest.length := by
      simp only [writeFailures, PerCall.get_set, if_true]
    have he : e.writeFailures = rest.length + 1 := congrArg List.length hf
    rw [hd, he]
    split <;> omega

theorem sent_read (e : Endpoint ω) (space : Nat) : (e.read space).2.sent = e.sent := by
  unfold read
  split
  · next h => exact sent_of_enter h
  · next e' h =>
    have he := sent_of_enter h
    split <;> exact he

/-- A write takes bytes from the front, or uses up a failure of the script. -/
theorem write_spec (e : Endpoint ω) (bytes : Bytes) :
    match e.write bytes with
    | (.ok n, d) => n ≤ bytes.length ∧ d.sent = e.sent ++ bytes.take n ∧
        d.writeFailures ≤ e.writeFailures
    | (.error _, d) => d.sent = e.sent ∧ d.writeFailures < e.writeFailures := by
  unfold write
  cases h : e.enter .write with
  | mk f d =>
    have hsent := sent_of_enter h
    have hfailures := writeFailures_of_enter h
    cases f with
    | some kind => exact ⟨hsent, hfailures⟩
    | none =>
      refine ⟨Nat.min_le_left _ _, ?_, hfailures⟩
      rw [← hsent]

theorem sent_perform (e : Endpoint ω) (c : Call) : (e.perform c).2.sent = e.sent := by
  unfold perform
  split <;> next h => exact sent_of_enter h

theorem sent_setReadTimeout (e : Endpoint ω) (millis : Nat) :
    (e.setReadTimeout millis).2.sent = e.sent := by
  have hp := e.sent_perform .setReadTimeout
  unfold setReadTimeout
  split
  · next h =>
    rw [h] at hp
    exact hp
  · next h =>
    rw [h] at hp
    exact hp

private theorem sent_claim (e : Endpoint ω) : e.claim.2.sent = e.sent := by
  unfold claim
  split <;> rfl

theorem sent_poll (e : Endpoint ω) : e.poll.2.sent = e.sent := by
  unfold poll
  split
  · next h => exact sent_of_enter h
  · next e' h => exact (sent_claim e').trans (sent_of_enter h)

theorem sent_wait (e : Endpoint ω) : e.wait.2.sent = e.sent := by
  unfold wait
  split
  · next h => exact sent_of_enter h
  · next e' h =>
    have he := (sent_claim e').trans (sent_of_enter h)
    split
    · next hc =>
      rw [hc] at he
      exact he
    · next hc =>
      rw [hc] at he
      exact he
    · next hc =>
      rw [hc] at he
      split
      · split <;> exact he
      · simp only
        split <;> exact he

end Socket.Endpoint

namespace Stream

variable {ω : Type} {s t u : Stream ω} {more : Bytes}

/-- What was handed in and taken: what the socket took, and then what lies in the
buffer. -/
def produced (s : Stream ω) : Bytes := s.socket.sent ++ s.output.bytes

/-- The stream was handed these bytes, and took them. -/
structure Takes (s t : Stream ω) (more : Bytes) : Prop where
  produced : t.produced = s.produced ++ more
  written : t.bytesWritten = s.bytesWritten + more.length

/-- What was handed in to the stream meanwhile it took. -/
def Used (s t : Stream ω) : Prop := ∃ more, s.Takes t more

/-- Nothing was handed in, and the buffer was not flushed. -/
structure Quiet (s t : Stream ω) : Prop where
  sent : t.socket.sent = s.socket.sent
  output : t.output.bytes = s.output.bytes
  written : t.bytesWritten = s.bytesWritten

theorem Quiet.refl (s : Stream ω) : s.Quiet s := ⟨rfl, rfl, rfl⟩

theorem Quiet.trans (h₁ : s.Quiet t) (h₂ : t.Quiet u) : s.Quiet u :=
  ⟨h₂.sent.trans h₁.sent, h₂.output.trans h₁.output, h₂.written.trans h₁.written⟩

theorem Quiet.takes (h : s.Quiet t) : s.Takes t [] := by
  refine ⟨?_, h.written⟩
  rw [Stream.produced, h.sent, h.output, List.append_nil, Stream.produced]

theorem Takes.trans {more' : Bytes} (h₁ : s.Takes t more) (h₂ : t.Takes u more') :
    s.Takes u (more ++ more') := by
  refine ⟨?_, ?_⟩
  · rw [h₂.produced, h₁.produced, List.append_assoc]
  · rw [h₂.written, h₁.written, List.length_append, Nat.add_assoc]

theorem Quiet.used (h : s.Quiet t) : s.Used t := ⟨[], h.takes⟩

theorem Used.refl (s : Stream ω) : s.Used s := (Quiet.refl s).used

theorem Used.trans (h₁ : s.Used t) (h₂ : t.Used u) : s.Used u := by
  obtain ⟨more, h₁⟩ := h₁
  obtain ⟨more', h₂⟩ := h₂
  exact ⟨more ++ more', h₁.trans h₂⟩

/-- Everything the stream had taken, and these bytes that it took since, were handed to
the socket. -/
structure Delivers (s t : Stream ω) (more : Bytes) : Prop where
  sent : t.socket.sent = s.produced ++ more
  output : t.output.bytes = []
  written : t.bytesWritten = s.bytesWritten + more.length

theorem Takes.delivers (h : s.Takes t more) (ho : t.output.bytes = []) : s.Delivers t more := by
  refine ⟨?_, ho, h.written⟩
  have hp := h.produced
  rwa [Stream.produced, ho, List.append_nil] at hp

theorem Delivers.takes (h : s.Delivers t more) : s.Takes t more := by
  refine ⟨?_, h.written⟩
  rw [Stream.produced, h.sent, h.output, List.append_nil]

theorem Quiet.delivers (h : s.Quiet t) (ht : t.Delivers u more) : s.Delivers u more := by
  have hp : t.produced = s.produced := by
    rw [Stream.produced, h.sent, h.output, Stream.produced]
  exact ⟨hp ▸ ht.sent, ht.output, h.written ▸ ht.written⟩

/-! ## Input -/

theorem poll_quiet (s : Stream ω) : s.Quiet s.poll.2 := by
  unfold poll
  split
  · exact .refl s
  · exact ⟨s.socket.sent_poll, rfl, rfl⟩

theorem wait_quiet (s : Stream ω) : s.Quiet s.wait.2 := by
  unfold wait
  split
  · exact .refl s
  · exact ⟨s.socket.sent_wait, rfl, rfl⟩

theorem fill_quiet (s : Stream ω) : s.Quiet s.fill.2 := by
  have hr := s.socket.sent_read s.readSize
  unfold fill
  split
  · exact .refl s
  · split
    · next h =>
      rw [h] at hr
      exact ⟨hr, rfl, rfl⟩
    · next h =>
      rw [h] at hr
      exact ⟨hr, rfl, rfl⟩

theorem consume_quiet (s : Stream ω) (n : Nat) : s.Quiet (s.consume n) := ⟨rfl, rfl, rfl⟩

theorem read_quiet (s : Stream ω) (n : Nat) : s.Quiet (s.read n).2 := by
  have hr := s.socket.sent_read n
  have hf := s.fill_quiet
  unfold read
  split
  · split
    · next h =>
      rw [h] at hr
      exact ⟨hr, rfl, rfl⟩
    · next h =>
      rw [h] at hr
      exact ⟨hr, rfl, rfl⟩
  · split
    · next h =>
      rw [h] at hf
      exact hf
    · next h =>
      rw [h] at hf
      exact hf.trans (consume_quiet _ n)

theorem readExactWithin_quiet :
    ∀ (fuel : Nat) (s : Stream ω) (missing : Nat) (got : Bytes),
      s.Quiet (s.readExactWithin missing got fuel).2
  | 0, s, missing, got => .refl s
  | fuel + 1, s, missing, got => by
    have hr := s.read_quiet missing
    unfold readExactWithin
    split
    · exact .refl s
    · split
      · next h =>
        rw [h] at hr
        exact hr
      · next h =>
        rw [h] at hr
        exact hr.trans (readExactWithin_quiet fuel _ _ _)
      · next h =>
        rw [h] at hr
        exact hr.trans (readExactWithin_quiet fuel _ _ _)
      · next h =>
        rw [h] at hr
        exact hr

theorem readUntilWithin_quiet :
    ∀ (fuel : Nat) (s : Stream ω) (got : Bytes), s.Quiet (s.readUntilWithin got fuel).2.2
  | 0, s, got => .refl s
  | fuel + 1, s, got => by
    have hf := s.fill_quiet
    unfold readUntilWithin
    split
    · next h =>
      rw [h] at hf
      exact hf.trans (readUntilWithin_quiet fuel _ _)
    · next h =>
      rw [h] at hf
      exact hf
    · next h =>
      rw [h] at hf
      split
      · exact hf.trans (consume_quiet _ _)
      · split
        · exact hf
        · exact (hf.trans (consume_quiet _ _)).trans (readUntilWithin_quiet fuel _ _)

theorem readLine_quiet (s : Stream ω) : s.Quiet s.readLine.2 := by
  have hr := readUntilWithin_quiet s.readFuel s []
  unfold readLine
  split
  · next h =>
    rw [h] at hr
    exact hr
  · next h =>
    rw [h] at hr
    split <;> exact hr

/-! ## Output -/

/-- Handing the buffer to the socket moves bytes from the one to the other. With
enough attempts nothing is left where it works. -/
theorem flushWithin_spec :
    ∀ (fuel : Nat) (s : Stream ω), s.Takes (s.flushWithin fuel).2 [] ∧
      ((s.flushWithin fuel).1 = .ok () → s.output.length + s.socket.writeFailures < fuel →
        (s.flushWithin fuel).2.output.bytes = [])
  | 0, s => ⟨(Quiet.refl s).takes, fun _ h => absurd h (Nat.not_lt_zero _)⟩
  | fuel + 1, s => by
    have hw := s.socket.write_spec s.output.bytes
    unfold flushWithin
    split
    · next hempty => exact ⟨(Quiet.refl s).takes, fun _ _ => List.isEmpty_iff.1 hempty⟩
    -- Each attempt takes a byte off the buffer or a failure off the script.
    have hfailed : ∀ {socket : Socket.Endpoint ω}, socket.sent = s.socket.sent →
        s.Takes { s with socket } [] := fun hsent => Quiet.takes ⟨hsent, rfl, rfl⟩
    split
    · next socket h =>
      rw [h] at hw
      obtain ⟨-, hsent, -⟩ := hw
      exact ⟨hfailed (hsent.trans (List.append_nil _)), fun h => nomatch h⟩
    · next n socket h =>
      rw [h] at hw
      obtain ⟨hle, hsent, hfailures⟩ := hw
      have htakes : s.Takes { s with socket, output := s.output.advance (n + 1) } [] := by
        refine ⟨?_, rfl⟩
        show socket.sent ++ s.output.bytes.drop (n + 1) = s.produced ++ []
        rw [hsent, List.append_assoc, List.take_append_drop, List.append_nil]
        rfl
      obtain ⟨hrest, hempty⟩ :=
        flushWithin_spec fuel { s with socket, output := s.output.advance (n + 1) }
      refine ⟨htakes.trans hrest, fun hok hfuel => hempty hok ?_⟩
      have hlength : (s.output.advance (n + 1)).length = s.output.length - (n + 1) :=
        List.length_drop ..
      simp only [hlength]
      have : n + 1 ≤ s.output.length := hle
      omega
    · next socket h =>
      rw [h] at hw
      obtain ⟨hsent, hfailures⟩ := hw
      obtain ⟨hrest, hempty⟩ := flushWithin_spec fuel { s with socket }
      refine ⟨(hfailed hsent).trans hrest, fun hok hfuel => hempty hok ?_⟩
      simp only
      omega
    · next kind socket _ h =>
      rw [h] at hw
      exact ⟨hfailed hw.1, fun h => nomatch h⟩

theorem flushBuffer_takes (s : Stream ω) : s.Takes s.flushBuffer.2 [] :=
  (flushWithin_spec _ s).1

theorem output_flushBuffer (h : s.flushBuffer.1 = .ok ()) : s.flushBuffer.2.output.bytes = [] :=
  (flushWithin_spec _ s).2 h (Nat.lt_succ_self _)

theorem flush_takes (s : Stream ω) : s.Takes s.flush.2 [] := by
  have hb := s.flushBuffer_takes
  unfold flush
  split
  · next h =>
    rw [h] at hb
    exact hb
  · next x h =>
    rw [h] at hb
    exact hb.trans (Quiet.takes ⟨x.socket.sent_perform .flush, rfl, rfl⟩)

/-- **A flush that works leaves nothing in the buffer.** -/
theorem output_flush (h : s.flush.1 = .ok ()) : s.flush.2.output.bytes = [] := by
  unfold flush at h ⊢
  split at h
  · cases h
  · next x hb =>
    have hempty := output_flushBuffer (s := s) (by rw [hb])
    rw [hb] at hempty
    exact hempty

/-- A flush that works hands on what the stream took before. -/
theorem Used.flush (h : s.Used t) (hok : t.flush.1 = .ok ()) :
    ∃ more, s.Delivers t.flush.2 more := by
  obtain ⟨more, h⟩ := h
  have hflush := h.trans t.flush_takes
  rw [List.append_nil] at hflush
  exact ⟨more, hflush.delivers (output_flush hok)⟩

/-- **A write takes bytes from the front**, as many as it answers. -/
theorem write_takes (s : Stream ω) (bytes : Bytes) :
    match s.write bytes with
    | (.ok n, t) => n ≤ bytes.length ∧ s.Takes t (bytes.take n)
    | (.error _, t) => s.Takes t [] := by
  have hcleared : s.Takes (if s.writeSize < s.output.length + bytes.length then s.flushBuffer
      else (.ok (), s)).2 [] := by
    split
    · exact s.flushBuffer_takes
    · exact (Quiet.refl s).takes
  -- Where the buffer would not hold the bytes, it was handed on first.
  have hempty : (if s.writeSize < s.output.length + bytes.length then s.flushBuffer
      else (.ok (), s)).1 = .ok () → (if s.writeSize < s.output.length + bytes.length then
        s.flushBuffer else (.ok (), s)).2.writeSize ≤ bytes.length →
      (if s.writeSize < s.output.length + bytes.length then s.flushBuffer
        else (.ok (), s)).2.output.bytes = [] := by
    split
    · exact fun h _ => output_flushBuffer h
    · intro _ hle
      refine List.eq_nil_of_length_eq_zero ?_
      show s.output.length = 0
      simp only at hle
      omega
  unfold write
  generalize (if s.writeSize < s.output.length + bytes.length then s.flushBuffer
    else (.ok (), s)) = cleared at hcleared hempty ⊢
  obtain ⟨r, x⟩ := cleared
  cases r with
  | error kind => exact hcleared
  | ok _ =>
    dsimp only at hempty ⊢
    by_cases hle : x.writeSize ≤ bytes.length
    · rw [if_pos hle]
      have hw := x.socket.write_spec bytes
      have houtput := hempty rfl hle
      cases h : x.socket.write bytes with
      | mk r socket =>
        rw [h] at hw
        cases r with
        | error kind => exact hcleared.trans (Quiet.takes ⟨hw.1, rfl, rfl⟩)
        | ok n =>
          have htakes : x.Takes { x with socket, bytesWritten := x.bytesWritten + n }
              (bytes.take n) := by
            refine ⟨?_, ?_⟩
            · show socket.sent ++ x.output.bytes = x.socket.sent ++ x.output.bytes ++ bytes.take n
              rw [houtput, List.append_nil, List.append_nil, hw.2.1]
            · rw [List.length_take, Nat.min_eq_left hw.1]
          exact ⟨hw.1, hcleared.trans htakes⟩
    · rw [if_neg hle]
      have htakes : x.Takes { x with
          output := x.output.append bytes
          bytesWritten := x.bytesWritten + bytes.length } bytes := by
        refine ⟨?_, rfl⟩
        show x.socket.sent ++ (x.output.append bytes).bytes = _
        rw [Buffer.bytes_append, ← List.append_assoc]
        rfl
      refine ⟨Nat.le_refl _, ?_⟩
      rw [List.take_length]
      exact hcleared.trans htakes

theorem writeAllWithin_used :
    ∀ (fuel : Nat) (s : Stream ω) (bytes : Bytes), s.Used (s.writeAllWithin bytes fuel).2
  | 0, s, bytes => .refl s
  | fuel + 1, s, bytes => by
    have hw := s.write_takes bytes
    unfold writeAllWithin
    split
    · exact .refl s
    · split
      · next h =>
        rw [h] at hw
        exact ⟨_, hw.2⟩
      · next h =>
        rw [h] at hw
        exact Used.trans ⟨_, hw.2⟩ (writeAllWithin_used fuel _ _)
      · next h =>
        rw [h] at hw
        exact Used.trans ⟨_, hw⟩ (writeAllWithin_used fuel _ _)
      · next h =>
        rw [h] at hw
        exact ⟨_, hw⟩

theorem writeAll_used (s : Stream ω) (bytes : Bytes) : s.Used (s.writeAll bytes).2 :=
  writeAllWithin_used _ s bytes

theorem close_takes (s : Stream ω) : s.Takes s.close.2 [] := by
  have hf := s.flush_takes
  have hc : s.flush.2.Takes { s.flush.2 with socket := s.flush.2.socket.close.2 } [] :=
    Quiet.takes ⟨s.flush.2.socket.sent_perform .close, rfl, rfl⟩
  unfold close
  simp only
  split <;> exact hf.trans hc

/-- Whatever call is made, a stream took what it was handed. -/
theorem transfer_used (s : Stream ω) (t : Transfer) : s.Used (s.transfer t).2 := by
  unfold transfer
  cases t with
  | read n => exact (s.read_quiet n).used
  | readExact n => exact (readExactWithin_quiet _ s n []).used
  | readLine => exact s.readLine_quiet.used
  | fill => exact s.fill_quiet.used
  | consume n => exact (s.consume_quiet n).used
  | write bytes =>
    have hw := s.write_takes bytes
    simp only
    cases h : s.write bytes with
    | mk r x =>
      rw [h] at hw
      cases r with
      | error kind => exact ⟨_, hw⟩
      | ok n => exact ⟨_, hw.2⟩
  | writeAll bytes => exact s.writeAll_used bytes
  | flush => exact ⟨_, s.flush_takes⟩
  | poll => exact s.poll_quiet.used
  | close => exact ⟨_, s.close_takes⟩

end Stream

end LinkEngine

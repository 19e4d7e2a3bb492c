import LinkEngine.Link.Script

/-!
# How often a stream was closed

Each call on a socket is counted. Whatever is done with a stream but to close it
leaves the count of its closings, and to close it adds one, also when that fails.
-/

namespace LinkEngine

open Text (Bytes)

namespace Socket.Endpoint

variable {ω : Type}

/-- How often the connection was closed. -/
def closes (e : Endpoint ω) : Nat := e.calls.close

theorem closes_enter (e : Endpoint ω) (c : Call) :
    (e.enter c).2.closes = if c = .close then e.closes + 1 else e.closes := by
  unfold enter closes
  simp only
  split <;> cases c <;> rfl

private theorem closes_of_enter {e d : Endpoint ω} {c : Call} {f : Option IoKind}
    (h : e.enter c = (f, d)) (hc : c ≠ .close) : d.closes = e.closes := by
  have := closes_enter e c
  rw [h, if_neg hc] at this
  exact this

theorem closes_read (e : Endpoint ω) (space : Nat) : (e.read space).2.closes = e.closes := by
  unfold read
  split
  · next h => exact closes_of_enter h (by decide)
  · next e' h =>
    have he := closes_of_enter h (by decide)
    split <;> exact he

theorem closes_write (e : Endpoint ω) (bytes : Bytes) : (e.write bytes).2.closes = e.closes := by
  unfold write
  split
  · next h => exact closes_of_enter h (by decide)
  · next e' h => exact closes_of_enter (d := e') h (by decide)

theorem closes_perform (e : Endpoint ω) (c : Call) :
    (e.perform c).2.closes = if c = .close then e.closes + 1 else e.closes := by
  rw [← closes_enter]
  unfold perform
  split <;> next h => rw [h]

theorem closes_flush (e : Endpoint ω) : e.flush.2.closes = e.closes :=
  closes_perform e .flush

theorem closes_close (e : Endpoint ω) : e.close.2.closes = e.closes + 1 :=
  closes_perform e .close

theorem closes_setReadTimeout (e : Endpoint ω) (millis : Nat) :
    (e.setReadTimeout millis).2.closes = e.closes := by
  have hp := closes_perform e .setReadTimeout
  unfold setReadTimeout
  split
  · next h =>
    rw [h] at hp
    exact hp
  · next h =>
    rw [h] at hp
    exact hp

private theorem closes_claim (e : Endpoint ω) : e.claim.2.closes = e.closes := by
  unfold claim
  split <;> rfl

theorem closes_poll (e : Endpoint ω) : e.poll.2.closes = e.closes := by
  unfold poll
  split
  · next h => exact closes_of_enter h (by decide)
  · next e' h => exact (closes_claim e').trans (closes_of_enter h (by decide))

theorem closes_wait (e : Endpoint ω) : e.wait.2.closes = e.closes := by
  unfold wait
  split
  · next h => exact closes_of_enter h (by decide)
  · next e' h =>
    have he := (closes_claim e').trans (closes_of_enter h (by decide))
    split
    · next hc =>
      rw [hc] at he
      exact he
    · next hc =>
      rw [hc] at he
      exact he
    · next hc =>
      rw [hc] at he
      split
      · split <;> exact he
      · simp only
        split <;> exact he

end Socket.Endpoint

namespace Stream

variable {ω : Type}

/-- How often the stream was closed. -/
def closes (s : Stream ω) : Nat := s.socket.closes

theorem closes_poll (s : Stream ω) : s.poll.2.closes = s.closes := by
  unfold poll
  split
  · rfl
  · exact s.socket.closes_poll

theorem closes_wait (s : Stream ω) : s.wait.2.closes = s.closes := by
  unfold wait
  split
  · rfl
  · exact s.socket.closes_wait

theorem closes_fill (s : Stream ω) : s.fill.2.closes = s.closes := by
  have hr := s.socket.closes_read s.readSize
  unfold fill
  split
  · rfl
  · split
    · next h =>
      rw [h] at hr
      exact hr
    · next h =>
      rw [h] at hr
      exact hr

theorem closes_read (s : Stream ω) (n : Nat) : (s.read n).2.closes = s.closes := by
  have hr := s.socket.closes_read n
  have hf := s.closes_fill
  unfold read
  split
  · split
    · next h =>
      rw [h] at hr
      exact hr
    · next h =>
      rw [h] at hr
      exact hr
  · split
    · next h =>
      rw [h] at hf
      exact hf
    · next h =>
      rw [h] at hf
      exact hf

theorem closes_flushWithin : ∀ (fuel : Nat) (s : Stream ω), (s.flushWithin fuel).2.closes = s.closes
  | 0, s => rfl
  | fuel + 1, s => by
    have hw := s.socket.closes_write s.output.bytes
    unfold flushWithin
    split
    · rfl
    · split
      · next h =>
        rw [h] at hw
        exact hw
      · next h =>
        rw [h] at hw
        exact (closes_flushWithin fuel _).trans hw
      · next h =>
        rw [h] at hw
        exact (closes_flushWithin fuel _).trans hw
      · next h =>
        rw [h] at hw
        exact hw

theorem closes_flushBuffer (s : Stream ω) : s.flushBuffer.2.closes = s.closes :=
  closes_flushWithin _ s

theorem closes_flush (s : Stream ω) : s.flush.2.closes = s.closes := by
  have hb := s.closes_flushBuffer
  unfold flush
  split
  · next h =>
    rw [h] at hb
    exact hb
  · next h =>
    rw [h] at hb
    exact (Socket.Endpoint.closes_flush _).trans hb

theorem closes_write (s : Stream ω) (bytes : Bytes) : (s.write bytes).2.closes = s.closes := by
  have hc : (if s.writeSize < s.output.length + bytes.length then s.flushBuffer
      else (.ok (), s)).2.closes = s.closes := by
    split
    · exact s.closes_flushBuffer
    · rfl
  unfold write
  simp only
  generalize (if s.writeSize < s.output.length + bytes.length then s.flushBuffer
    else (.ok (), s)) = cleared at hc
  obtain ⟨r, x⟩ := cleared
  have hw := x.socket.closes_write bytes
  cases r with
  | error kind => exact hc
  | ok _ =>
    simp only
    split
    · split
      · next h =>
        rw [h] at hw
        exact hw.trans hc
      · next h =>
        rw [h] at hw
        exact hw.trans hc
    · exact hc

/-- Closing a stream closes its socket once, also where the flush before fails. -/
theorem closes_close (s : Stream ω) : s.close.2.closes = s.closes + 1 := by
  have hf := s.closes_flush
  have hc := Socket.Endpoint.closes_close s.flush.2.socket
  unfold close
  simp only
  split <;> exact hc.trans (congrArg (· + 1) hf)

theorem closes_readExactWithin :
    ∀ (fuel : Nat) (s : Stream ω) (missing : Nat) (got : Bytes),
      (s.readExactWithin missing got fuel).2.closes = s.closes
  | 0, s, missing, got => rfl
  | fuel + 1, s, missing, got => by
    have hr := s.closes_read missing
    unfold readExactWithin
    split
    · rfl
    · split
      · next h =>
        rw [h] at hr
        exact hr
      · next h =>
        rw [h] at hr
        exact (closes_readExactWithin fuel _ _ _).trans hr
      · next h =>
        rw [h] at hr
        exact (closes_readExactWithin fuel _ _ _).trans hr
      · next h =>
        rw [h] at hr
        exact hr

theorem closes_readUntilWithin :
    ∀ (fuel : Nat) (s : Stream ω) (got : Bytes),
      (s.readUntilWithin got fuel).2.2.closes = s.closes
  | 0, s, got => rfl
  | fuel + 1, s, got => by
    have hf := s.closes_fill
    unfold readUntilWithin
    split
    · next h =>
      rw [h] at hf
      exact (closes_readUntilWithin fuel _ _).trans hf
    · next h =>
      rw [h] at hf
      exact hf
    · next h =>
      rw [h] at hf
      split
      · exact hf
      · split
        · exact hf
        · exact (closes_readUntilWithin fuel _ _).trans hf

theorem closes_readLine (s : Stream ω) : s.readLine.2.closes = s.closes := by
  have hr := closes_readUntilWithin s.readFuel s []
  unfold readLine
  split
  · next h =>
    rw [h] at hr
    exact hr
  · next h =>
    rw [h] at hr
    split <;> exact hr

theorem closes_writeAllWithin :
    ∀ (fuel : Nat) (s : Stream ω) (bytes : Bytes),
      (s.writeAllWithin bytes fuel).2.closes = s.closes
  | 0, s, bytes => rfl
  | fuel + 1, s, bytes => by
    have hw := s.closes_write bytes
    unfold writeAllWithin
    split
    · rfl
    · split
      · next h =>
        rw [h] at hw
        exact hw
      · next h =>
        rw [h] at hw
        exact (closes_writeAllWithin fuel _ _).trans hw
      · next h =>
        rw [h] at hw
        exact (closes_writeAllWithin fuel _ _).trans hw
      · next h =>
        rw [h] at hw
        exact hw

theorem closes_writeAll (s : Stream ω) (bytes : Bytes) : (s.writeAll bytes).2.closes = s.closes :=
  closes_writeAllWithin _ s bytes

/-- No call but to close it closes a stream. -/
theorem closes_transfer (s : Stream ω) (t : Transfer) (ht : t ≠ .close) :
    (s.transfer t).2.closes = s.closes := by
  unfold transfer
  cases t with
  | read n => exact s.closes_read n
  | readExact n => exact closes_readExactWithin _ s n []
  | readLine => exact s.closes_readLine
  | fill => exact s.closes_fill
  | consume n => rfl
  | write bytes => exact s.closes_write bytes
  | writeAll bytes => exact s.closes_writeAll bytes
  | flush => exact s.closes_flush
  | poll => exact s.closes_poll
  | close => exact absurd rfl ht

end Stream

end LinkEngine

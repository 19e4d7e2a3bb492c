import LinkEngine.Connection.Stats
import LinkEngine.Proofs.Calls
import LinkEngine.Proofs.Exchanges

/-!
# The bytes a stream moved

A stream counts the bytes that its user consumed and those it was handed in, one count for
each direction (`Stream.moved`). Whole transfers are rows of single calls
(`Stream.Reaches`), so the counts are the numbers of the bytes that were handed to the
reader and of those that were reported as taken. Flushing, waiting, closing and giving the
buffers away move none, and nothing that others do to a link does (`Link.Unmoved`).
-/

namespace LinkEngine

open Connection (CloseReason Counter)
open Text (Bytes)

/-- The two ways that bytes go. -/
inductive Direction where
  | inward
  | outward
  deriving DecidableEq, Repr

/-- The counter of a listener for the bytes of a direction. -/
def Direction.counter : Direction → Counter
  | .inward => .bytesRead
  | .outward => .bytesWritten

namespace Stream

variable {ω : Type} {s t u : Stream ω} {d : Direction}

/-- How many bytes the stream counted in a direction. -/
def moved (s : Stream ω) : Direction → Nat
  | .inward => s.bytesRead
  | .outward => s.bytesWritten

/-- The bytes that calls handed to the reader, or reported as taken. -/
def passed (s : Stream ω) (calls : List Call) : Direction → Bytes
  | .inward => s.handed calls
  | .outward => s.accepted calls

/-- Some calls lead from the one stream to the other. -/
def Reaches (s t : Stream ω) : Prop := ∃ calls, t = s.follow calls

/-- **Calls are counted by what they passed on.** -/
theorem moved_follow (s : Stream ω) (calls : List Call) (d : Direction) :
    (s.follow calls).moved d = s.moved d + (s.passed calls d).length := by
  cases d with
  | inward => exact (s.follow_hands calls).count
  | outward => exact (s.follow_takes calls).written

theorem follow_append (s : Stream ω) (calls more : List Call) :
    s.follow (calls ++ more) = (s.follow calls).follow more := by
  induction calls generalizing s with
  | nil => rfl
  | cons c cs ih => exact ih (s.call c).2

theorem Reaches.refl (s : Stream ω) : s.Reaches s := ⟨[], rfl⟩

theorem Reaches.trans (h₁ : s.Reaches t) (h₂ : t.Reaches u) : s.Reaches u := by
  obtain ⟨calls, rfl⟩ := h₁
  obtain ⟨more, rfl⟩ := h₂
  exact ⟨calls ++ more, (s.follow_append calls more).symm⟩

theorem Reaches.call (s : Stream ω) (c : Call) : s.Reaches (s.call c).2 := ⟨[c], rfl⟩

/-- No call takes back what was counted. -/
theorem Reaches.moved_le (h : s.Reaches t) (d : Direction) : s.moved d ≤ t.moved d := by
  obtain ⟨calls, rfl⟩ := h
  rw [moved_follow]
  exact Nat.le_add_right ..

/-! ## Transfers -/

theorem readExactWithin_reaches : ∀ (fuel : Nat) (s : Stream ω) (missing : Nat) (got : Bytes),
    s.Reaches (s.readExactWithin missing got fuel).2
  | 0, s, _, _ => .refl s
  | fuel + 1, s, missing, got => by
    have hread : s.Reaches (s.read missing).2 := .call s (.read missing)
    unfold readExactWithin
    split
    · exact .refl s
    split
    · next h =>
      rw [h] at hread
      exact hread
    · next h =>
      rw [h] at hread
      exact hread.trans (readExactWithin_reaches fuel _ _ _)
    · next h =>
      rw [h] at hread
      exact hread.trans (readExactWithin_reaches fuel _ _ _)
    · next h =>
      rw [h] at hread
      exact hread

theorem readUntilWithin_reaches : ∀ (fuel : Nat) (s : Stream ω) (got : Bytes),
    s.Reaches (s.readUntilWithin got fuel).2.2
  | 0, s, _ => .refl s
  | fuel + 1, s, got => by
    have hfill : s.Reaches s.fill.2 := .call s .fill
    have hconsume : ∀ (x : Stream ω) (n : Nat), x.Reaches (x.consume n) := fun x n =>
      .call x (.consume n)
    unfold readUntilWithin
    split
    · next h =>
      rw [h] at hfill
      exact hfill.trans (readUntilWithin_reaches fuel _ _)
    · next h =>
      rw [h] at hfill
      exact hfill
    · next h =>
      rw [h] at hfill
      split
      · exact hfill.trans (hconsume _ _)
      · split
        · exact hfill
        · exact (hfill.trans (hconsume _ _)).trans (readUntilWithin_reaches fuel _ _)

theorem readLine_reaches (s : Stream ω) : s.Reaches s.readLine.2 := by
  have hread := readUntilWithin_reaches s.readFuel s []
  unfold readLine
  split
  · next h =>
    rw [h] at hread
    exact hread
  · next h =>
    rw [h] at hread
    split <;> exact hread

theorem writeAllWithin_reaches : ∀ (fuel : Nat) (s : Stream ω) (bytes : Bytes),
    s.Reaches (s.writeAllWithin bytes fuel).2
  | 0, s, _ => .refl s
  | fuel + 1, s, bytes => by
    have hwrite : s.Reaches (s.write bytes).2 := .call s (.write bytes)
    unfold writeAllWithin
    split
    · exact .refl s
    split
    · next h =>
      rw [h] at hwrite
      exact hwrite
    · next h =>
      rw [h] at hwrite
      exact hwrite.trans (writeAllWithin_reaches fuel _ _)
    · next h =>
      rw [h] at hwrite
      exact hwrite.trans (writeAllWithin_reaches fuel _ _)
    · next h =>
      rw [h] at hwrite
      exact hwrite

theorem writeAll_reaches (s : Stream ω) (bytes : Bytes) : s.Reaches (s.writeAll bytes).2 :=
  writeAllWithin_reaches _ s bytes

/-- **A transfer is a row of calls.** -/
theorem transfer_reaches (s : Stream ω) (t : Transfer) : s.Reaches (s.transfer t).2 := by
  cases t with
  | read n => exact .call s (.read n)
  | readExact n => exact readExactWithin_reaches s.readFuel s n []
  | readLine => exact s.readLine_reaches
  | fill => exact .call s .fill
  | consume n => exact .call s (.consume n)
  | write bytes => exact .call s (.write bytes)
  | writeAll bytes => exact s.writeAll_reaches bytes
  | flush => exact .call s .flush
  | poll => exact .call s .poll
  | close => exact .call s .close

theorem echoLine_reaches (s : Stream Operation) : s.Reaches (Engine.echoLine s).2 := by
  have hread := s.readLine_reaches
  unfold Engine.echoLine
  split
  · next h =>
    rw [h] at hread
    exact hread
  · next h =>
    rw [h] at hread
    exact hread
  · next text x _ h =>
    rw [h] at hread
    have hwrite := x.writeAll_reaches (Text.encode text)
    dsimp only
    split
    · next h =>
      rw [h] at hwrite
      exact hread.trans hwrite
    · next h =>
      rw [h] at hwrite
      exact hread.trans hwrite

/-! ## What moves none -/

theorem moved_of_holds (hr : s.Holds t) (hw : s.Takes t []) (d : Direction) :
    t.moved d = s.moved d := by
  cases d with
  | inward => exact hr.count
  | outward => exact hw.written

@[simp] theorem moved_poll (s : Stream ω) : s.poll.2.moved d = s.moved d :=
  moved_of_holds s.poll_holds s.poll_quiet.takes d

@[simp] theorem moved_wait (s : Stream ω) : s.wait.2.moved d = s.moved d :=
  moved_of_holds s.wait_holds s.wait_quiet.takes d

@[simp] theorem moved_flush (s : Stream ω) : s.flush.2.moved d = s.moved d :=
  moved_of_holds s.flush_holds s.flush_takes d

@[simp] theorem moved_close (s : Stream ω) : s.close.2.moved d = s.moved d :=
  moved_of_holds s.close_holds s.close_takes d

@[simp] theorem moved_takeBuffers (s : Stream ω) : s.takeBuffers.2.moved d = s.moved d := by
  cases d <;> rfl

@[simp] theorem moved_withSocket (s : Stream ω) (f : Socket.Endpoint ω → Socket.Endpoint ω) :
    (s.withSocket f).moved d = s.moved d := by
  cases d <;> rfl

end Stream

/-! ## Links -/

namespace Link

variable {k k' k'' : Link}

/-- It is of the same listener, and its stream moved no bytes. -/
structure Unmoved (k k' : Link) : Prop where
  listener : k'.listener = k.listener
  moved : ∀ d, k'.stream.moved d = k.stream.moved d

theorem Unmoved.refl (k : Link) : k.Unmoved k := ⟨rfl, fun _ => rfl⟩

theorem Unmoved.trans (h₁ : k.Unmoved k') (h₂ : k'.Unmoved k'') : k.Unmoved k'' :=
  ⟨h₂.listener.trans h₁.listener, fun d => (h₂.moved d).trans (h₁.moved d)⟩

theorem Unmoved.of (hl : k'.listener = k.listener) (hs : k'.stream = k.stream) : k.Unmoved k' :=
  ⟨hl, fun d => by rw [hs]⟩

theorem unmoved_interrupt (k : Link) : k.Unmoved k.interrupt := by
  unfold interrupt
  split
  · exact ⟨rfl, fun _ => Stream.moved_withSocket ..⟩
  · exact .refl k

theorem unmoved_disarmed (k : Link) : k.Unmoved k.disarmed := by
  unfold disarmed
  split <;> exact .of rfl rfl

theorem unmoved_marked (k : Link) (reason : CloseReason) : k.Unmoved (k.marked reason) := by
  have hclosed : k.Unmoved { k with closed := true, closeReason := some reason } := .of rfl rfl
  exact (hclosed.trans (unmoved_disarmed _)).trans (.of rfl rfl)

theorem unmoved_gone (k : Link) : k.Unmoved k.gone :=
  ⟨rfl, fun _ => (Stream.moved_takeBuffers _).trans (Stream.moved_close _)⟩

theorem Touched.unmoved (h : k.Touched k') : k.Unmoved k' := by
  cases h with
  | socket hf => exact ⟨rfl, fun _ => Stream.moved_withSocket ..⟩
  | asked =>
    refine .trans ?_ (unmoved_interrupt _)
    exact .of rfl rfl
  | _ => exact .of rfl rfl

theorem Handed.unmoved (h : k.Handed k') : k.Unmoved k' := by
  cases h <;> exact .of rfl rfl

theorem Seized.unmoved {reason : CloseReason} (h : k.Seized reason k') : k.Unmoved k' := by
  cases h <;> exact .of rfl rfl

end Link

namespace Stand

variable {v w : Stand} {o : Link.Outcome} {reason : CloseReason}

/-- **Nothing that others do to a link moves bytes.** -/
theorem Course.unmoved (h : Course v w) : v.link.Unmoved w.link :=
  h.induction (P := fun k => v.link.Unmoved k) (fun h hk => hk.trans h.unmoved)
    (fun h hk => hk.trans h.unmoved)
    (fun h hk => hk.trans (h.unmoved.trans (Link.unmoved_marked _ _)))
    (fun _ hk => hk.trans (Link.unmoved_gone _)) (.refl _)

theorem TornDown.unmoved (h : TornDown reason v w) : v.link.Unmoved w.link := by
  cases h with
  | before => exact .refl _
  | now hc hook =>
    exact ((Link.unmoved_marked _ _).trans hook.unmoved).trans (Link.unmoved_gone _)

/-- Carrying out what a step decided moves none either. -/
theorem Concluded.unmoved (h : Concluded v o w) : v.link.Unmoved w.link := by
  have hnext : ∀ (u : Stand) step, u.link.Unmoved (u.next step).link := fun _ _ => .of rfl rfl
  cases h with
  | next | park => exact hnext v _
  | close ht => exact ht.unmoved.trans (hnext _ _)
  | fail _ _ h _ ht => exact h.unmoved.trans (ht.unmoved.trans (hnext _ _))
  | panic ht => exact ht.unmoved.trans (hnext _ _)

end Stand

end LinkEngine

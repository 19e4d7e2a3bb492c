import LinkEngine.Proofs.Bytes
import LinkEngine.Proofs.Hooks
import LinkEngine.Proofs.Leaving

/-!
# One round of a two-way stream

The task of a two-way stream waits for input, has the handler serve it, and waits again. What
the stream shows to the handler is its task's to write, but that the handler may end it: others
leave it as it is, and do not wait for input in the task's place (`Course.unserved`). So a wait
leaves what is shown (`wait_passes`), and a call for the bytes, if it returned and was flushed,
came to one of three things, by whether it ended the stream and whether it consumed a byte
(`Round`, `service_round`).
-/

namespace LinkEngine

open Connection (CloseReason)
open Link (Duplex Ending Note Outcome Step Upgrades)
open Socket (Call Endpoint)

/-! ## How often a socket was waited on -/

namespace Socket.Endpoint

variable {ω : Type} {c d : Call}

theorem calls_enter_of_ne (e : Endpoint ω) (h : c ≠ d) :
    (e.enter c).2.calls.get d = e.calls.get d := by
  unfold enter
  simp only
  split <;> exact (PerCall.get_set ..).trans (if_neg h)

theorem calls_write_of_ne (e : Endpoint ω) (bytes : Text.Bytes) (h : .write ≠ d) :
    (e.write bytes).2.calls.get d = e.calls.get d := by
  have he := e.calls_enter_of_ne h
  unfold write
  split
  · next h =>
    rw [h] at he
    exact he
  · next h =>
    rw [h] at he
    exact he

theorem calls_perform_of_ne (e : Endpoint ω) (h : c ≠ d) :
    (e.perform c).2.calls.get d = e.calls.get d := by
  have he := e.calls_enter_of_ne h
  unfold perform
  split <;> next h => rwa [h] at he

end Socket.Endpoint

namespace Stream

variable {ω : Type}

/-- How often the socket was waited on for input. -/
def pauses (s : Stream ω) : Nat := s.socket.calls.get .wait

theorem pauses_flushWithin : ∀ (fuel : Nat) (s : Stream ω), (s.flushWithin fuel).2.pauses = s.pauses
  | 0, _ => rfl
  | fuel + 1, s => by
    have hw := s.socket.calls_write_of_ne s.output.bytes (d := .wait) (by decide)
    unfold flushWithin
    split
    · rfl
    · split
      · next h =>
        rw [h] at hw
        exact hw
      · next h =>
        rw [h] at hw
        exact (pauses_flushWithin fuel _).trans hw
      · next h =>
        rw [h] at hw
        exact (pauses_flushWithin fuel _).trans hw
      · next h =>
        rw [h] at hw
        exact hw

theorem pauses_flush (s : Stream ω) : s.flush.2.pauses = s.pauses := by
  have hb : s.flushBuffer.2.pauses = s.pauses := pauses_flushWithin _ s
  unfold flush
  split
  · next h =>
    rw [h] at hb
    exact hb
  · next x h =>
    rw [h] at hb
    exact (x.socket.calls_perform_of_ne (by decide)).trans hb

theorem pauses_close (s : Stream ω) : s.close.2.pauses = s.pauses := by
  have hc : s.flush.2.socket.close.2.calls.get .wait = s.pauses :=
    (s.flush.2.socket.calls_perform_of_ne (by decide)).trans s.pauses_flush
  unfold close
  simp only
  split <;> exact hc

/-- What lies in the buffer spares the socket a wait. -/
theorem pauses_wait (s : Stream ω) (h : s.input.isEmpty = true) :
    s.wait.2.pauses = s.pauses + 1 := by
  unfold wait
  rw [if_neg (by rw [h]; decide)]
  exact s.socket.calls_wait

end Stream

/-! ## What others leave -/

namespace Link

variable {k k' k'' : Link} {reason : CloseReason}

/-- Its two-way stream shows what it showed, and was not waited on. -/
structure Unserved (k k' : Link) : Prop where
  duplex : k'.duplex = k.duplex
  pauses : k'.stream.pauses = k.stream.pauses

theorem Unserved.refl (k : Link) : k.Unserved k := ⟨rfl, rfl⟩

theorem Unserved.trans (h₁ : k.Unserved k') (h₂ : k'.Unserved k'') : k.Unserved k'' :=
  ⟨h₂.duplex.trans h₁.duplex, h₂.pauses.trans h₁.pauses⟩

theorem Unserved.of (hd : k'.duplex = k.duplex) (hs : k'.stream = k.stream) : k.Unserved k' :=
  ⟨hd, congrArg Stream.pauses hs⟩

theorem unserved_interrupt (k : Link) : k.Unserved k.interrupt := by
  unfold interrupt
  split
  · exact ⟨rfl, rfl⟩
  · exact .refl k

theorem unserved_marked (k : Link) (reason : CloseReason) : k.Unserved (k.marked reason) := by
  unfold marked shut disarmed
  cases k.deadline <;> exact .of rfl rfl

theorem unserved_gone (k : Link) : k.Unserved k.gone := ⟨rfl, k.stream.pauses_close⟩

theorem Touched.unserved (h : k.Touched k') : k.Unserved k' := by
  cases h with
  | socket hf => exact ⟨rfl, congrArg (·.get .wait) (hf.untouched k.stream.socket).1⟩
  | asked =>
    refine .trans ?_ (unserved_interrupt _)
    exact .of rfl rfl
  | _ => exact .of rfl rfl

theorem Handed.unserved (h : k.Handed k') : k.Unserved k' := by
  cases h <;> exact .of rfl rfl

theorem Seized.unserved (h : k.Seized reason k') : k.Unserved k' := by
  cases h <;> exact .of rfl rfl

/-- The two-way stream shows this, and may have been ended. -/
def Shows (k : Link) (d : Duplex) : Prop := ∃ ended, k.duplex = some { d with closed := ended }

theorem Shows.unserved {d : Duplex} (hk : k.Shows d) (h : k.Unserved k') : k'.Shows d := by
  obtain ⟨ended, hd⟩ := hk
  exact ⟨ended, h.duplex.trans hd⟩

/-- Of what hooks do, only ending the stream shows. -/
theorem Shows.acted {d : Duplex} {upgrades : Upgrades} (hk : k.Shows d)
    (h : k.Acted upgrades k') : k'.Shows d := by
  obtain ⟨ended, hd⟩ := hk
  cases h with
  | twoWay hd' =>
    rw [hd] at hd'
    cases hd'
    exact ⟨true, rfl⟩
  | comet hk =>
    unfold Engine.startComet at hk
    split at hk
    · cases hk
    · split at hk <;> cases hk
      exact ⟨ended, hd⟩
  | duplex hk =>
    unfold Engine.startDuplex at hk
    split at hk <;> cases hk
    exact ⟨ended, hd⟩
  | _ => exact ⟨ended, hd⟩

end Link

namespace Stand

variable {v w u : Stand} {o : Outcome} {reason : CloseReason} {d : Duplex}

/-- **Others neither serve a two-way stream nor wait on it.** -/
theorem Course.unserved (h : Course v w) : v.link.Unserved w.link :=
  h.induction (P := fun k => v.link.Unserved k) (fun h hk => hk.trans h.unserved)
    (fun h hk => hk.trans h.unserved)
    (fun h hk => hk.trans (h.unserved.trans (Link.unserved_marked _ _)))
    (fun _ hk => hk.trans (Link.unserved_gone _)) (.refl _)

theorem TornDown.unserved (h : TornDown reason v w) : v.link.Unserved w.link := by
  cases h with
  | before => exact .refl _
  | now hc hook =>
    exact ((Link.unserved_marked _ _).trans hook.unserved).trans (Link.unserved_gone _)

theorem Concluded.unserved (h : Concluded v o w) : v.link.Unserved w.link := by
  have hnext : ∀ (u : Stand) step, u.link.Unserved (u.next step).link := fun _ _ => .of rfl rfl
  cases h with
  | next | park => exact hnext v _
  | close ht => exact ht.unserved.trans (hnext _ _)
  | fail _ _ h _ ht => exact h.unserved.trans (ht.unserved.trans (hnext _ _))
  | panic ht => exact ht.unserved.trans (hnext _ _)

/-- **While a hook runs the stream shows what it showed**, but that it may be ended. -/
theorem Served.shows {upgrades : Upgrades} (h : Served upgrades v w) (hv : v.link.Shows d) :
    w.link.Shows d := by
  induction h with
  | refl => exact hv
  | course h _ ih => exact ih (hv.unserved h.unserved)
  | acted h _ ih => exact ih (hv.acted h)

theorem Hooked.shows {hook : Hook} {upgrades : Upgrades} {ending : Ending}
    (h : Hooked hook upgrades v ending w) (hv : v.link.Shows d) : w.link.Shows d := by
  obtain ⟨u, hu, rfl⟩ := h
  exact hu.shows (v := v.put _) hv

/-! ## Who closed is asked no more -/

/-- What was asked of a link is settled once that is closed. -/
theorem Course.closeRequest (h : Course v w) (hc : v.link.closed = true) :
    w.link.closeRequest = v.link.closeRequest := by
  refine (h.induction (P := fun k => k.closed = true ∧ k.closeRequest = v.link.closeRequest)
    ?_ ?_ ?_ (fun _ hk => hk) ⟨hc, rfl⟩).2
  · intro k k' h hk
    refine ⟨h.closed.trans hk.1, ?_⟩
    cases h with
    | asked hc => exact nomatch hc.symm.trans hk.1
    | _ => exact hk.2
  · intro k k' h hk
    refine ⟨h.closed.trans hk.1, ?_⟩
    cases h <;> exact hk.2
  · intro k reason k' h hk
    exact nomatch h.open.1.symm.trans hk.1

theorem TornDown.closeRequest (h : TornDown reason v w) :
    w.link.closeRequest = v.link.closeRequest := by
  cases h with
  | before => rfl
  | now hc hook =>
    have hhook := hook.closeRequest (Link.closed_marked v.link reason)
    exact hhook.trans (Link.asked_marked v.link reason).2

theorem Turn.closeRequest (h : Turn v w) (hc : v.link.closed = true) (hs : v.link.step = none) :
    w.link.closeRequest = v.link.closeRequest := by
  cases h with
  | course h => exact h.closeRequest hc
  | begin | idle => rfl
  | doomed hd he hc' => exact nomatch hc'.symm.trans hc
  | step hs' => exact nomatch hs'.symm.trans hs

/-- A link that closes for a reason of its own or for what was asked closes for a third reason
only where that was asked for. -/
theorem closesAs_iff {own named : CloseReason} (h : v.link.ClosesAs own reason)
    (hm : v.link.Matched) (hown : own ≠ named) (hnamed : named ≠ .shutdown) :
    reason = named ↔ v.link.closeRequest = some named := by
  have hrequested : v.link.requestedClose = named ↔ v.link.closeRequest = some named := by
    unfold Link.requestedClose
    cases v.link.closeRequest with
    | none => exact iff_of_false (fun h => hnamed h.symm) nofun
    | some r => exact Option.some_inj.symm
  rcases h with ⟨rfl, hc⟩ | rfl
  · refine iff_of_false hown fun hr => ?_
    have hclosing : v.link.closeRequest.isSome = false := hm.trans hc
    rw [hr] at hclosing
    cases hclosing
  · exact hrequested

/-! ## Waits -/

/-- **A wait leaves what the stream shows, and consumes nothing.** -/
theorem wait_passes {ready idle : Step} {late : CloseReason}
    (h : Plan.wait ready idle late v o w) :
    w.link.duplex = v.link.duplex ∧ w.link.stream.bytesRead = v.link.stream.bytesRead ∧
      (o.isEnd = true ∨ o = .next ready ∨ o = .next idle) := by
  rcases h with ⟨_, -, rfl, rfl⟩ | ⟨-, ⟨rfl, rfl⟩ | ⟨u, hu, h⟩⟩
  · exact ⟨rfl, rfl, .inl rfl⟩
  · exact ⟨rfl, rfl, .inl rfl⟩
  have hu : Course (v.put { v.link with stream := v.link.stream.wait.2 }) u := hu
  have hd : u.link.duplex = v.link.duplex := hu.unserved.duplex
  have hb : u.link.stream.bytesRead = v.link.stream.bytesRead :=
    (hu.unmoved.moved .inward).trans (v.link.stream.moved_wait (d := .inward))
  rcases h with ⟨_, rfl, rfl⟩ | ⟨rfl, rfl⟩ | ⟨rfl, rfl⟩ | ⟨_, -, rfl, rfl⟩
  · exact ⟨hd, hb, .inl rfl⟩
  · exact ⟨hd, hb, .inr (.inl rfl)⟩
  · exact ⟨hd, hb, .inr (.inr rfl)⟩
  · exact ⟨hd, hb, .inl rfl⟩

/-! ## Calls -/

/-- What came of a call for the bytes of a two-way stream that showed `d`. -/
inductive Round (d : Duplex) (v : Stand) : Outcome → Stand → Prop where
  /-- It did not return, or what it wrote was not flushed. -/
  | broke {o : Outcome} {w : Stand} (h : Broke .service v o w) : Round d v o w
  /-- It ended the stream. -/
  | ended {w : Stand} {keep : Bool} {reason : CloseReason}
      (hcalls : w.link.calls = v.link.calls ++ Note.served .service keep)
      (hd : w.link.duplex = some { d with closed := true })
      (hr : w.link.ClosesAs .normal reason) : Round d v (.close reason) w
  /-- It consumed nothing. -/
  | stuck {w : Stand} {keep : Bool}
      (hcalls : w.link.calls = v.link.calls ++ Note.served .service keep)
      (hd : w.link.duplex = some d)
      (hb : w.link.stream.bytesRead ≤ v.link.stream.bytesRead) :
      Round d v (.close .protocolViolation) w
  /-- It consumed something, and that is recorded. -/
  | goes {w : Stand} {keep : Bool} {t : Nat}
      (hcalls : w.link.calls = v.link.calls ++ Note.served .service keep)
      (hd : w.link.duplex =
        some (d.recordRead (w.link.stream.bytesRead - v.link.stream.bytesRead)))
      (hb : v.link.stream.bytesRead < w.link.stream.bytesRead) :
      Round d v (.next (.listen t)) w

theorem Round.hooks (h : Round d v o w) : w.link.hooks = v.link.hooks ++ [.service] := by
  cases h with
  | broke h => exact h.hooks
  | ended hcalls | stuck hcalls | goes hcalls => exact Link.hooks_of_served hcalls

/-- **A call for the bytes of a two-way stream comes to one of these.** -/
theorem service_round (hv : Ready .service v) (hd : v.link.duplex = some d)
    (hc : d.closed = false) (h : Plan.service v o w) : Round d v o w := by
  obtain ⟨hm, hr, hp⟩ := hv.expects
  obtain ⟨machine, hm', ending, u, hu, h⟩ :=
    transition_moves (m := .duplexActive) (by rw [hm]; rfl) h
  have hserving : Serving .none machine.state (v.put { v.link with machine }) :=
    serving_of (v := v.put { v.link with machine }) hv.closed hv.queue hr hp
  obtain ⟨hcalls, -⟩ := hserving.calls hu nofun
  have hmachine : u.link.machine.state = .duplexActive := (hserving.hooked hu).machine.trans hm'
  obtain ⟨ended, hduplex⟩ := hu.shows (d := d) ⟨false, by rw [link_put, hd, ← hc]⟩
  -- The hook returned and was flushed, or this is where it ends.
  cases ending with
  | failed f =>
    obtain ⟨rfl, rfl⟩ := h
    exact .broke ⟨⟨_, hcalls, rfl, nofun⟩, rfl⟩
  | panicked =>
    obtain ⟨rfl, rfl⟩ := h
    exact .broke ⟨⟨_, hcalls, rfl, nofun⟩, rfl⟩
  | returned keep =>
    obtain ⟨stream, ⟨kind, rfl, rfl⟩ | h⟩ := Plan.flush_cases h
    · refine .broke ⟨⟨[.ended .service (.returned keep), .unflushed kind], ?_, rfl, nofun⟩, rfl⟩
      refine (Link.calls_note _ _).trans ?_
      show u.link.calls ++ _ = _
      rw [hcalls]
      exact List.append_assoc ..
    rcases h with ⟨hended, reason, hreason, rfl, rfl⟩ | ⟨hended, hb, rfl, rfl⟩ | ⟨hb, hended, h⟩
    · simp only [link_put, hduplex, Option.getD_some] at hended
      subst hended
      exact .ended hcalls hduplex hreason
    · simp only [link_put, hduplex, Option.getD_some] at hended
      subst hended
      refine .stuck hcalls ?_ (Nat.le_of_sub_eq_zero hb)
      rw [link_put, hduplex, ← hc]
    · simp only [link_put, hduplex, Option.getD_some] at hended
      subst hended
      obtain ⟨machine', -, t, rfl, rfl⟩ := transition_moves (m := .duplex)
        (by show u.link.machine.state.next? _ = _; rw [hmachine]; rfl) h
      refine .goes hcalls ?_ (Nat.lt_of_sub_pos hb)
      simp only [link_put, hduplex, Option.getD_some, ← hc]

end Stand

end LinkEngine

import LinkEngine.Proofs.Ownership

/-!
# What is settled once a link is torn down

The close hook of a link was called as often as the link has a reason to be
closed: never while it is open, and once when it was torn down (`Told`). The
engine closed its socket as often as it gave the link back (`Tallied`). Once a
link is closed nobody gives it another reason, calls another hook or works on its
stream (`Course.settled`), so when its task is over, too, nothing of this ever
changes (`follow_settled`).
-/

namespace LinkEngine

open Connection (CloseReason)
open Link (Entry Note Outcome Step)

/-! ## What a history tells -/

namespace Link

/-- The reason of a teardown that the note tells of. -/
def Note.closing? : Note → Option CloseReason
  | .closing reason => some reason
  | _ => none

/-- The hook of which the note says that it was called. -/
def Note.began? : Note → Option Hook
  | .began hook => some hook
  | _ => none

/-- The reasons for which the close hook was called. -/
def closings (k : Link) : List CloseReason := k.history.filterMap Note.closing?

/-- The other hooks that were called. -/
def hooks (k : Link) : List Hook := k.history.filterMap Note.began?

/-- Nothing happened to a link but what still may happen to one that was torn
down: its reason stays, no hook was called, and the socket was not called, so that
nothing was read, written or closed. -/
structure Settled (k k' : Link) : Prop where
  closed : k'.closed = k.closed
  closeReason : k'.closeReason = k.closeReason
  counted : k'.counted = k.counted
  closings : k'.closings = k.closings
  hooks : k'.hooks = k.hooks
  calls : k'.stream.socket.calls = k.stream.socket.calls
  sent : k'.stream.socket.sent = k.stream.socket.sent

variable {k k' k'' : Link}

theorem Settled.refl (k : Link) : k.Settled k := ⟨rfl, rfl, rfl, rfl, rfl, rfl, rfl⟩

theorem Settled.trans (h₁ : k.Settled k') (h₂ : k'.Settled k'') : k.Settled k'' where
  closed := h₂.closed.trans h₁.closed
  closeReason := h₂.closeReason.trans h₁.closeReason
  counted := h₂.counted.trans h₁.counted
  closings := h₂.closings.trans h₁.closings
  hooks := h₂.hooks.trans h₁.hooks
  calls := h₂.calls.trans h₁.calls
  sent := h₂.sent.trans h₁.sent

/-- A note of something else tells of no call of a hook. -/
theorem Settled.note (h : k.Settled k') {n : Note} (hc : n.closing? = none)
    (hb : n.began? = none) : k.Settled (k'.note n) := by
  refine ⟨h.closed, h.closeReason, h.counted, ?_, ?_, h.calls, h.sent⟩
  · show (k'.history ++ [n]).filterMap Note.closing? = _
    rw [List.filterMap_append, List.filterMap_cons_none hc, List.filterMap_nil, List.append_nil]
    exact h.closings
  · show (k'.history ++ [n]).filterMap Note.began? = _
    rw [List.filterMap_append, List.filterMap_cons_none hb, List.filterMap_nil, List.append_nil]
    exact h.hooks

theorem Settled.interrupt (h : k.Settled k') : k.Settled k'.interrupt := by
  unfold Link.interrupt
  split
  · exact ⟨h.closed, h.closeReason, h.counted, h.closings, h.hooks, h.calls, h.sent⟩
  · exact h

theorem Touched.settled (h : k.Touched k') : k.Settled k' := by
  cases h with
  | socket hf =>
    obtain ⟨hcalls, hsent⟩ := hf.untouched k.stream.socket
    exact ⟨rfl, rfl, rfl, rfl, rfl, hcalls, hsent⟩
  | did | closeEnded => exact .note (.refl k) rfl rfl
  | asked =>
    refine .interrupt ?_
    exact ⟨rfl, rfl, rfl, rfl, rfl, rfl, rfl⟩
  | deferred =>
    refine .note ?_ rfl rfl
    exact ⟨rfl, rfl, rfl, rfl, rfl, rfl, rfl⟩
  | _ => exact ⟨rfl, rfl, rfl, rfl, rfl, rfl, rfl⟩

theorem Handed.settled (h : k.Handed k') : k.Settled k' := by
  cases h with
  | woken =>
    refine .note ?_ rfl rfl
    exact ⟨rfl, rfl, rfl, rfl, rfl, rfl, rfl⟩
  | _ => exact ⟨rfl, rfl, rfl, rfl, rfl, rfl, rfl⟩

theorem Seized.settled {reason : CloseReason} (h : k.Seized reason k') : k.Settled k' := by
  cases h <;> exact ⟨rfl, rfl, rfl, rfl, rfl, rfl, rfl⟩

/-- What marking a link as closed writes. -/
theorem marked_fields (k : Link) (reason : CloseReason) :
    (k.marked reason).closeReason = some reason ∧ (k.marked reason).counted = k.counted ∧
      (k.marked reason).closings = k.closings ++ [reason] ∧
      (k.marked reason).stream = k.stream ∧ (k.marked reason).handler = k.handler := by
  have hshut : (k.shut reason).closeReason = some reason ∧ (k.shut reason).counted = k.counted ∧
      (k.shut reason).history = k.history ∧ (k.shut reason).stream = k.stream ∧
      (k.shut reason).handler = k.handler := by
    unfold Link.shut Link.disarmed
    cases k.deadline <;> exact ⟨rfl, rfl, rfl, rfl, rfl⟩
  obtain ⟨hr, hn, hh, hs⟩ := hshut
  refine ⟨hr, hn, ?_, hs⟩
  show ((k.shut reason).history ++ [Note.closing reason]).filterMap _ = _
  rw [List.filterMap_append, hh]
  rfl

/-! ## The close hook -/

/-- The close hook was called once for the reason a link has to be closed, and not
at all while it has none. -/
structure Told (k : Link) : Prop where
  closed : k.closed = k.closeReason.isSome
  closings : k.closings = k.closeReason.toList

theorem Told.settled (h : k.Told) (hk : k.Settled k') : k'.Told := by
  refine ⟨?_, ?_⟩
  · rw [hk.closed, hk.closeReason]
    exact h.closed
  · rw [hk.closings, hk.closeReason]
    exact h.closings

theorem Told.closeReason_eq_none (h : k.Told) (hc : k.closed = false) : k.closeReason = none :=
  Option.not_isSome_iff_eq_none.1 (Bool.eq_false_iff.1 (h.closed.symm.trans hc))

private theorem Told.marked (h : k.Told) (hc : k.closed = false) (reason : CloseReason) :
    (k.marked reason).Told := by
  obtain ⟨hr, -, hcl, -, -⟩ := marked_fields k reason
  refine ⟨?_, ?_⟩
  · rw [closed_marked, hr]
    rfl
  · rw [hcl, hr, h.closings, h.closeReason_eq_none hc]
    rfl

private theorem Told.gone (h : k.Told) : k.gone.Told := ⟨h.closed, h.closings⟩

/-- What the task of a link writes to it calls no close hook. -/
private theorem Told.own (h : k.Told) (hk : k.Own k') : k'.Told := by
  have hr : k'.closeReason = k.closeReason := congrArg (·.2.2.2.1) hk.frame
  have hc : k'.closed = k.closed := congrArg (·.2.2.1) hk.frame
  refine ⟨by rw [hc, hr]; exact h.closed, ?_⟩
  rw [hr, ← h.closings]
  show k'.history.filterMap Note.closing? = k.history.filterMap Note.closing?
  -- A note of the task is none of a teardown.
  rcases hk.history with hh | ⟨n, hn, hh⟩
  · rw [hh]
  · have hnone : n.closing? = none := by
      cases n <;> first | rfl | cases hn
    rw [hh, List.filterMap_append, List.filterMap_cons_none hnone, List.filterMap_nil,
      List.append_nil]

/-! ## The socket -/

/-- The handler leaves it to the engine to close the socket, which had been closed
`c` times: the engine does so once, when it gives the link back. -/
structure Tallied (c : Nat) (k : Link) : Prop where
  handler : k.handler.closesStream = false
  counted : k.closed = false → k.counted = true
  closes : k.stream.closes = c + if k.counted then 0 else 1

variable {c : Nat}

private theorem Tallied.settled (h : k.Tallied c) (hk : k.Settled k')
    (hh : k'.handler = k.handler) : k'.Tallied c := by
  refine ⟨hh ▸ h.handler, ?_, ?_⟩
  · intro hc
    rw [hk.counted]
    exact h.counted (hk.closed.symm.trans hc)
  · rw [hk.counted, ← h.closes]
    exact congrArg (·.close) hk.calls

private theorem Tallied.marked (h : k.Tallied c) (reason : CloseReason) :
    (k.marked reason).Tallied c := by
  obtain ⟨-, hn, -, hs, hh⟩ := marked_fields k reason
  refine ⟨hh ▸ h.handler, ?_, ?_⟩
  · intro hc
    rw [closed_marked] at hc
    cases hc
  · rw [hn, hs]
    exact h.closes

private theorem Tallied.gone (h : k.Tallied c) (hc : k.closed = true) (hn : k.counted = true) :
    k.gone.Tallied c := by
  have hcloses := h.closes
  rw [hn] at hcloses
  refine ⟨h.handler, ?_, ?_⟩
  · intro hc'
    rw [show k.gone.closed = k.closed from rfl, hc] at hc'
    cases hc'
  · show k.stream.close.2.closes = c + 1
    rw [k.stream.closes_close, hcloses]
    rfl

private theorem Tallied.own (h : k.Tallied c) (hk : k.Own k') : k'.Tallied c := by
  have hh : k'.handler = k.handler := congrArg (·.2.1) hk.frame
  have hc : k'.closed = k.closed := congrArg (·.2.2.1) hk.frame
  have hn : k'.counted = k.counted := congrArg (·.2.2.2.2.1) hk.frame
  refine ⟨hh ▸ h.handler, fun hc' => hn.trans (h.counted (hc.symm.trans hc')), ?_⟩
  -- The task closes the stream only for a handler that says so, and this one does not.
  rcases hk.closes with hs | hs
  · rw [hs, hn]
    exact h.closes
  · rw [h.handler] at hs
    cases hs

end Link

namespace Stand

variable {v w u : Stand} {o : Outcome} {reason : CloseReason} {c : Nat}

/-- **Others leave a link that is closed settled.** -/
theorem Course.settled (h : Course v w) (hc : v.link.closed = true) : v.link.Settled w.link := by
  induction h with
  | refl => exact .refl _
  | shift h _ ih =>
    cases h with
    | touched q h => exact h.settled.trans (ih (h.closed.trans hc))
    | handed q h => exact h.settled.trans (ih (h.closed.trans hc))
  | teardown h => rw [h.open.1] at hc; cases hc

theorem Course.told (h : Course v w) (hv : v.link.Told) : w.link.Told :=
  h.induction (fun h hk => hk.settled h.settled) (fun h hk => hk.settled h.settled)
    (fun h hk => (hk.settled h.settled).marked h.open.2 _) (fun _ hk => hk.gone) hv

theorem TornDown.told (h : TornDown reason v w) (hv : v.link.Told) : w.link.Told := by
  cases h with
  | before => exact hv
  | now hc hook => exact (hook.told (hv.marked hc reason)).gone

theorem Worked.told (h : Worked v w) (hv : v.link.Told) : w.link.Told := by
  induction h with
  | refl => exact hv
  | course h _ ih => exact ih (h.told hv)
  | own h _ ih => exact ih (hv.own h)

/-- The hook of a teardown leaves it to the teardown to give the link back. -/
private theorem Course.gone_tallied {k : Link} {q : List Entry}
    (h : Course ⟨k.marked reason, q⟩ w) (hn : k.counted = true) (hw : w.link.Tallied c) :
    w.link.gone.Tallied c := by
  have hsettled := h.settled (Link.closed_marked k reason)
  obtain ⟨-, hcounted, -⟩ := Link.marked_fields k reason
  exact hw.gone (hsettled.closed.trans (Link.closed_marked k reason))
    (hsettled.counted.trans (hcounted.trans hn))

theorem Course.tallied (h : Course v w) (hv : v.link.Tallied c) : w.link.Tallied c := by
  induction h with
  | refl => exact hv
  | shift h _ ih =>
    cases h with
    | touched q h => exact ih (hv.settled h.settled (congrArg Prod.snd h.owner))
    | handed q h => exact ih (hv.settled h.settled (congrArg Prod.snd h.owner))
  | teardown h hook _ ihhook ihrest =>
    have hk := hv.settled h.settled (congrArg Prod.snd h.owner)
    exact ihrest (hook.gone_tallied (hk.counted h.open.2) (ihhook (hk.marked _)))

theorem TornDown.tallied (h : TornDown reason v w) (hv : v.link.Tallied c) :
    w.link.Tallied c := by
  cases h with
  | before => exact hv
  | now hc hook =>
    exact hook.gone_tallied (hv.counted hc) (hook.tallied (hv.marked reason))

theorem Worked.tallied (h : Worked v w) (hv : v.link.Tallied c) : w.link.Tallied c := by
  induction h with
  | refl => exact hv
  | course h _ ih => exact ih (h.tallied hv)
  | own h _ ih => exact ih (hv.own h)

/-! ## Turns -/

theorem Turn.told (h : Turn v w) (hv : v.link.Told) : w.link.Told :=
  h.induction (fun _ _ hk => ⟨hk.closed, hk.closings⟩) (fun h => h.told) (fun h => h.told)
    (fun h => h.told) hv

theorem Turn.tallied (h : Turn v w) (hv : v.link.Tallied c) : w.link.Tallied c :=
  h.induction (P := Link.Tallied c) (fun _ _ hk => ⟨hk.handler, hk.counted, hk.closes⟩)
    (fun h => h.tallied) (fun h => h.tallied) (fun h => h.tallied) hv

/-- A new link was told nothing. -/
theorem Started.told {i : Nat} {arrival : Engine.Arrival} (h : Started i arrival v) :
    v.link.Told := by
  have hnew : ∀ {handler socket buffers} {notes : List Note}, (∀ n ∈ notes, n.isDeed = true) →
      (Link.new i handler socket buffers notes).Told := by
    intro handler socket buffers notes hn
    refine ⟨rfl, ?_⟩
    show notes.filterMap Note.closing? = []
    rw [List.filterMap_eq_nil_iff]
    intro n hmem
    have := hn n hmem
    cases n <;> first | rfl | cases this
  cases h with
  | queued hs hn h =>
    have hw := h.told (hnew hn)
    exact ⟨hw.closed, hw.closings⟩
  | @refused _ _ _ w u hs hn h ht =>
    have hw := h.told (hnew hn)
    have hu := ht.told (v := ⟨{ w.link with request := .request }, []⟩) ⟨hw.closed, hw.closings⟩
    exact ⟨hu.closed, hu.closings⟩

/-- The socket of a new link was closed as often as it was when it was brought,
and once more where the link was given back at once. -/
theorem Started.tallied {i : Nat} {arrival : Engine.Arrival} (h : Started i arrival v)
    (hc : arrival.handler.closesStream = false) : v.link.Tallied arrival.socket.closes := by
  have hnew : ∀ {socket : Socket.Endpoint Operation} {buffers notes},
      socket.closes = arrival.socket.closes →
      (Link.new i arrival.handler socket buffers notes).Tallied arrival.socket.closes :=
    fun hs => ⟨hc, fun _ => rfl, hs⟩
  cases h with
  | queued hs hn h =>
    have hw := h.tallied (hnew hs)
    exact ⟨hw.handler, hw.counted, hw.closes⟩
  | @refused _ _ _ w u hs hn h ht =>
    have hw := h.tallied (hnew hs)
    have hu := ht.tallied (v := ⟨{ w.link with request := .request }, []⟩)
      (c := arrival.socket.closes) ⟨hw.handler, hw.counted, hw.closes⟩
    exact ⟨hu.handler, hu.counted, hu.closes⟩

/-- **A link that was torn down and is driven no more stays as it is settled.** -/
theorem Turn.settled (h : Turn v w) (hc : v.link.closed = true) (hs : v.link.step = none) :
    v.link.Settled w.link ∧ w.link.step = none := by
  cases h with
  | course h => exact ⟨h.settled hc, h.step.trans hs⟩
  | begin hd he hc' => rw [hc] at hc'; cases hc'
  | idle => exact ⟨.refl _, hs⟩
  | doomed hd he hc' => rw [hc] at hc'; cases hc'
  | step hs' => rw [hs] at hs'; cases hs'

end Stand

namespace Engine

variable {s : Engine} {i l : Nat} {k : Link} {v : Stand} {arrival : Arrival}

variable (settings : Settings.Scheduler) (now : Nat)

/-- **The close hook of each link of each run was called once for the reason the
link has to be closed, and not at all while it has none.** -/
theorem told (moves : List Move) (hv : (after settings now moves).stand? l = some v) :
    v.link.Told :=
  after_stand settings now (P := fun v => v.link.Told) (fun _ _ _ h => h.told)
    (fun _ _ hv h => h.told hv) moves l v hv

/-- **The engine closes the socket of a link once, when it gives the link back.** -/
theorem tallied {before later : List Move} (hc : arrival.handler.closesStream = false)
    (hn : (after settings now before).link? l = none)
    (hk : ((after settings now (before ++ [.accept i arrival])).link? l).isSome)
    (hv : (after settings now (before ++ .accept i arrival :: later)).stand? l = some v) :
    v.link.Tallied arrival.socket.closes := by
  rw [after_append, follow_cons, follow_nil] at hk
  rw [after_append, follow_cons] at hv
  obtain ⟨k, hk⟩ := Option.isSome_iff_exists.1 hk
  have hw := stand?_of_link? hk
  obtain ⟨i', arrival', hm, -, -, hstarted⟩ :=
    move_started (after_manned settings now before) (.accept i arrival) hn hw
  cases hm
  have hsole := after_sole settings now (before ++ [.accept i arrival])
  rw [after_append, follow_cons, follow_nil] at hsole
  obtain ⟨u, hu, htallied⟩ := follow_stand (P := fun v => v.link.Tallied arrival.socket.closes)
    (fun _ _ hv h => h.tallied hv) hsole hw (hstarted.tallied hc) later
  rw [hv] at hu
  cases hu
  exact htallied

/-- **What is settled stays so.** -/
theorem follow_settled (hs : s.scheduler.Sole) (hk : s.link? l = some k) (hc : k.closed = true)
    (hstep : k.step = none) (moves : List Move) :
    ∃ k', (follow moves s).link? l = some k' ∧ k.Settled k' := by
  obtain ⟨w, hw, hsettled, -⟩ := follow_stand
    (P := fun w => k.Settled w.link ∧ w.link.step = none) (fun v w hv h => by
      obtain ⟨hvw, hstep⟩ := h.settled (hv.1.closed.trans hc) hv.2
      exact ⟨hv.1.trans hvw, hstep⟩) hs (stand?_of_link? hk) ⟨.refl k, hstep⟩ moves
  exact ⟨w.link, (stand?_eq_some.1 hw).1, hsettled⟩

end Engine

end LinkEngine

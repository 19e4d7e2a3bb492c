import Mathlib.Data.List.Induction
import LinkEngine.Proofs.Cycles
import LinkEngine.Proofs.Growth
import LinkEngine.Proofs.Ownership

/-!
# How tasks take up suspended requests

The task of a link begins suspended requests in its hooks, parks the link for them
and takes them up again. Each of its steps leaves them as they should be
(`Ready.kept`), and where it decides to close the link, the latest of them needs
nothing more (`Link.Ended`). So in every run all suspended requests of all links went
as they should.
-/

namespace LinkEngine

open Connection (CloseReason State)
open Link (Ending Entry Note Outcome Step Upgrades)

namespace Link

variable {k k' : Link} {n : Note} {g : Nat}

/-! ## Requests that need nothing more -/

/-- The latest suspended request of a link need not be taken up any more: the link is
closed, there is a reason not to, or the request is over. -/
def Exempt (k : Link) : Prop :=
  k.closed = true ∨ k.Excused k.cometGeneration ∨ k.request.isAsync = false ∧ k.Awake

/-- The suspended requests of a link went as they should, and the latest need not be
taken up any more. -/
structure Ended (k : Link) : Prop extends Cycles k where
  exempt : k.Exempt

theorem Ended.answered (h : k.Ended) : k.Answered k.cometGeneration := by
  rcases h.exempt with hc | he | ⟨hr, hm⟩
  · exact h.stage.answered_of_closed hc
  · exact fun _ => .inr he
  · cases h.stage with
    | ended _ _ _ ha | closed _ ha => exact ha
    | begun _ hr' | deferred _ hr' | parked _ hr' => rw [hr'] at hr; cases hr
    | taken _ _ hm' => exact absurd hm' (hm.ne hr)

/-- A reason stays as the history grows. -/
theorem Excused.grown (h : k.Excused g) (hh : k.history <+: k'.history)
    (hc : k.closing = true → k'.closing = true) : k'.Excused g := by
  rcases h with hclosing | ⟨n, hn, hmishap⟩
  · exact .inl (hc hclosing)
  · refine .inr ⟨n, waiting_subset ?_ hn, hmishap⟩
    obtain ⟨more, hmore⟩ := hh
    unfold during
    rw [← hmore, episode_append]
    exact List.prefix_append _ _

private theorem Touched.excused (h : k.Touched k') (he : k.Excused k.cometGeneration) :
    k'.Excused k'.cometGeneration := by
  have hsame : k'.cometGeneration = k.cometGeneration ∧ (k.closing = true → k'.closing = true) := by
    cases h with
    | asked =>
      unfold interrupt
      split <;> exact ⟨rfl, fun _ => rfl⟩
    | _ => exact ⟨rfl, fun h => h⟩
  rw [hsame.1]
  exact he.grown h.grown.history hsame.2

private theorem Handed.excused (h : k.Handed k') (he : k.Excused k.cometGeneration) :
    k'.Excused k'.cometGeneration := by
  have hsame : k'.cometGeneration = k.cometGeneration ∧ k'.closing = k.closing := by
    cases h <;> exact ⟨rfl, rfl⟩
  rw [hsame.1]
  exact he.grown h.grown.history fun h => hsame.2.trans h

private theorem Touched.isAsync (h : k.Touched k') (hr : k.request.isAsync = false) :
    k'.request.isAsync = false := by
  cases h with
  | asked hc hp reason =>
    -- What was not begun is not begun by waking it.
    have hwake : k.request.wake.2.isAsync = false := by
      generalize k.request = r at hr
      cases r <;> first | rfl | cases hr
    unfold interrupt
    split <;> exact hwake
  | deferred _ hr' => rw [hr'] at hr; cases hr
  | late _ hr' => rw [hr'] at hr; cases hr
  | vain => rfl
  | _ => exact hr

private theorem Touched.exempt (h : k.Touched k') (hk : k.Exempt) : k'.Exempt := by
  rcases hk with hc | he | ⟨hr, ha⟩
  · exact .inl (h.closed.trans hc)
  · exact .inr (.inl (h.excused he))
  · exact .inr (.inr ⟨h.isAsync hr, h.awake ha⟩)

private theorem Handed.exempt (h : k.Handed k') (hk : k.Exempt) : k'.Exempt := by
  rcases hk with hc | he | ⟨hr, ha⟩
  · exact .inl (h.closed.trans hc)
  · exact .inr (.inl (h.excused he))
  · refine .inr (.inr ⟨?_, h.awake ha⟩)
    cases h <;> rfl

/-- A mishap is a reason not to take up the request that it happened to. -/
theorem Cycles.mishap (h : k.Cycles) (ha : k.Awake) (hn : n.isMishap = true) :
    (k.note n).Ended := by
  have hcounts : n.counts = false := by
    cases n <;> first | rfl | cases hn
  have hcycle : n.cycle? = none := by
    cases n <;> first | rfl | cases hn
  have hk := h.note hcounts
  -- While nothing was taken up, the note belongs to what happened before that.
  have hexcused : k.Fresh → (k.note n).Excused k.cometGeneration := by
    intro hf
    have hzero : (k.note n).resumes k.cometGeneration = 0 :=
      ((Quiet.note h.numbered hcounts).fresh hf).resumes
    refine .inr ⟨n, ?_, hn⟩
    rw [waiting_eq_during hzero, during_note h.numbered hcycle, if_pos rfl]
    exact List.mem_append_right _ (List.mem_singleton.2 rfl)
  refine ⟨hk, ?_⟩
  cases h.stage with
  | begun _ _ hf => exact .inr (.inl (hexcused hf))
  | deferred _ _ hf => exact .inr (.inl (hexcused hf))
  | parked _ hr hm => rcases ha hm with h | h <;> rw [hr] at h <;> cases h
  | taken _ hr hm => rcases ha hm with h | h <;> rw [hr] at h <;> cases h
  | ended _ hr hm => exact .inr (.inr ⟨hr, ha⟩)
  | closed hc => exact .inl hc

end Link

namespace Stand

variable {v w u : Stand} {o : Outcome} {reason : CloseReason}

private theorem Course.exempt (h : Course v w) (hv : v.link.Exempt) : w.link.Exempt :=
  h.induction (fun h hk => h.exempt hk) (fun h hk => h.exempt hk)
    (fun _ _ => .inl (Link.closed_marked _ _)) (fun hc _ => .inl hc) hv

/-- Others change nothing about a request that needs nothing more. -/
theorem Course.ended (h : Course v w) (hv : v.link.Ended) : w.link.Ended :=
  ⟨h.cycles hv.toCycles, h.exempt hv.exempt⟩

theorem TornDown.ended (h : TornDown reason v w) (hv : v.link.Ended) (step : Option Step) :
    (w.next step).link.Cycles := by
  refine (h.cycles hv.toCycles hv.answered).next_of_closed ?_ step
  cases h with
  | before hc => exact hc
  | now hc hook => exact hook.closed (Link.closed_marked _ _)

/-! ## Hooks -/

section Hooks

variable {upgrades : Upgrades} {m : State}

/-- A hook begins a suspended request where the one before is over. -/
private theorem startComet_cycles {k k' : Link} {l : Nat} {timeout : Option Time.Duration}
    {h : Engine.Handle} (hstart : Engine.startComet l k upgrades timeout = .ok (h, k'))
    (hc : k.closed = false) (hm : k.machine.state ≠ .cometSuspend) (hk : k.Cycles) :
    k'.Cycles := by
  unfold Engine.startComet at hstart
  split at hstart
  · cases hstart
  split at hstart
  · cases hstart
  next r hr =>
  obtain ⟨rfl, hrequest⟩ : r = .asyncStart ∧ k.request = .request := by
    unfold Connection.Request.beginAsync Connection.Request.move at hr
    split at hr <;> cases hr
    exact ⟨rfl, ‹_›⟩
  -- The task of the link serves a request, so the suspended one before is over.
  have ha : k.Answered k.cometGeneration := by
    refine (⟨hk, .inr (.inr ⟨?_, Link.awake_of_ne hm⟩)⟩ : k.Ended).answered
    rw [hrequest]
    rfl
  obtain ⟨-, hk'⟩ := Prod.mk.inj (Except.ok.inj hstart)
  have hr : Link.Renumbered k k' := by
    rw [← hk']
    exact .of hk.numbered rfl rfl fun h => h
  obtain ⟨hrecorded, hfresh, hwakes⟩ := hk.toRecorded.renumbered ha hr
  subst hk'
  exact ⟨hrecorded, hk.timed, .begun hc rfl hfresh hwakes⟩

private theorem Acted.cycles {k : Link} (h : v.link.Acted upgrades k) (hs : Serving upgrades m v)
    (hm : m ≠ .cometSuspend) (hv : v.link.Cycles) : k.Cycles := by
  cases h with
  | stream | kill | twoWay => exact hv.same rfl rfl rfl rfl
  | comet hk => exact startComet_cycles hk hs.closed (hs.machine.trans_ne hm) hv
  | duplex hk =>
    unfold Engine.startDuplex at hk
    split at hk <;> cases hk
    exact hv.same rfl rfl rfl rfl

theorem Served.cycles (h : Served upgrades v w) (hs : Serving upgrades m v)
    (hm : m ≠ .cometSuspend) (hv : v.link.Cycles) : w.link.Cycles := by
  induction h with
  | refl => exact hv
  | course h _ ih => exact ih (hs.course h) (h.cycles hv)
  | acted h _ ih => exact ih (hs.acted h) (Acted.cycles h hs hm hv)

/-- What becomes of a link in a step: where the step goes on or parks the link, its
requests are as they should be, and where it closes the link, they need nothing
more. -/
def Kept : Outcome → Stand → Prop
  | .next step, w => (w.next (some step)).link.Cycles
  | .park, w => (w.next none).link.Cycles
  | .close _, w | .fail _, w | .panic, w => w.link.Ended
  | .refused _, _ => True

/-- What is noted of a hook that ended, when the hook did not return: only of a hook
that may begin a request it is a mishap. -/
private theorem ended_note {hook : Hook} {ending : Ending} (hs : Serving upgrades m u)
    (hm : m ≠ .cometSuspend) (hh : upgrades = .none ∨ hook = .request ∨ hook = .resume)
    (he : ending.isReturned = false) (hu : u.link.Cycles) :
    (u.link.note (.ended hook ending)).Ended := by
  have hawake : u.link.Awake := Link.awake_of_ne (hs.machine.trans_ne hm)
  rcases hh with rfl | hhook
  · refine ⟨hu.note rfl, .inr (.inr ⟨?_, hawake⟩)⟩
    show u.link.request.isAsync = false
    rw [hs.asked.refused.1]
    rfl
  · refine hu.mishap hawake ?_
    rcases hhook with rfl | rfl <;> exact congrArg (!·) he

/-- A hook that was called goes on, or the request that it began need not be taken
up. -/
private theorem hook_kept {hook : Hook} {go : Bool → Plan} (h : Plan.hook hook upgrades go v o w)
    (hs : Serving upgrades m v) (hm : m ≠ .cometSuspend)
    (hh : upgrades = .none ∨ hook = .request ∨ hook = .resume)
    (hv : (v.link.note (.began hook)).Cycles) :
    Kept o w ∨ ∃ keep u, Serving upgrades m u ∧ u.link.Cycles ∧ go keep u o w := by
  obtain ⟨ending, u, ⟨x, hx, rfl⟩, h⟩ := h
  have hbegan : Serving upgrades m (v.put (v.link.note (.began hook))) :=
    ⟨hs.closed, hs.queue, hs.machine, hs.asked⟩
  -- From the note that it began, the hook is served like any other.
  have hsx := Serving.served hx hbegan
  have hx := hx.cycles hbegan hm hv
  cases ending with
  | returned keep =>
    exact .inr ⟨keep, x.put (x.link.note (.ended hook (.returned keep))),
      ⟨hsx.closed, hsx.queue, hsx.machine, hsx.asked⟩, hx.note rfl, h⟩
  | failed f =>
    obtain ⟨rfl, rfl⟩ := h
    exact .inl (ended_note hsx hm hh rfl hx)
  | panicked =>
    obtain ⟨rfl, rfl⟩ := h
    exact .inl (ended_note hsx hm hh rfl hx)

/-- A flush goes on, or the request that waits need not be taken up. -/
private theorem flush_kept {go : Plan} (h : Plan.flush go v o w) (hs : Serving upgrades m v)
    (hm : m ≠ .cometSuspend) (hv : v.link.Cycles) :
    Kept o w ∨ ∃ u, Serving upgrades m u ∧ u.link.Cycles ∧ go u o w := by
  obtain ⟨stream, h⟩ := Plan.flush_cases h
  have hstream : { v.link with stream }.Cycles := hv.same rfl rfl rfl rfl
  have hawake : { v.link with stream }.Awake := Link.awake_of_ne (hs.machine.trans_ne hm)
  rcases h with ⟨kind, rfl, rfl⟩ | h
  · exact .inl (hstream.mishap hawake rfl)
  · exact .inr ⟨v.put { v.link with stream }, ⟨hs.closed, hs.queue, hs.machine, hs.asked⟩,
      hstream, h⟩

end Hooks

/-! ## Steps -/

/-- Where no request is under way, a link may be closed. -/
private theorem ended_of {k : Link} (h : k.Cycles) (hr : k.request = .request) (hm : k.Awake) :
    k.Ended := by
  refine ⟨h, .inr (.inr ⟨?_, hm⟩)⟩
  rw [hr]
  rfl

/-- Between requests the lifecycle may move. -/
private theorem moved {k : Link} (h : k.Cycles) (hm : k.machine.state ≠ .cometSuspend)
    {machine : Connection.Machine} (hm' : machine.state ≠ .cometSuspend) :
    { k with machine }.Cycles :=
  h.awake (.same h.numbered rfl rfl fun h => h) rfl (.inl rfl) (Link.awake_of_ne hm)
    (Link.awake_of_ne hm') rfl (Nat.le_refl _)

private theorem accept_kept (hv : Ready .accept v) (hk : v.link.Cycles)
    (h : Plan.accept v o w) : Kept o w := by
  obtain ⟨hm, hr, hp⟩ := hv.expects
  obtain ⟨machine, hm', stream, -, h⟩ := transition_moves (m := .accepting) (by rw [hm]; rfl) h
  have hne : machine.state ≠ .cometSuspend := hm'.trans_ne nofun
  have hawake : { v.link with machine, stream }.Awake := Link.awake_of_ne hne
  have hmoved : { v.link with machine, stream }.Cycles :=
    (moved hk (hm.trans_ne nofun) hne).same rfl rfl rfl rfl
  rcases h with ⟨kind, rfl, rfl⟩ | h
  · exact ended_of hmoved hr hawake
  · rcases hook_kept h (serving_of hv.closed hv.queue hr hp) hne (.inl rfl) (hmoved.note rfl) with
      hd | ⟨keep, u, hu, hcycles, rfl, rfl⟩
    · exact hd
    · exact hcycles.next (Link.awake_of_ne (hu.machine.trans_ne hne)) _

private theorem dispatch_kept (hv : Ready .dispatch v) (hk : v.link.Cycles)
    (h : Plan.dispatch v o w) : Kept o w := by
  obtain ⟨hm, hr, hp⟩ := hv.expects
  obtain ⟨machine, hm', h⟩ := transition_moves (m := .active)
    (by rcases hm with hm | hm <;> rw [hm] <;> rfl) h
  have hne : machine.state ≠ .cometSuspend := hm'.trans_ne nofun
  have hmoved : { v.link with machine, pending := .none }.Cycles := by
    refine (moved hk ?_ hne).same rfl rfl rfl rfl
    rcases hm with hm | hm <;> exact hm.trans_ne nofun
  rcases hook_kept h (serving_of hv.closed hv.queue hr rfl) hne (.inr (.inl rfl))
    (hmoved.note rfl) with hd | ⟨keep, u, hu, hcycles, h⟩
  · exact hd
  · rcases flush_kept h hu hne hcycles with hd | ⟨x, hx, hcycles, rfl, rfl⟩
    · exact hd
    · exact hcycles.next (Link.awake_of_ne (hx.machine.trans_ne hne)) _

private theorem after_kept {keep : Bool} (hv : Ready (.after keep) v) (hk : v.link.Cycles)
    (h : Plan.after keep v o w) : Kept o w := by
  have hawake : v.link.Awake := by
    refine Link.awake_of_ne ?_
    rcases hv.expects with ⟨hm, -⟩ | ⟨hm, -⟩ <;> exact hm.trans_ne nofun
  unfold Plan.after at h
  split at h
  · obtain ⟨rfl, rfl⟩ := h
    exact (hk.next hawake (some .upgrade)).same rfl rfl rfl rfl
  · obtain ⟨rfl, rfl⟩ := h
    exact (hk.next hawake (some .suspend)).same rfl rfl rfl rfl
  · obtain ⟨⟨killed, -, rfl⟩, rfl⟩ := h
    exact hk.next hawake _

private theorem rest_kept {killed : Bool} (hv : Ready (.rest killed) v) (hk : v.link.Cycles)
    (h : Plan.rest killed v o w) : Kept o w := by
  obtain ⟨hm, hr, -⟩ := hv.expects
  obtain ⟨m, hfinish, hkeepalive⟩ := finish_served hm killed
  -- Where the lifecycle ends up, nothing is suspended.
  have hne : m.state ≠ .cometSuspend := by
    intro hm'
    rw [hm'] at hkeepalive
    cases hkeepalive rfl
  have hmoved : { v.link with machine := m, comet := none }.Cycles := by
    refine (moved hk ?_ hne).same rfl rfl rfl rfl
    rcases hm with hm | hm <;> exact hm.trans_ne nofun
  unfold Plan.rest Plan.write at h
  simp only [link_put, hfinish] at h
  split at h
  · obtain ⟨reason, -, rfl, rfl⟩ := h
    exact ended_of hmoved hr (Link.awake_of_ne hne)
  · obtain ⟨t, rfl, rfl⟩ := h
    exact (hmoved.next (Link.awake_of_ne hne) (some .await)).same rfl rfl rfl rfl

private theorem quiet_disarmed {k : Link} (hk : k.Numbered) : Link.Quiet k k.disarmed := by
  refine .same hk ?_ ?_ ?_ <;>
  · unfold Link.disarmed
    split <;> first | rfl | exact fun h => h

/-- The task of a link goes on to take up its request: for its deadline, if nobody
woke it. -/
private theorem cycles_resume {k : Link} (hk : k.Recorded)
    (ht : k.closed = false → ∀ e, k.expiredGeneration = some e → e ≤ k.waitGeneration)
    (hc : k.closed = false) (hr : k.request = .request) (hm : k.machine.state = .cometSuspend)
    (hf : k.Fresh) {late : Bool} (hl : late = true → k.wakes k.cometGeneration = 0) :
    { k.disarmed with step := some (.resume late) }.Cycles := by
  obtain ⟨hc', hm', hr', -⟩ := disarmed_same k
  have hstep : Link.Quiet k.disarmed { k.disarmed with step := some (.resume late) } :=
    .same (quiet_disarmed hk.numbered).numbered rfl rfl fun h => h
  have hquiet : Link.Quiet k { k.disarmed with step := some (.resume late) } :=
    (quiet_disarmed hk.numbered).trans hstep
  refine ⟨hk.quiet hquiet, ?_, .taken (hc'.trans hc) (hr'.trans hr)
    ((congrArg _ hm').trans hm) (hquiet.fresh hf) fun h => hquiet.wakes_eq_zero (hl h)⟩
  intro _ e he
  -- Taking back the deadline ends the wait, and the next one has another number.
  have hwait : k.disarmed.expiredGeneration = k.expiredGeneration ∧
      k.waitGeneration ≤ k.disarmed.waitGeneration := by
    unfold Link.disarmed
    split
    · exact ⟨rfl, Nat.le_refl _⟩
    · exact ⟨rfl, Nat.le_succ _⟩
  exact Nat.le_trans (ht hc e (hwait.1 ▸ he)) hwait.2

/-- Taking back a deadline does not touch the requests of a link that is not
suspended. -/
private theorem cycles_disarmed {k : Link} (h : k.Cycles) (hm : k.Awake) :
    k.disarmed.Cycles ∧ k.disarmed.Awake := by
  unfold Link.disarmed
  split
  · exact ⟨h, hm⟩
  · exact ⟨h.awake (.same h.numbered rfl rfl fun h => h) rfl (.inl rfl) hm hm rfl
      (Nat.le_succ _), hm⟩

private theorem resumeParked_kept (hv : Ready .resumeParked v)
    (hs : v.link.step = some .resumeParked) (hk : v.link.Cycles) (h : Plan.resumeParked v o w) :
    Kept o w := by
  obtain ⟨hm, hr, -⟩ := hv.expects
  obtain ⟨rfl, h⟩ := h
  rcases hm with hm | hm
  · obtain ⟨hcycles, hawake⟩ := cycles_disarmed hk (Link.awake_of_ne (hm.trans_ne nofun))
    obtain ⟨-, -, hr', -⟩ := disarmed_same v.link
    rw [hm] at h
    subst h
    split
    · exact ended_of hcycles (hr'.trans hr) hawake
    · exact hcycles.next hawake _
  · rw [hm] at h
    subst h
    obtain ⟨hf, hlate⟩ := hk.stage.of_taken hv.closed hr hm
    refine cycles_resume hk.toRecorded hk.timed hv.closed hr hm hf fun h => hlate ?_
    unfold Link.isLate
    rw [hs]
    exact h

private theorem wait_kept {step ready idle : Step} {late : CloseReason}
    (hr : ∀ u : Stand, Ready step u → u.link.request = .request ∧ u.link.Awake)
    (hstream : ∀ u : Stand, Ready step u → ∀ stream, Ready step (u.put { u.link with stream }))
    (hv : Ready step v) (hk : v.link.Cycles) (h : Plan.wait ready idle late v o w) : Kept o w := by
  -- No request is under way while input is waited for.
  have hended : ∀ u : Stand, Ready step u → u.link.Cycles → u.link.Ended := by
    intro u hu hcycles
    obtain ⟨hrequest, hawake⟩ := hr u hu
    exact ended_of hcycles hrequest hawake
  rcases h with ⟨reason, -, rfl, rfl⟩ | ⟨-, ⟨rfl, rfl⟩ | ⟨u, hu, h⟩⟩
  · exact hended _ hv hk
  · exact hended _ hv hk
  · have hcycles : u.link.Cycles := Course.cycles hu (hk.same rfl rfl rfl rfl)
    have hu := (hstream v hv _).course hu
    rcases h with ⟨kind, rfl, rfl⟩ | ⟨rfl, rfl⟩ | ⟨rfl, rfl⟩ | ⟨reason, -, rfl, rfl⟩
    · exact hended _ hu hcycles
    · exact hcycles.next (hr _ hu).2 _
    · exact hcycles.next (hr _ hu).2 _
    · exact hended _ hu hcycles

private theorem declined_kept (hk : v.link.Cycles) (ha : v.link.Awake)
    (h : Plan.declined v o w) : Kept o w := by
  unfold Plan.declined at h
  split at h
  · next r hr =>
    obtain ⟨hq, rfl⟩ := Connection.Request.wakeKeepalive_eq_resume hr
    obtain ⟨rfl, rfl⟩ := h
    -- It rested, so the wake was none of a suspended request.
    have hasync : v.link.request.isAsync = false := by
      rw [hq]
      rfl
    have hawake : { v.link with request := .request }.Awake := Link.awake_of_ne (ha.ne hasync)
    have htaken : { v.link with request := .request }.Cycles :=
      hk.awake (.same hk.numbered rfl rfl fun h => h) rfl (.inr ⟨hasync, rfl⟩) ha hawake rfl
        (Nat.le_refl _)
    obtain ⟨hcycles, hawake⟩ := cycles_disarmed htaken hawake
    exact hcycles.next hawake _
  · obtain ⟨rfl, rfl⟩ := h
    exact hk.next ha _

private theorem await_kept (hv : Ready .await v) (hk : v.link.Cycles) (h : Plan.await v o w) :
    Kept o w := by
  obtain ⟨hm, hr, -⟩ := hv.expects
  unfold Plan.await at h
  generalize v.link.stream.poll.2 = stream at h
  have hne : v.link.machine.state ≠ .cometSuspend := hm.trans_ne nofun
  have hpolled : { v.link with stream }.Cycles := hk.same rfl rfl rfl rfl
  have hawake : { v.link with stream }.Awake := Link.awake_of_ne hne
  rcases h with ⟨kind, rfl, rfl⟩ | ⟨rfl, rfl⟩ | ⟨reason, -, rfl, rfl⟩ | ⟨rfl, rfl⟩ | ⟨rfl, rfl⟩ | h
  · exact ended_of hpolled hr hawake
  · exact hpolled.next hawake _
  · exact ended_of hpolled hr hawake
  · exact ended_of hpolled hr hawake
  · exact hpolled.next hawake _
  · have hrest : v.link.request.rest = .ok .keepalive := by
      rw [hr]
      rfl
    simp only [link_put, hrest] at h
    have hwait : { v.link with
        stream
        request := .keepalive
        waitGeneration := v.link.waitGeneration + 1 }.Ended := by
      refine ⟨hpolled.awake (.same hk.numbered rfl rfl fun h => h) rfl (.inr ⟨?_, rfl⟩) hawake
        (Link.awake_of_ne hne) rfl (Nat.le_succ _), .inr (.inr ⟨rfl, Link.awake_of_ne hne⟩)⟩
      exact congrArg (·.isAsync) hr
    rcases h with ⟨rfl, rfl⟩ | ⟨t, u, hu, h⟩
    · exact hwait.toCycles.mishap (Link.awake_of_ne hne) rfl
    · have hended := hu.ended ⟨hwait.toCycles.same rfl rfl rfl rfl, hwait.exempt⟩
      have hawake := hu.awake (Link.awake_of_ne hne)
      rcases h with ⟨rfl, rfl⟩ | ⟨rfl, rfl⟩ | h
      · exact hended
      · exact hended.toCycles.next hawake _
      · exact declined_kept hended.toCycles hawake h

/-- A request that was not woken is parked, and one that was is taken up at once. -/
private theorem park_kept (h : Plan.park v o w) (hk : v.link.Cycles) (hc : v.link.closed = false)
    (hm : v.link.machine.state = .cometSuspend)
    (hr : v.link.request = .asyncStart ∨ v.link.request = .asyncWake)
    (hlate : v.link.isTimedOut = false) : Kept o w := by
  obtain ⟨hf, hwakes⟩ := hk.stage.of_begun hc hr
  unfold Plan.park at h
  -- Parked, it waits for a wake; woken already, it goes on at once and is not late.
  rcases hr with hr | hr
  · rw [hr] at h
    obtain ⟨rfl, rfl⟩ := h
    have hquiet : Link.Quiet v.link { v.link with request := .suspend, step := none } :=
      .same hk.numbered rfl rfl fun h => h
    exact ⟨hk.toRecorded.quiet hquiet, hk.timed, .parked hc rfl hm (hquiet.fresh hf)
      (hquiet.wakes_eq_zero (hwakes hr)) hlate⟩
  · rw [hr] at h
    obtain ⟨rfl, rfl⟩ := h
    have hquiet : Link.Quiet v.link { v.link with request := .request } :=
      .same hk.numbered rfl rfl fun h => h
    exact cycles_resume (hk.toRecorded.quiet hquiet) hk.timed hc rfl hm (hquiet.fresh hf)
      fun h => nomatch hlate.symm.trans h

private theorem suspend_kept (hv : Ready .suspend v) (hk : v.link.Cycles)
    (h : Plan.suspend v o w) : Kept o w := by
  obtain ⟨hm, hr, -⟩ := hv.expects
  unfold Plan.suspend at h
  split at h
  · next hclosing =>
    obtain ⟨rfl, rfl⟩ := h
    exact ⟨hk, .inr (.inl (.inl hclosing))⟩
  obtain ⟨machine, hm', h⟩ := transition_moves (m := .cometSuspend)
    (by rcases hm with hm | hm <;> rw [hm] <;> rfl) h
  have hawake : v.link.Awake := by
    refine Link.awake_of_ne ?_
    rcases hm with hm | hm <;> exact hm.trans_ne nofun
  have hwait : { v.link with
      machine
      waitGeneration := v.link.waitGeneration + 1 }.Cycles :=
    hk.awake (.same hk.numbered rfl rfl fun h => h) rfl (.inl rfl) hawake (fun _ => hr) rfl
      (Nat.le_succ _)
  rcases h with ⟨rfl, rfl⟩ | ⟨t, h⟩
  · exact hwait.mishap (fun _ => hr) rfl
  · -- No deadline fired of the wait that begins here.
    have hlate : (v.link.expiredGeneration == some (v.link.waitGeneration + 1)) = false :=
      beq_eq_false_iff_ne.2 fun he => Nat.not_succ_le_self _ (hk.timed hv.closed _ he)
    exact park_kept h (hwait.same rfl rfl rfl rfl) hv.closed hm' hr hlate

/-- The handler is told of a deadline that no wake came before. -/
private theorem expire_kept {m : State} (h : Plan.expire v o w) (hs : Serving .none m v)
    (hm : m ≠ .cometSuspend) (hk : (v.link.note (.began .suspendTimeout)).Cycles) : Kept o w := by
  obtain ⟨ending, u, ⟨x, hx, rfl⟩, h⟩ := h
  have hbegan : Serving .none m (v.put (v.link.note (.began .suspendTimeout))) :=
    ⟨hs.closed, hs.queue, hs.machine, hs.asked⟩
  have hsx := Serving.served hx hbegan
  have hcycles := hx.cycles hbegan hm hk
  have hawake : x.link.Awake := Link.awake_of_ne (hsx.machine.trans_ne hm)
  have hended : (x.link.note (.ended .suspendTimeout ending)).Ended :=
    ended_of (hcycles.note rfl) hsx.asked.refused.1 hawake
  split at h
  · obtain ⟨rfl, rfl⟩ := h
    exact hended
  · obtain ⟨rfl, rfl⟩ := h
    rcases Link.flushed_cases (x.link.note (.ended .suspendTimeout ending)) with
      ⟨stream, hf | ⟨kind, hf⟩⟩
    · rw [Kept, link_put, link_put, hf]
      exact ⟨hended.toCycles.same rfl rfl rfl rfl, hended.exempt⟩
    · have hstream : { x.link.note (.ended .suspendTimeout ending) with stream }.Cycles :=
        hended.toCycles.same rfl rfl rfl rfl
      rw [Kept, link_put, link_put, hf]
      exact hstream.mishap hawake rfl

/-- For its deadline the handler is told of a request that nobody woke, and otherwise
it takes it up. -/
private theorem resume_kept {timedOut : Bool} (hv : Ready (.resume timedOut) v)
    (hs : v.link.step = some (.resume timedOut)) (hk : v.link.Cycles)
    (h : Plan.resume timedOut v o w) : Kept o w := by
  obtain ⟨hm, hr, hp⟩ := hv.expects
  obtain ⟨machine, hm', h⟩ := transition_moves (m := .cometActive) (by rw [hm]; rfl) h
  obtain ⟨hf, hlate⟩ := hk.stage.of_taken hv.closed hr hm
  have hne : machine.state ≠ .cometSuspend := hm'.trans_ne nofun
  have hasync : v.link.request.isAsync = false := congrArg (·.isAsync) hr
  have hquiet : Link.Quiet v.link { v.link with machine, comet := none } :=
    .same hk.numbered rfl rfl fun h => h
  have hrecorded := hk.toRecorded.quiet hquiet
  have hfresh := hquiet.fresh hf
  unfold Plan.write at h
  -- It is late, it is to close, or the handler takes it up.
  split at h
  · next htimedOut =>
    have hzero : v.link.wakes v.link.cometGeneration = 0 := by
      refine hlate ?_
      unfold Link.isLate
      rw [hs]
      exact htimedOut
    obtain ⟨hrecorded, hwakes⟩ := hrecorded.expire hfresh (hquiet.wakes_eq_zero hzero)
    exact expire_kept h (serving_of hv.closed hv.queue hr hp) hne
      ⟨hrecorded, hk.timed, .ended hv.closed hasync hne (Link.answered_of_wakes hwakes)⟩
  · split at h
    · next hclosing =>
      obtain ⟨rfl, rfl⟩ := h
      exact ended_of ⟨hrecorded, hk.timed, .ended hv.closed hasync hne
        (Link.answered_of_closing hclosing _)⟩ hr (Link.awake_of_ne hne)
    · obtain ⟨hrecorded, hresumes⟩ := hrecorded.resume hfresh
      rcases hook_kept h (serving_of hv.closed hv.queue hr hp) hne (.inr (.inr rfl))
        ⟨hrecorded, hk.timed, .ended hv.closed hasync hne fun _ => .inl hresumes⟩ with
        hd | ⟨keep, u, hu, hcycles, h⟩
      · exact hd
      rcases flush_kept h hu hne hcycles with hd | ⟨x, hx, hcycles, rfl, rfl⟩
      · exact hd
      · exact hcycles.next (Link.awake_of_ne (hx.machine.trans_ne hne)) _

private theorem upgrade_kept (hv : Ready .upgrade v) (hk : v.link.Cycles)
    (h : Plan.upgrade v o w) : Kept o w := by
  obtain ⟨hm, -, -⟩ := hv.expects
  obtain ⟨machine, hm', t, rfl, rfl⟩ := transition_moves (m := .duplex) (by rw [hm]; rfl) h
  have hne : machine.state ≠ .cometSuspend := hm'.trans_ne nofun
  exact ((moved hk (hm.trans_ne nofun) hne).next (Link.awake_of_ne hne) (some (.listen t))).same
    rfl rfl rfl rfl

private theorem service_kept (hv : Ready .service v) (hk : v.link.Cycles)
    (h : Plan.service v o w) : Kept o w := by
  obtain ⟨hm, hr, hp⟩ := hv.expects
  obtain ⟨machine, hm', h⟩ := transition_moves (m := .duplexActive) (by rw [hm]; rfl) h
  have hne : machine.state ≠ .cometSuspend := hm'.trans_ne nofun
  rcases hook_kept h (serving_of hv.closed hv.queue hr hp) hne (.inl rfl)
    ((moved hk (hm.trans_ne nofun) hne).note rfl) with hd | ⟨keep, u, hu, hcycles, h⟩
  · exact hd
  rcases flush_kept h hu hne hcycles with hd | ⟨x, hx, hcycles, h⟩
  · exact hd
  have hnx := hx.machine.trans_ne hne
  have hended := ended_of hcycles hx.asked.refused.1 (Link.awake_of_ne hnx)
  rcases h with ⟨-, reason, -, rfl, rfl⟩ | ⟨-, -, rfl, rfl⟩ | ⟨-, -, h⟩
  · exact hended
  · exact hended
  · have hxm : x.link.machine.state = .duplexActive := hx.machine.trans hm'
    obtain ⟨machine', hm'', t, rfl, rfl⟩ := transition_moves (m := .duplex)
      (by show x.link.machine.state.next? _ = _; rw [hxm]; rfl) h
    have hne' : machine'.state ≠ .cometSuspend := hm''.trans_ne nofun
    exact ((moved hcycles hnx hne').next (Link.awake_of_ne hne') (some (.listen t))).same
      rfl rfl rfl rfl

/-- **Each step leaves the suspended requests of its link as they should be.** -/
theorem Ready.kept {step : Step} (hv : Ready step v) (hs : v.link.step = some step)
    (hk : v.link.Cycles) (h : plan step v o w) : Kept o w := by
  cases step with
  | accept => exact accept_kept hv hk h
  | resumeParked => exact resumeParked_kept hv hs hk h
  | dispatch => exact dispatch_kept hv hk h
  | after keep => exact after_kept hv hk h
  | rest killed => exact rest_kept hv hk h
  | await => exact await_kept hv hk h
  | block =>
    refine wait_kept ?_ ?_ hv hk h
    · intro u hu
      exact ⟨hu.expects.2.1, Link.awake_of_ne (hu.expects.1.trans_ne nofun)⟩
    · intro u hu stream
      exact ⟨hu.closed, hu.queue, hu.expects⟩
  | suspend => exact suspend_kept hv hk h
  | resume timedOut => exact resume_kept hv hs hk h
  | upgrade => exact upgrade_kept hv hk h
  | listen deadline =>
    refine wait_kept ?_ ?_ hv hk h
    · intro u hu
      exact ⟨hu.expects.2.1, Link.awake_of_ne (hu.expects.1.trans_ne nofun)⟩
    · intro u hu stream
      exact ⟨hu.closed, hu.queue, hu.expects⟩
  | service => exact service_kept hv hk h

/-! ## Turns -/

private theorem Kept.concluded (hd : Kept o v) (h : Concluded v o w) (hr : ∀ f, o ≠ .refused f) :
    w.link.Cycles := by
  cases h with
  | next | park => exact hd
  | close h => exact h.ended hd none
  | fail ho _ h _ ht =>
    rcases ho with rfl | rfl
    · exact ht.ended (h.ended hd) none
    · exact absurd rfl (hr _)
  | panic h => exact h.ended hd none

/-- **A turn leaves the suspended requests of a link that stands as they should be.** -/
theorem Turn.cycles (h : Turn v w) (hv : Standing v) (hk : v.link.Cycles) : w.link.Cycles := by
  cases h with
  | course h => exact h.cycles hk
  | @begin k q hd i e he hc hc' =>
    refine hk.same ?_ rfl rfl rfl
    -- The task only looks at the deadline when it takes its first step.
    have hlate : { k with step := some e.step }.isLate = k.isLate := by
      unfold Link.isLate
      rw [step_eq_none hd]
      cases e <;> rfl
    show (k.closed, k.request, k.machine, k.expiredGeneration, k.waitGeneration,
      { k with step := some e.step }.isLate) = k.gist
    rw [hlate]
    rfl
  | idle => exact hk
  | doomed hd he hc hc' h => exact h.cycles hk (Link.answered_of_closing hc' _)
  | step hs h hw hc =>
    have hready := (standing_some hs).1 hv
    refine (hready.kept hs hk h).concluded hc ?_
    intro f hf
    have hdecided := hready.decided h
    subst hf
    exact hdecided

/-- A link that was just installed has no suspended requests. -/
private theorem cycles_new {i : Nat} {handler : Handler} {socket : Socket.Endpoint Operation}
    {buffers : Stream.Buffers} {notes : List Note} (hn : ∀ n ∈ notes, n.isDeed = true) :
    (Link.new i handler socket buffers notes).Cycles := by
  induction notes using List.reverseRecOn with
  | nil =>
    refine ⟨⟨rfl, fun g => ⟨Nat.zero_le 1, Nat.zero_le 1, fun _ => rfl⟩, ?_,
      fun g _ => ⟨rfl, rfl, rfl⟩⟩, fun _ e he => (nomatch he), ?_⟩
    · intro g hg
      exact absurd hg (Nat.not_lt_zero g)
    · exact .ended rfl rfl nofun (Link.answered_of_wakes rfl)
  | append_singleton notes n ih =>
    have hcounts : n.counts = false := by
      have hdeed := hn n (List.mem_append_right _ (List.mem_singleton.2 rfl))
      cases n <;> first | rfl | cases hdeed
    exact (ih fun m hm => hn m (List.mem_append_left _ hm)).note hcounts

/-- The suspended requests of a new link are as they should be. -/
theorem Started.cycles {i : Nat} {arrival : Engine.Arrival} (h : Started i arrival v) :
    v.link.Cycles := by
  have hbegun : ∀ {k : Link} {x : Stand}, k.request = .init → k.machine = {} → k.Cycles →
      Course ⟨k, []⟩ x → { x.link with request := .request }.Ended := by
    intro k x hr hm hk hx
    have hheld := hx.held (congrArg (·.isParked) hr)
    -- Nobody can wake a link that was not started.
    have hrequest : x.link.request = .init := by
      rcases hheld.request with h | ⟨h, -⟩
      · exact h.trans hr
      · exact nomatch hr.symm.trans h
    have hne : x.link.machine.state ≠ .cometSuspend := by
      rw [hheld.machine]
      exact hm ▸ nofun
    have hcycles := hx.cycles hk
    refine ended_of ?_ rfl (Link.awake_of_ne hne)
    exact hcycles.awake (.same hcycles.numbered rfl rfl fun h => h) rfl
      (.inr ⟨congrArg (·.isAsync) hrequest, rfl⟩) (Link.awake_of_ne hne) (Link.awake_of_ne hne) rfl
      (Nat.le_refl _)
  cases h with
  | queued _ hn h => exact (hbegun rfl rfl (cycles_new hn) h).toCycles
  | refused _ hn h ht =>
    have hended := hbegun rfl rfl (cycles_new hn) h
    exact (ht.cycles hended.toCycles hended.answered).same rfl rfl rfl rfl

end Stand

end LinkEngine

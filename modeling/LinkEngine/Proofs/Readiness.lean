import LinkEngine.Proofs.Standing

/-!
# Each step finds what it expects

A step of a task leads from what it expects of its link to what the next step
expects, or gives the link away as one that nobody drives (`Ready.decided`). On the
way no move of the lifecycle and no move of the ownership state is refused: the
proof goes through the plans of the steps, and through the hooks they call, which
ask for upgrades only where they may and once.
-/

namespace LinkEngine.Stand

open Connection (CloseReason State Request)
open Link (Ending Entry Outcome Pending Step Upgrades)

variable {v w u : Stand} {o : Outcome}

/-! ## Hooks -/

section Hooks

variable {upgrades : Upgrades} {m : State}

theorem Serving.course (h : Course v w) (hv : Serving upgrades m v) :
    Serving upgrades m w := by
  have hheld := h.held hv.asked.isParked
  refine ⟨hheld.closed.trans hv.closed, hheld.queue.trans hv.queue,
    (congrArg _ hheld.machine).trans hv.machine, ?_⟩
  rw [hheld.pending]
  -- A handle may wake the request while the hook that began it still runs.
  rcases hheld.request with hr | ⟨hr, hr'⟩
  · rw [hr]
    exact hv.asked
  · rw [hr']
    exact Asked.woken (hr ▸ hv.asked)

/-- An upgrade is granted only where the hook may ask for it, and once. -/
theorem checkUpgrade_ok {k : Link} {u : Link.Upgrade}
    (h : Engine.checkUpgrade k upgrades u = .ok ()) :
    upgrades.allow u = true ∧ k.pending = .none := by
  unfold Engine.checkUpgrade at h
  split at h
  · cases h
  · next hu =>
    split at h
    · cases h
    · next hp => exact ⟨by simpa using hu, Decidable.of_not_not hp⟩

theorem Serving.acted {k : Link} (h : v.link.Acted upgrades k)
    (hv : Serving upgrades m v) : Serving upgrades m (v.put k) := by
  cases h with
  | stream | kill | twoWay => exact ⟨hv.closed, hv.queue, hv.machine, hv.asked⟩
  | comet hk =>
    unfold Engine.startComet at hk
    split at hk
    · cases hk
    · next hcheck =>
      obtain ⟨hu, hp⟩ := checkUpgrade_ok hcheck
      split at hk
      · cases hk
      · next r hr =>
        cases hk
        refine ⟨hv.closed, hv.queue, hv.machine, .comet _ ?_ (.inl ?_)⟩
        · rintro rfl
          cases hu
        · unfold Request.beginAsync Request.move at hr
          split at hr <;> cases hr
          rfl
  | duplex hk =>
    unfold Engine.startDuplex at hk
    split at hk
    · cases hk
    · next hcheck =>
      cases hk
      obtain ⟨hu, hp⟩ := checkUpgrade_ok hcheck
      have hany : upgrades = .any := by
        cases upgrades with
        | any => rfl
        | none => cases hu
        | comet => cases hu
      -- Nothing was asked for before, so the ownership state is the task's own.
      have hr : v.link.request = .request := Asked.of_none (hp ▸ hv.asked)
      refine ⟨hv.closed, hv.queue, hv.machine, ?_⟩
      show Asked upgrades v.link.request .duplex
      rw [hr]
      exact .duplex hany

theorem Serving.served (h : Served upgrades v w) (hv : Serving upgrades m v) :
    Serving upgrades m w := by
  induction h with
  | refl => exact hv
  | course h _ ih => exact ih (hv.course h)
  | acted h _ ih => exact ih (hv.acted h)

/-- What a hook leaves behind when it was called on a link that had not asked for
anything. -/
theorem Serving.hooked {hook : Hook} {ending : Ending}
    (h : Hooked hook upgrades v ending w) (hv : Serving upgrades m v) :
    Serving upgrades m w := by
  obtain ⟨u, hu, rfl⟩ := h
  have hs : Serving upgrades m u :=
    Serving.served hu ⟨hv.closed, hv.queue, hv.machine, hv.asked⟩
  exact ⟨hs.closed, hs.queue, hs.machine, hs.asked⟩

end Hooks

/-! ## Steps -/

/-- What a step decided fits where it left the link: nothing was refused, the
next step finds what it expects, a link that is given away is loose, and one that is to be
closed is open still; only after a panic it may be gone already. -/
def Decided : Outcome → Stand → Prop
  | .next step, w => Ready step w
  | .park, w => Loose w
  | .refused _, _ => False
  | .close _, w | .fail _, w => w.link.closed = false
  | .panic, w => w.link.closed = true → Gone w

private theorem decided_of_open (hc : w.link.closed = false)
    (ho : (∃ r, o = .close r) ∨ (∃ f, o = .fail f) ∨ o = .panic) : Decided o w := by
  rcases ho with ⟨r, rfl⟩ | ⟨f, rfl⟩ | rfl
  · exact hc
  · exact hc
  · exact fun h => absurd h (Bool.eq_false_iff.1 hc)

/-- The lifecycle moves where the table says so. -/
theorem transition_enters {e : Connection.Event} {m : State} {go : Plan}
    (hm : v.link.machine.state.next? e = some m) (h : Plan.transition e go v o w) :
    go (v.put { v.link with machine := v.link.machine.enter m }) o w := by
  unfold Plan.transition Link.transition Connection.Machine.apply at h
  rwa [hm] at h

theorem transition_moves {e : Connection.Event} {m : State} {go : Plan}
    (hm : v.link.machine.state.next? e = some m) (h : Plan.transition e go v o w) :
    ∃ machine, machine.state = m ∧ go (v.put { v.link with machine }) o w :=
  ⟨_, Connection.Machine.state_enter _ m, transition_enters hm h⟩

/-- A hook that was called goes on, or the link fails while it is open. -/
private theorem hook_serving {hook : Hook} {upgrades : Upgrades} {m : State} {go : Bool → Plan}
    (h : Plan.hook hook upgrades go v o w) (hv : Serving upgrades m v) :
    Decided o w ∨ ∃ keep u, Serving upgrades m u ∧ go keep u o w := by
  obtain ⟨ending, u, hu, h⟩ := h
  have hs := Serving.hooked hu hv
  cases ending with
  | returned keep => exact .inr ⟨keep, u, hs, h⟩
  | failed f =>
    obtain ⟨rfl, rfl⟩ := h
    exact .inl (decided_of_open hs.closed (.inr (.inl ⟨f, rfl⟩)))
  | panicked =>
    obtain ⟨rfl, rfl⟩ := h
    exact .inl (decided_of_open hs.closed (.inr (.inr rfl)))

/-- A flush goes on, or the link fails while it is open. -/
private theorem flush_serving {upgrades : Upgrades} {m : State} {go : Plan}
    (h : Plan.flush go v o w) (hv : Serving upgrades m v) :
    Decided o w ∨ ∃ u, Serving upgrades m u ∧ go u o w := by
  obtain ⟨stream, ⟨kind, rfl, rfl⟩ | h⟩ := Plan.flush_cases h
  · exact .inl (decided_of_open hv.closed (.inr (.inl ⟨_, rfl⟩)))
  · exact .inr ⟨v.put { v.link with stream }, ⟨hv.closed, hv.queue, hv.machine, hv.asked⟩, h⟩

private theorem close_decided {own : CloseReason} (h : Plan.close own v o w)
    (hc : v.link.closed = false) : Decided o w := by
  obtain ⟨reason, -, rfl, rfl⟩ := h
  exact decided_of_open hc (.inl ⟨reason, rfl⟩)

/-- A hook finds the link as a step left it that asks for nothing. -/
theorem serving_of {upgrades : Upgrades} (hc : v.link.closed = false) (hq : v.queue = [])
    (hr : v.link.request = .request) (hp : v.link.pending = .none) :
    Serving upgrades v.link.machine.state v := by
  refine ⟨hc, hq, rfl, ?_⟩
  rw [hr, hp]
  exact .nothing

private theorem accept_decided (hv : Ready .accept v) (h : Plan.accept v o w) : Decided o w := by
  obtain ⟨hm, hr, hp⟩ := hv.expects
  obtain ⟨machine, hm', stream, -, h⟩ := transition_moves (by rw [hm]; rfl) h
  rcases h with ⟨kind, rfl, rfl⟩ | h
  · exact decided_of_open hv.closed (.inr (.inl ⟨_, rfl⟩))
  · rcases hook_serving h (serving_of hv.closed hv.queue hr hp) with hd | ⟨keep, u, hu, rfl, rfl⟩
    · exact hd
    · exact ⟨hu.closed, hu.queue, .inl (hu.machine.trans hm'), hu.asked.refused⟩

/-- Taking back a deadline leaves what steps go by. -/
theorem disarmed_same (k : Link) : k.disarmed.closed = k.closed ∧
    k.disarmed.machine = k.machine ∧ k.disarmed.request = k.request ∧
    k.disarmed.pending = k.pending := by
  unfold Link.disarmed
  split <;> exact ⟨rfl, rfl, rfl, rfl⟩

private theorem Ready.disarmed {step : Step} (h : Ready step v) :
    Ready step (v.put v.link.disarmed) := by
  obtain ⟨hc, hm, hr, hp⟩ := disarmed_same v.link
  refine ⟨hc.trans h.closed, h.queue, ?_⟩
  show Expects step v.link.disarmed.machine.state v.link.disarmed.request v.link.disarmed.pending
  rw [hm, hr, hp]
  exact h.expects

private theorem resumeParked_decided (hv : Ready .resumeParked v) (h : Plan.resumeParked v o w) :
    Decided o w := by
  obtain ⟨hm, hr, hp⟩ := hv.expects
  obtain ⟨rfl, h⟩ := h
  -- It was parked between two requests or within a suspended one.
  rcases hm with hm | hm
  · rw [hm] at h
    subst h
    split
    · exact decided_of_open hv.disarmed.closed (.inl ⟨_, rfl⟩)
    · exact Ready.disarmed ⟨hv.closed, hv.queue, hm, hr, hp⟩
  · rw [hm] at h
    subst h
    exact Ready.disarmed ⟨hv.closed, hv.queue, hm, hr, hp⟩

private theorem dispatch_decided (hv : Ready .dispatch v) (h : Plan.dispatch v o w) :
    Decided o w := by
  obtain ⟨hm, hr, hp⟩ := hv.expects
  obtain ⟨machine, hm', h⟩ := transition_moves (m := .active)
    (by rcases hm with hm | hm <;> rw [hm] <;> rfl) h
  rcases hook_serving h (serving_of hv.closed hv.queue hr rfl) with hd | ⟨keep, u, hu, h⟩
  · exact hd
  · rcases flush_serving h hu with hd | ⟨x, hx, rfl, rfl⟩
    · exact hd
    · exact ⟨hx.closed, hx.queue, .inl ⟨hx.machine.trans hm', hx.asked⟩⟩

private theorem after_decided {keep : Bool} (hv : Ready (.after keep) v)
    (h : Plan.after keep v o w) : Decided o w := by
  have hc := hv.closed
  have hq := hv.queue
  have hx := hv.expects
  have hm : v.link.machine.state = .active ∨ v.link.machine.state = .cometActive := by
    rcases hx with ⟨hm, -⟩ | ⟨hm, -⟩
    · exact .inl hm
    · exact .inr hm
  unfold Plan.after at h
  split at h
  · next hp =>
    obtain ⟨rfl, rfl⟩ := h
    rw [hp] at hx
    refine ⟨hc, hq, ?_⟩
    -- A request that was taken up again cannot ask for a two-way stream.
    rcases hx with ⟨hm, ha⟩ | ⟨-, ha⟩
    · exact ⟨hm, ha.of_duplex.2, rfl⟩
    · exact nomatch ha.of_duplex.1
  · next c hp =>
    obtain ⟨rfl, rfl⟩ := h
    rw [hp] at hx
    refine ⟨hc, hq, hm, ?_, rfl⟩
    rcases hx with ⟨-, ha⟩ | ⟨-, ha⟩ <;> exact ha.of_comet
  · next hp =>
    obtain ⟨⟨killed, -, rfl⟩, rfl⟩ := h
    rw [hp] at hx
    refine ⟨hc, hq, hm, ?_, hp⟩
    rcases hx with ⟨-, ha⟩ | ⟨-, ha⟩ <;> exact ha.of_none

/-- A request that is served ends: the connection rests, or it closes. -/
theorem finish_served {m : Connection.Machine}
    (hm : m.state = .active ∨ m.state = .cometActive) (killed : Bool) :
    ∃ m', m.finish killed = .ok m' ∧ (m'.state.isClosed = false → m'.state = .keepalive) := by
  -- Whether it rests or closes, the table has the move.
  have hkeep : m.state.next? .keepalive = some .keepalive := by
    rcases hm with hm | hm <;> rw [hm] <;> rfl
  have hclose : m.state.next? .close = some .closed := by
    rcases hm with hm | hm <;> rw [hm] <;> rfl
  unfold Connection.Machine.finish Connection.Machine.apply
  rw [hkeep]
  cases killed with
  | true =>
    simp only [if_true, hclose]
    refine ⟨_, rfl, ?_⟩
    intro h
    rw [Connection.Machine.state_enter] at h
    cases h
  | false =>
    simp only [Bool.false_eq_true, if_false, hkeep]
    exact ⟨_, rfl, fun _ => Connection.Machine.state_enter m .keepalive⟩

private theorem rest_decided {killed : Bool} (hv : Ready (.rest killed) v)
    (h : Plan.rest killed v o w) : Decided o w := by
  obtain ⟨hm, hr, hp⟩ := hv.expects
  obtain ⟨m, hfinish, hm'⟩ := finish_served hm killed
  unfold Plan.rest Plan.write at h
  simp only [link_put, hfinish] at h
  split at h
  · exact close_decided h hv.closed
  · next hc =>
    obtain ⟨t, rfl, rfl⟩ := h
    exact ⟨hv.closed, hv.queue, hm' (Bool.not_eq_true _ ▸ hc), hr, hp⟩

/-- A link that nobody drives and that rests, rests in its lifecycle too. -/
private theorem Idle.of_keepalive {m : State} {q : List Entry} (h : Idle m .keepalive q) :
    m = .keepalive ∧ q = [] := by
  cases h
  exact ⟨rfl, rfl⟩

/-- A link that was handed to the multiplexer is taken back only where it still
rests. -/
private theorem declined_decided (h : Plan.declined v o w) (hv : Loose v) : Decided o w := by
  unfold Plan.declined at h
  split at h
  · next r hr =>
    obtain ⟨hq, rfl⟩ := Request.wakeKeepalive_eq_resume hr
    obtain ⟨rfl, rfl⟩ := h
    cases hv with
    | gone hg => rw [hg.request] at hq; cases hq
    | idle hc hp hi =>
      rw [hq] at hi
      obtain ⟨hm, hqueue⟩ := hi.of_keepalive
      exact Ready.disarmed (v := v.put { v.link with request := .request })
        ⟨hc, hqueue, hm, rfl, hp⟩
  · obtain ⟨rfl, rfl⟩ := h
    exact hv

private theorem register_decided (h : Plan.register v o w) (hv : Loose v) : Decided o w := by
  obtain ⟨u, hu, h⟩ := h
  have hloose := hv.course hu
  rcases h with ⟨rfl, rfl⟩ | ⟨rfl, rfl⟩ | h
  · intro hc
    cases hloose with
    | gone hg => exact hg
    | idle hc' => rw [hc] at hc'; cases hc'
  · exact hloose
  · exact declined_decided h hloose

private theorem await_decided (hv : Ready .await v) (h : Plan.await v o w) : Decided o w := by
  obtain ⟨hm, hr, hp⟩ := hv.expects
  unfold Plan.await at h
  generalize v.link.stream.poll.2 = stream at h
  rcases h with ⟨kind, rfl, rfl⟩ | ⟨rfl, rfl⟩ | h | ⟨rfl, rfl⟩ | ⟨rfl, rfl⟩ | h
  · exact decided_of_open hv.closed (.inr (.inl ⟨_, rfl⟩))
  · exact ⟨hv.closed, hv.queue, .inr hm, hr, hp⟩
  · exact close_decided h hv.closed
  · exact decided_of_open hv.closed (.inl ⟨_, rfl⟩)
  · exact ⟨hv.closed, hv.queue, hm, hr, hp⟩
  · -- The link is handed over: from here on somebody else may take it.
    have hrest : v.link.request.rest = .ok .keepalive := by
      rw [hr]
      rfl
    simp only [link_put, hrest] at h
    rcases h with ⟨rfl, rfl⟩ | ⟨t, h⟩
    · exact decided_of_open hv.closed (.inr (.inl ⟨_, rfl⟩))
    · refine register_decided h (.idle hv.closed hp ?_)
      show Idle v.link.machine.state .keepalive v.queue
      rw [hm, hv.queue]
      exact .resting

private theorem wait_decided {step ready idle : Step} {late : CloseReason} (hv : Ready step v)
    (hready : ∀ u, Ready step u → Ready ready u) (hidle : ∀ u, Ready step u → Ready idle u)
    (hstream : ∀ u : Stand, Ready step u → ∀ stream, Ready step (u.put { u.link with stream }))
    (h : Plan.wait ready idle late v o w) : Decided o w := by
  rcases h with h | ⟨-, ⟨rfl, rfl⟩ | ⟨u, hu, h⟩⟩
  · exact close_decided h hv.closed
  · exact decided_of_open hv.closed (.inl ⟨_, rfl⟩)
  · -- Others had their way during the wait, and the link is as ready as before it.
    have hu := (hstream v hv _).course hu
    rcases h with ⟨kind, rfl, rfl⟩ | ⟨rfl, rfl⟩ | ⟨rfl, rfl⟩ | h
    · exact decided_of_open hu.closed (.inr (.inl ⟨_, rfl⟩))
    · exact hready _ hu
    · exact hidle _ hu
    · exact close_decided h hu.closed

private theorem park_decided (h : Plan.park v o w) (hc : v.link.closed = false)
    (hq : v.queue = []) (hm : v.link.machine.state = .cometSuspend)
    (hr : v.link.request = .asyncStart ∨ v.link.request = .asyncWake)
    (hp : v.link.pending = .none) : Decided o w := by
  unfold Plan.park at h
  -- No wake came yet, and the link is parked; or one did, and it goes on.
  rcases hr with hr | hr
  · rw [hr] at h
    obtain ⟨rfl, rfl⟩ := h
    refine .idle hc hp ?_
    show Idle v.link.machine.state .suspend v.queue
    rw [hm, hq]
    exact .suspended
  · rw [hr] at h
    obtain ⟨rfl, rfl⟩ := h
    exact Ready.disarmed (v := v.put { v.link with request := .request }) ⟨hc, hq, hm, rfl, hp⟩

private theorem suspend_decided (hv : Ready .suspend v) (h : Plan.suspend v o w) :
    Decided o w := by
  obtain ⟨hm, hr, hp⟩ := hv.expects
  unfold Plan.suspend at h
  split at h
  · obtain ⟨rfl, rfl⟩ := h
    exact decided_of_open hv.closed (.inl ⟨_, rfl⟩)
  · obtain ⟨machine, hm', h⟩ := transition_moves (m := .cometSuspend)
      (by rcases hm with hm | hm <;> rw [hm] <;> rfl) h
    rcases h with ⟨rfl, rfl⟩ | ⟨t, h⟩
    · exact decided_of_open hv.closed (.inr (.inl ⟨_, rfl⟩))
    · exact park_decided h hv.closed hv.queue hm' hr hp

private theorem expire_decided {m : State} (h : Plan.expire v o w) (hv : Serving .none m v) :
    Decided o w := by
  obtain ⟨ending, u, hu, h⟩ := h
  have hs := Serving.hooked hu hv
  split at h
  · obtain ⟨rfl, rfl⟩ := h
    exact decided_of_open hs.closed (.inr (.inr rfl))
  · obtain ⟨rfl, rfl⟩ := h
    refine decided_of_open ?_ (.inl ⟨_, rfl⟩)
    obtain ⟨stream, hf | ⟨kind, hf⟩⟩ := u.link.flushed_cases <;>
    · rw [link_put, hf]
      exact hs.closed

private theorem resume_decided {timedOut : Bool} (hv : Ready (.resume timedOut) v)
    (h : Plan.resume timedOut v o w) : Decided o w := by
  obtain ⟨hm, hr, hp⟩ := hv.expects
  obtain ⟨machine, hm', h⟩ := transition_moves (m := .cometActive) (by rw [hm]; rfl) h
  -- It is late, it is to close, or the handler takes it up.
  unfold Plan.write at h
  split at h
  · exact expire_decided h (serving_of hv.closed hv.queue hr hp)
  · split at h
    · obtain ⟨rfl, rfl⟩ := h
      exact decided_of_open hv.closed (.inl ⟨_, rfl⟩)
    · rcases hook_serving h (serving_of hv.closed hv.queue hr hp) with hd | ⟨keep, u, hu, h⟩
      · exact hd
      · rcases flush_serving h hu with hd | ⟨x, hx, rfl, rfl⟩
        · exact hd
        · exact ⟨hx.closed, hx.queue, .inr ⟨hx.machine.trans hm', hx.asked⟩⟩

private theorem upgrade_decided (hv : Ready .upgrade v) (h : Plan.upgrade v o w) :
    Decided o w := by
  obtain ⟨hm, hr, hp⟩ := hv.expects
  obtain ⟨machine, hm', t, rfl, rfl⟩ := transition_moves (m := .duplex) (by rw [hm]; rfl) h
  exact ⟨hv.closed, hv.queue, hm', hr, hp⟩

private theorem service_decided (hv : Ready .service v) (h : Plan.service v o w) :
    Decided o w := by
  obtain ⟨hm, hr, hp⟩ := hv.expects
  obtain ⟨machine, hm', h⟩ := transition_moves (m := .duplexActive) (by rw [hm]; rfl) h
  rcases hook_serving h (serving_of hv.closed hv.queue hr hp) with hd | ⟨keep, u, hu, h⟩
  · exact hd
  · rcases flush_serving h hu with hd | ⟨x, hx, h⟩
    · exact hd
    · rcases h with ⟨-, h⟩ | ⟨-, -, rfl, rfl⟩ | ⟨-, -, h⟩
      · exact close_decided h hx.closed
      · exact decided_of_open hx.closed (.inl ⟨_, rfl⟩)
      · have hx' : x.link.machine.state = .duplexActive := hx.machine.trans hm'
        obtain ⟨machine', hm'', t, rfl, rfl⟩ := transition_moves (m := .duplex)
          (by show x.link.machine.state.next? _ = _; rw [hx']; rfl) h
        exact ⟨hx.closed, hx.queue, hm'', hx.asked.refused⟩

/-- **Each step leads from what it expects to what the next one expects, and
nothing is refused.** -/
theorem Ready.decided {step : Step} (hv : Ready step v) (h : plan step v o w) : Decided o w := by
  cases step with
  | accept => exact accept_decided hv h
  | resumeParked => exact resumeParked_decided hv h
  | dispatch => exact dispatch_decided hv h
  | after keep => exact after_decided hv h
  | rest killed => exact rest_decided hv h
  | await => exact await_decided hv h
  | block =>
    refine wait_decided hv ?_ (fun u hu => hu) ?_ h
    · intro u hu
      exact ⟨hu.closed, hu.queue, .inr hu.expects.1, hu.expects.2⟩
    · intro u hu stream
      exact ⟨hu.closed, hu.queue, hu.expects⟩
  | suspend => exact suspend_decided hv h
  | resume timedOut => exact resume_decided hv h
  | upgrade => exact upgrade_decided hv h
  | listen deadline =>
    refine wait_decided hv ?_ (fun u hu => hu) ?_ h
    · intro u hu
      exact ⟨hu.closed, hu.queue, hu.expects⟩
    · intro u hu stream
      exact ⟨hu.closed, hu.queue, hu.expects⟩
  | service => exact service_decided hv h

end LinkEngine.Stand

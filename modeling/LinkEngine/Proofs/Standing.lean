import LinkEngine.Proofs.Plan

/-!
# Ways to stand

Between the steps of its task a link is `Ready` for the next of them: the
lifecycle, the ownership state and the upgrade that was asked for are what that
step expects, and no other task is queued. While nobody drives it, it is `Loose`:
it waits for its first task, is parked, was taken over and waits for the task
that takes it up, or is gone. Whatever others do, they disturb neither
(`Ready.course`, `Loose.course`).
-/

namespace LinkEngine.Stand

open Connection (CloseReason State Request)
open Link (Ending Entry Outcome Pending Step Upgrades)

variable {v w u : Stand} {o : Outcome}

/-! ## The ways to stand -/

/-- The lifecycle, the ownership state and the pool, for an open link that nobody
drives. -/
inductive Idle : State → Request → List Entry → Prop where
  | starting : Idle .init .request [.accept]
  | resting : Idle .keepalive .keepalive []
  | suspended : Idle .cometSuspend .suspend []
  | taken {m : State} (hm : m = .keepalive ∨ m = .cometSuspend) : Idle m .request [.resume]

/-- The link was torn down, and everything is given back. -/
structure Gone (v : Stand) : Prop where
  closed : v.link.closed = true
  machine : v.link.machine.state = .destroyed
  request : v.link.request = .destroy
  counted : v.link.counted = false
  deadline : v.link.deadline = none

/-- Nobody drives the link. -/
inductive Loose (v : Stand) : Prop where
  | idle (hc : v.link.closed = false) (hp : v.link.pending = .none)
      (h : Idle v.link.machine.state v.link.request v.queue) : Loose v
  | gone (h : Gone v) : Loose v

/-- What a hook with these upgrades may have asked for, with the ownership state
that goes with it. -/
inductive Asked (upgrades : Upgrades) : Request → Pending → Prop where
  | nothing : Asked upgrades .request .none
  | duplex (hu : upgrades = .any) : Asked upgrades .request .duplex
  | comet {r : Request} (c : Link.Comet) (hu : upgrades ≠ .none)
      (hr : r = .asyncStart ∨ r = .asyncWake) : Asked upgrades r (.comet c)

/-- What a step expects of the lifecycle, the ownership state and the upgrade that
was asked for. -/
def Expects : Step → State → Request → Pending → Prop
  | .accept, m, r, p => m = .init ∧ r = .request ∧ p = .none
  | .resumeParked, m, r, p => (m = .keepalive ∨ m = .cometSuspend) ∧ r = .request ∧ p = .none
  | .dispatch, m, r, p => (m = .accepting ∨ m = .keepalive) ∧ r = .request ∧ p = .none
  | .after _, m, r, p => m = .active ∧ Asked .any r p ∨ m = .cometActive ∧ Asked .comet r p
  | .rest _, m, r, p => (m = .active ∨ m = .cometActive) ∧ r = .request ∧ p = .none
  | .await, m, r, p => m = .keepalive ∧ r = .request ∧ p = .none
  | .block, m, r, p => m = .keepalive ∧ r = .request ∧ p = .none
  | .suspend, m, r, p =>
    (m = .active ∨ m = .cometActive) ∧ (r = .asyncStart ∨ r = .asyncWake) ∧ p = .none
  | .resume _, m, r, p => m = .cometSuspend ∧ r = .request ∧ p = .none
  | .upgrade, m, r, p => m = .active ∧ r = .request ∧ p = .none
  | .listen _, m, r, p => m = .duplex ∧ r = .request ∧ p = .none
  | .service, m, r, p => m = .duplex ∧ r = .request ∧ p = .none

/-- The link is ready for a step of its task. -/
structure Ready (step : Step) (v : Stand) : Prop where
  closed : v.link.closed = false
  queue : v.queue = []
  expects : Expects step v.link.machine.state v.link.request v.link.pending

/-- A hook with these upgrades runs on the link, whose lifecycle is in state
`m`. -/
structure Serving (upgrades : Upgrades) (m : State) (v : Stand) : Prop where
  closed : v.link.closed = false
  queue : v.queue = []
  machine : v.link.machine.state = m
  asked : Asked upgrades v.link.request v.link.pending

/-! ## Others do not disturb -/

theorem gone_of_closed (k : Link) (q : List Entry) (hc : k.closed = true)
    (hd : k.deadline = none) : Gone ⟨k.gone, q⟩ :=
  ⟨hc, rfl, rfl, rfl, hd⟩

/-- When the close hook of a link is over, the link is gone. -/
theorem gone_of_hooked {k : Link} {q : List Entry} {reason : CloseReason}
    (hook : Course ⟨k.marked reason, q⟩ w) : Gone ⟨w.link.gone, w.queue⟩ :=
  have hc := hook.closed (Link.closed_marked k reason)
  gone_of_closed _ _ hc (hook.deadline (fun _ => Link.deadline_marked k reason) hc)

private theorem not_gone_of_parked {k : Link} {q : List Entry}
    (hp : k.request.isParked = true) : ¬ Gone ⟨k, q⟩ := by
  intro h
  rw [show k.request = .destroy from h.request] at hp
  cases hp

private theorem Gone.touched {k k' : Link} {q : List Entry} (h : Gone ⟨k, q⟩)
    (ht : k.Touched k') : Gone ⟨k', q⟩ := by
  -- What is torn down is not parked, and only parked links are woken.
  have hp : k.request.isParked = false := by
    rw [show k.request = .destroy from h.request]
    rfl
  have hheld := held_touched ht (fun _ => hp) q
  refine ⟨hheld.closed.trans h.closed, ?_, ?_, hheld.counted.trans h.counted,
    (congrArg Prod.fst ht.wait).trans h.deadline⟩
  · rw [hheld.machine]
    exact h.machine
  · rcases hheld.request with hr | ⟨hr, -⟩
    · exact hr.trans h.request
    · rw [show k.request = .destroy from h.request] at hr
      cases hr

/-- What others do to an open link leaves it open, or it is gone in the end. -/
theorem Course.gone (h : Course v w) (hv : v.link.closed = true → Gone v)
    (hc : w.link.closed = true) : Gone w := by
  induction h with
  | refl => exact hv hc
  | shift h _ ih =>
    refine ih ?_ hc
    intro hc'
    cases h with
    | touched q h => exact (hv (h.closed.symm.trans hc')).touched h
    | handed q h => exact absurd (hv (h.closed.symm.trans hc')) (not_gone_of_parked h.isParked)
  | @teardown k k' q reason w u h hook rest ihhook ihrest =>
    -- After a teardown the link is gone, wherever it stood before.
    exact ihrest (fun _ => gone_of_hooked hook) hc

/-- What is held stands where it stood, but for a request that is about to be
suspended. -/
private theorem Idle.held (h : Held v w)
    (hi : Idle v.link.machine.state v.link.request v.queue) :
    Idle w.link.machine.state w.link.request w.queue := by
  have hr : w.link.request = v.link.request := by
    -- Only a suspended request that is not parked yet can be woken in its place.
    rcases h.request with hr | ⟨hr, -⟩
    · exact hr
    · rw [hr] at hi
      generalize v.link.machine.state = m at hi
      cases hi
  rw [h.queue, h.machine, hr]
  exact hi

/-- Whoever takes over a parked link leaves it to the task that takes it up. -/
private theorem Idle.handed {k k' : Link} {q : List Entry} (h : k.Handed k')
    (hi : Idle k.machine.state k.request q) :
    Idle k'.machine.state k'.request (q ++ [.resume]) ∧ k'.pending = k.pending := by
  have hp := h.isParked
  obtain ⟨hr, hm, hpend⟩ : k'.request = .request ∧ k'.machine = k.machine ∧
      k'.pending = k.pending := by
    cases h <;> exact ⟨rfl, rfl, rfl⟩
  rw [hr, hm]
  refine ⟨?_, hpend⟩
  generalize k.machine.state = m at hi ⊢
  generalize k.request = r at hi hp
  cases hi with
  | starting | taken => cases hp
  | resting => exact .taken (.inl rfl)
  | suspended => exact .taken (.inr rfl)

/-- **Others leave a link loose that nobody drives.** -/
theorem Loose.course (h : Course v w) (hv : Loose v) : Loose w := by
  induction h with
  | refl => exact hv
  | shift h _ ih =>
    refine ih ?_
    cases h with
    | touched q h =>
      cases hv with
      | gone hg => exact .gone (hg.touched h)
      | idle hc hp hi =>
        have hheld := held_touched h (fun hc' => absurd hc' (Bool.eq_false_iff.1 hc)) q
        exact .idle (hheld.closed.trans hc) (hheld.pending.trans hp) (hi.held hheld)
    | handed q h =>
      cases hv with
      | gone hg => exact absurd hg (not_gone_of_parked h.isParked)
      | idle hc hp hi =>
        obtain ⟨hi', hp'⟩ := hi.handed h
        exact .idle (h.closed.trans hc) (hp'.trans hp) hi'
  | teardown h hook rest ihhook ihrest =>
    -- Whoever tears the link down leaves it gone, whatever its close hook did.
    exact ihrest (.gone (gone_of_hooked hook))

theorem Asked.isParked {upgrades : Upgrades} {r : Request} {p : Pending}
    (h : Asked upgrades r p) : r.isParked = false := by
  cases h with
  | nothing | duplex => rfl
  | comet c hu hr => rcases hr with rfl | rfl <;> rfl

theorem Asked.of_none {upgrades : Upgrades} {r : Request}
    (h : Asked upgrades r .none) : r = .request := by
  cases h
  rfl

theorem Asked.of_duplex {upgrades : Upgrades} {r : Request}
    (h : Asked upgrades r .duplex) : upgrades = .any ∧ r = .request := by
  cases h with
  | duplex hu => exact ⟨hu, rfl⟩

theorem Asked.of_comet {upgrades : Upgrades} {r : Request} {c : Link.Comet}
    (h : Asked upgrades r (.comet c)) : r = .asyncStart ∨ r = .asyncWake := by
  cases h with
  | comet c hu hr => exact hr

/-- A hook that may ask for nothing has not. -/
theorem Asked.refused {r : Request} {p : Pending} (h : Asked .none r p) :
    r = .request ∧ p = .none := by
  cases h with
  | nothing => exact ⟨rfl, rfl⟩
  | duplex hu => cases hu
  | comet c hu hr => exact absurd rfl hu

theorem Asked.woken {upgrades : Upgrades} {p : Pending} (h : Asked upgrades .asyncStart p) :
    Asked upgrades .asyncWake p := by
  cases h with
  | comet c hu hr => exact .comet c hu (.inr rfl)

private theorem Expects.woken {step : Step} {m : State} {p : Pending}
    (h : Expects step m .asyncStart p) : Expects step m .asyncWake p := by
  cases step with
  | after keep =>
    rcases h with ⟨hm, ha⟩ | ⟨hm, ha⟩
    · exact .inl ⟨hm, ha.woken⟩
    · exact .inr ⟨hm, ha.woken⟩
  | suspend => exact ⟨h.1, .inr rfl, h.2.2⟩
  | _ => exact nomatch h.2.1

theorem Expects.isParked {step : Step} {m : State} {r : Request} {p : Pending}
    (h : Expects step m r p) : r.isParked = false := by
  cases step with
  | after keep => rcases h with ⟨-, ha⟩ | ⟨-, ha⟩ <;> exact ha.isParked
  | suspend => rcases h.2.1 with rfl | rfl <;> rfl
  | _ => rw [h.2.1]; rfl

/-- **Others leave a link ready for the next step of its task.** -/
theorem Ready.course {step : Step} (h : Course v w) (hv : Ready step v) : Ready step w := by
  have hheld := h.held hv.expects.isParked
  refine ⟨hheld.closed.trans hv.closed, hheld.queue.trans hv.queue, ?_⟩
  rw [hheld.machine, hheld.pending]
  -- At most a wake was left for the task, and the step expects that as well.
  rcases hheld.request with hr | ⟨hr, hr'⟩
  · rw [hr]
    exact hv.expects
  · rw [hr']
    exact Expects.woken (hr ▸ hv.expects)

end LinkEngine.Stand

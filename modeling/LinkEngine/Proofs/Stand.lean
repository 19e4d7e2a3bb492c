import LinkEngine.Proofs.Frame

/-!
# What others do to a link

A link stands somewhere: it is in some state, and some tasks of it are in the
pool. Its own driving task apart, whatever happens in the engine moves a stand
only in few ways, and they are said here once, so that what holds of every link
is shown for these ways and never again for the functions behind them:

* `Touched`: the link is asked for something, noted upon, or woken for its own
  task to see;
* `Handed`: it was parked, somebody took it over, and a task for it is queued;
* `Seized`: it was parked, somebody took it over, and tears it down himself.

A teardown calls the close hook, and what that hook does moves stands in turn,
also this one. So a `Course` of such changes is nested: between the beginning of
a teardown (`marked`) and its end (`gone`) lies another course.
-/

namespace LinkEngine

open Connection (CloseReason)

/-! ## Links -/

namespace Socket.Endpoint

/-- What can be done to a socket from outside, without calling it. -/
inductive Tampering : (Endpoint Operation → Endpoint Operation) → Prop where
  | feed (bytes : Text.Bytes) : Tampering (·.feed bytes)
  | hangUp : Tampering (·.hangUp)
  | addFailures (c : Call) (kinds : List (Option IoKind)) : Tampering (·.addFailures c kinds)
  | interrupt : Tampering (·.interrupt)

/-- From outside no call is made, and nothing is sent. -/
theorem Tampering.untouched {f : Endpoint Operation → Endpoint Operation} (h : Tampering f)
    (e : Endpoint Operation) : (f e).calls = e.calls ∧ (f e).sent = e.sent := by
  cases h <;> exact ⟨rfl, rfl⟩

end Socket.Endpoint

namespace Link

/-- Its deadline is taken back, if it has one. -/
def disarmed (k : Link) : Link :=
  match k.deadline with
  | none => k
  | some _ => { k with deadline := none, waitGeneration := k.waitGeneration + 1 }

/-- It is marked as closed for a reason. -/
def shut (k : Link) (reason : CloseReason) : Link :=
  { disarmed { k with closed := true, closeReason := some reason } with
    comet := none
    pending := .none }

/-- Its teardown begins: the close hook is about to be called. -/
def marked (k : Link) (reason : CloseReason) : Link := (k.shut reason).note (.closing reason)

@[simp] theorem closed_shut (k : Link) (reason : CloseReason) : (k.shut reason).closed = true := by
  unfold shut disarmed
  cases k.deadline <;> rfl

@[simp] theorem closed_marked (k : Link) (reason : CloseReason) :
    (k.marked reason).closed = true :=
  closed_shut k reason

/-- Its teardown is over: the close hook was called, and everything is given
back. -/
def gone (k : Link) : Link :=
  { k with
    stream := k.stream.close.2.takeBuffers.2
    machine := { k.machine with state := .destroyed }
    request := .destroy
    counted := false }

@[simp] theorem closed_interrupt (k : Link) : k.interrupt.closed = k.closed := by
  unfold interrupt
  split <;> rfl

/-- The deadline of its wait and the number of that. -/
def wait (k : Link) : Option Nat × Nat := (k.deadline, k.waitGeneration)

@[simp] theorem wait_interrupt (k : Link) : k.interrupt.wait = k.wait := by
  unfold interrupt
  split <;> rfl

theorem deadline_disarmed (k : Link) : k.disarmed.deadline = none := by
  unfold disarmed
  split
  · assumption
  · rfl

theorem waitGeneration_disarmed (k : Link) : k.waitGeneration ≤ k.disarmed.waitGeneration := by
  unfold disarmed
  split
  · exact Nat.le_refl _
  · exact Nat.le_succ _

/-- Whoever is marked as closed waits no more. -/
theorem deadline_marked (k : Link) (reason : CloseReason) : (k.marked reason).deadline = none :=
  deadline_disarmed _

/-- Whose link it is: its listener and its handler. -/
def owner (k : Link) : Nat × Handler := (k.listener, k.handler)

@[simp] theorem owner_interrupt (k : Link) : k.interrupt.owner = k.owner := by
  unfold interrupt
  split <;> rfl

@[simp] theorem owner_marked (k : Link) (reason : CloseReason) :
    (k.marked reason).owner = k.owner := by
  unfold marked shut disarmed
  cases k.deadline <;> rfl

/-- What others do to a link that stays where it is. -/
inductive Touched : Link → Link → Prop where
  | kill (k : Link) : Touched k { k with killKeepalive := true }
  | forget (k : Link) : Touched k { k with held := false }
  | socket (k : Link) {f : Socket.Endpoint Operation → Socket.Endpoint Operation}
      (hf : Socket.Endpoint.Tampering f) : Touched k (k.withSocket f)
  | did (k : Link) (label : String) (answer : Answer) : Touched k (k.note (.did label answer))
  /-- Its close hook is over. -/
  | closeEnded {k : Link} (h : k.closed = true) (ending : Ending) :
      Touched k (k.note (.ended .close ending))
  /-- It is asked to close, and is not parked. -/
  | asked {k : Link} (hc : k.closed = false) (hp : k.request.isParked = false)
      (reason : CloseReason) :
      Touched k { k.ask reason with request := k.request.wake.2 }.interrupt
  /-- A handle wakes its request before it is parked. -/
  | deferred {k : Link} (hc : k.closed = false) (hr : k.request = .asyncStart) :
      Touched k ({ k with request := .asyncWake }.note (.woke k.cometGeneration))
  /-- A deadline wakes its request before it is parked. -/
  | late {k : Link} (hd : k.isDriven = false) (hr : k.request = .asyncStart) :
      Touched k { k with request := .asyncWake }
  /-- It is woken in the middle of its teardown, and the pool takes no task. -/
  | vain {k : Link} (hc : k.closed = true) (hp : k.request.isParked = true)
      (expired : Option Nat) :
      Touched k { k with request := .request, expiredGeneration := expired }

/-- Nobody but a teardown closes a link. -/
theorem Touched.closed {k k' : Link} (h : k.Touched k') : k'.closed = k.closed := by
  cases h with
  | asked => exact closed_interrupt _
  | _ => rfl

theorem Touched.owner {k k' : Link} (h : k.Touched k') : k'.owner = k.owner := by
  cases h with
  | asked => exact owner_interrupt _
  | _ => rfl

/-- Nobody but a teardown takes back the deadline of a wait of another. -/
theorem Touched.wait {k k' : Link} (h : k.Touched k') : k'.wait = k.wait := by
  cases h with
  | asked => exact wait_interrupt _
  | _ => rfl

/-- Nobody but a teardown gives a link a reason to be closed. -/
theorem Touched.closeReason {k k' : Link} (h : k.Touched k') : k'.closeReason = k.closeReason := by
  cases h with
  | asked =>
    unfold interrupt
    split <;> rfl
  | _ => rfl

/-- What others do to a parked link when they hand it to the pool. -/
inductive Handed : Link → Link → Prop where
  /-- Input arrived. -/
  | noticed {k : Link} (hr : k.request = .keepalive) :
      Handed k { k with request := .request }
  /-- A handle woke its request. -/
  | woken {k : Link} (hc : k.closed = false) (hr : k.request = .suspend) :
      Handed k ({ k with request := .request }.note (.woke k.cometGeneration))
  /-- The deadline of its wait fired. -/
  | expired {k : Link} (hd : k.isDriven = false) (hp : k.request.isParked = true) :
      Handed k { k with request := .request, expiredGeneration := some k.waitGeneration }

theorem Handed.closed {k k' : Link} (h : k.Handed k') : k'.closed = k.closed := by
  cases h <;> rfl

theorem Handed.wait {k k' : Link} (h : k.Handed k') : k'.wait = k.wait := by
  cases h <;> rfl

theorem Handed.closeReason {k k' : Link} (h : k.Handed k') : k'.closeReason = k.closeReason := by
  cases h <;> rfl

theorem Handed.owner {k k' : Link} (h : k.Handed k') : k'.owner = k.owner := by
  cases h <;> rfl

theorem Handed.isParked {k k' : Link} (h : k.Handed k') : k.request.isParked = true := by
  cases h with
  | noticed hr => rw [hr]; rfl
  | woken _ hr => rw [hr]; rfl
  | expired _ hp => exact hp

/-- What others do to a parked link when they tear it down for a reason. -/
inductive Seized : Link → CloseReason → Link → Prop where
  /-- Somebody woke it, and the pool takes no task. -/
  | refused {k : Link} (hc : k.closed = false) (hp : k.request.isParked = true)
      {expired : Option Nat}
      (he : expired = k.expiredGeneration ∨
        k.isDriven = false ∧ expired = some k.waitGeneration) :
      Seized k .shutdown { k with request := .request, expiredGeneration := expired }
  /-- It is asked to close. -/
  | asked {k : Link} (hc : k.closed = false) (hp : k.request.isParked = true)
      (reason : CloseReason) :
      Seized k (k.ask reason).requestedClose { k.ask reason with request := .request }

theorem Seized.open {k k' : Link} {reason : CloseReason} (h : Seized k reason k') :
    k.closed = false ∧ k'.closed = false := by
  cases h with
  | refused hc => exact ⟨hc, hc⟩
  | asked hc => exact ⟨hc, hc⟩

theorem Seized.owner {k k' : Link} {reason : CloseReason} (h : Seized k reason k') :
    k'.owner = k.owner := by
  cases h <;> rfl

theorem Seized.isParked {k k' : Link} {reason : CloseReason} (h : Seized k reason k') :
    k.request.isParked = true := by
  cases h with
  | refused _ hp => exact hp
  | asked _ hp => exact hp

/-- Where it is open, the link was asked to close, and is not parked: its task sees to it. -/
def Heeding (k : Link) : Prop :=
  k.closed = false →
    k.closing = true ∧ k.closeRequest.isSome = true ∧ k.request.isParked = false

theorem Heeding.of_closed {k : Link} (hc : k.closed = true) : k.Heeding :=
  fun h => absurd (hc.symm.trans h).symm Bool.false_ne_true

/-- Who is not parked stays so when he is asked to close. -/
theorem heeding_asked {k : Link} (hp : k.request.isParked = false) (reason : CloseReason) :
    { k.ask reason with request := k.request.wake.2 }.interrupt.Heeding := by
  have hwake : k.request.wake.2.isParked = false := by
    revert hp
    cases k.request <;> decide
  unfold interrupt
  split <;> exact fun _ => ⟨rfl, rfl, hwake⟩

theorem Touched.heeding {k k' : Link} (h : k.Touched k') (hk : k.Heeding) : k'.Heeding := by
  cases h with
  | asked hc hp reason => exact heeding_asked hp reason
  | deferred hc | late => exact fun h => ⟨(hk h).1, (hk h).2.1, rfl⟩
  | vain hc => exact .of_closed hc
  | _ => exact hk

theorem Handed.heeding {k k' : Link} (h : k.Handed k') (hk : k.Heeding) : k'.Heeding := by
  intro hc
  -- Who heeds it is not parked, and nobody takes it over.
  have hp := (hk (h.closed.symm.trans hc)).2.2
  exact absurd (hp.symm.trans h.isParked) Bool.false_ne_true

end Link

/-! ## Stands -/

/-- A link with the tasks that are queued for it. -/
structure Stand where
  link : Link
  queue : List Link.Entry

namespace Stand

/-- One thing that others do to a link. -/
inductive Shift : Stand → Stand → Prop where
  | touched {k k' : Link} (q : List Link.Entry) (h : k.Touched k') : Shift ⟨k, q⟩ ⟨k', q⟩
  | handed {k k' : Link} (q : List Link.Entry) (h : k.Handed k') :
      Shift ⟨k, q⟩ ⟨k', q ++ [.resume]⟩

/-- What others do to a link, one thing after the other. Between the beginning of
a teardown and its end, others do further things. -/
inductive Course : Stand → Stand → Prop where
  | refl (v : Stand) : Course v v
  | shift {v w u : Stand} (h : Shift v w) (rest : Course w u) : Course v u
  | teardown {k k' : Link} {q : List Link.Entry} {reason : CloseReason} {w u : Stand}
      (h : k.Seized reason k') (hook : Course ⟨k'.marked reason, q⟩ w)
      (rest : Course ⟨w.link.gone, w.queue⟩ u) : Course ⟨k, q⟩ u

theorem Course.single {v w : Stand} (h : Shift v w) : Course v w := .shift h (.refl w)

theorem Course.trans {v w u : Stand} (h₁ : Course v w) (h₂ : Course w u) : Course v u := by
  induction h₁ with
  | refl => exact h₂
  | shift h _ ih => exact .shift h (ih h₂)
  | teardown h hook _ _ ih => exact .teardown h hook (ih h₂)

/-- A closed link stays closed. -/
theorem Course.closed {v w : Stand} (h : Course v w) (hc : v.link.closed = true) :
    w.link.closed = true := by
  induction h with
  | refl => exact hc
  | shift h _ ih =>
    cases h with
    | touched q h => exact ih (h.closed.trans hc)
    | handed q h => exact ih (h.closed.trans hc)
  | teardown h => rw [h.open.1] at hc; cases hc

/-- What is open was open before. -/
theorem Course.open {v w : Stand} (h : Course v w) (hw : w.link.closed = false) :
    v.link.closed = false :=
  Bool.eq_false_iff.2 fun hc => nomatch (h.closed hc).symm.trans hw

/-- What is kept of a link by whatever others do to it, by the marking of one that is
seized and by the end of its teardown, is kept by courses. -/
theorem Course.induction {P : Link → Prop} (htouched : ∀ {k k'}, k.Touched k' → P k → P k')
    (hhanded : ∀ {k k'}, k.Handed k' → P k → P k')
    (hmarked : ∀ {k reason k'}, k.Seized reason k' → P k → P (k'.marked reason))
    (hgone : ∀ {k}, k.closed = true → P k → P k.gone) {v w : Stand} (h : Course v w)
    (hv : P v.link) : P w.link := by
  induction h with
  | refl => exact hv
  | shift h _ ih =>
    cases h with
    | touched q h => exact ih (htouched h hv)
    | handed q h => exact ih (hhanded h hv)
  | teardown h hook _ ihhook ihrest =>
    -- The link was marked as closed, and its close hook left it so.
    exact ihrest (hgone (hook.closed (Link.closed_marked _ _)) (ihhook (hmarked h hv)))

/-- A closed link has no deadline. -/
theorem Course.deadline {v w : Stand} (h : Course v w)
    (hv : v.link.closed = true → v.link.deadline = none) :
    w.link.closed = true → w.link.deadline = none :=
  h.induction (P := fun k => k.closed = true → k.deadline = none)
    (fun h hk hc => (congrArg Prod.fst h.wait).trans (hk (h.closed.symm.trans hc)))
    (fun h hk hc => (congrArg Prod.fst h.wait).trans (hk (h.closed.symm.trans hc)))
    (fun _ _ _ => Link.deadline_marked _ _) (fun _ hk => hk) hv

/-- Who heeds that he was asked to close goes on to. -/
theorem Course.heeding {v w : Stand} (h : Course v w) (hv : v.link.Heeding) : w.link.Heeding :=
  h.induction (P := Link.Heeding) (fun h => h.heeding) (fun h => h.heeding)
    (fun _ _ => .of_closed (Link.closed_marked _ _)) (fun hc _ => .of_closed hc) hv

/-- A link never changes hands. -/
theorem Course.owner {v w : Stand} (h : Course v w) : w.link.owner = v.link.owner :=
  h.induction (P := fun k => k.owner = v.link.owner) (fun h hk => h.owner.trans hk)
    (fun h hk => h.owner.trans hk)
    (fun h hk => (Link.owner_marked _ _).trans (h.owner.trans hk)) (fun _ hk => hk) rfl

/-- What others leave of a link that is not parked: everything its task goes by,
only that a request that is about to be suspended may be woken. -/
structure Held (v w : Stand) : Prop where
  queue : w.queue = v.queue
  machine : w.link.machine = v.link.machine
  request : w.link.request = v.link.request ∨
    v.link.request = .asyncStart ∧ w.link.request = .asyncWake
  pending : w.link.pending = v.link.pending
  comet : w.link.comet = v.link.comet
  step : w.link.step = v.link.step
  closed : w.link.closed = v.link.closed
  closeReason : w.link.closeReason = v.link.closeReason
  counted : w.link.counted = v.link.counted

theorem Held.refl (v : Stand) : Held v v := ⟨rfl, rfl, .inl rfl, rfl, rfl, rfl, rfl, rfl, rfl⟩

theorem Held.trans {v w u : Stand} (h₁ : Held v w) (h₂ : Held w u) : Held v u where
  queue := h₂.queue.trans h₁.queue
  machine := h₂.machine.trans h₁.machine
  request := by
    -- A request is woken at most once on the way.
    rcases h₁.request with h | ⟨ha, hw⟩
    · rw [← h]
      exact h₂.request
    · rcases h₂.request with h' | ⟨ha', -⟩
      · exact .inr ⟨ha, h'.trans hw⟩
      · rw [hw] at ha'
        cases ha'
  pending := h₂.pending.trans h₁.pending
  comet := h₂.comet.trans h₁.comet
  step := h₂.step.trans h₁.step
  closed := h₂.closed.trans h₁.closed
  closeReason := h₂.closeReason.trans h₁.closeReason
  counted := h₂.counted.trans h₁.counted

/-- What is held is parked no more than before. -/
theorem Held.isParked {v w : Stand} (h : Held v w) (hp : v.link.request.isParked = false) :
    w.link.request.isParked = false := by
  rcases h.request with h | ⟨-, h⟩
  · rw [h]
    exact hp
  · rw [h]
    rfl

/-- A link that stays where it is, is held. Only what is closed and was parked may
be woken without being taken over. -/
theorem held_touched {k k' : Link} (h : k.Touched k')
    (hp : k.closed = true → k.request.isParked = false) (q : List Link.Entry) :
    Held ⟨k, q⟩ ⟨k', q⟩ := by
  cases h with
  | asked hc hp reason =>
    have hwake : k.request.wake.2 = k.request ∨
        k.request = .asyncStart ∧ k.request.wake.2 = .asyncWake := by
      cases hr : k.request with
      | asyncStart => exact .inr ⟨rfl, rfl⟩
      | keepalive => rw [hr] at hp; cases hp
      | suspend => rw [hr] at hp; cases hp
      | _ => exact .inl rfl
    unfold Link.interrupt
    split <;> exact ⟨rfl, rfl, hwake, rfl, rfl, rfl, rfl, rfl, rfl⟩
  | deferred hc hr => exact ⟨rfl, rfl, .inr ⟨hr, rfl⟩, rfl, rfl, rfl, rfl, rfl, rfl⟩
  | late hd hr => exact ⟨rfl, rfl, .inr ⟨hr, rfl⟩, rfl, rfl, rfl, rfl, rfl, rfl⟩
  | vain hc hp' => rw [hp hc] at hp'; cases hp'
  | _ => exact ⟨rfl, rfl, .inl rfl, rfl, rfl, rfl, rfl, rfl, rfl⟩

/-- **Others leave a link that is not parked to its task.** -/
theorem Course.held {v w : Stand} (h : Course v w) (hp : v.link.request.isParked = false) :
    Held v w := by
  induction h with
  | refl v => exact .refl v
  | shift h _ ih =>
    cases h with
    | touched q h =>
      have hheld := held_touched h (fun _ => hp) q
      exact hheld.trans (ih (hheld.isParked hp))
    | handed q h => rw [h.isParked] at hp; cases hp
  | teardown h _ _ _ _ => rw [h.isParked] at hp; cases hp

end Stand

end LinkEngine

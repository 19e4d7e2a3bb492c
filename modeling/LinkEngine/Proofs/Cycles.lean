import LinkEngine.Proofs.Episodes

/-!
# How suspended requests go

A suspended request is begun by a hook, is woken by then or later, once at most, and
comes to its end when the handler takes it up or is told of its deadline. `Stage`
says how far the latest one is, as far as the link itself shows it, and what was
counted of it by then; of the ones before, nothing is left to happen (`Recorded`).
Others move a link from stage to stage, but they never take up anything themselves
(`Course.cycles`): that is for the task of the link.
-/

namespace LinkEngine

open Connection (CloseReason Request)
open Link (Note Step)

/-- An asynchronous request was begun and not taken up again. -/
def Connection.Request.isAsync : Request → Bool
  | .asyncStart | .asyncWake | .suspend => true
  | _ => false

namespace Link

/-! ## Stages -/

/-- When the task of the link takes up the suspended request, it does so because of
its deadline. -/
def isLate (k : Link) : Bool :=
  match k.step with
  | some (.resume late) => late
  | _ => k.isTimedOut

/-- The latest suspended request was neither taken up nor told of its deadline. -/
structure Fresh (k : Link) : Prop where
  resumes : k.resumes k.cometGeneration = 0
  timeouts : k.timeouts k.cometGeneration = 0

/-- How far the latest suspended request of a link is. -/
inductive Stage (k : Link) : Prop where
  | begun (hc : k.closed = false) (hr : k.request = .asyncStart) (hf : k.Fresh)
      (hw : k.wakes k.cometGeneration = 0) : Stage k
  | deferred (hc : k.closed = false) (hr : k.request = .asyncWake) (hf : k.Fresh) : Stage k
  | parked (hc : k.closed = false) (hr : k.request = .suspend)
      (hm : k.machine.state = .cometSuspend) (hf : k.Fresh) (hw : k.wakes k.cometGeneration = 0)
      (hl : k.isLate = false) : Stage k
  /-- A task is about to take it up: for a deadline, if nobody woke it. -/
  | taken (hc : k.closed = false) (hr : k.request = .request)
      (hm : k.machine.state = .cometSuspend) (hf : k.Fresh)
      (hl : k.isLate = true → k.wakes k.cometGeneration = 0) : Stage k
  | ended (hc : k.closed = false) (hr : k.request.isAsync = false)
      (hm : k.machine.state ≠ .cometSuspend) (ha : k.Answered k.cometGeneration) : Stage k
  | closed (hc : k.closed = true) (ha : k.Answered k.cometGeneration) : Stage k

/-- A suspended request was woken once at most, it was taken up or told of its
deadline once at most, and it was not told of a deadline if it was woken. -/
structure Fair (k : Link) (g : Nat) : Prop where
  woken : k.wakes g ≤ 1
  ended : k.resumes g + k.timeouts g ≤ 1
  late : 1 ≤ k.timeouts g → k.wakes g = 0

/-- What the history of a link tells of its suspended requests. -/
structure Recorded (k : Link) : Prop where
  numbered : k.Numbered
  fair (g : Nat) : k.Fair g
  past (g : Nat) : g < k.cometGeneration → k.Answered g
  future (g : Nat) : k.cometGeneration < g → k.wakes g = 0 ∧ k.resumes g = 0 ∧ k.timeouts g = 0

/-- The suspended requests of a link went as they should, and the latest is at some
stage. No deadline fired of a wait to come. -/
structure Cycles (k : Link) : Prop extends Recorded k where
  timed : k.closed = false → ∀ e, k.expiredGeneration = some e → e ≤ k.waitGeneration
  stage : k.Stage

/-! ## What is written to a link -/

variable {k k' : Link} {n : Note} {g r t w : Nat} {reason : CloseReason}

/-- Nothing that counts was written. -/
abbrev Quiet (k k' : Link) : Prop := Logged k k' 0 0 0

/-- The note counts for a suspended request. -/
def Note.counts : Note → Bool
  | .cycle _ | .woke _ | .began .resume | .began .suspendTimeout => true
  | _ => false

theorem Quiet.note (hk : k.Numbered) (hn : n.counts = false) : Quiet k (k.note n) := by
  have hcycle : n.cycle? = none := by
    cases n <;> first | rfl | cases hn
  have hwoke : ∀ g, n ≠ .woke g := by
    rintro g rfl
    cases hn
  have hcount : ∀ m : Note, m.counts = true → [n].count m = 0 := by
    intro m hm
    refine List.count_eq_zero.2 ?_
    intro h
    rw [List.mem_singleton.1 h, hn] at hm
    cases hm
  have h := Logged.note hk hcycle fun g h => absurd h (hwoke g)
  rwa [hcount _ rfl, hcount _ rfl, hcount _ rfl] at h

theorem Logged.woke (hk : k.Numbered) : Logged k (k.note (.woke k.cometGeneration)) 0 0 1 := by
  have h := Logged.note hk (n := .woke k.cometGeneration) rfl fun g h => (Note.woke.inj h).symm
  rwa [List.count_singleton_self] at h

theorem Logged.began_resume (hk : k.Numbered) : Logged k (k.note (.began .resume)) 1 0 0 :=
  Logged.note hk rfl fun _ h => nomatch h

theorem Logged.began_suspendTimeout (hk : k.Numbered) :
    Logged k (k.note (.began .suspendTimeout)) 0 1 0 :=
  Logged.note hk rfl fun _ h => nomatch h

theorem Logged.apart (h : Logged k k' r t w) (hg : g ≠ k.cometGeneration) :
    k'.wakes g = k.wakes g ∧ k'.resumes g = k.resumes g ∧ k'.timeouts g = k.timeouts g := by
  have hne : ¬ k.cometGeneration = g := fun h => hg h.symm
  rw [h.wakes, h.resumes, h.timeouts, if_neg hne, if_neg hne, if_neg hne]
  exact ⟨rfl, rfl, rfl⟩

/-- What is added to the counts of the latest request. -/
theorem Logged.latest (h : Logged k k' r t w) :
    k'.wakes k'.cometGeneration = k.wakes k.cometGeneration + w ∧
      k'.resumes k'.cometGeneration = k.resumes k.cometGeneration + r ∧
      k'.timeouts k'.cometGeneration = k.timeouts k.cometGeneration + t := by
  rw [h.generation, h.wakes, h.resumes, h.timeouts, if_pos rfl, if_pos rfl, if_pos rfl]
  exact ⟨rfl, rfl, rfl⟩

/-- What was answered stays so. -/
theorem Answered.of_eq (h : k.Answered g) (hw : k'.wakes g = k.wakes g)
    (hr : k'.resumes g = k.resumes g) (he : k.Excused g → k'.Excused g) : k'.Answered g := by
  intro hwoken
  rcases h (hw ▸ hwoken) with hone | hexcused
  · exact .inl (hr.trans hone)
  · exact .inr (he hexcused)

theorem Fair.of_eq (h : k.Fair g) {g' : Nat} (hw : k'.wakes g' = k.wakes g)
    (hr : k'.resumes g' = k.resumes g) (ht : k'.timeouts g' = k.timeouts g) : k'.Fair g' := by
  obtain ⟨hwoken, hended, hlate⟩ := h
  rw [← hw] at hwoken hlate
  rw [← hr, ← ht] at hended
  rw [← ht] at hlate
  exact ⟨hwoken, hended, hlate⟩

theorem Recorded.logged (h : k.Recorded) (hl : Logged k k' r t w)
    (hf : k'.Fair k'.cometGeneration) : k'.Recorded := by
  have hgen := hl.generation
  refine ⟨hl.numbered, ?_, ?_, ?_⟩
  · intro g
    by_cases hg : g = k'.cometGeneration
    · exact hg ▸ hf
    · obtain ⟨hw, hr, ht⟩ := hl.apart (hgen ▸ hg)
      exact (h.fair g).of_eq hw hr ht
  · intro g hg
    rw [hgen] at hg
    obtain ⟨hw, hr, -⟩ := hl.apart (Nat.ne_of_lt hg)
    exact (h.past g hg).of_eq hw hr (hl.excused g)
  · intro g hg
    rw [hgen] at hg
    obtain ⟨hw, hr, ht⟩ := hl.apart (Nat.ne_of_gt hg)
    rw [hw, hr, ht]
    exact h.future g hg

theorem Quiet.fair (hl : Quiet k k') (h : k.Fair k.cometGeneration) :
    k'.Fair k'.cometGeneration := by
  obtain ⟨hw, hr, ht⟩ := hl.latest
  exact h.of_eq hw hr ht

theorem Quiet.fresh (hl : Quiet k k') (h : k.Fresh) : k'.Fresh := by
  obtain ⟨-, hr, ht⟩ := hl.latest
  exact ⟨hr.trans h.resumes, ht.trans h.timeouts⟩

theorem Quiet.answered (hl : Quiet k k') (h : k.Answered k.cometGeneration) :
    k'.Answered k'.cometGeneration := by
  obtain ⟨hw, hr, -⟩ := hl.latest
  rw [hl.generation] at hw hr ⊢
  exact h.of_eq hw hr (hl.excused _)

theorem Quiet.wakes_eq_zero (hl : Quiet k k') (h : k.wakes k.cometGeneration = 0) :
    k'.wakes k'.cometGeneration = 0 :=
  hl.latest.1.trans h

theorem Recorded.quiet (h : k.Recorded) (hl : Quiet k k') : k'.Recorded :=
  h.logged hl (hl.fair (h.fair _))

/-- A request that was not woken yet may be, once. -/
theorem Recorded.wake (h : k.Recorded) (hf : k.Fresh) (hz : k.wakes k.cometGeneration = 0)
    (hl : Logged k k' 0 0 w) (hw : w ≤ 1) : k'.Recorded ∧ k'.Fresh := by
  obtain ⟨hwakes, hresumes, htimeouts⟩ := hl.latest
  rw [hz] at hwakes
  rw [hf.resumes] at hresumes
  rw [hf.timeouts] at htimeouts
  exact ⟨h.logged hl ⟨by omega, by omega, by omega⟩, hresumes, htimeouts⟩

/-- The handler may be told of the deadline of a request that nobody woke. -/
theorem Recorded.expire (h : k.Recorded) (hf : k.Fresh) (hz : k.wakes k.cometGeneration = 0) :
    (k.note (.began .suspendTimeout)).Recorded ∧
      (k.note (.began .suspendTimeout)).wakes k.cometGeneration = 0 := by
  have hl := Logged.began_suspendTimeout h.numbered
  obtain ⟨hwakes, hresumes, htimeouts⟩ := hl.latest
  rw [hz] at hwakes
  rw [hf.resumes] at hresumes
  rw [hf.timeouts] at htimeouts
  exact ⟨h.logged hl ⟨by omega, by omega, by omega⟩, hwakes⟩

/-- The handler may take up a request once. -/
theorem Recorded.resume (h : k.Recorded) (hf : k.Fresh) :
    (k.note (.began .resume)).Recorded ∧
      (k.note (.began .resume)).resumes k.cometGeneration = 1 := by
  have hl := Logged.began_resume h.numbered
  obtain ⟨hwakes, hresumes, htimeouts⟩ := hl.latest
  have hone := (h.fair k.cometGeneration).woken
  rw [hf.resumes] at hresumes
  rw [hf.timeouts] at htimeouts
  exact ⟨h.logged hl ⟨by omega, by omega, by omega⟩, hresumes⟩

/-- The next request begins where the one before is answered. -/
theorem Recorded.renumbered (h : k.Recorded) (ha : k.Answered k.cometGeneration)
    (hr : Renumbered k k') :
    k'.Recorded ∧ k'.Fresh ∧ k'.wakes k'.cometGeneration = 0 := by
  have hgen := hr.generation
  have hzero : ∀ g, k.cometGeneration < g →
      k'.wakes g = 0 ∧ k'.resumes g = 0 ∧ k'.timeouts g = 0 := by
    intro g hg
    rw [hr.wakes, hr.resumes, hr.timeouts]
    exact h.future g hg
  obtain ⟨hw, hres, ht⟩ := hzero k'.cometGeneration (by omega)
  refine ⟨⟨hr.numbered, fun g => (h.fair g).of_eq (hr.wakes g) (hr.resumes g) (hr.timeouts g),
    ?_, fun g hg => hzero g (by omega)⟩, ⟨hres, ht⟩, hw⟩
  intro g hg
  refine Answered.of_eq ?_ (hr.wakes g) (hr.resumes g) (hr.excused g)
  -- The one before becomes one of the past, and it was answered.
  rcases Nat.lt_or_eq_of_le (Nat.le_of_lt_succ (hgen ▸ hg)) with hlt | heq
  · exact h.past g hlt
  · exact heq ▸ ha

/-- What nobody woke need not be taken up. -/
theorem answered_of_wakes (h : k.wakes g = 0) : k.Answered g := fun hw => by omega

theorem answered_of_closing (h : k.closing = true) (g : Nat) : k.Answered g :=
  fun _ => .inr (.inl h)

theorem Stage.answered_of_closed (h : k.Stage) (hc : k.closed = true) :
    k.Answered k.cometGeneration := by
  cases h with
  | closed _ ha => exact ha
  | begun hc' | deferred hc' | parked hc' | taken hc' | ended hc' => rw [hc] at hc'; cases hc'

/-- The request that a task is about to take up is fresh, and was not woken where its
deadline is the reason. -/
theorem Stage.of_taken (h : k.Stage) (hc : k.closed = false) (hr : k.request = .request)
    (hm : k.machine.state = .cometSuspend) :
    k.Fresh ∧ (k.isLate = true → k.wakes k.cometGeneration = 0) := by
  cases h with
  | taken _ _ _ hf hl => exact ⟨hf, hl⟩
  | ended _ _ hm' => exact absurd hm hm'
  | closed hc' => rw [hc] at hc'; cases hc'
  | begun _ hr' | deferred _ hr' | parked _ hr' => rw [hr] at hr'; cases hr'

/-- A request that was begun and not parked is fresh, and it was woken only where the
link says so. -/
theorem Stage.of_begun (h : k.Stage) (hc : k.closed = false)
    (hr : k.request = .asyncStart ∨ k.request = .asyncWake) :
    k.Fresh ∧ (k.request = .asyncStart → k.wakes k.cometGeneration = 0) := by
  cases h with
  | begun _ _ hf hw => exact ⟨hf, fun _ => hw⟩
  | deferred _ hr' hf => exact ⟨hf, fun h => nomatch hr'.symm.trans h⟩
  | closed hc' => rw [hc] at hc'; cases hc'
  | parked _ hr' => rcases hr with hr | hr <;> rw [hr] at hr' <;> cases hr'
  | taken _ hr' => rcases hr with hr | hr <;> rw [hr] at hr' <;> cases hr'
  | ended _ hr' => rcases hr with hr | hr <;> rw [hr] at hr' <;> cases hr'

/-- What the stage of a link is told by, its history apart. -/
def gist (k : Link) : Bool × Request × Connection.Machine × Option Nat × Nat × Bool :=
  (k.closed, k.request, k.machine, k.expiredGeneration, k.waitGeneration, k.isLate)

/-- What writes nothing that counts, and moves nothing, leaves the stage as it is. -/
theorem Cycles.quiet (h : k.Cycles) (hl : Quiet k k') (hk : k'.gist = k.gist) : k'.Cycles := by
  have hc : k'.closed = k.closed := congrArg (·.1) hk
  have hr : k'.request = k.request := congrArg (·.2.1) hk
  have hm : k'.machine = k.machine := congrArg (·.2.2.1) hk
  have he : k'.expiredGeneration = k.expiredGeneration := congrArg (·.2.2.2.1) hk
  have hw : k'.waitGeneration = k.waitGeneration := congrArg (·.2.2.2.2.1) hk
  have hlate : k'.isLate = k.isLate := congrArg (·.2.2.2.2.2) hk
  refine ⟨h.toRecorded.quiet hl, ?_, ?_⟩
  · rw [hc, he, hw]
    exact h.timed
  · cases h.stage with
    | begun hc' hr' hf hw' =>
      exact .begun (hc.trans hc') (hr.trans hr') (hl.fresh hf) (hl.wakes_eq_zero hw')
    | deferred hc' hr' hf => exact .deferred (hc.trans hc') (hr.trans hr') (hl.fresh hf)
    | parked hc' hr' hm' hf hw' hl' =>
      exact .parked (hc.trans hc') (hr.trans hr') (hm ▸ hm') (hl.fresh hf)
        (hl.wakes_eq_zero hw') (hlate.trans hl')
    | taken hc' hr' hm' hf hl' =>
      exact .taken (hc.trans hc') (hr.trans hr') (hm ▸ hm') (hl.fresh hf)
        fun h => hl.wakes_eq_zero (hl' (hlate ▸ h))
    | ended hc' hr' hm' ha =>
      exact .ended (hc.trans hc') (hr ▸ hr') (hm ▸ hm') (hl.answered ha)
    | closed hc' ha => exact .closed (hc.trans hc') (hl.answered ha)

/-- What writes something else than what the stage is told by leaves it as it is. -/
theorem Cycles.same (h : k.Cycles) (hk : k'.gist = k.gist) (hh : k'.history = k.history)
    (hg : k'.cometGeneration = k.cometGeneration) (hc : k'.closing = k.closing) : k'.Cycles :=
  h.quiet (.same h.numbered hh hg fun h => hc.trans h) hk

/-- A note that does not count may be written. -/
theorem Cycles.note (h : k.Cycles) (hn : n.counts = false) : (k.note n).Cycles :=
  h.quiet (.note h.numbered hn) rfl

/-- A link may be closed when what was to be answered is. -/
theorem Cycles.close (h : k.Recorded) (ha : k.Answered k.cometGeneration) (hl : Quiet k k')
    (hc : k'.closed = true) : k'.Cycles := by
  refine ⟨h.quiet hl, ?_, .closed hc (hl.answered ha)⟩
  intro ho
  rw [hc] at ho
  cases ho

/-! ## What others do -/

private theorem quiet_marked (hk : k.Numbered) (reason : CloseReason) :
    Quiet k (k.marked reason) := by
  have hshut : Quiet k (k.shut reason) := by
    refine .same hk ?_ ?_ ?_ <;>
    · unfold shut disarmed
      cases k.deadline <;> first | rfl | exact fun h => h
  exact hshut.trans (Quiet.note hshut.numbered rfl)

private theorem interrupt_same (k : Link) : k.interrupt.gist = k.gist ∧
    k.interrupt.history = k.history ∧ k.interrupt.cometGeneration = k.cometGeneration ∧
    k.interrupt.closing = k.closing := by
  unfold interrupt
  split <;> exact ⟨rfl, rfl, rfl, rfl⟩

/-- A request that was begun may be woken before it is parked. -/
private theorem Cycles.defer (h : k.Cycles) (hr : k.request = .asyncStart)
    (hl : Logged k k' 0 0 w) (hw : w ≤ 1) (hc : k'.closed = k.closed)
    (hr' : k'.request = .asyncWake) (he : k'.expiredGeneration = k.expiredGeneration)
    (hg : k'.waitGeneration = k.waitGeneration) (hclosed : k.closed = false) : k'.Cycles := by
  obtain ⟨hf, hzero⟩ := h.stage.of_begun hclosed (.inl hr)
  obtain ⟨hrecorded, hfresh⟩ := h.toRecorded.wake hf (hzero hr) hl hw
  refine ⟨hrecorded, ?_, .deferred (hc.trans hclosed) hr' hfresh⟩
  rw [hc, he, hg]
  exact h.timed

/-- Whatever else others do to a link that stays where it is, they leave its requests
as they are. -/
theorem Touched.cycles (h : k.Touched k') (hk : k.Cycles) : k'.Cycles := by
  cases h with
  | kill | forget | socket => exact hk.same rfl rfl rfl rfl
  | did | closeEnded => exact hk.note rfl
  | asked hc hp reason =>
    obtain ⟨hgist, hh, hgen, hclosing⟩ :=
      interrupt_same { k.ask reason with request := k.request.wake.2 }
    suffices h : { k.ask reason with request := k.request.wake.2 }.Cycles from
      h.same hgist hh hgen hclosing
    have hl : Quiet k { k.ask reason with request := k.request.wake.2 } :=
      .same hk.numbered rfl rfl fun _ => rfl
    -- Whoever asks wakes the request, too, but such a wake is not counted.
    by_cases hstart : k.request = .asyncStart
    · exact hk.defer hstart hl (Nat.zero_le 1) rfl (congrArg (·.wake.2) hstart) rfl rfl hc
    · refine hk.quiet hl ?_
      -- What is neither parked nor about to be does not move when it is woken.
      have hr : k.request.wake.2 = k.request := by
        generalize k.request = r at hp hstart
        cases r <;> first | rfl | contradiction
      show (k.closed, k.request.wake.2, k.machine, k.expiredGeneration, k.waitGeneration,
        k.isLate) = k.gist
      rw [hr]
      rfl
  | deferred hc hr =>
    have hl : Quiet k { k with request := .asyncWake } := .same hk.numbered rfl rfl fun h => h
    exact hk.defer hr (hl.trans (.woke hl.numbered)) (Nat.le_refl 1) rfl rfl rfl rfl hc
  | late hd hr =>
    have hl : Quiet k { k with request := .asyncWake } := .same hk.numbered rfl rfl fun h => h
    rcases Bool.eq_false_or_eq_true k.closed with hc | hc
    · exact .close hk.toRecorded (hk.stage.answered_of_closed hc) hl hc
    · exact hk.defer hr hl (Nat.zero_le 1) rfl rfl rfl rfl hc
  | vain hc hp expired =>
    exact .close hk.toRecorded (hk.stage.answered_of_closed hc)
      (.same hk.numbered rfl rfl fun h => h) hc

/-- The stages of a link that is parked: nobody woke its request, or it is over. -/
theorem Stage.answered_of_parked (h : k.Stage) (hp : k.request.isParked = true) :
    k.Answered k.cometGeneration := by
  cases h with
  | begun _ hr | deferred _ hr | taken _ hr => rw [hr] at hp; cases hp
  | parked _ _ _ _ hw => exact answered_of_wakes hw
  | ended _ _ _ ha => exact ha
  | closed _ ha => exact ha

/-- Whoever takes over a parked link that rests begins no request and ends none. -/
private theorem Stage.noticed (h : k.Stage) (hr : k.request = .keepalive) (hl : Quiet k k')
    (hc : k'.closed = k.closed) (hr' : k'.request = .request) (hm : k'.machine = k.machine) :
    k'.Stage := by
  cases h with
  | ended hc' _ hm' ha => exact .ended (hc.trans hc') (hr' ▸ rfl) (hm ▸ hm') (hl.answered ha)
  | closed hc' ha => exact .closed (hc.trans hc') (hl.answered ha)
  | begun _ hr' | deferred _ hr' | parked _ hr' | taken _ hr' => rw [hr] at hr'; cases hr'

/-- A request that is parked was not woken, and no deadline took it over. -/
private theorem Stage.of_suspend (h : k.Stage) (hr : k.request = .suspend) (hc : k.closed = false) :
    k.machine.state = .cometSuspend ∧ k.Fresh ∧ k.wakes k.cometGeneration = 0 ∧
      k.isLate = false := by
  cases h with
  | parked _ _ hm hf hw hl => exact ⟨hm, hf, hw, hl⟩
  | closed hc' => rw [hc] at hc'; cases hc'
  | begun _ hr' | deferred _ hr' | taken _ hr' => rw [hr] at hr'; cases hr'
  | ended _ hr' => rw [hr] at hr'; cases hr'

theorem Handed.cycles (h : k.Handed k') (hk : k.Cycles) : k'.Cycles := by
  have hquiet : ∀ expired, Quiet k { k with request := .request, expiredGeneration := expired } :=
    fun _ => .same hk.numbered rfl rfl fun h => h
  cases h with
  | noticed hr =>
    have hl := hquiet k.expiredGeneration
    exact ⟨hk.toRecorded.quiet hl, hk.timed, hk.stage.noticed hr hl rfl rfl rfl⟩
  | woken hc hr =>
    obtain ⟨hm, hf, hw, hlate⟩ := hk.stage.of_suspend hr hc
    have hl := (hquiet k.expiredGeneration).trans (.woke (hquiet _).numbered)
    obtain ⟨hrecorded, hfresh⟩ := hk.toRecorded.wake hf hw hl (Nat.le_refl 1)
    exact ⟨hrecorded, hk.timed,
      .taken hc rfl hm hfresh fun hlate' => nomatch hlate.symm.trans hlate'⟩
  | expired hd hp =>
    have hl := hquiet (some k.waitGeneration)
    refine ⟨hk.toRecorded.quiet hl, fun _ e he => Nat.le_of_eq (Option.some.inj he).symm, ?_⟩
    -- A deadline may fire on a link in the middle of its teardown.
    rcases Bool.eq_false_or_eq_true k.closed with hc | hc
    · exact .closed hc (hl.answered (hk.stage.answered_of_closed hc))
    · cases hr : k.request with
      | keepalive => exact hk.stage.noticed hr hl rfl rfl rfl
      | suspend =>
        obtain ⟨hm, hf, hw, -⟩ := hk.stage.of_suspend hr hc
        exact .taken hc rfl hm (hl.fresh hf) fun _ => hl.wakes_eq_zero hw
      | _ => rw [hr] at hp; cases hp

theorem Seized.recorded (h : k.Seized reason k') (hk : k.Cycles) :
    k'.Recorded ∧ k'.Answered k'.cometGeneration := by
  cases h with
  | @refused hc hp expired he =>
    have hl : Quiet k { k with request := .request, expiredGeneration := expired } :=
      .same hk.numbered rfl rfl fun h => h
    exact ⟨hk.toRecorded.quiet hl, hl.answered (hk.stage.answered_of_parked hp)⟩
  | asked hc hp reason =>
    have hl : Quiet k { k.ask reason with request := .request } :=
      .same hk.numbered rfl rfl fun _ => rfl
    exact ⟨hk.toRecorded.quiet hl, answered_of_closing rfl _⟩

theorem cycles_marked (h : k.Recorded) (ha : k.Answered k.cometGeneration)
    (reason : CloseReason) : (k.marked reason).Cycles :=
  .close h ha (quiet_marked h.numbered reason) (closed_marked k reason)

theorem cycles_gone (h : k.Cycles) (hc : k.closed = true) : k.gone.Cycles :=
  .close h.toRecorded (h.stage.answered_of_closed hc) (.same h.numbered rfl rfl fun h => h) hc

end Link

namespace Stand

variable {v w : Stand} {reason : CloseReason}

/-- **Others leave the requests of a link as they should be.** -/
theorem Course.cycles (h : Course v w) (hv : v.link.Cycles) : w.link.Cycles := by
  refine h.induction (fun h hk => h.cycles hk) (fun h hk => h.cycles hk) ?_
    (fun hc hk => Link.cycles_gone hk hc) hv
  intro k reason k' h hk
  obtain ⟨hr, ha⟩ := h.recorded hk
  exact Link.cycles_marked hr ha _

/-- A link may be torn down when its latest request is answered. -/
theorem TornDown.cycles (h : TornDown reason v w) (hv : v.link.Cycles)
    (ha : v.link.Answered v.link.cometGeneration) : w.link.Cycles := by
  cases h with
  | before => exact hv
  | now hc hook =>
    exact Link.cycles_gone (hook.cycles (Link.cycles_marked hv.toRecorded ha reason))
      (hook.closed (Link.closed_marked _ _))

end Stand

namespace Link

variable {k k' : Link} {n : Note} {r t w : Nat}

/-! ## Links that are not suspended -/

/-- The link is not suspended: where its lifecycle says so already, it is still the
task that goes on with it. -/
def Awake (k : Link) : Prop :=
  k.machine.state = .cometSuspend → k.request = .asyncStart ∨ k.request = .asyncWake

theorem awake_of_ne (hm : k.machine.state ≠ .cometSuspend) : k.Awake := fun h => absurd h hm

theorem Awake.ne (h : k.Awake) (hr : k.request.isAsync = false) :
    k.machine.state ≠ .cometSuspend := by
  intro hm
  rcases h hm with hr' | hr' <;> rw [hr'] at hr <;> cases hr

/-- While a link is not suspended, its requests do not depend on what its lifecycle
does and what its task does next. -/
theorem Cycles.awake (h : k.Cycles) (hl : Quiet k k') (hc : k'.closed = k.closed)
    (hr : k'.request = k.request ∨ k.request.isAsync = false ∧ k'.request.isAsync = false)
    (hm : k.Awake) (hm' : k'.Awake) (he : k'.expiredGeneration = k.expiredGeneration)
    (hw : k.waitGeneration ≤ k'.waitGeneration) : k'.Cycles := by
  refine ⟨h.toRecorded.quiet hl, fun ho e hexpired => ?_, ?_⟩
  · exact Nat.le_trans (h.timed (hc ▸ ho) e (he ▸ hexpired)) hw
  -- The stages of a suspended link are not those of one that is awake.
  cases h.stage with
  | closed hc' ha => exact .closed (hc.trans hc') (hl.answered ha)
  | ended hc' hr' _ ha =>
    have hr'' : k'.request.isAsync = false := by
      rcases hr with hr | ⟨-, hr⟩
      · exact hr ▸ hr'
      · exact hr
    exact .ended (hc.trans hc') hr'' (hm'.ne hr'') (hl.answered ha)
  | begun hc' hr' hf hw' =>
    rcases hr with hr | ⟨hr, -⟩
    · exact .begun (hc.trans hc') (hr.trans hr') (hl.fresh hf) (hl.wakes_eq_zero hw')
    · rw [hr'] at hr; cases hr
  | deferred hc' hr' hf =>
    rcases hr with hr | ⟨hr, -⟩
    · exact .deferred (hc.trans hc') (hr.trans hr') (hl.fresh hf)
    · rw [hr'] at hr; cases hr
  | parked _ hr' hm'' => rcases hm hm'' with h | h <;> rw [hr'] at h <;> cases h
  | taken _ hr' hm'' => rcases hm hm'' with h | h <;> rw [hr'] at h <;> cases h

/-- The task of a link that is not suspended may take any step. -/
theorem Cycles.next (h : k.Cycles) (hm : k.Awake) (step : Option Step) :
    { k with step }.Cycles :=
  h.awake (.same h.numbered rfl rfl fun h => h) rfl (.inl rfl) hm hm rfl (Nat.le_refl _)

theorem Cycles.next_of_closed (h : k.Cycles) (hc : k.closed = true) (step : Option Step) :
    { k with step }.Cycles :=
  .close h.toRecorded (h.stage.answered_of_closed hc) (.same h.numbered rfl rfl fun h => h) hc

theorem Touched.awake (h : k.Touched k') (hk : k.Awake) : k'.Awake := by
  cases h with
  | asked hc hp reason =>
    suffices h : { k.ask reason with request := k.request.wake.2 }.Awake by
      unfold interrupt
      split <;> exact h
    intro hm
    rcases hk hm with hr | hr <;> exact .inr (congrArg (·.wake.2) hr)
  | deferred | late => exact fun _ => .inr rfl
  | vain hc hp =>
    intro hm
    rcases hk hm with hr | hr <;> rw [hr] at hp <;> cases hp
  | _ => exact hk

theorem Handed.awake (h : k.Handed k') (hk : k.Awake) : k'.Awake := by
  have hm : k'.machine = k.machine := by
    cases h <;> rfl
  intro hm'
  have hp := h.isParked
  rcases hk (hm ▸ hm') with hr | hr <;> rw [hr] at hp <;> cases hp

end Link

namespace Stand

variable {v w : Stand} {reason : CloseReason}

/-- Others suspend no link. -/
theorem Course.awake (h : Course v w) (hv : v.link.Awake) : w.link.Awake := by
  induction h with
  | refl => exact hv
  | shift h _ ih =>
    cases h with
    | touched q h => exact ih (h.awake hv)
    | handed q h => exact ih (h.awake hv)
  | teardown _ _ _ _ ihrest =>
    -- Only once it is gone: while it is torn down, it may look suspended.
    exact ihrest (Link.awake_of_ne nofun)

end Stand

end LinkEngine

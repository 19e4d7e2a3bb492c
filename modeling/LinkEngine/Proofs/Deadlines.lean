import Mathlib.Data.List.Induction
import LinkEngine.Proofs.Arming

/-!
# A parked link has a live deadline

The task of a link sets the deadline of a wait before it gives the link away, and whoever
ends the wait takes the deadline back; so between the moves of a run every link that is
parked has one timer that is queued or about to be asked for, and no other link has one that
is queued (`live_deadline`). When the callback of the timer runs in time it takes the link
over; when the wait is over, it does nothing (`deadlineFired_taken`, `deadlineFired_past`).
-/

namespace LinkEngine.Engine

open Link (Outcome Step)

variable {s t : Engine} {l m i : Nat} {k k' : Link} {v : Stand}

/-! ## Giving a link away -/

/-- A link that the multiplexer does not take, and that is not taken back, is parked as it
was. -/
private theorem declined_park (h : stepAwait.declined l s = (.park, t)) : t = s := by
  unfold stepAwait.declined at h
  split at h
  · cases h
  · split at h <;> cases h
    rfl

/-- A link that rests is given away with a deadline: the multiplexer took it, or a waker owns
it. -/
theorem stepAwait_park (h : stepAwait l s = (.park, t)) : ∃ k stream r m a b,
    s.link? l = some k ∧
    ((s.setLink l { k with stream }).setLink l { k with stream, request := r }).arm l
      (.ofMillis (k.restUntil - s.now)) = (.ok (), a) ∧
    register l { k with stream } m a = (b, t) := by
  unfold stepAwait at h
  split at h
  next => cases h
  next k hk =>
  dsimp only at h
  split at h
  next => cases h
  next => cases h
  next =>
    unfold peerClosed at h
    cases h
  next =>
  split at h
  next => cases h
  next =>
  split at h
  next => cases h
  next m _ =>
  split at h
  next => cases h
  next r _ =>
  split at h
  next => cases h
  next a harm =>
  split at h
  next => cases h
  next t' hregister =>
    cases h
    exact ⟨k, _, r, m, a, _, hk, harm, hregister⟩
  next t' hregister =>
    rw [declined_park h]
    exact ⟨k, _, r, m, a, _, hk, harm, hregister⟩

/-- A request that is suspended is given away with a deadline, and nobody else was there
first. -/
theorem stepSuspend_park (h : stepSuspend l s = (.park, t)) : ∃ k k' k₁ a r,
    s.link? l = some k ∧ k.transition .suspend = .ok k' ∧
    (s.setLink l k').arm l ((k'.comet.bind (·.timeout)).getD
      ((s.setLink l k').listener k'.listener).settings.suspendTimeout) = (.ok (), a) ∧
    a.link? l = some k₁ ∧
    t = (a.count k'.listener .suspends).setLink l { k₁ with request := r } := by
  unfold stepSuspend at h
  split at h
  next => cases h
  next k hk =>
  split at h
  next => cases h
  next =>
  unfold withTransition at h
  rw [hk] at h
  dsimp only at h
  split at h
  next => cases h
  next k' hk' =>
  split at h
  next => cases h
  next a harm =>
  unfold stepSuspend.park at h
  split at h
  next => cases h
  next k₁ hk₁ =>
  split at h
  next => cases h
  next r _ =>
    cases h
    exact ⟨k, k', k₁, a, r, hk, hk', harm, hk₁, rfl⟩
  next => cases h

/-- A link that rests is given away with a live deadline. -/
private theorem stepAwait_live (hs : s.Timed) (h : stepAwait l s = (.park, t)) : t.Live l := by
  obtain ⟨k, stream, r, m, a, b, hk, harm, hregister⟩ := stepAwait_park h
  have hk' := link?_setLink_self hk { k with stream }
  have hrest : ((s.setLink l { k with stream }).setLink l { k with stream, request := r }).Timed :=
    Timed.setLink (hs.setLink hk rfl) hk' rfl
  obtain ⟨harmed, -, hdeadline⟩ := hrest.armed (link?_setLink_self hk' _)
    (.ofMillis (k.restUntil - s.now))
  rw [harm] at harmed hdeadline
  obtain ⟨k₁, d, hk₁, hd, hafoot⟩ := hdeadline rfl
  -- While the multiplexer takes the link, the deadline stays live.
  have hlive := ((register_course l { k with stream } m a).timed harmed).2 l
    (.of_deadline hk₁ hd hafoot)
  rwa [hregister] at hlive

/-- A request that is suspended is given away with a live deadline. -/
private theorem stepSuspend_live (hs : s.Timed) (h : stepSuspend l s = (.park, t)) :
    t.Live l := by
  obtain ⟨k, k', k₁, a, r, hk, hk', harm, hk₁, rfl⟩ := stepSuspend_park h
  obtain ⟨-, -, hdeadline⟩ := (hs.setLink hk (Link.wait_transition hk')).armed
    (link?_setLink_self hk k')
    ((k'.comet.bind (·.timeout)).getD ((s.setLink l k').listener k'.listener).settings.suspendTimeout)
  rw [harm] at hdeadline
  obtain ⟨x, d, hx, hd, hafoot⟩ := hdeadline rfl
  cases hk₁.symm.trans hx
  have hcounted : (a.count k'.listener .suspends).link? l = some k₁ := hk₁
  exact .of_deadline (link?_setLink_self hcounted { k₁ with request := r }) hd hafoot

/-- **A step of a task leaves its link with a live deadline, if it leaves it parked.** -/
theorem advance_live (hs : s.Timed) (hv : ∀ v, s.stand? l = some v → v.Standing)
    (hlive : s.Live l) : (advance l s).Live l := by
  unfold advance
  cases hk : s.link? l with
  | none => exact hlive
  | some k =>
    rw [Option.bind_some]
    cases hstep : k.step with
    | none => exact hlive
    | some step =>
      have hready := (Stand.standing_some (v := ⟨k, s.entries l⟩) hstep).1 (hv _ (stand?_of_link? hk))
      obtain ⟨w, hw, hplan⟩ := (stepLink_drives hk step).own hs.fit.sole _ (stand?_of_link? hk)
      have hdecided := hready.decided hplan
      have hpark : ∀ t, stepLink l step s = (.park, t) → t.Live l := fun t h => by
        rw [h] at hplan
        rcases Stand.step_of_park hplan with rfl | rfl
        · exact stepAwait_live hs h
        · exact stepSuspend_live hs h
      dsimp only
      generalize stepLink l step s = done at hw hdecided hpark ⊢
      obtain ⟨outcome, t⟩ := done
      obtain ⟨-, x, hx, hconcluded⟩ := conclude_concluded hw outcome
      obtain ⟨hkx, -⟩ := stand?_eq_some.1 hx
      -- A link that is torn down is closed, and one that goes on is not parked.
      have hclosed : ∀ {reason v u}, Stand.TornDown reason v u → x = u.next none →
          (conclude l outcome t).Live l := by
        rintro reason v u htorn rfl
        refine .of_unparked fun y hy hc => ?_
        cases hkx.symm.trans hy
        exact absurd (htorn.closed.symm.trans hc).symm Bool.false_ne_true
      cases hconcluded with
      | next step =>
        refine .of_unparked fun y hy _ => ?_
        cases hkx.symm.trans hy
        exact hdecided.expects.isParked
      | park =>
        intro y hy hc hp hst
        cases hkx.symm.trans hy
        exact hpark t rfl w.link (stand?_eq_some.1 hw).1 hc hp hst
      | close ht => exact hclosed ht rfl
      | fail _ _ _ _ ht => exact hclosed ht rfl
      | panic ht => exact hclosed ht rfl

/-! ## Moves and runs -/

/-- **No move leaves a timer queued that is of no use, or a parked link without one.** -/
theorem move_timed (hs : s.Timed) (hv : ∀ l v, s.stand? l = some v → v.Standing)
    (hlive : ∀ l, s.Live l) (m : Move) : (move m s).Timed ∧ ∀ l, (move m s).Live l := by
  have hkept : ∀ t : Engine, (t.Timed ∧ ∀ l, s.Live l → t.Live l) → t.Timed ∧ ∀ l, t.Live l :=
    fun t h => ⟨h.1, fun l => h.2 l (hlive l)⟩
  cases m with
  | build settings multiplexer platform =>
    exact hkept _ ((build_builds settings multiplexer platform s).timed hs)
  | accept i arrival =>
    refine hkept (if i < s.listeners.length then (s.accept i arrival).2 else s) ?_
    split
    · exact (accept_accepts i arrival s).timed hs
    · exact ⟨hs, fun _ h => h⟩
  | begin place => exact hkept _ (timed_begin hs place)
  | advance m =>
    obtain ⟨ht, hlive'⟩ := (advance_drove m s).timed hs
    refine ⟨ht, fun l => ?_⟩
    by_cases hl : l = m
    · subst hl
      exact advance_live hs (hv l) (hlive l)
    · exact hlive' l hl (hlive l)
  | _ => exact hkept _ ((move_course rfl s).timed hs)

variable (settings : Settings.Scheduler) (now : Nat)

private theorem timed_create : (create settings now).Timed where
  fit := Timer.Scheduler.create_fit settings now
  made _ h := h.elim nofun nofun
  numbered _ _ _ h := nomatch h
  unique _ _ _ _ h := nomatch h
  present _ _ _ h := nomatch h
  owned _ _ _ _ h := nomatch h
  queued _ _ _ h := nomatch h
  house _ _ h := nomatch h
  kept _ _ h := h.elim nofun nofun
  awake _ _ h := nomatch h

/-- **Throughout every run the timers are of use, and a parked link has a deadline.** -/
theorem timed (moves : List Move) :
    (after settings now moves).Timed ∧ ∀ l, (after settings now moves).Live l := by
  induction moves using List.reverseRecOn with
  | nil => exact ⟨timed_create settings now, fun _ _ h => nomatch h⟩
  | append_singleton moves m ih =>
    rw [after_append, follow_cons, follow_nil]
    exact move_timed ih.1 (fun l v hv => standing settings now moves hv) ih.2 m

/-! ## What a callback does -/

/-- Apart from the scheduler, a callback that runs leaves the engine as its alarm does. -/
theorem runTimer_of_ready (tear : Teardown) {place : Nat} {task : Timer.Task}
    (h : s.scheduler.ready[place]? = some task) :
    ∃ x u, runTimer tear place s = some u ∧
      u.slots = (alarm tear task.timer { s with scheduler := x }).slots ∧
      u.tasks = (alarm tear task.timer { s with scheduler := x }).tasks := by
  unfold runTimer Timer.Scheduler.start
  rw [h]
  exact ⟨_, _, rfl, rfl, rfl⟩

/-- **A deadline that fires in time takes the link over**, and counts as a timeout. -/
theorem deadlineFired_taken (tear : Teardown) (n : Nat) {g : Nat} (hk : s.link? l = some k)
    (hin : k.IsIn g) (hr : s.refusing = false) :
    deadlineFired tear n l g s =
      { s.setLink l { k with request := .request, expiredGeneration := some g } with
        tasks := s.tasks ++ [⟨l, .resume⟩] } := by
  obtain ⟨hd, hp, rfl⟩ := hin
  obtain ⟨awake, hwake⟩ : ∃ r, k.request.wake = (.resume, r) ∧ r = .request := by
    revert hp
    cases k.request <;> simp [Connection.Request.isParked, Connection.Request.wake]
  unfold deadlineFired schedule
  rw [hk]
  simp [hd, hwake, setLink, modifyLink, hr]

/-- **A deadline of a wait that is over does nothing**, but that it may ask again while the
link is driven. -/
theorem deadlineFired_past (tear : Teardown) (n : Nat) {g : Nat} (hv : s.stand? l = some v)
    (hstanding : v.Standing) (hg : v.link.Past g) :
    (deadlineFired tear n l g s).slots = s.slots ∧ (deadlineFired tear n l g s).tasks = s.tasks := by
  obtain ⟨hk, -⟩ := stand?_eq_some.1 hv
  unfold deadlineFired
  rw [hk]
  dsimp only
  split
  next => split <;> exact ⟨rfl, rfl⟩
  next hd =>
  split
  next => exact ⟨rfl, rfl⟩
  next hgen =>
  -- Nobody drives it, and it waits no more: its task is queued, or it is gone.
  have hd : v.link.isDriven = false := Bool.not_eq_true _ ▸ hd
  have hwake : v.link.request.wake = (.ignored, v.link.request) := by
    cases (Stand.standing_none (Stand.step_eq_none hd)).1 hstanding with
    | gone hgone => rw [hgone.request]; rfl
    | idle hc _ hi =>
      have hp : v.link.request.isParked = false := by
        cases hp : v.link.request.isParked with
        | false => rfl
        | true =>
          have := (hg.later hc hp).1
          omega
      generalize v.link.request = r at hi hp ⊢
      generalize v.link.machine.state = m at hi
      generalize v.queue = q at hi
      cases hi with
      | starting | taken => rfl
      | resting | suspended => cases hp
  rw [hwake]
  exact ⟨congrArg slots (setLink_self hk), rfl⟩

/-! ## Deadlines of parked links -/

/-- Timer `t` is the deadline of the present wait of a link, and no other is: it is queued,
or its callback waits to run. When that runs, and the pool takes tasks, the link is taken
over as timed out. -/
structure Ensures (s : Engine) (l : Nat) (k : Link) (t : Nat) : Prop where
  deadline : k.deadline = some t
  only : ∀ n, s.alarms[n]? = some (.deadline l k.waitGeneration) ↔ n = t
  afoot : t ∈ s.scheduler.heap.items ∨ t ∈ s.scheduler.outstanding
  takes : s.refusing = false → ∀ place task, s.scheduler.ready[place]? = some task →
    task.timer = t → ∃ u k', runTimer tearDown place s = some u ∧ u.link? l = some k' ∧
      k' = { k with request := .request, expiredGeneration := some k.waitGeneration } ∧
      k'.isTimedOut = true ∧ u.tasks = s.tasks ++ [⟨l, .resume⟩]

/-- Whichever callback of a deadline of wait `g` of a link runs, it changes no link and queues
no task. -/
def Ignores (s : Engine) (l g : Nat) : Prop :=
  ∀ place task, s.scheduler.ready[place]? = some task →
    s.alarms[task.timer]? = some (.deadline l g) →
      ∃ u, runTimer tearDown place s = some u ∧ u.slots = s.slots ∧ u.tasks = s.tasks

private theorem ensures_of_live (hs : s.Timed) (hst : s.scheduler.stopped = false)
    (hlive : s.Live l) (hk : s.link? l = some k) (hc : k.closed = false)
    (hin : k.IsIn k.waitGeneration) : ∃ n, s.Ensures l k n := by
  obtain ⟨n, hd, hafoot⟩ := hlive k hk hc hin.2.1 hst
  have hn := hs.present l k n hk hd hst
  refine ⟨n, hd, fun n' => ⟨fun hn' => hs.unique _ _ _ _ hn' hn, fun h => h ▸ hn⟩, hafoot, ?_⟩
  rintro hr place task hplace rfl
  obtain ⟨x, u, hu, hslots, htasks⟩ := runTimer_of_ready tearDown hplace
  have halarm := deadlineFired_taken (s := { s with scheduler := x }) tearDown task.timer
    hk hin hr
  unfold alarm at hslots htasks
  rw [show ({ s with scheduler := x } : Engine).alarms = s.alarms from rfl, hn] at hslots htasks
  dsimp only at hslots htasks
  rw [halarm] at hslots htasks
  refine ⟨u, _, hu, ?_, rfl, beq_self_eq_true _, htasks⟩
  rw [show u.link? l = (s.setLink l _).link? l from
    congrArg (fun slots => slots[l]?.bind Slot.link?) hslots]
  exact link?_setLink_self hk _

private theorem ignores_of_past {g : Nat} (hv : s.stand? l = some v) (hstanding : v.Standing)
    (hg : v.link.Past g) : s.Ignores l g := by
  intro place task hplace halarm
  obtain ⟨x, u, hu, hslots, htasks⟩ := runTimer_of_ready tearDown hplace
  have hnothing := deadlineFired_past (s := { s with scheduler := x }) tearDown task.timer
    hv hstanding hg
  unfold alarm at hslots htasks
  rw [show ({ s with scheduler := x } : Engine).alarms = s.alarms from rfl, halarm] at hslots htasks
  exact ⟨u, hu, hslots.trans hnothing.1, htasks.trans hnothing.2⟩

/-- **A parked link always has a live deadline.** As long as the scheduler is not shut down,
a link that is parked has one timer for the present wait, which is queued or fired and waits
to run, and takes the link over when it does. Once the link has left a wait, no callback of
that wait does anything to it, however late it runs. No deadline of a closed link is
queued. -/
theorem live_deadline (moves : List Move)
    (hrun : (after settings now moves).scheduler.stopped = false)
    (hk : (after settings now moves).link? l = some k) :
    (k.IsIn k.waitGeneration → ∃ n, (after settings now moves).Ensures l k n) ∧
    (∀ (g : Nat) (before between later : List Move), moves = before ++ between ++ later →
      (∃ k, (after settings now before).link? l = some k ∧ k.IsIn g) →
      (∀ k, (after settings now (before ++ between)).link? l = some k → ¬ k.IsIn g) →
        (after settings now moves).Ignores l g) ∧
    (k.closed = true → ∀ n ∈ (after settings now moves).scheduler.heap.items, ∀ g : Nat,
      (after settings now moves).alarms[n]? ≠ some (.deadline l g)) := by
  obtain ⟨htimed, hlive⟩ := timed settings now moves
  have hv := stand?_of_link? hk
  have hstanding := standing settings now moves hv
  -- A closed link is gone, which is not parked and has no deadline.
  have hgone : k.closed = true → Stand.Gone ⟨k, (after settings now moves).entries l⟩ := by
    intro hc
    cases hs : k.step with
    | none => exact ((Stand.standing_none hs).1 hstanding).gone_of_closed hc
    | some step =>
      have hready := (Stand.standing_some hs).1 hstanding
      exact absurd (hready.closed.symm.trans hc) Bool.false_ne_true
  refine ⟨fun hin => ?_, ?_, fun hc n hn g hg => ?_⟩
  · refine ensures_of_live htimed hrun (hlive l) hk ?_ hin
    cases hc : k.closed with
    | false => rfl
    | true =>
      have hp := hin.2.1
      rw [show k.request = .destroy from (hgone hc).request] at hp
      cases hp
  · rintro g before between later rfl hin hleft
    obtain ⟨k', hk', hpast⟩ := past_of_left settings now hin hleft later
    cases hk.symm.trans hk'
    exact ignores_of_past hv hstanding hpast
  · -- What is queued for it would be its deadline.
    obtain ⟨k', hk', hgen⟩ := htimed.queued n l g hn hg
    cases hk.symm.trans hk'
    have hd := htimed.owned n l k (.inl hn) hk (hgen ▸ hg)
    rw [show k.deadline = none from (hgone hc).deadline] at hd
    cases hd

/-- A connection that is suspended, and whose deadline fires, but which is closed before the
callback runs. -/
def closedLate : List Move :=
  suspending 4 ++ [.pass 3600000, .coordinate] ++ [.perform 0 (.close (some 0) none)]

/-- While it is suspended the connection has its deadline. When the callback runs in the end,
it does nothing, and nothing is queued for the link. -/
theorem live_deadline_closedLate :
    (∃ k, (after {} 0 (suspending 4)).link? 0 = some k ∧
      ∃ n, (after {} 0 (suspending 4)).Ensures 0 k n) ∧
    (after {} 0 closedLate).Ignores 0 1 ∧
    ((after {} 0 closedLate).scheduler.ready[1]?.map fun task =>
      (after {} 0 closedLate).alarms[task.timer]?) = some (some (.deadline 0 1)) ∧
    ∀ n ∈ (after {} 0 closedLate).scheduler.heap.items, ∀ g : Nat,
      (after {} 0 closedLate).alarms[n]? ≠ some (.deadline 0 g) := by
  have hparked : ((after {} 0 (suspending 4)).link? 0).map (fun k =>
      (k.isDriven, k.request.isParked, k.waitGeneration)) = some (false, true, 1) := by decide
  have hclosed : ((after {} 0 closedLate).link? 0).map (fun k => (k.closed, k.request.isParked)) =
      some (true, false) := by decide
  obtain ⟨k, hk, hin⟩ := Option.map_eq_some_iff.1 hparked
  obtain ⟨k', hk', hc⟩ := Option.map_eq_some_iff.1 hclosed
  have hin : k.IsIn 1 := ⟨congrArg (·.1) hin, congrArg (·.2.1) hin, congrArg (·.2.2) hin⟩
  have hlate := live_deadline {} 0 closedLate (by decide) hk'
  refine ⟨⟨k, hk, (live_deadline {} 0 (suspending 4) (by decide) hk).1 (hin.2.2.symm ▸ hin)⟩,
    hlate.2.1 1 (suspending 4) ([.pass 3600000, .coordinate] ++ [.perform 0 (.close (some 0) none)])
      [] (by rw [List.append_nil, ← List.append_assoc]; rfl) ⟨k, hk, hin⟩ ?_,
    by decide, hlate.2.2 (congrArg (·.1) hc)⟩
  intro x hx hxin
  rw [← List.append_assoc] at hx
  cases hx.symm.trans hk'
  exact absurd (hxin.2.1.symm.trans (congrArg (·.2) hc)) (by decide)

end LinkEngine.Engine

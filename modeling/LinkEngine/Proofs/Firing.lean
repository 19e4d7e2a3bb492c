import LinkEngine.Proofs.Heaps
import LinkEngine.Timer.Scheduler

/-!
# What becomes of queued timers

A timer that is queued is moved, cancelled, fired, or thrown out by the shutdown, and
until then it is in the heap; one that fired is dropped, or its callback is started, and
until then the coordinator or the pool has it. Nothing else comes of it, whatever happens
to the scheduler in whatever order, and whatever other heaps do to the timers that they
share with it (`Runs`). Each step is put down in marks, and the marks balance with the
scheduler's counters and with what it holds (`Accounted`).
-/

namespace LinkEngine.Timer

open Time (Duration)

/-- What is noted of a timer. -/
inductive Mark.Kind where
  /-- It was queued, and was not before. -/
  | queued
  /-- It was queued, and moved to another wake time. -/
  | moved
  | cancelled
  /-- The coordinator took it out. -/
  | fired
  /-- It fired, and its callback was not handed to the pool. -/
  | dropped
  /-- The pool started its callback. -/
  | started
  /-- The shutdown threw it out of the heap. -/
  | thrown
  deriving DecidableEq, Repr

/-- Something noted of a timer. -/
structure Mark where
  kind : Mark.Kind
  timer : Nat
  deriving DecidableEq, Repr

/-- How often something is noted of timers with a property. -/
def tally (p : Nat → Bool) (kind : Mark.Kind) (marks : List Mark) : Nat :=
  marks.countP fun m => m.kind = kind && p m.timer

/-- The property of any timer. -/
def anyTimer : Nat → Bool := fun _ => true

section Tally

variable {p : Nat → Bool} {kind kind' : Mark.Kind} {t : Nat} {marks marks' : List Mark}

@[simp] theorem tally_nil : tally p kind [] = 0 := rfl

@[simp] theorem tally_append :
    tally p kind (marks ++ marks') = tally p kind marks + tally p kind marks' :=
  List.countP_append

theorem tally_cons : tally p kind (⟨kind', t⟩ :: marks) =
    (if kind' = kind ∧ p t = true then 1 else 0) + tally p kind marks := by
  rw [tally, List.countP_cons, Nat.add_comm]
  simp only [Bool.and_eq_true, decide_eq_true_eq]
  rfl

theorem tally_singleton :
    tally p kind [⟨kind', t⟩] = if kind' = kind ∧ p t = true then 1 else 0 := tally_cons

/-- Of the same kind, marks count as their timers do. -/
theorem tally_map (ts : List Nat) :
    tally p kind (ts.map fun t => ⟨kind', t⟩) = if kind' = kind then ts.countP p else 0 := by
  induction ts with
  | nil => split <;> rfl
  | cons t ts ih =>
    rw [List.map_cons, tally_cons, ih, List.countP_cons]
    by_cases hk : kind' = kind
    · simp only [hk, true_and, if_true, Nat.add_comm]
    · simp only [hk, false_and, if_false]

end Tally

namespace Scheduler

/-! ## What can happen -/

/-- What can happen to a scheduler. -/
inductive Event where
  | queueAt (timer wake : Nat)
  | queue (timer now : Nat) (delay : Duration)
  | cancel (timer : Nat)
  /-- A step of the coordinator, if it has one. -/
  | coordinate (now : Nat)
  | rest (now : Nat)
  | sample (now : Nat)
  | start (place : Nat)
  /-- A callback returns, or panics. -/
  | finish (place : Nat) (panicked : Bool)
  /-- The pool begins or ceases to refuse callbacks. -/
  | refuse (on : Bool)
  | shutdown
  /-- Timers are made, and another heap queues and lets go of its own. -/
  | others (number : Nat) (table : Table)
  deriving DecidableEq, Repr

variable {s s' s'' : Scheduler} {e : Event} {marks marks' : List Mark} {p : Nat → Bool}
  {t u wake now k : Nat} {f : Failure}

/-- The scheduler after something happened. -/
def next (s : Scheduler) : Event → Scheduler
  | .queueAt t wake => (s.queueAt t wake).2
  | .queue t now delay => (s.queue t now delay).2
  | .cancel t => (s.cancel t).2
  | .coordinate now => (s.coordinate now).getD s
  | .rest now => (s.rest now).2
  | .sample now => { s with clock := s.clock.sample now }
  | .start k => ((s.start k).map Prod.snd).getD s
  | .finish k panicked => s.finish k panicked
  | .refuse on => { s with refusing := on }
  | .shutdown => s.shutdown
  | .others _ table => { s with table }

/-- Anything can happen, but another heap minds only timers that are its own or nobody's. -/
def Allows (s : Scheduler) : Event → Prop
  | .others n table => n ≠ 0 ∧ n ≠ s.heap.number ∧ Minds n s.table table
  | _ => True

/-- What is noted when timer `t` was to be queued. -/
def queuing (s : Scheduler) (t : Nat) : Except Failure Unit → List Mark
  | .ok () => [⟨if t ∈ s.heap.items then .moved else .queued, t⟩]
  | .error _ => []

/-- What is noted when the callback of timer `t` was to be handed to the pool: the timer
is dropped when the counter says so. -/
def handing (s s' : Scheduler) (t : Nat) : List Mark :=
  if s'.counts.dropped = s.counts.dropped then [] else [⟨.dropped, t⟩]

/-- What is noted of the timers when something happens. -/
def noted (s : Scheduler) : Event → List Mark
  | .queueAt t wake => s.queuing t (s.queueAt t wake).1
  | .queue t now delay => s.queuing t (s.queue t now delay).1
  | .cancel t => if (s.cancel t).1 then [⟨.cancelled, t⟩] else []
  | .coordinate now =>
    match s.coordinate now, s.waiting, s.heap.popDue s.table now with
    | some s', some t, _ => s.handing s' t
    | some s', none, some (t, _, _) => ⟨.fired, t⟩ :: s.handing s' t
    | _, _, _ => []
  | .start k => ((s.start k).map fun x => Mark.mk .started x.1.timer).toList
  | .shutdown =>
    if s.stopped then []
    else s.waiting.toList.flatMap (s.handing s.shutdown) ++ s.heap.items.map fun t => ⟨.thrown, t⟩
  | _ => []

/-- What can come of a scheduler, with what is noted on the way. -/
inductive Runs (s : Scheduler) : List Mark → Scheduler → Prop
  | refl : Runs s [] s
  | step {marks : List Mark} {s' : Scheduler} (hr : Runs s marks s') (e : Event) (he : s'.Allows e) :
    Runs s (marks ++ s'.noted e) (s'.next e)

theorem Runs.trans (h₁ : Runs s marks s') (h₂ : Runs s' marks' s'') :
    Runs s (marks ++ marks') s'' := by
  induction h₂ with
  | refl => rwa [List.append_nil]
  | step _ e he ih =>
    rw [← List.append_assoc]
    exact ih.step e he

/-! ## The balance -/

/-- The timers that fired and whose callbacks were not started: one that the coordinator
may hold, and those in the pool's hands. -/
def outstanding (s : Scheduler) : List Nat := s.waiting.toList ++ s.ready.map Task.timer

/-- A scheduler as it should be: so is its heap, and after the shutdown it holds nothing. -/
structure Whole (s : Scheduler) : Prop where
  kept : s.heap.Kept s.table
  idle : s.table.Idle
  stopped : s.stopped = true → s.heap.items = [] ∧ s.waiting = none

/-- The marks balance with the counters and with what is held before and after. -/
structure Accounted (s : Scheduler) (marks : List Mark) (s' : Scheduler) : Prop where
  number : s'.heap.number = s.heap.number
  stopped : s.stopped = true → s'.stopped = true
  still : s.stopped = true → tally anyTimer .queued marks = 0
  scheduled : s'.counts.scheduled =
    s.counts.scheduled + tally anyTimer .queued marks + tally anyTimer .moved marks
  cancelled : s'.counts.cancelled = s.counts.cancelled + tally anyTimer .cancelled marks
  fired : s'.counts.fired = s.counts.fired + tally anyTimer .fired marks
  dropped : s'.counts.dropped = s.counts.dropped + tally anyTimer .dropped marks
  /-- What is in the heap was queued, and what was is or left it in one of three ways. -/
  queued : ∀ p, s.heap.items.countP p + tally p .queued marks =
    tally p .cancelled marks + tally p .fired marks + tally p .thrown marks + s'.heap.items.countP p
  /-- What is outstanding fired, and what did is or was dropped or started. -/
  handed : ∀ p, s.outstanding.countP p + tally p .fired marks =
    tally p .dropped marks + tally p .started marks + s'.outstanding.countP p

namespace Accounted

theorem trans (h₁ : Accounted s marks s') (h₂ : Accounted s' marks' s'') :
    Accounted s (marks ++ marks') s'' where
  number := h₂.number.trans h₁.number
  stopped h := h₂.stopped (h₁.stopped h)
  still h := by
    rw [tally_append, h₁.still h, h₂.still (h₁.stopped h)]
  scheduled := by
    have := h₁.scheduled
    have := h₂.scheduled
    simp only [tally_append]
    omega
  cancelled := by rw [h₂.cancelled, h₁.cancelled, tally_append, Nat.add_assoc]
  fired := by rw [h₂.fired, h₁.fired, tally_append, Nat.add_assoc]
  dropped := by rw [h₂.dropped, h₁.dropped, tally_append, Nat.add_assoc]
  queued p := by
    have := h₁.queued p
    have := h₂.queued p
    simp only [tally_append]
    omega
  handed p := by
    have := h₁.handed p
    have := h₂.handed p
    simp only [tally_append]
    omega

/-- Nothing is noted where no timer comes or goes. -/
theorem quiet (hh : s'.heap = s.heap) (hs : s'.stopped = s.stopped) (ho : s'.outstanding = s.outstanding)
    (hscheduled : s'.counts.scheduled = s.counts.scheduled)
    (hcancelled : s'.counts.cancelled = s.counts.cancelled)
    (hfired : s'.counts.fired = s.counts.fired) (hdropped : s'.counts.dropped = s.counts.dropped) :
    Accounted s [] s' where
  number := by rw [hh]
  stopped h := hs.trans h
  still _ := rfl
  scheduled := hscheduled
  cancelled := hcancelled
  fired := hfired
  dropped := hdropped
  queued p := by rw [hh]; simp
  handed p := by rw [ho]; simp

theorem refl : Accounted s [] s := quiet rfl rfl rfl rfl rfl rfl rfl

end Accounted

/-! ## Queuing and cancelling -/

/-- What queuing comes to: a refusal that changes nothing, or a timer in the heap. -/
theorem queueAt_cases (hw : s.Whole) (t wake : Nat) :
    (∃ f, s.queueAt t wake = (.error f, s) ∧
      (s.stopped = true ∧ f = .schedulerShutdown ∨
        s.stopped = false ∧ (s.table.get t).holder ≠ 0 ∧ (s.table.get t).holder ≠ s.heap.number ∧
          f = .timerBusy t)) ∨
    s.stopped = false ∧ ∃ root heap table, Heap.Queued s.heap s.table t wake heap table ∧
      s.queueAt t wake = (.ok (), { s with
        heap, table
        counts := { s.counts with scheduled := s.counts.scheduled + 1 }
        notified := s.notified || root }) := by
  unfold queueAt
  by_cases hs : s.stopped = true
  · exact .inl ⟨_, if_pos hs, .inl ⟨hs, rfl⟩⟩
  rw [if_neg hs]
  rw [Bool.not_eq_true] at hs
  by_cases hbusy : (s.table.get t).holder ≠ 0 ∧ (s.table.get t).holder ≠ s.heap.number
  · rw [Heap.insert_of_busy hbusy.1 hbusy.2]
    exact .inl ⟨_, rfl, .inr ⟨hs, hbusy.1, hbusy.2, rfl⟩⟩
  · obtain ⟨root, heap, table, hinsert, hqueued⟩ := Heap.insert_queued hw.kept (hw.idle.isFor hbusy) wake
    rw [hinsert]
    exact .inr ⟨hs, root, heap, table, hqueued, rfl⟩

/-- Taking note of a delay that is measured from the published clock. -/
def readClock (s : Scheduler) (delay : Duration) : Scheduler :=
  if s.settings.approxThreshold.le delay then { s with clock := s.clock.read.2 } else s

theorem queue_eq (s : Scheduler) (t now : Nat) (delay : Duration) : s.queue t now delay =
    (s.readClock delay).queueAt t (wakeTime s.settings s.clock.approx now delay) := rfl

theorem readClock_eq (s : Scheduler) (delay : Duration) :
    ∃ clock, s.readClock delay = { s with clock } := by
  unfold readClock
  split
  · exact ⟨_, rfl⟩
  · exact ⟨s.clock, rfl⟩

theorem Whole.queueAt (hw : s.Whole) (t wake : Nat) : (s.queueAt t wake).2.Whole := by
  obtain ⟨f, hq, -⟩ | ⟨hs, root, heap, table, hqueued, hq⟩ := queueAt_cases hw t wake
  · rw [hq]
    exact hw
  · rw [hq]
    exact ⟨hqueued.tended.kept, hqueued.tended.minds.idle hw.kept.number hw.idle,
      fun h => absurd (hs.symm.trans h) Bool.false_ne_true⟩

theorem queueAt_accounted (hw : s.Whole) (t wake : Nat) :
    Accounted s (s.queuing t (s.queueAt t wake).1) (s.queueAt t wake).2 := by
  obtain ⟨f, hq, -⟩ | ⟨hs, root, heap, table, hqueued, hq⟩ := queueAt_cases hw t wake
  · rw [hq]
    exact .refl
  have hnever : s.stopped ≠ true := by rw [hs]; exact Bool.false_ne_true
  have hperm (p : Nat → Bool) := hqueued.perm.countP_eq p
  rw [hq, queuing]
  by_cases hin : t ∈ s.heap.items
  · rw [if_pos hin]
    exact {
      number := hqueued.tended.number
      stopped := id
      still := fun h => absurd h hnever
      scheduled := by simp [tally_singleton, anyTimer]
      cancelled := by simp [tally_singleton]
      fired := by simp [tally_singleton]
      dropped := by simp [tally_singleton]
      queued := fun p => by
        -- It was there already.
        rw [hperm, ← (List.perm_cons_erase hin).countP_eq p]
        simp [tally_singleton]
      handed := fun p => by simp [tally_singleton, outstanding] }
  · rw [if_neg hin]
    exact {
      number := hqueued.tended.number
      stopped := id
      still := fun h => absurd h hnever
      scheduled := by simp [tally_singleton, anyTimer]
      cancelled := by simp [tally_singleton]
      fired := by simp [tally_singleton]
      dropped := by simp [tally_singleton]
      queued := fun p => by
        rw [hperm, List.erase_of_not_mem hin, List.countP_cons]
        simp [tally_singleton]
      handed := fun p => by simp [tally_singleton, outstanding] }

theorem Whole.readClock (hw : s.Whole) (delay : Duration) : (s.readClock delay).Whole := by
  obtain ⟨clock, h⟩ := s.readClock_eq delay
  rw [h]
  exact ⟨hw.kept, hw.idle, hw.stopped⟩

theorem queue_accounted (hw : s.Whole) (t now : Nat) (delay : Duration) :
    Accounted s (s.queuing t (s.queue t now delay).1) (s.queue t now delay).2 := by
  have hqueued := queueAt_accounted (hw.readClock delay) t (wakeTime s.settings s.clock.approx now delay)
  rw [← queue_eq] at hqueued
  obtain ⟨clock, h⟩ := s.readClock_eq delay
  have hread : Accounted s [] (s.readClock delay) := by
    rw [h]
    exact .quiet rfl rfl rfl rfl rfl rfl rfl
  have hqueuing (r : Except Failure Unit) : (s.readClock delay).queuing t r = s.queuing t r := by
    rw [h]
    rfl
  rw [hqueuing] at hqueued
  exact hread.trans hqueued

/-- What cancelling comes to: nothing, or a timer out of the heap. -/
theorem cancel_cases (hw : s.Whole) (t : Nat) :
    t ∉ s.heap.items ∧ s.cancel t = (false, s) ∨
    t ∈ s.heap.items ∧ ∃ heap table, s.heap.Tended s.table heap table ∧
      s.heap.items.Perm (t :: heap.items) ∧
      s.cancel t = (true, { s with
        heap, table
        counts := { s.counts with cancelled := s.counts.cancelled + 1 } }) := by
  by_cases ht : t ∈ s.heap.items
  · obtain ⟨hi, hat⟩ := hw.kept.isPosition ht
    obtain ⟨htended, hperm⟩ := Heap.removeAt_tended hw.kept hi
    rw [hat] at hperm
    refine .inr ⟨ht, _, _, htended, hperm, ?_⟩
    simp only [cancel, Heap.remove_of_mem hw.kept ht, if_true]
  · refine .inl ⟨ht, ?_⟩
    simp only [cancel, Heap.remove_of_not_mem hw.kept ht, Bool.false_eq_true, if_false]

theorem Whole.cancel (hw : s.Whole) (t : Nat) : (s.cancel t).2.Whole := by
  obtain ⟨-, hc⟩ | ⟨ht, heap, table, htended, -, hc⟩ := cancel_cases hw t
  · rw [hc]
    exact hw
  · rw [hc]
    refine ⟨htended.kept, htended.minds.idle hw.kept.number hw.idle, fun h => ?_⟩
    rw [(hw.stopped h).1] at ht
    exact absurd ht List.not_mem_nil

theorem cancel_accounted (hw : s.Whole) (t : Nat) :
    Accounted s (if (s.cancel t).1 then [⟨.cancelled, t⟩] else []) (s.cancel t).2 := by
  obtain ⟨-, hc⟩ | ⟨-, heap, table, htended, hperm, hc⟩ := cancel_cases hw t
  · rw [hc]
    exact .refl
  · rw [hc]
    exact {
      number := htended.number
      stopped := id
      still := fun _ => by simp [tally_singleton]
      scheduled := by simp [tally_singleton]
      cancelled := by simp [tally_singleton, anyTimer]
      fired := by simp [tally_singleton]
      dropped := by simp [tally_singleton]
      queued := fun p => by
        rw [hperm.countP_eq, List.countP_cons]
        simp [tally_singleton, Nat.add_comm]
      handed := fun p => by simp [tally_singleton, outstanding] }

/-! ## Handing on -/

/-- What handing on timer `t` comes to: the coordinator or the pool has it, or it is
dropped. -/
structure Passed (s : Scheduler) (t : Nat) (s' : Scheduler) : Prop where
  heap : s'.heap = s.heap
  table : s'.table = s.table
  stopped : s'.stopped = s.stopped
  scheduled : s'.counts.scheduled = s.counts.scheduled
  cancelled : s'.counts.cancelled = s.counts.cancelled
  fired : s'.counts.fired = s.counts.fired
  handed : s'.counts.dropped = s.counts.dropped ∧ s'.outstanding.Perm (t :: s.outstanding) ∨
    s'.counts.dropped = s.counts.dropped + 1 ∧ s'.outstanding = s.outstanding

/-- What is handed to the pool is in its hands, unless it refuses. -/
theorem submit_passed (s : Scheduler) (task : Task) : Passed s task.timer (s.submit task) := by
  unfold submit
  split
  · unfold giveBack
    split
    · exact ⟨rfl, rfl, rfl, rfl, rfl, rfl, .inr ⟨rfl, rfl⟩⟩
    · exact ⟨rfl, rfl, rfl, rfl, rfl, rfl, .inr ⟨rfl, rfl⟩⟩
  · refine ⟨rfl, rfl, rfl, rfl, rfl, rfl, .inl ⟨rfl, ?_⟩⟩
    simp only [outstanding, List.map_append, List.map_cons, List.map_nil, ← List.append_assoc]
    exact List.perm_append_singleton _ _

theorem waiting_submit (s : Scheduler) (task : Task) : (s.submit task).waiting = s.waiting := by
  unfold submit giveBack
  split
  · split <;> rfl
  · rfl

/-- A timer that fired is handed on, or waits for a permit. -/
theorem dispatch_passed (hw : s.waiting = none) (t : Nat) :
    Passed { s with counts := { s.counts with fired := s.counts.fired + 1 } } t (s.dispatch t) := by
  unfold dispatch
  simp only
  split
  · exact submit_passed _ { timer := t, permit := false }
  · split
    · refine ⟨rfl, rfl, rfl, rfl, rfl, rfl, .inl ⟨rfl, ?_⟩⟩
      simp only [outstanding, hw]
      exact .refl _
    · obtain ⟨h₁, h₂, h₃, h₄, h₅, h₆, h₇⟩ := submit_passed
        { s with
          counts := { s.counts with fired := s.counts.fired + 1 }
          throttle := s.throttle.take } { timer := t, permit := true }
      exact ⟨h₁, h₂, h₃, h₄, h₅, h₆, h₇⟩

theorem tally_handing {kind : Mark.Kind} (hk : Mark.Kind.dropped ≠ kind) :
    tally p kind (s.handing s' t) = 0 := by
  unfold handing
  split
  · rfl
  · rw [tally_singleton, if_neg fun h => hk h.1]

theorem Passed.dropped (hp : Passed s t s') :
    s'.counts.dropped = s.counts.dropped + tally anyTimer .dropped (s.handing s' t) := by
  unfold handing
  obtain ⟨hd, -⟩ | ⟨hd, -⟩ := hp.handed
  · rw [if_pos hd, hd, tally_nil, Nat.add_zero]
  · rw [if_neg (by omega), hd, tally_singleton, if_pos ⟨rfl, rfl⟩]

theorem Passed.outstanding (hp : Passed s t s') (p : Nat → Bool) :
    (if p t = true then 1 else 0) + s.outstanding.countP p =
      tally p .dropped (s.handing s' t) + s'.outstanding.countP p := by
  unfold handing
  obtain ⟨hd, hperm⟩ | ⟨hd, hsame⟩ := hp.handed
  · rw [if_pos hd, hperm.countP_eq, List.countP_cons, tally_nil]
    omega
  · have hne : s'.counts.dropped ≠ s.counts.dropped := by omega
    rw [if_neg hne, hsame, tally_singleton]
    simp only [true_and]

/-! ## The coordinator -/

/-- A coordinator that waits takes up a permit that is left. -/
theorem coordinate_of_waiting (hs : s.stopped = false) (hw : s.waiting = some t) (now : Nat) :
    s.coordinate now = if s.throttle.isFull then none else
      some ({ s with waiting := none, throttle := s.throttle.take }.submit { timer := t, permit := true }) := by
  unfold coordinate
  rw [if_neg (Bool.eq_false_iff.1 hs)]
  split
  next u hu =>
    cases hw.symm.trans hu
    rfl
  next hnone => cases hw.symm.trans hnone

/-- One that does not takes out a timer that is due. -/
theorem coordinate_of_free (hs : s.stopped = false) (hw : s.waiting = none) (now : Nat) :
    s.coordinate now = (s.heap.popDue s.table now).map fun x =>
      dispatch { s with heap := x.2.1, table := x.2.2 } x.1 := by
  unfold coordinate
  rw [if_neg (Bool.eq_false_iff.1 hs)]
  split
  next u hu => cases hw.symm.trans hu
  next =>
    cases s.heap.popDue s.table now with
    | none => rfl
    | some x => rfl

/-- What a step of the coordinator comes to: it hands on the timer it waits with, or
takes one out of the heap and hands that on. -/
theorem coordinate_cases (h : s.coordinate now = some s') : s.stopped = false ∧
    ((∃ t throttle, s.waiting = some t ∧ Passed { s with waiting := none, throttle } t s') ∨
      s.waiting = none ∧ ∃ t heap table, s.heap.popDue s.table now = some (t, heap, table) ∧
        Passed { s with
          heap, table
          counts := { s.counts with fired := s.counts.fired + 1 } } t s') := by
  unfold coordinate at h
  split at h
  next => cases h
  next hs =>
  refine ⟨Bool.eq_false_iff.2 hs, ?_⟩
  split at h
  next t hwaiting =>
    split at h
    next => cases h
    next =>
      cases h
      exact .inl ⟨t, _, hwaiting, submit_passed _ { timer := t, permit := true }⟩
  next hwaiting =>
    split at h
    next => cases h
    next t heap table hp =>
      cases h
      have hpassed := dispatch_passed (s := { s with heap, table }) hwaiting t
      exact .inr ⟨hwaiting, t, heap, table, hp, hpassed⟩

theorem Whole.coordinate (hw : s.Whole) (h : s.coordinate now = some s') : s'.Whole := by
  obtain ⟨hs, hcases⟩ := coordinate_cases h
  have hnever (hp : s'.stopped = s.stopped) (h : s'.stopped = true) :
      s'.heap.items = [] ∧ s'.waiting = none :=
    absurd ((hs.symm.trans hp.symm).trans h) Bool.false_ne_true
  obtain ⟨t, throttle, -, hp⟩ | ⟨-, t, heap, table, hpop, hp⟩ := hcases
  · refine ⟨?_, ?_, hnever hp.stopped⟩
    · rw [hp.heap, hp.table]
      exact hw.kept
    · rw [hp.table]
      exact hw.idle
  · have htended := Heap.popDue_tended hw.kept hpop
    refine ⟨?_, ?_, hnever hp.stopped⟩
    · rw [hp.heap, hp.table]
      exact htended.kept
    · rw [hp.table]
      exact htended.minds.idle hw.kept.number hw.idle

/-- Popping takes the timer out of the heap. -/
theorem popDue_perm {h h' : Heap} {table table' : Table} (hk : h.Kept table)
    (hp : h.popDue table now = some (t, h', table')) : h.items.Perm (t :: h'.items) := by
  obtain ⟨hroot, -, hremoved⟩ := Heap.popDue_eq_some.1 hp
  obtain ⟨hpos, hat⟩ := Heap.root?_eq_some.1 hroot
  have hperm := (Heap.removeAt_tended hk hpos).2
  rwa [hremoved, hat] at hperm

theorem coordinate_accounted (hw : s.Whole) (h : s.coordinate now = some s') :
    Accounted s (s.noted (.coordinate now)) s' := by
  obtain ⟨hs, ⟨t, throttle, hwaiting, hp⟩ | ⟨hwaiting, t, heap, table, hpop, hp⟩⟩ := coordinate_cases h
  · have hmarks : s.noted (.coordinate now) = handing { s with waiting := none, throttle } s' t := by
      simp only [noted, h, hwaiting]
      rfl
    rw [hmarks]
    exact {
      number := by rw [hp.heap]
      stopped := hp.stopped.trans
      still := fun _ => tally_handing (by decide)
      scheduled := by simp [hp.scheduled, tally_handing]
      cancelled := by simp [hp.cancelled, tally_handing]
      fired := by simp [hp.fired, tally_handing]
      dropped := hp.dropped
      queued := fun p => by simp [hp.heap, tally_handing]
      handed := fun p => by
        have := hp.outstanding p
        simp [outstanding, hwaiting, tally_handing, List.countP_cons] at this ⊢
        omega }
  · have hmarks : s.noted (.coordinate now) = ⟨.fired, t⟩ ::
        handing { s with heap, table, counts := { s.counts with fired := s.counts.fired + 1 } } s' t := by
      simp only [noted, h, hwaiting, hpop]
      rfl
    rw [hmarks]
    exact {
      number := by rw [hp.heap]; exact (Heap.popDue_tended hw.kept hpop).number
      stopped := hp.stopped.trans
      still := fun _ => by simp [tally_cons, tally_handing]
      scheduled := by simp [hp.scheduled, tally_cons, tally_handing]
      cancelled := by simp [hp.cancelled, tally_cons, tally_handing]
      fired := by simp [hp.fired, tally_cons, tally_handing, anyTimer]
      dropped := by
        rw [hp.dropped, tally_cons, if_neg (by simp), Nat.zero_add]
      queued := fun p => by
        rw [(popDue_perm hw.kept hpop).countP_eq, List.countP_cons, hp.heap]
        simp [tally_cons, tally_handing, Nat.add_comm]
      handed := fun p => by
        have := hp.outstanding p
        simp [outstanding, hwaiting, tally_cons, tally_handing] at this ⊢
        omega }

/-! ## The pool -/

theorem start_cases : s.start k = none ∨
    ∃ task s', s.start k = some (task, s') ∧ s'.heap = s.heap ∧ s'.table = s.table ∧
      s'.stopped = s.stopped ∧ s'.waiting = s.waiting ∧ s'.counts = s.counts ∧
      s.outstanding.Perm (task.timer :: s'.outstanding) := by
  unfold start
  split
  next => exact .inl rfl
  next task hk =>
    refine .inr ⟨task, _, rfl, rfl, rfl, rfl, rfl, rfl, ?_⟩
    obtain ⟨hlt, hk⟩ := List.getElem?_eq_some_iff.1 hk
    have hperm := (List.getElem_cons_eraseIdx_perm hlt).symm.map Task.timer
    rw [hk, List.map_cons] at hperm
    exact (hperm.append_left s.waiting.toList).trans List.perm_middle

theorem start_accounted (k : Nat) : Accounted s (s.noted (.start k)) (s.next (.start k)) := by
  obtain hnone | ⟨task, s', hstart, hheap, -, hstopped, -, hcounts, hperm⟩ := start_cases (s := s) (k := k)
  · simp only [noted, next, hnone]
    exact .refl
  · simp only [noted, next, hstart, Option.map_some, Option.toList_some, Option.getD_some]
    exact {
      number := by rw [hheap]
      stopped := hstopped.trans
      still := fun _ => by simp [tally_singleton]
      scheduled := by simp [hcounts, tally_singleton]
      cancelled := by simp [hcounts, tally_singleton]
      fired := by simp [hcounts, tally_singleton]
      dropped := by simp [hcounts, tally_singleton]
      queued := fun p => by simp [hheap, tally_singleton]
      handed := fun p => by
        rw [hperm.countP_eq, List.countP_cons]
        simp [tally_singleton, Nat.add_comm] }

theorem finish_accounted (k : Nat) (panicked : Bool) : Accounted s [] (s.finish k panicked) := by
  unfold finish giveBack
  split
  next => exact .refl
  next =>
    simp only
    split <;> split <;> exact .quiet rfl rfl rfl rfl rfl rfl rfl

theorem Whole.finish (hw : s.Whole) (k : Nat) (panicked : Bool) : (s.finish k panicked).Whole := by
  unfold Scheduler.finish giveBack
  split
  next => exact hw
  next =>
    simp only
    split <;> split <;> exact ⟨hw.kept, hw.idle, hw.stopped⟩

/-! ## Shutting down -/

/-- The scheduler once the shutdown has dealt with the coordinator, and before it throws
out what is queued. -/
def halt (s : Scheduler) : Scheduler :=
  let s := { s with stopped := true, notified := true }
  match s.waiting with
  | none => s
  | some t =>
    let s := { s with waiting := none }
    if s.throttle.isFull then s.drop
    else { s with throttle := s.throttle.take }.submit { timer := t, permit := true }

theorem shutdown_eq (hs : s.stopped = false) : s.shutdown =
    { s.halt with
      heap := (s.halt.heap.drain s.halt.table).2.1
      table := (s.halt.heap.drain s.halt.table).2.2 } := by
  unfold shutdown
  rw [if_neg (Bool.eq_false_iff.1 hs)]
  rfl

/-- The timer that the coordinator waited with, if it did, is handed on. -/
theorem halt_cases (s : Scheduler) :
    (s.waiting = none ∧ s.halt = { s with stopped := true, notified := true }) ∨
    ∃ t throttle, s.waiting = some t ∧ s.halt.waiting = none ∧
      Passed { s with stopped := true, notified := true, waiting := none, throttle } t s.halt := by
  unfold halt
  cases hwaiting : s.waiting with
  | none => exact .inl ⟨rfl, rfl⟩
  | some t =>
    simp only
    split
    · exact .inr ⟨t, s.throttle, rfl, rfl, rfl, rfl, rfl, rfl, rfl, rfl, .inr ⟨rfl, rfl⟩⟩
    · exact .inr ⟨t, _, rfl, waiting_submit _ _, submit_passed _ { timer := t, permit := true }⟩

theorem heap_halt (s : Scheduler) : s.halt.heap = s.heap ∧ s.halt.table = s.table ∧
    s.halt.stopped = true ∧ s.halt.waiting = none := by
  obtain ⟨hwaiting, h⟩ | ⟨t, throttle, -, hnone, hp⟩ := s.halt_cases
  · rw [h]
    exact ⟨rfl, rfl, rfl, hwaiting⟩
  · exact ⟨hp.heap, hp.table, hp.stopped, hnone⟩

theorem Whole.shutdown (hw : s.Whole) : s.shutdown.Whole := by
  by_cases hs : s.stopped = true
  · rw [Scheduler.shutdown, if_pos hs]
    exact hw
  · obtain ⟨hheap, htable, -, hwaiting⟩ := s.heap_halt
    rw [shutdown_eq (Bool.eq_false_iff.2 hs), hheap, htable]
    have htended := Heap.drain_tended hw.kept
    exact ⟨htended.kept, htended.minds.idle hw.kept.number hw.idle, fun _ => ⟨rfl, hwaiting⟩⟩

theorem halt_accounted (s : Scheduler) :
    Accounted s (s.waiting.toList.flatMap (s.handing s.halt)) s.halt := by
  obtain ⟨hwaiting, h⟩ | ⟨t, throttle, hwaiting, -, hp⟩ := s.halt_cases
  · rw [hwaiting, h]
    exact ⟨rfl, fun _ => rfl, fun _ => rfl, rfl, rfl, rfl, rfl, fun p => by simp, fun p => by simp [outstanding]⟩
  · have hmarks : s.waiting.toList.flatMap (s.handing s.halt) =
        handing { s with stopped := true, notified := true, waiting := none, throttle } s.halt t := by
      rw [hwaiting]
      exact List.append_nil _
    rw [hmarks]
    exact {
      number := by rw [hp.heap]
      stopped := fun _ => hp.stopped
      still := fun _ => tally_handing (by decide)
      scheduled := by simp [hp.scheduled, tally_handing]
      cancelled := by simp [hp.cancelled, tally_handing]
      fired := by simp [hp.fired, tally_handing]
      dropped := hp.dropped
      queued := fun p => by simp [hp.heap, tally_handing]
      handed := fun p => by
        have := hp.outstanding p
        simp [outstanding, hwaiting, tally_handing, List.countP_cons] at this ⊢
        omega }

/-- Throwing out what is queued. -/
theorem drain_accounted (s : Scheduler) :
    Accounted s (s.heap.items.map fun t => ⟨.thrown, t⟩)
      { s with heap := (s.heap.drain s.table).2.1, table := (s.heap.drain s.table).2.2 } where
  number := rfl
  stopped := id
  still _ := by simp [tally_map]
  scheduled := by simp [tally_map]
  cancelled := by simp [tally_map]
  fired := by simp [tally_map]
  dropped := by simp [tally_map]
  queued p := by simp [tally_map, Heap.drain]
  handed p := by simp [tally_map, outstanding]

theorem shutdown_accounted (s : Scheduler) : Accounted s (s.noted .shutdown) s.shutdown := by
  by_cases hs : s.stopped = true
  · rw [shutdown, if_pos hs, noted, if_pos hs]
    exact .refl
  rw [Bool.not_eq_true] at hs
  have hmarks : s.noted .shutdown = s.waiting.toList.flatMap (s.handing s.halt) ++
      s.halt.heap.items.map fun t => ⟨.thrown, t⟩ := by
    have hhanding : s.handing s.shutdown = s.handing s.halt := by
      rw [shutdown_eq hs]
      rfl
    rw [noted, if_neg (Bool.eq_false_iff.1 hs), hhanding, s.heap_halt.1]
  rw [hmarks, shutdown_eq hs]
  exact s.halt_accounted.trans s.halt.drain_accounted

/-! ## Any step, and any run -/

theorem next_whole (hw : s.Whole) (e : Event) (he : s.Allows e) : (s.next e).Whole := by
  cases e with
  | queueAt t wake => exact hw.queueAt t wake
  | queue t now delay => exact (hw.readClock delay).queueAt t _
  | cancel t => exact hw.cancel t
  | coordinate now =>
    rw [next]
    cases h : s.coordinate now with
    | none => exact hw
    | some s' => exact hw.coordinate h
  | rest now => exact ⟨hw.kept, hw.idle, hw.stopped⟩
  | sample now => exact ⟨hw.kept, hw.idle, hw.stopped⟩
  | start k =>
    rw [next]
    obtain hnone | ⟨task, s', hstart, hheap, htable, hstopped, hwaiting, -, -⟩ :=
      start_cases (s := s) (k := k)
    · rw [hnone]
      exact hw
    · rw [hstart]
      refine ⟨?_, ?_, ?_⟩
      · show s'.heap.Kept s'.table
        rw [hheap, htable]
        exact hw.kept
      · show s'.table.Idle
        rw [htable]
        exact hw.idle
      · show s'.stopped = true → s'.heap.items = [] ∧ s'.waiting = none
        rw [hheap, hstopped, hwaiting]
        exact hw.stopped
  | finish k panicked => exact hw.finish k panicked
  | refuse on => exact ⟨hw.kept, hw.idle, hw.stopped⟩
  | shutdown => exact hw.shutdown
  | others n table =>
    obtain ⟨hn, hne, hminds⟩ := he
    exact ⟨hw.kept.minds hminds hne.symm, hminds.idle hn hw.idle, hw.stopped⟩

/-- **One step balances**, whatever happens. -/
theorem next_accounted (hw : s.Whole) (e : Event) : Accounted s (s.noted e) (s.next e) := by
  cases e with
  | queueAt t wake => exact queueAt_accounted hw t wake
  | queue t now delay => exact queue_accounted hw t now delay
  | cancel t => exact cancel_accounted hw t
  | coordinate now =>
    cases h : s.coordinate now with
    | none =>
      simp only [noted, next, h, Option.getD_none]
      exact .refl
    | some s' =>
      rw [next, h, Option.getD_some]
      exact coordinate_accounted hw h
  | rest now => exact .quiet rfl rfl rfl rfl rfl rfl rfl
  | sample now => exact .quiet rfl rfl rfl rfl rfl rfl rfl
  | start k => exact start_accounted k
  | finish k panicked => exact finish_accounted k panicked
  | refuse on => exact .quiet rfl rfl rfl rfl rfl rfl rfl
  | shutdown => exact s.shutdown_accounted
  | others n table => exact .quiet rfl rfl rfl rfl rfl rfl rfl

theorem Runs.whole (hr : Runs s marks s') (hw : s.Whole) : s'.Whole := by
  induction hr with
  | refl => exact hw
  | step _ e he ih => exact next_whole ih e he

/-- **Any run balances**: so does each of its steps. -/
theorem Runs.accounted (hr : Runs s marks s') (hw : s.Whole) : Accounted s marks s' := by
  induction hr with
  | refl => exact .refl
  | step hr e he ih => exact ih.trans (next_accounted (hr.whole hw) e)

/-! ## No timer is lost, and none fires twice -/

/-- A scheduler that was just made, with heap `n`, for timers that others may hold. -/
def made (settings : Settings.Scheduler) (now n : Nat) (table : Table) : Scheduler :=
  { create settings now with heap := { number := n }, table }

theorem made_whole {settings : Settings.Scheduler} {n : Nat} {table : Table} (hn : n ≠ 0)
    (hi : table.Idle) (hfree : ∀ t, (table.get t).holder ≠ n) : (made settings now n table).Whole where
  kept := by
    refine ⟨hn, fun i hi => ?_, fun i h1 hi => ?_, fun t => ?_⟩
    · exact absurd hi.le (Nat.not_le_of_lt hi.pos)
    · exact absurd hi (Nat.not_le_of_lt (Nat.lt_trans Nat.one_pos h1))
    · exact ⟨fun ht => absurd ht List.not_mem_nil, fun ht => absurd ht (hfree t)⟩
  idle := hi
  stopped h := absurd h Bool.false_ne_true

/-- The counters of a scheduler agree with what was noted since it was made. -/
structure Balanced (s : Scheduler) (marks : List Mark) : Prop where
  scheduled : s.counts.scheduled = tally anyTimer .moved marks + s.counts.cancelled + s.counts.fired +
    s.pending + tally anyTimer .thrown marks
  fired : s.counts.fired = s.counts.dropped + tally anyTimer .started marks + s.ready.length +
    if s.waiting.isSome then 1 else 0
  /-- A timer fires once at most for each time it was queued, and its callback is started
  once at most for each time it fired. -/
  once : ∀ t, tally (· = t) .fired marks ≤ tally (· = t) .queued marks ∧
    tally (· = t) .started marks ≤ tally (· = t) .fired marks

/-- The same from any moment on: a timer that is in the heap, or is queued anew, fires
once at most, and its callback is started once at most. -/
def FiresOnce (s : Scheduler) : Prop :=
  ∀ marks s', s.Runs marks s' → ∀ t,
    tally (· = t) .fired marks ≤ s.heap.items.count t + tally (· = t) .queued marks ∧
      tally (· = t) .started marks ≤ s.outstanding.count t + tally (· = t) .fired marks

/-- A timer whose cancelling answers that it was queued is not fired before it is queued
anew. -/
def StaysCancelled (s : Scheduler) : Prop :=
  ∀ t, (s.cancel t).1 = true → ∀ marks s', (s.cancel t).2.Runs marks s' →
    tally (· = t) .queued marks = 0 → tally (· = t) .fired marks = 0

/-- Queuing that fails changes nothing, except that the published clock counts as read;
it fails after the shutdown, and where another heap has the timer. -/
structure Refuses (s : Scheduler) : Prop where
  queueAt : ∀ t wake f, (s.queueAt t wake).1 = .error f → (s.queueAt t wake).2 = s
  queue : ∀ t now delay f, (s.queue t now delay).1 = .error f →
    ∃ clock, (s.queue t now delay).2 = { s with clock }
  failure : ∀ t wake f, (s.queueAt t wake).1 = .error f ↔
    s.stopped = true ∧ f = .schedulerShutdown ∨
      s.stopped = false ∧ (s.table.get t).holder ≠ 0 ∧ (s.table.get t).holder ≠ s.heap.number ∧
        f = .timerBusy t

/-- After the shutdown nothing is queued and nothing fires, and what was queued another
scheduler can queue. -/
structure Ends (s : Scheduler) : Prop where
  still : ∀ marks s', s.shutdown.Runs marks s' →
    s'.pending = 0 ∧ (∀ now, s'.coordinate now = none) ∧ tally anyTimer .fired marks = 0
  released : s.stopped = false → ∀ t ∈ s.heap.items, (s.shutdown.table.get t).holder = 0
  /-- Unless a third has it by then. -/
  free : ∀ marks s', s.shutdown.Runs marks s' → ∀ other : Scheduler, other.Whole →
    other.stopped = false → other.table = s'.table → ∀ t ∈ s.heap.items,
      (∀ n, n ≠ 0 → n ≠ s.heap.number → n ≠ other.heap.number → (s'.table.get t).holder ≠ n) →
        ∀ wake, (other.queueAt t wake).1 = .ok () ∧ t ∈ (other.queueAt t wake).2.heap.items

theorem countP_anyTimer (ts : List Nat) : ts.countP anyTimer = ts.length :=
  List.countP_eq_length.2 fun _ _ => rfl

theorem countP_timer (ts : List Nat) (t : Nat) : ts.countP (· = t) = ts.count t :=
  List.countP_congr fun u _ => by simp

theorem Accounted.balances {settings : Settings.Scheduler} {n : Nat} {table : Table}
    (ha : Accounted (made settings now n table) marks s) : Balanced s marks := by
  have hqueued := ha.queued anyTimer
  have hhanded := ha.handed anyTimer
  rw [countP_anyTimer, countP_anyTimer] at hqueued hhanded
  have hscheduled : s.counts.scheduled = 0 + _ + _ := ha.scheduled
  have hcancelled : s.counts.cancelled = 0 + _ := ha.cancelled
  have hfired : s.counts.fired = 0 + _ := ha.fired
  have hdropped : s.counts.dropped = 0 + _ := ha.dropped
  have hempty : (made settings now n table).heap.items.length = 0 := rfl
  have hnothing : (made settings now n table).outstanding.length = 0 := rfl
  refine ⟨?_, ?_, fun t => ?_⟩
  · simp only [pending, Heap.size]
    omega
  · have hlength : s.outstanding.length = s.ready.length + if s.waiting.isSome then 1 else 0 := by
      simp only [outstanding, List.length_append, List.length_map]
      cases s.waiting with
      | none => exact Nat.add_comm _ _
      | some t => exact Nat.add_comm _ _
    omega
  · have hq : 0 + _ = _ := ha.queued (· = t)
    have hh : 0 + _ = _ := ha.handed (· = t)
    omega

theorem Whole.firesOnce (hw : s.Whole) : s.FiresOnce := by
  intro marks s' hr t
  have ha := hr.accounted hw
  have hqueued := ha.queued (· = t)
  have hhanded := ha.handed (· = t)
  rw [countP_timer] at hqueued hhanded
  omega

theorem Whole.staysCancelled (hw : s.Whole) : s.StaysCancelled := by
  intro t ht marks s' hr hnone
  have ha := hr.accounted (hw.cancel t)
  have hqueued := ha.queued (· = t)
  obtain ⟨-, hc⟩ | ⟨-, heap, table, -, hperm, hc⟩ := cancel_cases hw t
  · rw [hc] at ht
    cases ht
  · have hout : t ∉ heap.items := (List.nodup_cons.1 (hperm.nodup_iff.1 hw.kept.indexed.nodup)).1
    rw [hc, countP_timer, List.count_eq_zero_of_not_mem hout] at hqueued
    omega

theorem Whole.refuses (hw : s.Whole) : s.Refuses := by
  have hat {x : Scheduler} (hx : x.Whole) (t wake : Nat) (f : Failure)
      (hf : (x.queueAt t wake).1 = .error f) : (x.queueAt t wake).2 = x := by
    obtain ⟨g, hq, -⟩ | ⟨-, root, heap, table, -, hq⟩ := queueAt_cases hx t wake
    · rw [hq]
    · rw [hq] at hf
      cases hf
  refine ⟨hat hw, fun t now delay f hf => ?_, fun t wake f => ?_⟩
  · obtain ⟨clock, hclock⟩ := s.readClock_eq delay
    rw [queue_eq] at hf ⊢
    exact ⟨clock, (hat (hw.readClock delay) _ _ f hf).trans hclock⟩
  · constructor
    · intro hf
      obtain ⟨g, hq, hcause⟩ | ⟨-, root, heap, table, -, hq⟩ := queueAt_cases hw t wake
      · rw [hq] at hf
        cases hf
        exact hcause
      · rw [hq] at hf
        cases hf
    · rintro (⟨hs, rfl⟩ | ⟨hs, h0, hne, rfl⟩)
      · rw [Scheduler.queueAt, if_pos hs]
      · rw [Scheduler.queueAt, if_neg (Bool.eq_false_iff.1 hs), Heap.insert_of_busy h0 hne]

theorem shutdown_stopped (s : Scheduler) : s.shutdown.stopped = true := by
  by_cases hs : s.stopped = true
  · rwa [shutdown, if_pos hs]
  · rw [shutdown_eq (Bool.eq_false_iff.2 hs)]
    exact s.heap_halt.2.2.1

/-- A timer that the heap held is nobody's after the shutdown. -/
theorem Whole.released (hw : s.Whole) (hs : s.stopped = false) (ht : t ∈ s.heap.items) :
    (s.shutdown.table.get t).holder = 0 := by
  have hheld := (hw.kept.holds t).1 ht
  have htended := Heap.drain_tended hw.kept
  have hnone : (s.shutdown.table.get t).holder ≠ s.heap.number := by
    intro h
    have hmem := (htended.kept.holds t).2
    rw [shutdown_eq hs, s.heap_halt.1, s.heap_halt.2.1] at h
    exact absurd (hmem h) List.not_mem_nil
  rw [shutdown_eq hs, s.heap_halt.1, s.heap_halt.2.1] at hnone ⊢
  obtain hsame | ⟨-, hown | hfree⟩ := htended.minds t
  · rw [hsame] at hnone
    exact absurd hheld hnone
  · exact absurd hown hnone
  · exact hfree.1

/-- A scheduler that was not shut down queues a timer that no other holds. -/
theorem Whole.queueAt_ok (hw : s.Whole) (hs : s.stopped = false)
    (hfree : (s.table.get t).holder = 0 ∨ (s.table.get t).holder = s.heap.number) (wake : Nat) :
    (s.queueAt t wake).1 = .ok () ∧ t ∈ (s.queueAt t wake).2.heap.items := by
  obtain ⟨f, -, ⟨hstopped, -⟩ | ⟨-, h0, hne, -⟩⟩ | ⟨-, root, heap, table, hqueued, hq⟩ :=
    queueAt_cases hw t wake
  · exact absurd (hs.symm.trans hstopped) Bool.false_ne_true
  · exact (hfree.elim h0 hne).elim
  · rw [hq]
    exact ⟨rfl, hqueued.perm.mem_iff.2 List.mem_cons_self⟩

theorem Whole.ends (hw : s.Whole) : s.Ends := by
  have hstopped {marks : List Mark} {s' : Scheduler} (hr : s.shutdown.Runs marks s') :
      s'.stopped = true := (hr.accounted hw.shutdown).stopped s.shutdown_stopped
  refine ⟨fun marks s' hr => ⟨?_, fun now => ?_, ?_⟩, fun hs t ht => hw.released hs ht,
    fun marks s' hr other hother hs htable t ht hthird wake => hother.queueAt_ok hs ?_ wake⟩
  · rw [pending, Heap.size, ((hr.whole hw.shutdown).stopped (hstopped hr)).1]
    rfl
  · rw [Scheduler.coordinate, if_pos (hstopped hr)]
  · have ha := hr.accounted hw.shutdown
    have hqueued := ha.queued anyTimer
    have hstill := ha.still s.shutdown_stopped
    rw [(hw.shutdown.stopped s.shutdown_stopped).1, List.countP_nil] at hqueued
    omega
  · have hempty := ((hr.whole hw.shutdown).stopped (hstopped hr)).1
    have hnumber : s'.heap.number = s.heap.number :=
      (hr.accounted hw.shutdown).number.trans s.shutdown_accounted.number
    -- The heap holds nothing, so it is no timer's holder.
    have hnone : (s'.table.get t).holder ≠ s.heap.number := by
      intro h
      rw [← hnumber, ← (hr.whole hw.shutdown).kept.holds, hempty] at h
      exact List.not_mem_nil h
    rw [htable]
    by_contra hheld
    rw [not_or] at hheld
    exact hthird _ hheld.1 hnone hheld.2 rfl

/-- **No timer is lost, and none fires twice**, whatever happens to a scheduler in
whatever order. -/
theorem no_timer_lost {settings : Settings.Scheduler} {n : Nat} {table : Table} (hn : n ≠ 0)
    (hi : table.Idle) (hfree : ∀ t, (table.get t).holder ≠ n)
    (hr : (made settings now n table).Runs marks s) :
    Balanced s marks ∧ s.FiresOnce ∧ s.StaysCancelled ∧ s.Refuses ∧ s.Ends :=
  have hw := hr.whole (made_whole hn hi hfree)
  ⟨(hr.accounted (made_whole hn hi hfree)).balances, hw.firesOnce, hw.staysCancelled, hw.refuses, hw.ends⟩

/-- A timer that is queued, moved and fired, and a shutdown while another is queued. -/
def movedAndFired : List Event :=
  [.queueAt 0 5, .queueAt 1 20, .queueAt 0 3, .coordinate 12, .start 0, .shutdown]

theorem no_timer_lost_moved :
    let s := movedAndFired.foldl next (made {} 0 1 {})
    let marks : List Mark := [⟨.queued, 0⟩, ⟨.queued, 1⟩, ⟨.moved, 0⟩, ⟨.fired, 0⟩, ⟨.started, 0⟩, ⟨.thrown, 1⟩]
    s.counts.scheduled = 3 ∧ s.counts.fired = 1 ∧
      Balanced s marks ∧ s.FiresOnce ∧ s.StaysCancelled ∧ s.Refuses ∧ s.Ends := by
  have hr : (made {} 0 1 {}).Runs
      [⟨.queued, 0⟩, ⟨.queued, 1⟩, ⟨.moved, 0⟩, ⟨.fired, 0⟩, ⟨.started, 0⟩, ⟨.thrown, 1⟩]
      (movedAndFired.foldl next (made {} 0 1 {})) :=
    (((((Runs.refl.step (.queueAt 0 5) trivial).step (.queueAt 1 20) trivial).step
      (.queueAt 0 3) trivial).step (.coordinate 12) trivial).step (.start 0) trivial).step
      .shutdown trivial
  have hidle : ∀ t, (({} : Table).get t) = {} := fun t => by cases t <;> rfl
  exact ⟨by decide, by decide, no_timer_lost (by decide) (fun t _ => by rw [hidle])
    (fun t => by rw [hidle]; decide) hr⟩

end Scheduler

end LinkEngine.Timer

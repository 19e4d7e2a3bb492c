import LinkEngine.Proofs.Course
import LinkEngine.Proofs.Firing
import LinkEngine.Proofs.Sole

/-!
# Timers that are afoot

A timer is afoot while it is queued, and from when it fired until its callback runs. In an
engine the heap of the scheduler is the only one and its pool takes every callback (`Fit`).
So only those who queue a timer bring one, and it goes only by being taken back, by the
start of its callback, or by the shutdown (`Lets`).
-/

namespace LinkEngine.Timer.Scheduler

variable {s s' x : Scheduler} {t u now place : Nat} {delay : Time.Duration} {task : Task}

/-- Timer `t` is queued, or it fired and its callback still waits to run. -/
def IsAfoot (s : Scheduler) (t : Nat) : Prop := t ∈ s.heap.items ∨ t ∈ s.outstanding

/-- A scheduler as an engine has it: whole, with the only heap, and with a pool that takes
every callback. -/
structure Fit (s : Scheduler) : Prop where
  whole : s.Whole
  sole : s.Sole
  willing : s.refusing = false

/-- No timer comes to a scheduler, and none goes unless it is shut down. -/
structure Lets (s s' : Scheduler) : Prop where
  fit : s'.Fit
  heap : ∀ t ∈ s'.heap.items, t ∈ s.heap.items
  afoot : ∀ t, s'.IsAfoot t → s.IsAfoot t
  kept : s'.stopped = false → s.stopped = false ∧ ∀ t, s.IsAfoot t → s'.IsAfoot t

theorem Fit.lets (hs : s.Fit) : s.Lets s :=
  ⟨hs, fun _ h => h, fun _ h => h, fun h => ⟨h, fun _ h => h⟩⟩

theorem Lets.trans (h₁ : s.Lets s') (h₂ : s'.Lets x) : s.Lets x where
  fit := h₂.fit
  heap t h := h₁.heap t (h₂.heap t h)
  afoot t h := h₁.afoot t (h₂.afoot t h)
  kept h :=
    have h' := h₂.kept h
    have h'' := h₁.kept h'.1
    ⟨h''.1, fun t ht => h'.2 t (h''.2 t ht)⟩

/-- A pool that takes every callback drops none. -/
theorem coordinate_willing (hr : s.refusing = false) (h : s.coordinate now = some s') :
    s'.refusing = false ∧ s'.counts.dropped = s.counts.dropped := by
  have hsubmit : ∀ (x : Scheduler) (task : Task), x.refusing = false →
      (x.submit task).refusing = false ∧ (x.submit task).counts.dropped = x.counts.dropped := by
    intro x task hx
    unfold submit
    rw [if_neg (by rw [hx]; exact Bool.false_ne_true)]
    exact ⟨hx, rfl⟩
  unfold coordinate at h
  split at h
  next => cases h
  next =>
    split at h
    next =>
      split at h
      next => cases h
      next =>
        cases h
        exact hsubmit _ _ hr
    next =>
      split at h
      next => cases h
      next =>
        cases h
        unfold dispatch
        dsimp only
        split
        next => exact hsubmit _ _ hr
        next =>
          split
          next => exact ⟨hr, rfl⟩
          next => exact hsubmit _ _ hr

/-- A step of the coordinator takes a timer out of the heap, or out of its own hands, and
hands it on. -/
theorem Fit.coordinate (hs : s.Fit) (h : s.coordinate now = some s') : s.Lets s' := by
  obtain ⟨hrefusing, hdropped⟩ := coordinate_willing hs.willing h
  have hfit : s'.Fit := ⟨hs.whole.coordinate h, coordinate_sole hs.sole h, hrefusing⟩
  obtain ⟨hstopped, ⟨t, throttle, hwaiting, hp⟩ | ⟨hwaiting, t, heap, table, hpop, hp⟩⟩ :=
    coordinate_cases h
  · obtain ⟨-, hperm⟩ | ⟨hd, -⟩ := hp.handed
    · have hmem : ∀ u, u ∈ s'.outstanding ↔ u ∈ s.outstanding := by
        intro u
        rw [hperm.mem_iff]
        simp only [outstanding, hwaiting, List.mem_cons, Option.toList_none, Option.toList_some,
          List.mem_append, List.not_mem_nil, or_false, false_or]
      have hheap : s'.heap = s.heap := hp.heap
      refine ⟨hfit, fun u hu => hheap ▸ hu, fun u hu => ?_, fun _ => ⟨hstopped, fun u hu => ?_⟩⟩
      · exact hu.imp (fun h => hheap ▸ h) (hmem u).1
      · exact hu.imp (fun h => hheap.symm ▸ h) (hmem u).2
    · have hd : s'.counts.dropped = s.counts.dropped + 1 := hd
      omega
  · obtain ⟨-, hperm⟩ | ⟨hd, -⟩ := hp.handed
    · have hmem : ∀ u, u ∈ s'.outstanding ↔ u = t ∨ u ∈ s.outstanding := fun u => by
        rw [hperm.mem_iff, List.mem_cons]
        rfl
      have hheap : ∀ u, u ∈ s.heap.items ↔ u = t ∨ u ∈ s'.heap.items := fun u => by
        rw [hp.heap, (popDue_perm hs.whole.kept hpop).mem_iff, List.mem_cons]
      refine ⟨hfit, fun u hu => (hheap u).2 (.inr hu), fun u hu => ?_,
        fun _ => ⟨hstopped, fun u hu => ?_⟩⟩
      · rcases hu with hu | hu
        · exact .inl ((hheap u).2 (.inr hu))
        · exact ((hmem u).1 hu).imp (fun h => (hheap u).2 (.inl h)) id
      · rcases hu with hu | hu
        · exact ((hheap u).1 hu).symm.imp id fun h => (hmem u).2 (.inl h)
        · exact .inr ((hmem u).2 (.inr hu))
    · have hd : s'.counts.dropped = s.counts.dropped + 1 := hd
      omega

theorem Fit.coordinateAll (hs : s.Fit) (now fuel : Nat) : s.Lets (s.coordinateAll now fuel) := by
  induction fuel generalizing s with
  | zero => exact hs.lets
  | succ fuel ih =>
    unfold Scheduler.coordinateAll
    split
    next => exact hs.lets
    next s' h =>
      have hlets := hs.coordinate h
      exact hlets.trans (ih hlets.fit)

/-- The shutdown brings no timer out, and the pool goes on to take every callback. -/
theorem Fit.halts (hs : s.Fit) :
    s.shutdown.refusing = false ∧ ∀ t ∈ s.shutdown.outstanding, t ∈ s.outstanding := by
  by_cases hstopped : s.stopped = true
  · rw [Scheduler.shutdown, if_pos hstopped]
    exact ⟨hs.willing, fun _ h => h⟩
  rw [shutdown_eq (Bool.eq_false_iff.2 hstopped)]
  show s.halt.refusing = false ∧ ∀ t ∈ s.halt.outstanding, t ∈ s.outstanding
  unfold halt
  cases hwaiting : s.waiting with
  | none =>
    refine ⟨hs.willing, fun t ht => ?_⟩
    simpa only [outstanding, hwaiting] using ht
  | some u =>
    -- The timer the coordinator waited with is lost, or it is handed on.
    simp only [outstanding, hwaiting]
    split
    next => exact ⟨hs.willing, fun t ht => List.mem_append_right _ ht⟩
    next =>
      unfold submit
      rw [if_neg (by simp [hs.willing])]
      refine ⟨hs.willing, fun t ht => ?_⟩
      simpa [or_comm] using ht

/-- After the shutdown nothing is queued. -/
theorem Fit.shutdown (hs : s.Fit) : s.Lets s.shutdown := by
  by_cases hstopped : s.stopped = true
  · rw [Scheduler.shutdown, if_pos hstopped]
    exact hs.lets
  have hempty := (hs.whole.shutdown.stopped s.shutdown_stopped).1
  have hkeeps := hs.halts
  refine ⟨⟨hs.whole.shutdown, shutdown_sole hs.sole, hkeeps.1⟩, fun t ht => ?_, fun t ht => ?_,
    fun h => ?_⟩
  · rw [hempty] at ht
    exact absurd ht List.not_mem_nil
  · rcases ht with ht | ht
    · rw [hempty] at ht
      exact absurd ht List.not_mem_nil
    · exact .inr (hkeeps.2 t ht)
  · rw [s.shutdown_stopped] at h
    cases h

theorem finish_same (s : Scheduler) (place : Nat) (panicked : Bool) :
    (s.finish place panicked).heap = s.heap ∧ (s.finish place panicked).outstanding = s.outstanding ∧
      (s.finish place panicked).stopped = s.stopped ∧
      (s.finish place panicked).refusing = s.refusing := by
  unfold finish giveBack
  split
  next => exact ⟨rfl, rfl, rfl, rfl⟩
  next =>
    dsimp only
    split <;> split <;> exact ⟨rfl, rfl, rfl, rfl⟩

/-- **Whatever else is done with a scheduler, it neither queues a timer nor loses one.** -/
theorem Fit.stirred (hs : s.Fit) (h : Stirred now s s') : s.Lets s' := by
  cases h with
  | sample => exact ⟨⟨⟨hs.whole.kept, hs.whole.idle, hs.whole.stopped⟩, hs.sole, hs.willing⟩,
      fun _ h => h, fun _ h => h, fun h => ⟨h, fun _ h => h⟩⟩
  | coordinate fuel => exact hs.coordinateAll now fuel
  | finish place panicked =>
    obtain ⟨hheap, hout, hstopped, hrefusing⟩ := s.finish_same place panicked
    have hafoot : ∀ t, (s.finish place panicked).IsAfoot t ↔ s.IsAfoot t := fun t => by
      unfold IsAfoot
      rw [hheap, hout]
    exact ⟨⟨hs.whole.finish place panicked, finish_sole hs.sole place panicked,
      hrefusing.trans hs.willing⟩, fun t ht => hheap ▸ ht, fun t ht => (hafoot t).1 ht,
      fun h => ⟨hstopped.symm.trans h, fun t ht => (hafoot t).2 ht⟩⟩
  | shutdown => exact hs.shutdown

/-- Taking a timer back takes it out of the heap and leaves the rest. -/
theorem Fit.cancel (hs : s.Fit) (t : Nat) : (s.cancel t).2.Fit ∧
    (∀ u, u ∈ (s.cancel t).2.heap.items ↔ u ∈ s.heap.items ∧ u ≠ t) ∧
      (s.cancel t).2.outstanding = s.outstanding ∧ (s.cancel t).2.stopped = s.stopped := by
  have hsole := cancel_sole hs.sole t
  have hwhole := hs.whole.cancel t
  obtain ⟨hout, hc⟩ | ⟨-, heap, table, -, hperm, hc⟩ := cancel_cases hs.whole t
  · rw [hc]
    exact ⟨hs, fun u => ⟨fun hu => ⟨hu, fun h => hout (h ▸ hu)⟩, And.left⟩, rfl, rfl⟩
  · rw [hc] at hsole hwhole ⊢
    have hnot := (List.nodup_cons.1 (hperm.nodup_iff.1 hs.whole.kept.indexed.nodup)).1
    refine ⟨⟨hwhole, hsole, hs.willing⟩, fun u => ?_, rfl, rfl⟩
    show u ∈ heap.items ↔ _
    rw [hperm.mem_iff, List.mem_cons]
    exact ⟨fun hu => ⟨.inr hu, fun h => hnot (h ▸ hu)⟩, fun h => h.1.resolve_left h.2⟩

/-- Queuing a timer fails after the shutdown and changes nothing, or the timer comes to the
heap. -/
theorem Fit.queue (hs : s.Fit) (t now : Nat) (delay : Time.Duration) :
    (s.queue t now delay).2.Fit ∧ (s.queue t now delay).2.outstanding = s.outstanding ∧
      (s.queue t now delay).2.stopped = s.stopped ∧
      ((s.stopped = true ∧ (∃ f, (s.queue t now delay).1 = .error f) ∧
          (s.queue t now delay).2.heap = s.heap) ∨
        s.stopped = false ∧ (s.queue t now delay).1 = .ok () ∧
          ∀ u, u ∈ (s.queue t now delay).2.heap.items ↔ u = t ∨ u ∈ s.heap.items) := by
  have hsole := queue_sole hs.sole t now delay
  have hwhole := (hs.whole.readClock delay).queueAt t (wakeTime s.settings s.clock.approx now delay)
  have hcases := queueAt_cases (hs.whole.readClock delay) t
    (wakeTime s.settings s.clock.approx now delay)
  rw [← queue_eq] at hwhole hcases
  obtain ⟨clock, hclock⟩ := s.readClock_eq delay
  rw [hclock] at hcases
  obtain ⟨f, hq, ⟨hstopped, -⟩ | ⟨-, h0, hne, -⟩⟩ | ⟨hstopped, root, heap, table, hqueued, hq⟩ :=
    hcases
  · rw [hq] at hwhole hsole ⊢
    exact ⟨⟨hwhole, hsole, hs.willing⟩, rfl, rfl, .inl ⟨hstopped, ⟨f, rfl⟩, rfl⟩⟩
  · exact ((hs.sole.2 t).elim h0 hne).elim
  · rw [hq] at hwhole hsole ⊢
    refine ⟨⟨hwhole, hsole, hs.willing⟩, rfl, rfl, .inr ⟨hstopped, rfl, fun u => ?_⟩⟩
    show u ∈ heap.items ↔ _
    rw [hqueued.perm.mem_iff, List.mem_cons]
    -- If it was queued before, it was moved.
    refine ⟨Or.imp id List.mem_of_mem_erase, fun h => ?_⟩
    by_cases hu : u = t
    · exact .inl hu
    · exact .inr ((List.mem_erase_of_ne hu).2 (h.resolve_left hu))

/-- The pool takes up one of the callbacks that wait to run. -/
theorem Fit.start (hs : s.Fit) (h : s.start place = some (task, x)) : x.Fit ∧
    x.heap = s.heap ∧ x.stopped = s.stopped ∧ s.outstanding.Perm (task.timer :: x.outstanding) := by
  obtain hnone | ⟨task', x', hstart, hheap, htable, hstopped, hwaiting, -, hperm⟩ :=
    start_cases (s := s) (k := place)
  · rw [h] at hnone
    cases hnone
  · obtain ⟨rfl, rfl⟩ : task = task' ∧ x = x' := by simpa using h.symm.trans hstart
    have hrefusing : x.refusing = s.refusing := by
      unfold Scheduler.start at h
      split at h <;> cases h
      rfl
    refine ⟨⟨⟨?_, htable ▸ hs.whole.idle, ?_⟩, start_sole hs.sole h, hrefusing.trans hs.willing⟩,
      hheap, hstopped, hperm⟩
    · rw [hheap, htable]
      exact hs.whole.kept
    · rw [hheap, hstopped, hwaiting]
      exact hs.whole.stopped

theorem create_fit (settings : Settings.Scheduler) (now : Nat) : (create settings now).Fit :=
  have hidle : ∀ t, ({} : Table).get t = {} := fun t => by cases t <;> rfl
  ⟨made_whole Nat.one_ne_zero (fun t _ => by rw [hidle]) (fun t => by rw [hidle]; decide),
    create_sole settings now, rfl⟩

end LinkEngine.Timer.Scheduler

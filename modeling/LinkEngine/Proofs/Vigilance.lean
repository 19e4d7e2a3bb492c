import LinkEngine.Proofs.Bindings
import LinkEngine.Proofs.Firing

/-!
# The coordinator does not oversleep

The coordinator goes to sleep until the earliest timer is due, and while it sleeps only
who brings a timer to the root tells it to wake. That is enough: a queuing that does not
tell it leaves another timer at the root, which was queued before and was not moved, so
nothing is queued that wakes before all that was (`NoEarlier`). The relation composes
along any number of changes, and what the sleep was measured by stays a lower bound.
-/

namespace LinkEngine.Timer

open Time (Millis.add Duration)

variable {t u wake now : Nat}

/-- After a queuing that brings timer `t` not to the root, no timer wakes before all that
were queued: the root is one of those. -/
theorem Heap.Queued.exists_le {h h' : Heap} {table table' : Table}
    (hq : Heap.Queued h table t wake h' table') (hroot : h'.root? ≠ some t)
    (hu : u ∈ h'.items) : ∃ r ∈ h.items, (table.get r).wake ≤ (table'.get u).wake := by
  obtain ⟨r, hr⟩ : ∃ r, h'.root? = some r := by
    cases hitems : h'.items with
    | nil => exact absurd (hitems ▸ hu) List.not_mem_nil
    | cons r rs => exact ⟨r, by rw [Heap.root?, hitems, List.head?_cons]⟩
  have hne : r ≠ t := fun h => hroot (h ▸ hr)
  have hold : r ∈ h.items := by
    have hmem := hq.perm.mem_iff.1 (Heap.mem_of_root? hr)
    exact List.mem_of_mem_erase ((List.mem_cons.1 hmem).resolve_left hne)
  refine ⟨r, hold, ?_⟩
  rw [← hq.others r hne]
  exact hq.tended.kept.root_le hr hu

/-- Nothing is due before the earliest timer is. -/
theorem Heap.popDue_of_lt {h : Heap} {table : Table}
    (hlt : ∀ w, h.nextWake? table = some w → now < w) : h.popDue table now = none := by
  unfold popDue
  split
  next => rfl
  next t hroot =>
    have hlate := hlt (table.get t).wake (by rw [nextWake?, hroot, Option.map_some])
    rw [if_neg (Nat.not_le_of_lt hlate)]

namespace Scheduler

variable {s s' s'' : Scheduler} {marks : List Mark} {e : Event}

/-! ## While nobody tells -/

/-- Every timer that is queued in `s'` wakes no earlier than some timer that is queued
in `s`. -/
def NoEarlier (s s' : Scheduler) : Prop :=
  ∀ u ∈ s'.heap.items, ∃ t ∈ s.heap.items, (s.table.get t).wake ≤ (s'.table.get u).wake

theorem NoEarlier.trans (h₁ : NoEarlier s s') (h₂ : NoEarlier s' s'') : NoEarlier s s'' := by
  intro v hv
  obtain ⟨u, hu, huv⟩ := h₂ v hv
  obtain ⟨t, ht, htu⟩ := h₁ u hu
  exact ⟨t, ht, Nat.le_trans htu huv⟩

/-- Fewer timers with the same wake times. -/
theorem NoEarlier.of_subset (hsub : ∀ u ∈ s'.heap.items, u ∈ s.heap.items)
    (hwake : ∀ u ∈ s'.heap.items, (s'.table.get u).wake = (s.table.get u).wake) : NoEarlier s s' :=
  fun u hu => ⟨u, hsub u hu, (hwake u hu).ge⟩

theorem NoEarlier.of_eq (hheap : s'.heap = s.heap) (htable : s'.table = s.table) : NoEarlier s s' :=
  .of_subset (fun _ hu => hheap ▸ hu) fun _ _ => by rw [htable]

/-- The earliest wake time is no earlier. -/
theorem NoEarlier.nextWake {w : Nat} (h : NoEarlier s s') (hw : s'.nextWake? = some w) :
    ∃ t ∈ s.heap.items, (s.table.get t).wake ≤ w := by
  obtain ⟨r, hr, rfl⟩ := Option.map_eq_some_iff.1 hw
  exact h r (Heap.mem_of_root? hr)

/-- A queuing of which the coordinator is not told. -/
theorem queueAt_untold (hw : s.Whole) (t wake : Nat) (hq : (s.queueAt t wake).2.notified = false) :
    s.notified = false ∧ NoEarlier s (s.queueAt t wake).2 := by
  unfold queueAt at hq ⊢
  by_cases hs : s.stopped = true
  · rw [if_pos hs] at hq ⊢
    exact ⟨hq, .of_eq rfl rfl⟩
  rw [if_neg hs] at hq ⊢
  by_cases hbusy : (s.table.get t).holder ≠ 0 ∧ (s.table.get t).holder ≠ s.heap.number
  · rw [Heap.insert_of_busy hbusy.1 hbusy.2] at hq ⊢
    exact ⟨hq, .of_eq rfl rfl⟩
  have hfor := hw.idle.isFor hbusy
  obtain ⟨root, heap, table, hinsert, hqueued⟩ := Heap.insert_queued hw.kept hfor wake
  rw [hinsert] at hq ⊢
  obtain ⟨hnot, hroot⟩ : s.notified = false ∧ root = false := Bool.or_eq_false_iff.1 hq
  have hother : heap.root? ≠ some t := fun h =>
    absurd ((Heap.insert_root hw.kept hfor hinsert).2 h) (Bool.eq_false_iff.1 hroot)
  exact ⟨hnot, fun u hu => hqueued.exists_le hother hu⟩

theorem queue_untold (hw : s.Whole) (t now : Nat) (delay : Duration)
    (hq : (s.queue t now delay).2.notified = false) :
    s.notified = false ∧ NoEarlier s (s.queue t now delay).2 := by
  have hread := queueAt_untold (hw.readClock delay) t (wakeTime s.settings s.clock.approx now delay) hq
  -- Reading the clock moves no timer and tells nobody.
  obtain ⟨clock, hclock⟩ := s.readClock_eq delay
  rw [← queue_eq, hclock] at hread
  exact hread

theorem cancel_untold (hw : s.Whole) (t : Nat) :
    (s.cancel t).2.notified = s.notified ∧ NoEarlier s (s.cancel t).2 := by
  by_cases ht : t ∈ s.heap.items
  · have hi := (hw.kept.isPosition ht).1
    have hperm := (Heap.removeAt_tended hw.kept hi).2
    simp only [cancel, Heap.remove_of_mem hw.kept ht, if_true]
    exact ⟨trivial, .of_subset (fun u hu => hperm.mem_iff.2 (List.mem_cons_of_mem _ hu))
      fun u _ => Heap.wake_removeAt hw.kept hi u⟩
  · simp only [cancel, Heap.remove_of_not_mem hw.kept ht, Bool.false_eq_true, if_false]
    exact ⟨trivial, .of_eq rfl rfl⟩

theorem finish_untold (s : Scheduler) (k : Nat) (panicked : Bool) :
    (s.finish k panicked).notified = s.notified ∧ NoEarlier s (s.finish k panicked) := by
  unfold finish giveBack
  split
  next => exact ⟨rfl, .of_eq rfl rfl⟩
  next => split <;> split <;> exact ⟨rfl, .of_eq rfl rfl⟩

theorem notified_submit (s : Scheduler) (task : Task) : (s.submit task).notified = s.notified := by
  unfold submit giveBack
  split
  · split <;> rfl
  · rfl

/-- A shutdown tells the coordinator. -/
theorem notified_shutdown (hs : s.stopped = false) : s.shutdown.notified = true := by
  rw [shutdown_eq hs]
  show s.halt.notified = true
  unfold halt
  cases s.waiting with
  | none => rfl
  | some t =>
    simp only
    split
    · rfl
    · exact notified_submit _ _

/-! ## A sleep -/

/-- What can happen while the coordinator sleeps: anything but a step of its own. -/
def Event.Foreign : Event → Prop
  | .coordinate _ | .rest _ => False
  | _ => True

/-- What can come of a scheduler while its coordinator sleeps. -/
inductive Sleeps (s : Scheduler) : Scheduler → Prop
  | refl : Sleeps s s
  | step {s' : Scheduler} (hs : Sleeps s s') (e : Event) (hf : e.Foreign) (he : s'.Allows e) :
    Sleeps s (s'.next e)

/-- **One event of which the coordinator is not told** queues nothing that wakes before all
that was queued. -/
theorem next_untold (hw : s.Whole) (hf : e.Foreign) (he : s.Allows e)
    (hn : (s.next e).notified = false) : s.notified = false ∧ NoEarlier s (s.next e) := by
  cases e with
  | queueAt t wake => exact queueAt_untold hw t wake hn
  | queue t now delay => exact queue_untold hw t now delay hn
  | cancel t =>
    have hc := cancel_untold hw t
    exact ⟨hc.1.symm.trans hn, hc.2⟩
  | coordinate now => exact hf.elim
  | rest now => exact hf.elim
  | sample now => exact ⟨hn, .of_eq rfl rfl⟩
  | start k =>
    rw [next, start] at hn ⊢
    split at hn
    next => exact ⟨hn, .of_eq rfl rfl⟩
    next => exact ⟨hn, .of_eq rfl rfl⟩
  | finish k panicked =>
    have hfin := s.finish_untold k panicked
    exact ⟨hfin.1.symm.trans hn, hfin.2⟩
  | refuse on => exact ⟨hn, .of_eq rfl rfl⟩
  | shutdown =>
    by_cases hs : s.stopped = true
    · rw [next, shutdown, if_pos hs] at hn ⊢
      exact ⟨hn, .of_eq rfl rfl⟩
    · have htold := notified_shutdown (Bool.eq_false_iff.2 hs)
      exact absurd (hn.symm.trans htold) Bool.false_ne_true
  | others n table =>
    refine ⟨hn, .of_subset (fun _ hu => hu) fun u hu => ?_⟩
    exact congrArg Timer.wake (hw.kept.get_minds he.2.2 he.2.1.symm hu)

theorem Sleeps.whole (hs : s.Sleeps s') (hw : s.Whole) : s'.Whole := by
  induction hs with
  | refl => exact hw
  | step _ e _ he ih => exact next_whole ih e he

/-- So it is with any number of events. -/
theorem Sleeps.untold (hs : s.Sleeps s') (hw : s.Whole) (hn : s'.notified = false) :
    s.notified = false ∧ NoEarlier s s' := by
  induction hs with
  | refl => exact ⟨hn, .of_eq rfl rfl⟩
  | step hs e hf he ih =>
    obtain ⟨hn', hlast⟩ := next_untold (hs.whole hw) hf he hn
    obtain ⟨hn₀, hbefore⟩ := ih hn'
    exact ⟨hn₀, hbefore.trans hlast⟩

/-! ## What the sleep was measured by -/

/-- The coordinator sleeps until the earliest timer is due, or for as long as it may. -/
theorem Whole.nextDue_eq (hw : s.Whole) (now : Nat) :
    s.heap.items = [] ∧ s.nextDue now = Millis.add now s.settings.fallbackWindow.millis ∨
      ∃ t ∈ s.heap.items, s.nextDue now = (s.table.get t).wake ∧
        ∀ u ∈ s.heap.items, s.nextDue now ≤ (s.table.get u).wake := by
  cases hroot : s.heap.root? with
  | none =>
    refine .inl ⟨List.head?_eq_none_iff.1 hroot, ?_⟩
    simp only [nextDue, nextWake?, Heap.nextWake?, hroot, Option.map_none, Option.getD_none]
  | some t =>
    have hdue : s.nextDue now = (s.table.get t).wake := by
      simp only [nextDue, nextWake?, Heap.nextWake?, hroot, Option.map_some, Option.getD_some]
    refine .inr ⟨t, Heap.mem_of_root? hroot, hdue, fun u hu => ?_⟩
    rw [hdue]
    exact hw.kept.root_le hroot hu

/-- Nothing is queued that wakes before the due time. -/
theorem Whole.nextDue_le (hw : s.Whole) (now : Nat) :
    ∀ u ∈ s.heap.items, s.nextDue now ≤ (s.table.get u).wake := by
  obtain ⟨hnil, -⟩ | ⟨-, -, -, hle⟩ := hw.nextDue_eq now
  · rw [hnil]
    exact fun u hu => absurd hu List.not_mem_nil
  · exact hle

/-- What holds in `s'` if the coordinator went to sleep in `s` at the time `now` and sleeps
still. -/
structure Vigilant (s : Scheduler) (now : Nat) (s' : Scheduler) : Prop where
  /-- The due time is that of the earliest timer; with none queued, it is the longest sleep
  from now. -/
  due : s.heap.items = [] ∧ s.nextDue now = Millis.add now s.settings.fallbackWindow.millis ∨
    ∃ t ∈ s.heap.items, s.nextDue now = (s.table.get t).wake ∧
      ∀ u ∈ s.heap.items, s.nextDue now ≤ (s.table.get u).wake
  /-- The sleep lasts until the due time, and a millisecond at least. -/
  lasts : now + (s.rest now).1 = max (s.nextDue now) (now + 1)
  /-- As long as nobody told the coordinator, no timer wakes before the due time. -/
  untold : s'.notified = false → ∀ w, s'.nextWake? = some w → s.nextDue now ≤ w
  /-- So until then there is nothing it could take out. -/
  idle : s'.notified = false → ∀ time < s.nextDue now, s'.heap.popDue s'.table time = none
  /-- Whatever happens after which a timer wakes before that, such as a queuing, tells the
  coordinator. -/
  told : s'.notified = false → ∀ e : Event, e.Foreign → s'.Allows e → ∀ w,
    (s'.next e).nextWake? = some w → w < s.nextDue now → (s'.next e).notified = true

/-- **The coordinator does not oversleep**, whatever is queued, moved and cancelled while
it sleeps. -/
theorem never_oversleeps {settings : Settings.Scheduler} {now₀ n : Nat} {table : Table} (hn : n ≠ 0)
    (hi : table.Idle) (hfree : ∀ t, (table.get t).holder ≠ n)
    (hr : (made settings now₀ n table).Runs marks s) (hs : (s.rest now).2.Sleeps s') :
    s.Vigilant now s' := by
  have hw : s.Whole := hr.whole (made_whole hn hi hfree)
  have hw₀ : (s.rest now).2.Whole := ⟨hw.kept, hw.idle, hw.stopped⟩
  have hle {x : Scheduler} (hx : NoEarlier (s.rest now).2 x) (w : Nat) (hnext : x.nextWake? = some w) :
      s.nextDue now ≤ w := by
    obtain ⟨t, ht, htw⟩ := hx.nextWake hnext
    exact Nat.le_trans (hw.nextDue_le now t ht) htw
  refine ⟨hw.nextDue_eq now, ?_, fun hnot => hle (hs.untold hw₀ hnot).2, fun hnot time htime => ?_,
    fun _ e hf he w hnext hlt => ?_⟩
  · simp only [rest]
    omega
  · exact Heap.popDue_of_lt fun w hnext => Nat.lt_of_lt_of_le htime (hle (hs.untold hw₀ hnot).2 w hnext)
  · by_contra htold
    have hquiet := (hs.step e hf he).untold hw₀ (Bool.eq_false_iff.2 htold)
    exact absurd hlt (Nat.not_lt_of_le (hle hquiet.2 w hnext))

/-- Two timers, and a sleep until the first is due; it is moved behind the second, and a
third is queued behind both. -/
def sleepUntilMoved : Scheduler × Scheduler :=
  let s := [Event.queueAt 0 20, .queueAt 1 30].foldl next (made {} 0 1 {})
  (s, [Event.rest 5, .queueAt 0 50, .queueAt 2 60].foldl next s)

theorem never_oversleeps_moved :
    let (s, s') := sleepUntilMoved
    (s.rest 5).1 = 15 ∧ s'.notified = false ∧ s'.nextWake? = some 30 ∧
      (s'.queueAt 3 10).2.notified = true ∧ s.Vigilant 5 s' := by
  have hr : (made {} 0 1 {}).Runs [⟨.queued, 0⟩, ⟨.queued, 1⟩] sleepUntilMoved.1 :=
    (Runs.refl.step (.queueAt 0 20) trivial).step (.queueAt 1 30) trivial
  have hs : (sleepUntilMoved.1.rest 5).2.Sleeps sleepUntilMoved.2 :=
    (Sleeps.refl.step (.queueAt 0 50) trivial trivial).step (.queueAt 2 60) trivial trivial
  have hidle : ∀ t, (({} : Table).get t) = {} := fun t => by cases t <;> rfl
  exact ⟨by decide, by decide, by decide, by decide, never_oversleeps (by decide)
    (fun t _ => by rw [hidle]) (fun t => by rw [hidle]; decide) hr hs⟩

end Scheduler

end LinkEngine.Timer

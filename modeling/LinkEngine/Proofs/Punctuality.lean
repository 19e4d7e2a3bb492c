import LinkEngine.Proofs.Bindings
import LinkEngine.Proofs.Firing
import LinkEngine.Settings.Fault

/-!
# A queued timer waits out its delay

True time runs in nanoseconds, and a reading of it drops the fraction of a millisecond
(`exactNow`). The published time is older still: as old as the last sample, by up to the
interval that the sampler sleeps (`Clock.Sampled`). Queuing makes up for both, so that the
wake time never comes before the delay has passed (`waits_out_delay`); and a timer that
nobody queues again is taken out no earlier than at the wake time it was bound to
(`Leaves.fired`).

What it makes up for is the longest interval of the settings. A clock never samples more
often than every millisecond, whatever the settings say: where they allow only less than
that, a long delay ends up to a millisecond early.
-/

namespace LinkEngine

namespace Time

/-! ## The published time -/

/-- The exact reading at a true time, in nanoseconds since the clock was made. -/
def exactNow (nanos : Nat) : Nat := Duration.millis ⟨nanos⟩

/-- A millisecond more is a reading of one more, up to the greatest. -/
theorem exactNow_le {n last ms : Nat} (h : n ≤ last + ms * Duration.nanosPerMilli) :
    exactNow n ≤ exactNow last + ms := by
  unfold exactNow Duration.millis
  dsimp only
  unfold Duration.nanosPerMilli at h ⊢
  omega

namespace Clock

variable {c : Clock} {least greatest : Duration} {last : Nat}

/-- A clock made with these bounds, which was last sampled at the true time `last`. -/
inductive Sampled (least greatest : Duration) : Clock → Nat → Prop where
  | first (last : Nat) : Sampled least greatest ((create least greatest).sample (exactNow last)) last
  | again {c : Clock} {before : Nat} (h : Sampled least greatest c before) (last : Nat) :
      Sampled least greatest (c.sample (exactNow last)) last
  | read {c : Clock} {last : Nat} (h : Sampled least greatest c last) :
      Sampled least greatest c.read.2 last

/-- The published time is no older than the last sample. -/
theorem Sampled.approx (h : Sampled least greatest c last) : exactNow last ≤ c.approx := by
  induction h with
  | first | again => exact Nat.le_max_right ..
  | read _ ih => exact ih

/-- The longest interval a clock with these bounds sleeps. -/
def longest (least greatest : Duration) : Nat := (create least greatest).greatest.millis

/-- The bounds of the interval stay, and it stays between them. -/
structure Bounded (longest : Nat) (c : Clock) : Prop where
  least : c.least.millis ≤ longest
  greatest : c.greatest.millis = longest
  interval : c.interval ≤ longest

theorem Bounded.sample {longest : Nat} (h : c.Bounded longest) (now : Nat) :
    (c.sample now).Bounded longest where
  least := h.least
  greatest := h.greatest
  interval := by
    have hleast := h.least
    have hinterval := h.interval
    have hgreatest := h.greatest
    show c.nextInterval ≤ longest
    unfold nextInterval
    split <;> omega

theorem bounded_create (least greatest : Duration) :
    (create least greatest).Bounded (longest least greatest) where
  least := by
    have hle : (least.max (Duration.ofMillis 1)).nanos ≤
        (greatest.max (least.max (Duration.ofMillis 1))).nanos := by
      generalize least.max (Duration.ofMillis 1) = a
      unfold Duration.max
      split <;> omega
    have hdiv := Nat.div_le_div_right (c := Duration.nanosPerMilli) hle
    exact min_le_min_right Millis.max hdiv
  greatest := rfl
  interval := Nat.le_refl _

theorem Sampled.bounded (h : Sampled least greatest c last) :
    c.Bounded (Clock.longest least greatest) := by
  induction h with
  | first last => exact (bounded_create least greatest).sample _
  | again _ last ih => exact ih.sample _
  | read _ ih => exact ⟨ih.least, ih.greatest, ih.interval⟩

/-- The exact reading is ahead of the published one by no more than the longest interval,
as long as the next sample is not overdue. -/
theorem Sampled.exactNow_le {n : Nat} (h : Sampled least greatest c last)
    (hfresh : n ≤ last + c.interval * Duration.nanosPerMilli) :
    exactNow n ≤ c.approx + Clock.longest least greatest := by
  have hpast := Time.exactNow_le hfresh
  have happrox := h.approx
  have hinterval := h.bounded.interval
  omega

/-- Where the bounds are in order, the longest interval is the greater bound, but no less
than a millisecond. -/
theorem longest_eq (hle : least.le greatest = true) :
    longest least greatest = max greatest.millis 1 := by
  have hle : least.nanos ≤ greatest.nanos := by simpa [Duration.le] using hle
  show Duration.millis (greatest.max (least.max (Duration.ofMillis 1))) = _
  have hnanos : (greatest.max (least.max (Duration.ofMillis 1))).nanos =
      max greatest.nanos Duration.nanosPerMilli := by
    unfold Duration.max Duration.ofMillis
    dsimp only
    split <;> split <;> simp_all <;> omega
  unfold Duration.millis
  rw [hnanos]
  unfold Duration.nanosPerMilli Millis.max UInt64.size
  omega

end Clock

/-- A span of a millisecond or more has whole milliseconds. -/
theorem Duration.one_le_millis {d : Duration} (h : (ofMillis 1).le d = true) : 1 ≤ d.millis := by
  have hnanos : nanosPerMilli ≤ d.nanos := by simpa [le, ofMillis] using h
  unfold millis Millis.max UInt64.size
  unfold nanosPerMilli at hnanos ⊢
  omega

/-- As many whole milliseconds after a reading as there are in a delay, and one more, the
delay has passed since the true time that was read. -/
theorem Duration.lt_of_millisCeil {n ms : Nat} {delay : Duration}
    (h : exactNow n + 1 + delay.millisCeil ≤ ms) (hms : ms ≤ Millis.max) :
    n + delay.nanos < ms * nanosPerMilli := by
  unfold exactNow millis millisCeil at h
  dsimp only at h
  unfold nanosPerMilli at h ⊢
  omega

/-- What is read to be over is over. -/
theorem le_of_exactNow {m ms : Nat} (h : ms ≤ exactNow m) : ms * Duration.nanosPerMilli ≤ m := by
  unfold exactNow Duration.millis at h
  dsimp only at h
  unfold Duration.nanosPerMilli at h ⊢
  omega

end Time

/-- Settings that passed the check have their sampling intervals in order. -/
theorem Settings.Engine.le_of_validate {e : Engine} (he : e.validate = .ok ()) :
    e.scheduler.minSampleInterval.le e.scheduler.maxSampleInterval = true := by
  unfold validate nonzero at he
  simp only [bind, Except.bind] at he
  grind

namespace Timer

open Time (Clock Duration Millis.add Millis.max exactNow)

namespace Scheduler

variable {s s' s'' : Scheduler} {e : Event} {t u wake now : Nat} {task : Task}

/-! ## The wake time -/

/-- Unless it is the greatest reading, the wake time is later than the exact reading by the
delay and one, but for the lag of the published time that was not made up for. -/
theorem le_wakeTime {settings : Settings.Scheduler} {approx lag : Nat} {delay : Duration}
    (h : settings.approxThreshold.le delay = true →
      now ≤ approx + settings.maxSampleInterval.millis + lag) :
    wakeTime settings approx now delay = Millis.max ∨
      now + 1 + delay.millisCeil ≤ wakeTime settings approx now delay + lag := by
  unfold wakeTime Millis.add
  dsimp only
  split
  next hlong =>
    have hnow := h hlong
    omega
  next => omega

/-- It is never beyond the greatest reading. -/
theorem wakeTime_le (settings : Settings.Scheduler) (approx now : Nat) (delay : Duration) :
    wakeTime settings approx now delay ≤ Millis.max := Nat.min_le_right ..

/-! ## What is queued stays bound -/

/-- The timers that are queued, bound to their wake times. -/
def bindings (s : Scheduler) : Bindings := s.heap.bindings s.table

/-- Whatever is queued was queued, and to the same wake time. -/
def Drops (s s' : Scheduler) : Prop :=
  ∀ t wake, s'.bindings.lookup t = some wake → s.bindings.lookup t = some wake

theorem Drops.refl (s : Scheduler) : Drops s s := fun _ _ h => h

theorem Drops.of_eq (h : s'.bindings = s.bindings) : Drops s s' := fun _ _ hb => h ▸ hb

/-- What is left when a timer is erased was bound before. -/
theorem Drops.of_erase (h : s'.bindings = s.bindings.erase t) : Drops s s' := by
  intro u wake hu
  rw [h] at hu
  by_cases hut : u = t
  · rw [hut, Finmap.lookup_erase] at hu
    cases hu
  · rwa [Finmap.lookup_erase_ne hut] at hu

theorem drops_cancel (hw : s.Whole) (t : Nat) : Drops s (s.cancel t).2 := by
  have hremoved := (Heap.remove_bindings hw.kept t).2
  unfold cancel
  split
  next heap table h =>
    rw [h] at hremoved
    split
    next => exact .of_erase hremoved
    next => exact .refl s

theorem drops_coordinate (hw : s.Whole) (h : s.coordinate now = some s') : Drops s s' := by
  obtain ⟨-, ⟨t, throttle, -, hp⟩ | ⟨-, t, heap, table, hpop, hp⟩⟩ := coordinate_cases h
  · refine .of_eq ?_
    unfold bindings
    rw [hp.heap, hp.table]
  · refine .of_erase (t := t) ?_
    unfold bindings
    rw [hp.heap, hp.table]
    exact (Heap.popDue_bindings hw.kept hpop).2

theorem drops_start {place : Nat} (h : s.start place = some (task, s')) : Drops s s' := by
  obtain hnone | ⟨task', x, hstart, hheap, htable, -⟩ := start_cases (s := s) (k := place)
  · cases hnone.symm.trans h
  · cases hstart.symm.trans h
    refine .of_eq ?_
    unfold bindings
    rw [hheap, htable]

theorem drops_finish (s : Scheduler) (place : Nat) (panicked : Bool) :
    Drops s (s.finish place panicked) := by
  refine .of_eq ?_
  unfold finish giveBack
  split
  next => rfl
  next =>
    dsimp only
    split <;> split <;> rfl

theorem drops_shutdown (hw : s.Whole) : Drops s s.shutdown := by
  by_cases hs : s.stopped = true
  · rw [shutdown, if_pos hs]
    exact .refl s
  · intro t wake ht
    have hempty := (hw.shutdown.stopped s.shutdown_stopped).1
    rw [bindings, Heap.bindings_eq_empty.2 hempty, Finmap.lookup_empty] at ht
    cases ht

/-- Queuing binds the timer, unless it fails, and drops nothing else. -/
theorem queueAt_bindings (hw : s.Whole) (t wake : Nat) :
    ((s.queueAt t wake).1 = .ok () ∧
      (s.queueAt t wake).2.bindings = s.bindings.insert t wake) ∨
    (∃ f, (s.queueAt t wake).1 = .error f) ∧ (s.queueAt t wake).2.bindings = s.bindings := by
  obtain ⟨f, hq, -⟩ | ⟨-, root, heap, table, hqueued, hq⟩ := queueAt_cases hw t wake
  · rw [hq]
    exact .inr ⟨⟨f, rfl⟩, rfl⟩
  · rw [hq]
    exact .inl ⟨rfl, hqueued.bindings_eq hw.kept⟩

theorem queue_bindings (hw : s.Whole) (t now : Nat) (delay : Duration) :
    ((s.queue t now delay).1 = .ok () ∧ (s.queue t now delay).2.bindings =
      s.bindings.insert t (wakeTime s.settings s.clock.approx now delay)) ∨
    (∃ f, (s.queue t now delay).1 = .error f) ∧
      (s.queue t now delay).2.bindings = s.bindings := by
  have hread : (s.readClock delay).bindings = s.bindings := by
    obtain ⟨clock, h⟩ := s.readClock_eq delay
    rw [h]
    rfl
  rw [queue_eq, ← hread]
  exact queueAt_bindings (hw.readClock delay) t _

/-- What others do to the timers that they hold is nothing to those that are queued here. -/
theorem drops_others (hw : s.Whole) {n : Nat} {table : Table} (hn : n ≠ s.heap.number)
    (hminds : Minds n s.table table) : Drops s { s with table } := by
  refine .of_eq (Heap.bindings_congr (fun _ => Iff.rfl) fun t ht => ?_)
  have hheld := (hw.kept.holds t).1 ht
  rcases hminds t with hsame | ⟨hfor, -⟩
  · rw [hsame]
  · rcases hfor with hother | ⟨hnobody, -⟩
    · exact absurd (hother.symm.trans hheld) hn
    · exact absurd (hheld.symm.trans hnobody) hw.kept.number

/-- The timer that something queues. -/
def Event.queues : Event → Option Nat
  | .queueAt t _ | .queue t _ _ => some t
  | _ => none

/-- **Whatever happens, a timer that is not queued anew stays bound as it was**, or leaves. -/
theorem lookup_next (hw : s.Whole) (he : s.Allows e) (hq : e.queues ≠ some t)
    (h : (s.next e).bindings.lookup t = some wake) : s.bindings.lookup t = some wake := by
  have hother {u w : Nat} {x : Scheduler} (hu : u ≠ t)
      (hx : x.bindings = s.bindings.insert u w ∨ x.bindings = s.bindings)
      (h : x.bindings.lookup t = some wake) : s.bindings.lookup t = some wake := by
    rcases hx with hx | hx
    · rwa [hx, Finmap.lookup_insert_of_ne _ (Ne.symm hu)] at h
    · rwa [hx] at h
  cases e with
  | queueAt u w =>
    refine hother (w := w) (fun hu => hq (congrArg some hu)) ?_ h
    exact (queueAt_bindings hw u w).imp And.right And.right
  | queue u now delay =>
    have hqueued := (queue_bindings hw u now delay).imp And.right And.right
    exact hother (fun hu => hq (congrArg some hu)) hqueued h
  | cancel u => exact drops_cancel hw u t wake h
  | coordinate now =>
    rw [next] at h
    cases hc : s.coordinate now with
    | none => rwa [hc] at h
    | some s' =>
      rw [hc] at h
      exact drops_coordinate hw hc t wake h
  | start place =>
    rw [next] at h
    cases hs : s.start place with
    | none => rwa [hs] at h
    | some x =>
      rw [hs] at h
      exact drops_start hs t wake h
  | finish place panicked => exact drops_finish s place panicked t wake h
  | shutdown => exact drops_shutdown hw t wake h
  | others n table => exact drops_others hw he.2.1 he.2.2 t wake h
  | rest | sample | refuse => exact h

/-- What comes of a scheduler while nobody queues timer `t`. -/
inductive Leaves (t : Nat) (s : Scheduler) : Scheduler → Prop where
  | refl : Leaves t s s
  | step {s' : Scheduler} (h : Leaves t s s') (e : Event) (he : s'.Allows e)
      (hq : e.queues ≠ some t) : Leaves t s (s'.next e)

/-- As long as nobody queues it anew, a timer is bound as it was. -/
theorem Leaves.bound (h : Leaves t s s') (hw : s.Whole) :
    s'.Whole ∧ ∀ wake, s'.bindings.lookup t = some wake → s.bindings.lookup t = some wake := by
  induction h with
  | refl => exact ⟨hw, fun _ h => h⟩
  | step _ e he hq ih =>
    exact ⟨next_whole ih.1 e he, fun wake h => ih.2 wake (lookup_next ih.1 he hq h)⟩

/-- The coordinator takes out what is due. -/
theorem due_of_fired (hw : s.Whole) (h : ⟨.fired, t⟩ ∈ s.noted (.coordinate now)) :
    ∃ wake, s.bindings.lookup t = some wake ∧ wake ≤ now := by
  have hhanding {x y : Scheduler} {u : Nat} : (⟨.fired, t⟩ : Mark) ∉ x.handing y u := by
    unfold handing
    split <;> simp
  rw [noted] at h
  split at h
  next => exact absurd h hhanding
  next s' u heap table _ hpop =>
    rcases List.mem_cons.1 h with h | h
    · cases h
      obtain ⟨⟨wake, hwake, hdue, -⟩, -⟩ := Heap.popDue_bindings hw.kept hpop
      exact ⟨wake, hwake, hdue⟩
    · exact absurd h hhanding
  next => exact absurd h List.not_mem_nil

/-- **A timer is taken out no earlier than at the wake time it was bound to**, whatever
happens meanwhile. -/
theorem Leaves.fired (h : Leaves t s s') (hw : s.Whole) (hwake : s.bindings.lookup t = some wake)
    (hfired : ⟨.fired, t⟩ ∈ s'.noted (.coordinate now)) : wake ≤ now := by
  obtain ⟨hw', hbound⟩ := h.bound hw
  obtain ⟨wake', hwake', hdue⟩ := due_of_fired hw' hfired
  cases hwake.symm.trans (hbound wake' hwake')
  exact hdue

/-! ## The delay -/

/-- The longest interval of the settings is one that clocks sample at, or it does not
matter, since the delay is measured from the exact time. -/
def Covers (settings : Settings.Scheduler) (delay : Duration) : Prop :=
  (Duration.ofMillis 1).le settings.maxSampleInterval = true ∨
    settings.approxThreshold.le delay = false

/-- At the true time `m` a delay that began at `n` is over: wholly if the settings cover it,
and otherwise but for less than a millisecond. -/
structure Over (settings : Settings.Scheduler) (delay : Duration) (n m : Nat) : Prop where
  nearly : n + delay.nanos < m + Duration.nanosPerMilli
  wholly : Covers settings delay → n + delay.nanos ≤ m

theorem Over.mono {settings : Settings.Scheduler} {delay : Duration} {n m m' : Nat}
    (h : Over settings delay n m) (hm : m ≤ m') : Over settings delay n m' :=
  ⟨Nat.lt_of_lt_of_le h.nearly (Nat.add_le_add_right hm _), fun hc => Nat.le_trans (h.wholly hc) hm⟩

variable {settings : Settings.Scheduler} {c : Clock} {last n : Nat}

/-- The lag of the published time that is not made up for is at most a millisecond, and
there is none where it is covered. -/
theorem exactNow_le (hle : settings.minSampleInterval.le settings.maxSampleInterval = true)
    (hc : c.Sampled settings.minSampleInterval settings.maxSampleInterval last)
    (hfresh : n ≤ last + c.interval * Duration.nanosPerMilli) :
    exactNow n ≤ c.approx + settings.maxSampleInterval.millis + 1 ∧
      ((Duration.ofMillis 1).le settings.maxSampleInterval = true →
        exactNow n ≤ c.approx + settings.maxSampleInterval.millis + 0) := by
  have hlag := hc.exactNow_le hfresh
  rw [Clock.longest_eq hle] at hlag
  refine ⟨by omega, fun hone => ?_⟩
  have hmillis := Duration.one_le_millis hone
  omega

/-- At the wake time the delay is over. -/
theorem over_wakeTime (hle : settings.minSampleInterval.le settings.maxSampleInterval = true)
    (hc : c.Sampled settings.minSampleInterval settings.maxSampleInterval last)
    (hfresh : n ≤ last + c.interval * Duration.nanosPerMilli) (delay : Duration) :
    wakeTime settings c.approx (exactNow n) delay = Millis.max ∨
      Over settings delay n
        (wakeTime settings c.approx (exactNow n) delay * Duration.nanosPerMilli) := by
  have hbound := wakeTime_le settings c.approx (exactNow n) delay
  obtain ⟨hlag, hnone⟩ := exactNow_le hle hc hfresh
  by_cases hmax : wakeTime settings c.approx (exactNow n) delay = Millis.max
  · exact .inl hmax
  refine .inr ⟨?_, fun hcover => ?_⟩
  · have hwake := (le_wakeTime fun _ => hlag).resolve_left hmax
    have hlt := Duration.lt_of_millisCeil hwake (by omega)
    rwa [Nat.add_one_mul] at hlt
  · have hcovered : settings.approxThreshold.le delay = true →
        exactNow n ≤ c.approx + settings.maxSampleInterval.millis + 0 := by
      intro hlong
      rcases hcover with hone | hshort
      · exact hnone hone
      · exact absurd (hlong.symm.trans hshort) (by decide)
    have hwake := (le_wakeTime hcovered).resolve_left hmax
    rw [Nat.add_zero (wakeTime settings c.approx (exactNow n) delay)] at hwake
    exact Nat.le_of_lt (Duration.lt_of_millisCeil hwake hbound)

/-- **A queued timer waits out its delay**, for all settings that passed the check, however
old the published time is before the next sample is due: unless it is the greatest reading,
at the wake time the delay is over, and whatever happens to the scheduler while nobody
queues the timer again, the coordinator takes it out no earlier than that. -/
theorem waits_out_delay {e : Settings.Engine} (he : e.validate = .ok ())
    (hc : c.Sampled e.scheduler.minSampleInterval e.scheduler.maxSampleInterval last)
    (hfresh : n ≤ last + c.interval * Duration.nanosPerMilli) (delay : Duration) :
    let wake := wakeTime e.scheduler c.approx (exactNow n) delay
    (wake = Millis.max ∨ Over e.scheduler delay n (wake * Duration.nanosPerMilli)) ∧
      ∀ s : Scheduler, s.Whole → s.settings = e.scheduler → s.clock = c →
        ∀ t s', s.queue t (exactNow n) delay = (.ok (), s') → ∀ s'' m, s'.Leaves t s'' →
          ⟨.fired, t⟩ ∈ s''.noted (.coordinate (exactNow m)) →
            wake = Millis.max ∨ Over e.scheduler delay n m := by
  intro wake
  have hover := over_wakeTime (Settings.Engine.le_of_validate he) hc hfresh delay
  refine ⟨hover, fun s hw hs hclock t s' hq s'' m hleaves hfired => hover.imp id fun hover => ?_⟩
  have hbound : s'.bindings.lookup t = some wake := by
    rcases queue_bindings hw t (exactNow n) delay with ⟨-, hbind⟩ | ⟨⟨f, hf⟩, -⟩
    · rw [hq, hs, hclock] at hbind
      rw [hbind, Finmap.lookup_insert]
    · rw [hq] at hf
      cases hf
  have hw' : s'.Whole := by
    have := next_whole hw (.queue t (exactNow n) delay) trivial
    rwa [next, hq] at this
  exact hover.mono (Time.le_of_exactNow (hleaves.fired hw' hbound hfired))

/-- A delay of three seconds that begins at the true time 1.9 ms, with a clock last sampled
at the start: the wake time is 3101 ms. -/
theorem waits_out_delay_default :
    ({} : Settings.Engine).validate = .ok () ∧
      (Clock.default.sample (exactNow 0)).Sampled (.ofMillis 1) (.ofMillis 100) 0 ∧
      1900000 ≤ 0 + (Clock.default.sample (exactNow 0)).interval * Duration.nanosPerMilli ∧
        Over {} (.ofSeconds 3) 1900000 (3101 * Duration.nanosPerMilli) := by
  have hvalid : ({} : Settings.Engine).validate = .ok () := rfl
  have hsampled : (Clock.default.sample (exactNow 0)).Sampled (.ofMillis 1) (.ofMillis 100) 0 :=
    .first 0
  have hfresh : 1900000 ≤ 0 + (Clock.default.sample (exactNow 0)).interval * Duration.nanosPerMilli := by
    decide
  have hwake : wakeTime ({} : Settings.Engine).scheduler (Clock.default.sample (exactNow 0)).approx
      (exactNow 1900000) (.ofSeconds 3) = 3101 := by decide
  have hover := (waits_out_delay hvalid hsampled hfresh (.ofSeconds 3)).1
  dsimp only at hover
  rw [hwake] at hover
  exact ⟨hvalid, hsampled, hfresh, hover.resolve_left (by decide)⟩

/-- Settings that pass the check, with sampling intervals of no length. -/
def instant : Settings.Engine :=
  { scheduler := { approxThreshold := .zero, minSampleInterval := .zero, maxSampleInterval := .zero } }

/-- **Where the settings do not cover it, a timer fires early**: the clock was sampled at
0.9 ms and sleeps a millisecond, at 1.9 ms a timer is queued for 10 ms, and at 11 ms the
coordinator takes it out, 0.9 ms before the delay is over. -/
theorem fires_early :
    let c := (Clock.create .zero .zero).sample (exactNow 900000)
    let s := { create instant.scheduler 0 with clock := c }
    instant.validate = .ok () ∧ c.Sampled .zero .zero 900000 ∧
      1900000 ≤ 900000 + c.interval * Duration.nanosPerMilli ∧
      wakeTime instant.scheduler c.approx (exactNow 1900000) (.ofMillis 10) = 11 ∧
      11 * Duration.nanosPerMilli < 1900000 + (Duration.ofMillis 10).nanos ∧
      (s.queue 0 (exactNow 1900000) (.ofMillis 10)).1 = .ok () ∧
      (s.queue 0 (exactNow 1900000) (.ofMillis 10)).2.noted
        (.coordinate (exactNow (11 * Duration.nanosPerMilli))) = [⟨.fired, 0⟩] :=
  ⟨rfl, .first _, by decide, by decide, by decide, by decide, by decide⟩

end Scheduler

end Timer

end LinkEngine

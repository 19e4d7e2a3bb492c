import LinkEngine.Time.Clock
import Mathlib.Algebra.Group.Nat.Defs
import Mathlib.Data.List.Induction

/-!
# How the clock is sampled

What is done with a clock is done at exact times (`Event`), and of all that is done between
two samples only one thing matters to the next interval: whether the published time was read
at all (`sightings`). So the intervals follow from those sightings, each of which halves or
doubles the interval within its bounds (`paced`), and the published time is the exact time of
the last sample (`lastSample`), as long as exact times do not go back.

The main statement (`interval_settles`) puts both together: from whatever interval, as many
sightings of one kind as a reading has binary digits lead to a bound, and more of them stay
there.
-/

namespace LinkEngine.Time

theorem Duration.millis_mono {a b : Duration} (h : a.nanos ≤ b.nanos) : a.millis ≤ b.millis :=
  Nat.le_min.2 ⟨Nat.le_trans (Nat.min_le_left ..) (Nat.div_le_div_right h), Nat.min_le_right ..⟩

/-- The longer of two spans has the more whole milliseconds of both. -/
theorem millis_longer (a b : Duration) : (a.max b).millis = max a.millis b.millis := by
  unfold Duration.max
  split
  · next h => exact (Nat.max_eq_right (Duration.millis_mono h)).symm
  · next h => exact (Nat.max_eq_left (Duration.millis_mono (Nat.le_of_not_le h))).symm

namespace Clock

/-! ## What is done with a clock -/

/-- What is done with a clock, at an exact time. -/
inductive Event where
  | read (now : Nat)
  | sample (now : Nat)
  deriving DecidableEq, Repr

/-- The exact time of it. -/
def Event.now : Event → Nat
  | .read now => now
  | .sample now => now

/-- The use that it makes of the clock. -/
def Event.use : Event → Use
  | .read _ => .read
  | .sample now => .sample now

/-- A clock after all of this. -/
def after (c : Clock) (events : List Event) : Clock :=
  events.foldl (fun c e => c.apply e.use) c

/-- The exact time of the last sample, and zero before the first. -/
def lastSample : List Event → Nat :=
  List.foldl (fun last e => match e with | .read _ => last | .sample now => now) 0

/-- For each sample, whether the published time was read since the one before it. `seen`
says whether it was read already. -/
def sightings (seen : Bool) : List Event → List Bool
  | [] => []
  | .read _ :: events => sightings true events
  | .sample _ :: events => seen :: sightings false events

variable {c : Clock} {events more : List Event}

theorem after_append (c : Clock) (events more : List Event) :
    c.after (events ++ more) = (c.after events).after more := List.foldl_append

theorem lastSample_concat (events : List Event) (e : Event) :
    lastSample (events ++ [e]) = match e with | .read _ => lastSample events | .sample now => now :=
  List.foldl_append

theorem sightings_append (events more : List Event) (c : Clock) :
    sightings c.wasRead (events ++ more) =
      sightings c.wasRead events ++ sightings (c.after events).wasRead more := by
  induction events generalizing c with
  | nil => rfl
  | cons e events ih =>
    cases e with
    | read now => exact ih c.read.2
    | sample now => exact congrArg (c.wasRead :: ·) (ih (c.sample now))

/-! ## The interval -/

/-- The next interval between these bounds. -/
def paced (least greatest interval : Nat) (seen : Bool) : Nat :=
  if seen then max (interval / 2) least else min (min (interval * 2) Millis.max) greatest

/-- The bounds of the interval, in whole milliseconds. -/
structure Bounds (c : Clock) (least greatest : Nat) : Prop where
  least : c.least.millis = least
  greatest : c.greatest.millis = greatest

variable {least greatest interval k : Nat}

theorem Bounds.apply (h : c.Bounds least greatest) (u : Use) :
    (c.apply u).Bounds least greatest := by
  cases u <;> exact ⟨h.least, h.greatest⟩

theorem Bounds.nextInterval (h : c.Bounds least greatest) :
    c.nextInterval = paced least greatest c.interval c.wasRead := by
  unfold Clock.nextInterval
  rw [h.least, h.greatest]
  rfl

/-- The intervals follow from the sightings. -/
theorem Bounds.intervals (h : c.Bounds least greatest) (events : List Event) :
    c.intervals (events.map Event.use) =
      (sightings c.wasRead events).scanl (paced least greatest) c.interval := by
  unfold Clock.intervals
  induction events generalizing c with
  | nil => simp [intervals.go, sightings]
  | cons e events ih =>
    cases e with
    | read now => exact ih (h.apply .read)
    | sample now =>
      have hlater := ih (h.apply (.sample now))
      simp only [List.map_cons, Event.use, intervals.go, sightings, List.scanl_cons]
      rw [← h.nextInterval]
      exact congrArg (c.interval :: ·) hlater

/-- So does the last of them. -/
theorem Bounds.interval_after (h : c.Bounds least greatest) (events : List Event) :
    (c.after events).interval =
      (sightings c.wasRead events).foldl (paced least greatest) c.interval := by
  induction events generalizing c with
  | nil => rfl
  | cons e events ih =>
    cases e with
    | read now => exact ih (h.apply .read)
    | sample now =>
      rw [sightings, List.foldl_cons, ← h.nextInterval]
      exact ih (h.apply (.sample now))

theorem Bounds.after (h : c.Bounds least greatest) (events : List Event) :
    (c.after events).Bounds least greatest := by
  induction events generalizing c with
  | nil => exact h
  | cons e events ih => exact ih (h.apply e.use)

theorem paced_bounds (hle : least ≤ greatest) (hmax : greatest ≤ Millis.max)
    (hi : least ≤ interval ∧ interval ≤ greatest) (seen : Bool) :
    least ≤ paced least greatest interval seen ∧ paced least greatest interval seen ≤ greatest := by
  unfold paced
  split <;> omega

theorem foldl_paced_bounds (hle : least ≤ greatest) (hmax : greatest ≤ Millis.max)
    (seen : List Bool) (hi : least ≤ interval ∧ interval ≤ greatest) :
    least ≤ seen.foldl (paced least greatest) interval ∧
      seen.foldl (paced least greatest) interval ≤ greatest := by
  induction seen generalizing interval with
  | nil => exact hi
  | cons b seen ih => exact ih (paced_bounds hle hmax hi b)

/-- Each sample that saw a read halves the interval, down to the lower bound. -/
theorem foldl_paced_true (least greatest interval k : Nat) :
    (List.replicate k true).foldl (paced least greatest) interval ≤
      max least (interval / 2 ^ k) := by
  induction k with
  | zero =>
    simp only [List.replicate_zero, List.foldl_nil, Nat.pow_zero, Nat.div_one]
    omega
  | succ k ih =>
    rw [List.replicate_succ', List.foldl_append, List.foldl_cons, List.foldl_nil, Nat.pow_succ,
      ← Nat.div_div_eq_div_mul]
    simp only [paced, if_true]
    omega

/-- Each sample that saw none doubles it, up to the upper bound. -/
theorem le_foldl_paced_false (hmax : greatest ≤ Millis.max) (least interval k : Nat) :
    min greatest (interval * 2 ^ k) ≤
      (List.replicate k false).foldl (paced least greatest) interval := by
  induction k with
  | zero =>
    simp only [List.replicate_zero, List.foldl_nil, Nat.pow_zero, Nat.mul_one]
    omega
  | succ k ih =>
    rw [List.replicate_succ', List.foldl_append, List.foldl_cons, List.foldl_nil, Nat.pow_succ,
      ← Nat.mul_assoc]
    simp only [paced, Bool.false_eq_true, if_false]
    omega

/-! ## The published time -/

/-- It never goes back. -/
theorem approx_mono (c : Clock) (events : List Event) : c.approx ≤ (c.after events).approx := by
  induction events generalizing c with
  | nil => exact Nat.le_refl _
  | cons e events ih =>
    cases e with
    | read now => exact ih c.read.2
    | sample now => exact Nat.le_trans (Nat.le_max_left ..) (ih (c.sample now))

/-- A published time is that of the last sample, which no later event precedes. -/
theorem approx_after (h : events.Pairwise (·.now ≤ ·.now)) (hc : c.approx = 0) :
    (c.after events).approx = lastSample events ∧ ∀ now, (∀ e ∈ events, e.now ≤ now) →
      lastSample events ≤ now := by
  induction events using List.reverseRecOn with
  | nil => exact ⟨hc, fun _ _ => Nat.zero_le _⟩
  | append_singleton events e ih =>
    obtain ⟨hbefore, -, hlast⟩ := List.pairwise_append.1 h
    obtain ⟨happrox, hle⟩ := ih hbefore
    rw [after_append, lastSample_concat]
    cases e with
    | read now => exact ⟨happrox, fun now h => hle now fun e he => h e (List.mem_append_left _ he)⟩
    | sample now =>
      refine ⟨?_, fun later h => h (.sample now) (by simp)⟩
      have hpast := hle now fun e he => hlast e he (.sample now) (by simp)
      show max (c.after events).approx now = now
      rw [happrox]
      exact Nat.max_eq_right hpast

/-! ## Any run of a clock -/

theorem create_bounds (least greatest : Duration) :
    (create least greatest).Bounds (max least.millis 1)
      (max greatest.millis (max least.millis 1)) where
  least := by
    show (least.max (Duration.ofMillis 1)).millis = _
    rw [millis_longer]
    rfl
  greatest := by
    show (greatest.max (least.max (Duration.ofMillis 1))).millis = _
    rw [millis_longer, millis_longer]
    rfl

/-- As many samples as a reading has binary digits. -/
def enough : Nat := 64

theorem lt_two_pow (hk : enough ≤ k) (hi : interval ≤ Millis.max) : interval < 2 ^ k := by
  have hpow : 2 ^ enough ≤ 2 ^ k := Nat.pow_le_pow_right (by decide) hk
  have hmax : Millis.max < 2 ^ enough := by decide
  omega

/-- Samples that all saw a read bring the interval down to its lower bound. -/
theorem foldl_paced_true_settles (hle : least ≤ greatest) (hmax : greatest ≤ Millis.max)
    (hi : least ≤ interval ∧ interval ≤ greatest) (hk : enough ≤ k) :
    (List.replicate k true).foldl (paced least greatest) interval = least := by
  have hlower := (foldl_paced_bounds hle hmax (List.replicate k true) hi).1
  have hupper := foldl_paced_true least greatest interval k
  rw [Nat.div_eq_of_lt (lt_two_pow hk (Nat.le_trans hi.2 hmax))] at hupper
  omega

/-- Samples that saw none bring it up to its upper bound. -/
theorem foldl_paced_false_settles (hle : least ≤ greatest) (hmax : greatest ≤ Millis.max)
    (hi : least ≤ interval ∧ interval ≤ greatest) (hpos : 1 ≤ least) (hk : enough ≤ k) :
    (List.replicate k false).foldl (paced least greatest) interval = greatest := by
  have hupper := (foldl_paced_bounds hle hmax (List.replicate k false) hi).2
  have hlower := le_foldl_paced_false hmax least interval k
  have hpow := lt_two_pow hk hmax
  have hmul : 2 ^ k ≤ interval * 2 ^ k := Nat.le_mul_of_pos_left _ (by omega)
  omega

/-- **The interval keeps its bounds and settles at one of them.** However a clock was made
and whatever is done with it, at exact times that do not go back: its interval lies between
its bounds, of which the lower is at least a millisecond; it publishes the exact time of the
last sample, which never goes back and is never ahead; and the interval is halved by each
sample that saw a read and doubled by each that saw none, whichever number of reads there
were, until it is at a bound and stays there. -/
theorem interval_settles (least greatest : Duration) (events : List Event)
    (hclock : events.Pairwise (·.now ≤ ·.now)) :
    let c := create least greatest
    let shortest := max least.millis 1
    let longest := max greatest.millis shortest
    (shortest ≤ (c.after events).interval ∧ (c.after events).interval ≤ longest ∧
      (c.after events).interval ≠ 0) ∧
    ((c.after events).read.1 = lastSample events ∧
      (∀ now, (∀ e ∈ events, e.now ≤ now) → (c.after events).read.1 ≤ now) ∧
      ∀ more, (c.after events).read.1 ≤ (c.after (events ++ more)).read.1) ∧
    (∀ more k, sightings false (events ++ more) =
        sightings false events ++ List.replicate k true →
      (c.after (events ++ more)).interval ≤ max shortest ((c.after events).interval / 2 ^ k) ∧
      (enough ≤ k → (c.after (events ++ more)).interval = shortest)) ∧
    (∀ more k, sightings false (events ++ more) =
        sightings false events ++ List.replicate k false →
      min longest ((c.after events).interval * 2 ^ k) ≤ (c.after (events ++ more)).interval ∧
      (enough ≤ k → (c.after (events ++ more)).interval = longest)) ∧
    ∀ events' : List Event, sightings false events' = sightings false events →
      c.intervals (events'.map Event.use) = c.intervals (events.map Event.use) := by
  intro c shortest longest
  have hbounds : c.Bounds shortest longest := create_bounds least greatest
  have hle : shortest ≤ longest := Nat.le_max_right ..
  have hpos : 1 ≤ shortest := Nat.le_max_right ..
  have hmax : longest ≤ Millis.max := hbounds.greatest ▸ Nat.min_le_right ..
  have hstart : c.interval = longest := hbounds.greatest
  have hin : shortest ≤ (c.after events).interval ∧ (c.after events).interval ≤ longest := by
    rw [hbounds.interval_after, hstart]
    exact foldl_paced_bounds hle hmax _ ⟨hle, Nat.le_refl _⟩
  -- What the later samples saw is all that the later interval depends on.
  have hlater : ∀ more seen, sightings false (events ++ more) = sightings false events ++ seen →
      (c.after (events ++ more)).interval =
        seen.foldl (paced shortest longest) (c.after events).interval := by
    intro more seen h
    have hsplit : sightings false (events ++ more) = _ := sightings_append events more c
    rw [after_append, (hbounds.after events).interval_after,
      List.append_cancel_left (hsplit.symm.trans h)]
  obtain ⟨happrox, hpast⟩ := approx_after (c := c) hclock rfl
  refine ⟨⟨hin.1, hin.2, by omega⟩, ⟨happrox, ?_, ?_⟩, ?_, ?_, ?_⟩
  · intro now h
    exact Nat.le_trans (Nat.le_of_eq happrox) (hpast now h)
  · intro more
    show (c.after events).approx ≤ (c.after (events ++ more)).approx
    rw [after_append]
    exact approx_mono (c.after events) more
  · intro more k h
    rw [hlater more _ h]
    exact ⟨foldl_paced_true shortest longest _ k, foldl_paced_true_settles hle hmax hin⟩
  · intro more k h
    rw [hlater more _ h]
    exact ⟨le_foldl_paced_false hmax shortest _ k, foldl_paced_false_settles hle hmax hin hpos⟩
  · intro events' h
    rw [hbounds.intervals, hbounds.intervals]
    exact congrArg (List.scanl (paced shortest longest) c.interval) h

/-- Two samples that each saw reads, one of them several, take a clock from sixty-four
milliseconds to sixteen. -/
theorem interval_settles_busy :
    let c := create (.ofMillis 2) (.ofMillis 64)
    let events := [Event.read 3, .sample 10, .read 12, .read 15, .sample 20]
    events.Pairwise (·.now ≤ ·.now) ∧ (c.after events).interval ≤ 16 ∧
      (c.after events).read.1 = 20 := by
  intro c events
  have hclock : events.Pairwise (·.now ≤ ·.now) := by decide
  have hbusy := (interval_settles (.ofMillis 2) (.ofMillis 64) [] .nil).2.2.1 events 2 rfl
  exact ⟨hclock, hbusy.1, (interval_settles _ _ events hclock).2.1.1⟩

end Clock

end LinkEngine.Time

import LinkEngine.Proofs.Timers

/-!
# Whoever makes timers keeps them of use

The task of a link sets the deadline of a wait, and whoever builds a listener has its
housekeeping queued: besides these two nobody makes a timer. Both leave the timers of an
engine of use, as does the start of a link, which waits for nothing yet. To all other links
their deadlines stay (`Drove.timed`, `Builds.timed`, `Accepts.timed`).
-/

namespace LinkEngine.Engine

variable {s t u : Engine} {l m i : Nat} {k k' : Link}

/-! ## Setting a deadline -/

/-- Of the alarms after one was added, only that one is new. -/
theorem alarm_append {alarms : List Alarm} {a b : Alarm} {n : Nat}
    (h : (alarms ++ [a])[n]? = some b) :
    n < alarms.length ∧ alarms[n]? = some b ∨ n = alarms.length ∧ b = a := by
  rcases Nat.lt_trichotomy n alarms.length with hn | rfl | hn
  · exact .inl ⟨hn, by rwa [List.getElem?_append_left hn] at h⟩
  · exact .inr ⟨rfl, by simpa using h.symm⟩
  · rw [List.getElem?_eq_none (by simp; omega)] at h
    cases h

/-- What is added is no deadline. -/
private theorem deadline_of_append {alarms : List Alarm} {i l g n : Nat}
    (h : (alarms ++ [Alarm.housekeeping i])[n]? = some (Alarm.deadline l g)) :
    alarms[n]? = some (Alarm.deadline l g) := by
  rcases alarm_append h with ⟨-, h⟩ | ⟨-, heq⟩
  · exact h
  · cases heq

private theorem alarm_of_append {alarms : List Alarm} {a b : Alarm} {n : Nat}
    (hn : n < alarms.length) (h : (alarms ++ [a])[n]? = some b) : alarms[n]? = some b := by
  rwa [List.getElem?_append_left hn] at h

theorem lt_of_alarm {alarms : List Alarm} {a : Alarm} {n : Nat}
    (h : alarms[n]? = some a) : n < alarms.length := (List.getElem?_eq_some_iff.1 h).1

private theorem alarm_append_left {alarms : List Alarm} {a b : Alarm} {n : Nat}
    (h : alarms[n]? = some b) : (alarms ++ [a])[n]? = some b := by
  rwa [List.getElem?_append_left (lt_of_alarm h)]

section Afoot

variable {x : Timer.Scheduler} {n : Nat} (hout : x.outstanding = s.scheduler.outstanding)

private theorem not_mem_of_stopped (hf : x.Fit) (hst : x.stopped = true) (n : Nat) :
    n ∉ x.heap.items := by
  rw [(hf.whole.stopped hst).1]
  exact List.not_mem_nil

include hout

/-- Once the scheduler was shut down, nothing comes afoot that was not before. -/
private theorem isAfoot_of_stopped (hf : x.Fit) (hst : x.stopped = true) (hn : x.IsAfoot n) :
    s.scheduler.IsAfoot n :=
  .inr (hout ▸ hn.resolve_left (not_mem_of_stopped hf hst n))

/-- Where one timer was made and queued, nothing else comes afoot. -/
private theorem isAfoot_of_queued
    (hheap : ∀ n, n ∈ x.heap.items → n = s.alarms.length ∨ n ∈ s.scheduler.heap.items)
    (hn : x.IsAfoot n) : n = s.alarms.length ∨ s.scheduler.IsAfoot n := by
  rcases hn with hn | hn
  · exact (hheap n hn).imp id .inl
  · exact .inr (.inr (hout ▸ hn))

end Afoot

/-- The engine after a timer was made for a new wait of link `l`, which is `k` from then on. -/
def withWait (s : Engine) (l : Nat) (k : Link) (x : Timer.Scheduler) : Engine :=
  { s.setLink l k with
    alarms := s.alarms ++ [.deadline l k.waitGeneration]
    scheduler := x }

section Wait

variable {x : Timer.Scheduler} (hs : s.Timed) (hk : s.link? l = some k)

include hk in
private theorem link?_withWait_self : (s.withWait l k' x).link? l = some k' :=
  link?_setLink_self hk k'

private theorem link?_withWait_ne (hm : m ≠ l) : (s.withWait l k' x).link? m = s.link? m :=
  link?_setLink_ne hm s k'

private theorem alarm_withWait_last :
    (s.withWait l k' x).alarms[s.alarms.length]? = some (.deadline l k'.waitGeneration) :=
  List.getElem?_concat_length ..

variable (hrun : s.scheduler.stopped = false)
  (hheap : ∀ n, n ∈ x.heap.items ↔
    (n = s.alarms.length ∨ n ∈ s.scheduler.heap.items) ∧ k.deadline ≠ some n)
  (hout : x.outstanding = s.scheduler.outstanding)

include hheap hout in
private theorem isAfoot_withWait {n : Nat} (hn : x.IsAfoot n) :
    n = s.alarms.length ∨ s.scheduler.IsAfoot n :=
  isAfoot_of_queued hout (fun n hn => ((hheap n).1 hn).1) hn

include hs hk hheap in
/-- What is queued is for the present wait: the timer of the one before was taken back. -/
private theorem queued_withWait {n g : Nat} (hn : n ∈ x.heap.items)
    (hg : (s.withWait l k' x).alarms[n]? = some (.deadline m g)) :
    ∃ y, (s.withWait l k' x).link? m = some y ∧ y.waitGeneration = g := by
  obtain ⟨rfl | hin, hne⟩ := (hheap n).1 hn
  · cases alarm_withWait_last.symm.trans hg
    exact ⟨k', link?_withWait_self hk, rfl⟩
  · have hbefore := alarm_of_append (hs.made n (.inl hin)) hg
    obtain ⟨y, hy, hyg⟩ := hs.queued n m g hin hbefore
    by_cases hm : m = l
    · subst hm
      cases hk.symm.trans hy
      exact absurd (hs.owned n m k (.inl hin) hk (hyg ▸ hbefore)) hne
    · exact ⟨y, (link?_withWait_ne hm).trans hy, hyg⟩

include hs hk hrun hheap hout in
/-- The deadlines of other links stay: one timer is not for two links. -/
private theorem Live.rearmed (hm : m ≠ l) (hlive : s.Live m) : (s.withWait l k' x).Live m := by
  intro y hy hc hp _
  have hy : s.link? m = some y := (link?_withWait_ne hm).symm.trans hy
  obtain ⟨n, hd, hn⟩ := hlive y hy hc hp hrun
  refine ⟨n, hd, ?_⟩
  rcases hn with hn | hn
  · refine .inl ((hheap n).2 ⟨.inr hn, fun hdl => hm ?_⟩)
    have heq := (hs.present m y n hy hd hrun).symm.trans (hs.present l k n hk hdl hrun)
    exact (Alarm.deadline.inj (Option.some.inj heq)).1
  · exact .inr (hout.symm ▸ hn)

variable (hnext : k'.waitGeneration = k.waitGeneration + 1)

include hs hk hnext

/-- No alarm was for the wait that begins. -/
private theorem alarm_ne_next (n : Nat) :
    s.alarms[n]? ≠ some (.deadline l k'.waitGeneration) := by
  intro hn
  obtain ⟨y, hy, hle⟩ := hs.numbered n l _ hn
  cases hk.symm.trans hy
  omega

/-- Of a wait it is only the number that goes up. -/
private theorem numbered_withWait {n g : Nat}
    (hn : (s.withWait l k' x).alarms[n]? = some (.deadline m g)) :
    ∃ y, (s.withWait l k' x).link? m = some y ∧ g ≤ y.waitGeneration := by
  rcases alarm_append hn with ⟨-, hn⟩ | ⟨-, heq⟩
  · obtain ⟨y, hy, hle⟩ := hs.numbered n m g hn
    by_cases hm : m = l
    · subst hm
      cases hk.symm.trans hy
      exact ⟨k', link?_withWait_self hk, by omega⟩
    · exact ⟨y, (link?_withWait_ne hm).trans hy, hle⟩
  · cases heq
    exact ⟨k', link?_withWait_self hk, Nat.le_refl _⟩

private theorem unique_withWait {n n' g : Nat}
    (hn : (s.withWait l k' x).alarms[n]? = some (.deadline m g))
    (hn' : (s.withWait l k' x).alarms[n']? = some (.deadline m g)) : n = n' := by
  have hnone := alarm_ne_next hs hk hnext
  rcases alarm_append hn with ⟨-, hn⟩ | ⟨rfl, heq⟩ <;>
    rcases alarm_append hn' with ⟨-, hn'⟩ | ⟨rfl, heq'⟩
  · exact hs.unique n n' m g hn hn'
  · cases heq'
    exact absurd hn (hnone n)
  · cases heq
    exact absurd hn' (hnone n')
  · rfl

/-- The scheduler was shut down, and no timer is queued for the wait. -/
private theorem Timed.unarmed (hf : x.Fit)
    (hout : x.outstanding = s.scheduler.outstanding) (hst : x.stopped = true) :
    (s.withWait l k' x).Timed ∧ ∀ m, (s.withWait l k' x).Live m := by
  have hempty := not_mem_of_stopped hf hst
  have hafoot : ∀ n, x.IsAfoot n → s.scheduler.IsAfoot n :=
    fun _ => isAfoot_of_stopped hout hf hst
  have hold : ∀ {n : Nat} {a : Alarm}, x.IsAfoot n →
      (s.withWait l k' x).alarms[n]? = some a → s.alarms[n]? = some a := fun hn ha =>
    alarm_of_append (hs.made _ (hafoot _ hn)) ha
  have hnever : ∀ {P : Prop}, x.stopped = false → P :=
    fun h => absurd (h.symm.trans hst) Bool.false_ne_true
  refine ⟨?_, fun m _ _ _ _ h => hnever h⟩
  exact {
    fit := hf
    made := fun n hn => Nat.lt_of_lt_of_le (hs.made n (hafoot n hn)) (by simp [withWait])
    numbered := fun _ _ _ => numbered_withWait hs hk hnext
    unique := fun _ _ _ _ => unique_withWait hs hk hnext
    present := fun _ _ _ _ _ h => hnever h
    owned := fun n m y hn hy hg => by
      by_cases hm : m = l
      · subst hm
        cases (link?_withWait_self hk).symm.trans hy
        exact absurd (hold hn hg) (alarm_ne_next hs hk hnext n)
      · exact hs.owned n m y (hafoot n hn) ((link?_withWait_ne hm).symm.trans hy) (hold hn hg)
    queued := fun n _ _ hn => absurd hn (hempty n)
    house := fun i n hn => alarm_append_left (hs.house i n hn)
    kept := fun n i hn hi => hs.kept n i (hafoot n hn) (hold hn hi)
    awake := fun n _ hn => absurd hn (hempty n) }

include hheap hout

/-- Whatever is afoot for the present wait of a link is its deadline. -/
private theorem owned_withWait (hd : k'.deadline = some s.alarms.length) {n : Nat} {y : Link}
    (hn : x.IsAfoot n) (hy : (s.withWait l k' x).link? m = some y)
    (hg : (s.withWait l k' x).alarms[n]? = some (.deadline m y.waitGeneration)) :
    y.deadline = some n := by
  by_cases hm : m = l
  · subst hm
    cases (link?_withWait_self hk).symm.trans hy
    rcases alarm_append hg with ⟨-, hg⟩ | ⟨rfl, -⟩
    · exact absurd hg (alarm_ne_next hs hk hnext n)
    · exact hd
  · rcases isAfoot_withWait hheap hout hn with rfl | hn
    · have heq := alarm_withWait_last.symm.trans hg
      exact absurd (Alarm.deadline.inj (Option.some.inj heq)).1.symm hm
    · exact hs.owned n m y hn ((link?_withWait_ne hm).symm.trans hy)
        (alarm_of_append (hs.made n hn) hg)

include hrun

/-- A timer is queued for the wait. -/
private theorem Timed.rearmed (hf : x.Fit) (hd : k'.deadline = some s.alarms.length) :
    (s.withWait l k' x).Timed :=
  have hafoot : ∀ {n}, x.IsAfoot n → n = s.alarms.length ∨ s.scheduler.IsAfoot n :=
    isAfoot_withWait hheap hout
  { fit := hf
    made := fun n hn => by
      show n < (s.alarms ++ [_]).length
      rw [List.length_append, List.length_singleton]
      rcases hafoot hn with rfl | hn
      · exact Nat.lt_succ_self _
      · exact Nat.lt_succ_of_lt (hs.made n hn)
    numbered := fun _ _ _ => numbered_withWait hs hk hnext
    unique := fun _ _ _ _ => unique_withWait hs hk hnext
    present := fun m y n hy hyd _ => by
      by_cases hm : m = l
      · subst hm
        cases (link?_withWait_self hk).symm.trans hy
        cases hd.symm.trans hyd
        exact alarm_withWait_last
      · exact alarm_append_left (hs.present m y n ((link?_withWait_ne hm).symm.trans hy) hyd hrun)
    owned := fun _ _ _ => owned_withWait hs hk hheap hout hnext hd
    queued := fun _ _ _ => queued_withWait hs hk hheap
    house := fun i n hn => alarm_append_left (hs.house i n hn)
    kept := fun n i hn hi => by
      rcases hafoot hn with rfl | hn
      · cases alarm_withWait_last.symm.trans hi
      · exact hs.kept n i hn (alarm_of_append (hs.made n hn) hi)
    awake := fun n i hn hi => by
      obtain ⟨rfl | hn, -⟩ := (hheap n).1 hn
      · cases alarm_withWait_last.symm.trans hi
      · exact hs.awake n i hn (alarm_of_append (hs.made n (.inl hn)) hi) }

end Wait

/-- **The deadline of a link is set**: its new timer takes the place of the old one. -/
theorem Timed.armed (hs : s.Timed) (hk : s.link? l = some k) (delay : Time.Duration) :
    (s.arm l delay).2.Timed ∧
      (∀ m, m ≠ l → s.Live m → (s.arm l delay).2.Live m) ∧
      ((s.arm l delay).1 = .ok () → ∃ k' d, (s.arm l delay).2.link? l = some k' ∧
        k'.deadline = some d ∧ (s.arm l delay).2.scheduler.IsAfoot d) := by
  obtain ⟨hfit, hout, hstopped, hcases⟩ := hs.fit.queue s.alarms.length s.now delay
  rw [arm_eq hk]
  generalize s.scheduler.queue s.alarms.length s.now delay = queued at hfit hout hstopped hcases ⊢
  obtain ⟨r, x⟩ := queued
  obtain ⟨hst, ⟨f, rfl⟩, -⟩ | ⟨hrun, rfl, hheap⟩ := hcases
  · refine And.imp_right (fun hlive => ⟨fun m _ _ => hlive m, fun h => nomatch h⟩)
      (hs.unarmed hk ?_ hfit hout (hstopped.trans hst))
    rfl
  · obtain ⟨hfit', hheap', hout', -⟩ := elim_cancel hfit k.deadline
    have hmem : ∀ n, n ∈ (k.deadline.elim x fun t => (x.cancel t).2).heap.items ↔
        (n = s.alarms.length ∨ n ∈ s.scheduler.heap.items) ∧ k.deadline ≠ some n :=
      fun n => (hheap' n).trans (and_congr_left' (hheap n))
    have hout := hout'.trans hout
    have hnew : k.deadline ≠ some s.alarms.length := fun hd =>
      absurd (lt_of_alarm (hs.present l k _ hk hd hrun)) (Nat.lt_irrefl _)
    refine ⟨hs.rearmed hk hrun hmem hout ?_ hfit' ?_,
      fun m hm hlive => hlive.rearmed hs hk hrun hmem hout hm,
      fun _ => ⟨_, _, link?_withWait_self hk, rfl, .inl ((hmem _).2 ⟨.inl rfl, hnew⟩)⟩⟩ <;> rfl

/-! ## Tasks -/

theorem Live.of_deadline {d : Nat} (hk : s.link? l = some k) (hd : k.deadline = some d)
    (h : s.scheduler.IsAfoot d) : s.Live l := by
  intro x hx _ _ _
  cases hk.symm.trans hx
  exact ⟨d, hd, h⟩

/-- Who is not parked needs no deadline. -/
theorem Live.of_unparked (h : ∀ k, s.link? l = some k → k.closed = false →
    k.request.isParked = false) : s.Live l :=
  fun k hk hc hp => absurd ((h k hk hc).symm.trans hp) Bool.false_ne_true

theorem Live.congr (h : s.Live l) (hl : t.link? l = s.link? l) (hx : t.scheduler = s.scheduler) :
    t.Live l := by
  unfold Live
  rw [hl, hx]
  exact h

/-- What the task of a link writes to it, its deadline apart. -/
theorem Timed.setLink (hs : s.Timed) (hk : s.link? l = some k) (hw : k'.wait = k.wait) :
    (s.setLink l k').Timed :=
  hs.same hs.fit rfl (.setLink hk hw) (.of_listeners rfl) (fun _ h => .inl h) (fun _ h => h)
    fun h => h

/-- **Whatever the task of a link does, the timers stay of use, and those of other links
stay.** -/
theorem Work.timed (h : Work l s t) (hs : s.Timed) :
    t.Timed ∧ ∀ m, m ≠ l → s.Live m → t.Live m := by
  induction h with
  | refl => exact ⟨hs, fun _ _ h => h⟩
  | course h _ ih =>
    obtain ⟨ht, hlive⟩ := h.timed hs
    obtain ⟨hu, hlive'⟩ := ih ht
    exact ⟨hu, fun m hm h => hlive' m hm (hlive m h)⟩
  | own hk _ hw _ ih =>
    obtain ⟨hu, hlive⟩ := ih (hs.setLink hk hw)
    exact ⟨hu, fun m hm h => hlive m hm (h.congr (link?_setLink_ne hm _ _) rfl)⟩
  | @armed s u delay _ ih =>
    cases hk : s.link? l with
    | none =>
      rw [arm_of_none hk] at ih
      exact ih hs
    | some k =>
      obtain ⟨ht, hlive, -⟩ := hs.armed hk delay
      obtain ⟨hu, hlive'⟩ := ih ht
      exact ⟨hu, fun m hm h => hlive' m hm (hlive m hm h)⟩
  | @disarmed s u _ ih =>
    cases hk : s.link? l with
    | none =>
      rw [disarm_of_none hk] at ih
      exact ih hs
    | some k =>
      rw [disarm_eq hk] at ih
      obtain ⟨hu, hlive⟩ := ih (hs.disarmed hk rfl)
      exact ⟨hu, fun m hm h => hlive m hm (hs.cancelled rfl hk hm (link?_setLink_ne hm _ _) h)⟩
  | @stats s u i f _ _ ih =>
    obtain ⟨ht, hlive⟩ := hs.tended (f := fun x => { x with stats := f x.stats }) i
      fun x => ⟨rfl, rfl⟩
    obtain ⟨hu, hlive'⟩ := ih ht
    exact ⟨hu, fun m hm h => hlive' m hm (hlive m h)⟩
  | @handle s u name h _ ih =>
    obtain ⟨ht, hlive⟩ := hs.written (t := { s with handles := (name, h) :: s.handles }) rfl rfl
      (.of_slots rfl) (.of_listeners rfl)
    obtain ⟨hu, hlive'⟩ := ih ht
    exact ⟨hu, fun m hm h => hlive' m hm (hlive m h)⟩

theorem Drove.timed (h : Drove l s t) (hs : s.Timed) :
    t.Timed ∧ ∀ m, m ≠ l → s.Live m → t.Live m := by
  cases h with
  | work h => exact h.timed hs
  | torn h ht h' =>
    obtain ⟨h₁, l₁⟩ := h.timed hs
    obtain ⟨h₂, l₂⟩ := ht.timed h₁
    obtain ⟨h₃, l₃⟩ := h'.timed h₂
    exact ⟨h₃, fun m hm h => l₃ m hm (l₂ m (l₁ m hm h))⟩

/-! ## The beginning of a task -/

theorem timed_begin (hs : s.Timed) (place : Nat) :
    (begin place s).Timed ∧ ∀ m, s.Live m → (begin place s).Live m := by
  unfold begin
  split
  next => exact ⟨hs, fun _ h => h⟩
  next task _ =>
  split
  next => exact ⟨hs, fun _ h => h⟩
  next k hk =>
  split
  next => exact ⟨hs, fun _ h => h⟩
  next =>
  obtain ⟨h₁, l₁⟩ := hs.written (t := s.dequeue place) rfl rfl (.of_slots rfl) (.of_listeners rfl)
  dsimp only
  split
  next => exact ⟨h₁, l₁⟩
  next =>
    split
    next =>
      obtain ⟨h₂, l₂⟩ := (tearDown_tornDown task.link k.requestedClose (s.dequeue place)).timed h₁
      exact ⟨h₂, fun m h => l₂ m (l₁ m h)⟩
    next =>
      have hk' : (s.dequeue place).link? task.link = some k := hk
      have hstep := fun step => h₁.rewritten (l := task.link) hk' (k.waits_next step)
      exact ⟨(hstep _).1, fun m h => (hstep _).2 m (l₁ m h)⟩

/-! ## New listeners -/

/-- A timer is made for a listener that is not built after all, since the scheduler was shut
down. -/
private theorem Timed.unqueued {x : Timer.Scheduler} (hs : s.Timed) (hf : x.Fit)
    (hout : x.outstanding = s.scheduler.outstanding) (hst : x.stopped = true) :
    (s.withHousekeeping x).Timed ∧ ∀ l, (s.withHousekeeping x).Live l := by
  have hempty := not_mem_of_stopped hf hst
  have hafoot : ∀ n, x.IsAfoot n → s.scheduler.IsAfoot n :=
    fun _ => isAfoot_of_stopped hout hf hst
  have hold : ∀ {n : Nat} {a : Alarm}, s.scheduler.IsAfoot n →
      (s.withHousekeeping x).alarms[n]? = some a → s.alarms[n]? = some a := fun hn ha =>
    alarm_of_append (hs.made _ hn) ha
  have hnever : ∀ {P : Prop}, x.stopped = false → P :=
    fun h => absurd (h.symm.trans hst) Bool.false_ne_true
  refine ⟨?_, fun l _ _ _ _ h => hnever h⟩
  exact {
    fit := hf
    made := fun n hn => Nat.lt_of_lt_of_le (hs.made n (hafoot n hn)) (by simp [withHousekeeping])
    numbered := fun n l g hn => hs.numbered n l g (deadline_of_append hn)
    unique := fun n n' l g hn hn' =>
      hs.unique n n' l g (deadline_of_append hn) (deadline_of_append hn')
    present := fun _ _ _ _ _ h => hnever h
    owned := fun n l k hn hk hg => hs.owned n l k (hafoot n hn) hk (deadline_of_append hg)
    queued := fun n _ _ hn => absurd hn (hempty n)
    house := fun i n hn => alarm_append_left (hs.house i n hn)
    kept := fun n i hn hi => hs.kept n i (hafoot n hn) (hold (hafoot n hn) hi)
    awake := fun n _ hn => absurd hn (hempty n) }

/-- A listener is built, and its housekeeping is queued. -/
private theorem Timed.built {x : Timer.Scheduler} {y : Listener} (hs : s.Timed) (hf : x.Fit)
    (hout : x.outstanding = s.scheduler.outstanding) (hst : x.stopped = s.scheduler.stopped)
    (hheap : ∀ n, n ∈ x.heap.items ↔ n = s.alarms.length ∨ n ∈ s.scheduler.heap.items)
    (hy : y.housekeeping = some s.alarms.length) (hrun : y.stopped = false) :
    Timed { s.withHousekeeping x with listeners := s.listeners ++ [y] } ∧
      ∀ l, s.Live l → Live { s.withHousekeeping x with listeners := s.listeners ++ [y] } l := by
  have hafoot : ∀ n, x.IsAfoot n → n = s.alarms.length ∨ s.scheduler.IsAfoot n :=
    fun _ => isAfoot_of_queued hout fun n => (hheap n).1
  have hlast : (s.alarms ++ [Alarm.housekeeping s.listeners.length])[s.alarms.length]? =
      some (.housekeeping s.listeners.length) := by simp
  have hbefore : ∀ {i}, i < s.listeners.length → listener
      { s.withHousekeeping x with listeners := s.listeners ++ [y] } i = s.listener i :=
    fun hi => listener_append_of_lt (s := s.withHousekeeping x) hi y
  have hself : listener { s.withHousekeeping x with listeners := s.listeners ++ [y] }
      s.listeners.length = y := listener_append_self (s.withHousekeeping x) y
  refine ⟨?_, fun l hlive => ?_⟩
  · exact {
      fit := hf
      made := fun n hn => by
        show n < (s.alarms ++ [Alarm.housekeeping s.listeners.length]).length
        rw [List.length_append, List.length_singleton]
        rcases hafoot n hn with rfl | hn
        · exact Nat.lt_succ_self _
        · exact Nat.lt_succ_of_lt (hs.made n hn)
      numbered := fun n l g hn => hs.numbered n l g (deadline_of_append hn)
      unique := fun n n' l g hn hn' =>
        hs.unique n n' l g (deadline_of_append hn) (deadline_of_append hn')
      present := fun l k n hk hd h => alarm_append_left (hs.present l k n hk hd (hst.symm.trans h))
      owned := fun n l k hn hk hg => by
        rcases hafoot n hn with rfl | hn
        · cases hlast.symm.trans hg
        · exact hs.owned n l k hn hk (deadline_of_append hg)
      queued := fun n l g hn hg => by
        rcases (hheap n).1 hn with rfl | hn
        · cases hlast.symm.trans hg
        · exact hs.queued n l g hn (deadline_of_append hg)
      house := fun i n hn => by
        rcases Nat.lt_trichotomy i s.listeners.length with hi | rfl | hi
        · rw [hbefore hi] at hn
          exact alarm_append_left (hs.house i n hn)
        · rw [hself, hy] at hn
          cases hn
          exact hlast
        · have hnone : listener { s.withHousekeeping x with listeners := s.listeners ++ [y] } i =
              default := by
            unfold listener
            rw [List.getD_eq_getElem?_getD, List.getElem?_eq_none (by simp; omega)]
            rfl
          rw [hnone] at hn
          cases hn
      kept := fun n i hn hi => by
        rcases hafoot n hn with rfl | hn
        · cases hlast.symm.trans hi
          rw [hself]
          exact ⟨by simp, fun _ => hy⟩
        · obtain ⟨hlt, hkept⟩ := hs.kept n i hn (alarm_of_append (hs.made n hn) hi)
          rw [hbefore hlt]
          exact ⟨by simp; omega, hkept⟩
      awake := fun n i hn hi => by
        rcases (hheap n).1 hn with rfl | hn
        · cases hlast.symm.trans hi
          rw [hself]
          exact hrun
        · have hi := alarm_of_append (hs.made n (.inl hn)) hi
          rw [hbefore (hs.kept n i (.inl hn) hi).1]
          exact hs.awake n i hn hi }
  · refine hlive.same (.of_slots rfl) (fun h => hst.symm.trans h) ?_
    intro _ _ u _ _ _ _ hu
    rcases hu with hu | hu
    · exact .inl ((hheap u).2 (.inr hu))
    · exact .inr (hout.symm ▸ hu)

theorem Builds.timed (h : Builds s t) (hs : s.Timed) :
    t.Timed ∧ ∀ l, s.Live l → t.Live l := by
  cases h with
  | refused => exact ⟨hs, fun _ h => h⟩
  | unqueued delay h =>
    obtain ⟨hfit, hout, hstopped, hcases⟩ := hs.fit.queue s.alarms.length s.now delay
    rw [h] at hfit hout hstopped hcases
    rcases hcases with ⟨hst, -⟩ | ⟨-, hok, -⟩
    · obtain ⟨ht, hlive⟩ := hs.unqueued hfit hout (hstopped.trans hst)
      exact ⟨ht, fun l _ => hlive l⟩
    · cases hok
  | built delay h _ hy hrun h' _ =>
    obtain ⟨hfit, hout, hstopped, hcases⟩ := hs.fit.queue s.alarms.length s.now delay
    rw [h] at hfit hout hstopped hcases
    rcases hcases with ⟨-, ⟨f, herror⟩, -⟩ | ⟨-, -, hheap⟩
    · cases herror
    · obtain ⟨ht, hlive⟩ := hs.built hfit hout hstopped hheap hy hrun
      obtain ⟨hu, hlive'⟩ := h'.timed ht
      exact ⟨hu, fun l h => hlive' l (hlive l h)⟩

/-! ## New links -/

/-- A link that waits for nothing is put where there was none. -/
private theorem Timed.added (hs : s.Timed) (hx : t.scheduler = s.scheduler)
    (ha : t.alarms = s.alarms) (hh : SameHouses s t) (hnone : s.link? l = none)
    (hk : t.link? l = some k) (hl : ∀ m, m ≠ l → t.link? m = s.link? m)
    (hd : k.deadline = none) (hp : k.request.isParked = false) :
    t.Timed ∧ ∀ m, s.Live m → t.Live m := by
  -- No timer is for it yet.
  have hfree : ∀ n g : Nat, s.alarms[n]? ≠ some (Alarm.deadline l g) := by
    intro n g hn
    obtain ⟨x, hx, -⟩ := hs.numbered n l g hn
    cases hnone.symm.trans hx
  have hne : ∀ {m n g : Nat}, s.alarms[n]? = some (Alarm.deadline m g) → m ≠ l := by
    rintro m n g hn rfl
    exact hfree n g hn
  refine ⟨?_, fun m hlive => ?_⟩
  · exact {
      fit := hx ▸ hs.fit
      made := fun n hn => by
        rw [hx] at hn
        exact ha ▸ hs.made n hn
      numbered := fun n m g hn => by
        rw [ha] at hn
        rw [hl m (hne hn)]
        exact hs.numbered n m g hn
      unique := fun n n' m g hn hn' => hs.unique n n' m g (ha ▸ hn) (ha ▸ hn')
      present := fun m y n hy hyd hst => by
        by_cases hm : m = l
        · subst hm
          cases hk.symm.trans hy
          rw [hd] at hyd
          cases hyd
        · rw [ha]
          exact hs.present m y n ((hl m hm).symm.trans hy) hyd (hx ▸ hst)
      owned := fun n m y hn hy hg => by
        rw [hx] at hn
        rw [ha] at hg
        exact hs.owned n m y hn ((hl m (hne hg)).symm.trans hy) hg
      queued := fun n m g hn hg => by
        rw [hx] at hn
        rw [ha] at hg
        rw [hl m (hne hg)]
        exact hs.queued n m g hn hg
      house := fun i n hn => ha ▸ hs.house i n ((hh.same i).1 ▸ hn)
      kept := fun n i hn hi => by
        rw [hx] at hn
        rw [(hh.same i).1, (hh.same i).2, hh.length]
        exact hs.kept n i hn (ha ▸ hi)
      awake := fun n i hn hi => by
        rw [hx] at hn
        rw [(hh.same i).2]
        exact hs.awake n i hn (ha ▸ hi) }
  · by_cases hm : m = l
    · subst hm
      refine .of_unparked fun y hy _ => ?_
      cases hk.symm.trans hy
      exact hp
    · exact hlive.congr (hl m hm) hx

theorem Starts.timed (h : Starts l s t) (hs : s.Timed) : t.Timed ∧ ∀ m, s.Live m → t.Live m := by
  have hbegun : ∀ k : Link, k.Waits { k with request := .request } := fun k => .of_unparked rfl rfl
  cases h with
  | queued hk =>
    have hset := SameWaits.setLink hk (hbegun _)
    exact hs.written rfl rfl (fun m => hset m) (.of_listeners rfl)
  | @refused k t hk h =>
    obtain ⟨h₁, l₁⟩ := hs.rewritten hk (hbegun k)
    obtain ⟨h₂, l₂⟩ := h.timed h₁
    cases hk' : t.link? l with
    | none =>
      rw [modifyLink_of_none hk']
      exact ⟨h₂, fun m h => l₂ m (l₁ m h)⟩
    | some k' =>
      rw [modifyLink_eq_setLink hk']
      obtain ⟨h₃, l₃⟩ := h₂.rewritten hk' (Link.Touched.forget k').waits
      exact ⟨h₃, fun m h => l₃ m (l₂ m (l₁ m h))⟩

theorem Accepts.timed {arrival : Arrival} (h : Accepts i arrival s t) (hs : s.Timed) :
    t.Timed ∧ ∀ m, s.Live m → t.Live m := by
  have hslot : SameWaits s (s.addSlot arrival.socket) := fun m => by
    rw [link?_addSlot]
    exact SameWaits.refl s m
  obtain ⟨h₁, l₁⟩ := hs.written (t := s.addSlot arrival.socket) rfl rfl hslot (.of_listeners rfl)
  cases h with
  | turnedAway =>
    obtain ⟨h₂, l₂⟩ := h₁.tended (f := fun x => { x with stats := x.stats.record .rejected }) i
      fun x => ⟨rfl, rfl⟩
    exact ⟨h₂, fun m h => l₂ m (l₁ m h)⟩
  | @started tracker t₁ t₂ w notes hj make hn ask _ start =>
    obtain ⟨h₂, l₂⟩ := h₁.tended (f := fun x => { x with tracker }) i fun x => ⟨rfl, rfl⟩
    obtain ⟨h₃, l₃⟩ := make.timed h₂
    obtain ⟨e, he, -⟩ := make.turnedAway (slots_addSlot s arrival.socket)
    -- The link is put into its slot, where there was none.
    have hlinks := link?_installLink he i arrival.handler notes
    have hnone : t₁.link? s.slots.length = none := by
      unfold link?
      rw [he]
      rfl
    have hhouses : SameHouses t₁ (installLink i s.slots.length arrival.handler notes t₁) := by
      rw [installLink_eq he]
      have := SameHouses.listener (s := t₁) i (f := fun x => { x with
        buffers := (t₁.listener i).buffers.acquire.2
        registry := x.listing.arrange (x.registry ++ [s.slots.length])
        stats := x.stats.record .accepted }) fun x => ⟨rfl, rfl⟩
      exact ⟨this.length, this.same⟩
    have hsame : (installLink i s.slots.length arrival.handler notes t₁).scheduler = t₁.scheduler ∧
        (installLink i s.slots.length arrival.handler notes t₁).alarms = t₁.alarms := by
      rw [installLink_eq he]
      exact ⟨rfl, rfl⟩
    obtain ⟨h₄, l₄⟩ := h₃.added hsame.1 hsame.2 hhouses hnone ((hlinks _).trans (if_pos rfl))
      (fun m hm => (hlinks m).trans (if_neg hm)) rfl rfl
    obtain ⟨h₅, l₅⟩ := ask.timed h₄
    obtain ⟨h₆, l₆⟩ := start.timed h₅
    exact ⟨h₆, fun m h => l₆ m (l₅ m (l₄ m (l₃ m (l₂ m (l₁ m h)))))⟩

end LinkEngine.Engine

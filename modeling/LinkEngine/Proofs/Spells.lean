import LinkEngine.Proofs.Biding

/-!
# Spells of waiting

A link waits in three ways that have a limit to them: it rests between two requests, its request
is suspended, or it listens as a two-way stream (`Spell`). Each spell begins with a step of the
task of the link, and lasts for a timeout that is read then. Where the published time is no
staler than the sampler's interval, a deadline that is set is bound to no earlier time than it
stands for (`Engine.Prompt`), so the link bides its time from there on (`arm_bides`); and a task
that waits by itself looks at the exact time (`stepAwait_late`, `waitOnce_late`).
-/

namespace LinkEngine

open Connection (CloseReason)
open Link (Outcome Step)
open Time (Clock Duration Millis.add Millis.max)

/-! ## The published time -/

namespace Timer.Scheduler

variable {s s' : Scheduler} {now place : Nat}

/-- What a scheduler reads the time by. -/
def pace (s : Scheduler) : Settings.Scheduler × Clock := (s.settings, s.clock)

private theorem pace_giveBack (s : Scheduler) (permit : Bool) :
    (s.giveBack permit).pace = s.pace := by
  unfold giveBack
  split <;> rfl

private theorem pace_submit (s : Scheduler) (task : Task) : (s.submit task).pace = s.pace := by
  unfold submit
  split
  · exact pace_giveBack s task.permit
  · rfl

private theorem pace_dispatch (s : Scheduler) (t : Nat) : (s.dispatch t).pace = s.pace := by
  unfold dispatch
  dsimp only
  split
  · exact pace_submit _ _
  split
  · rfl
  · exact pace_submit _ _

private theorem pace_coordinate (h : s.coordinate now = some s') : s'.pace = s.pace := by
  unfold coordinate at h
  split at h
  next => cases h
  split at h
  next =>
    split at h <;> cases h
    exact pace_submit _ _
  next =>
    split at h <;> cases h
    exact pace_dispatch _ _

private theorem pace_coordinateAll (s : Scheduler) (now fuel : Nat) :
    (s.coordinateAll now fuel).pace = s.pace := by
  induction fuel generalizing s with
  | zero => rfl
  | succ fuel ih =>
    unfold coordinateAll
    split
    next => rfl
    next s' h => exact (ih s').trans (pace_coordinate h)

private theorem pace_finish (s : Scheduler) (place : Nat) (panicked : Bool) :
    (s.finish place panicked).pace = s.pace := by
  unfold finish
  split
  · rfl
  · dsimp only
    rw [pace_giveBack]
    split <;> rfl

private theorem pace_shutdown (s : Scheduler) : s.shutdown.pace = s.pace := by
  by_cases hs : s.stopped = true
  · rw [shutdown, if_pos hs]
  · rw [shutdown_eq (Bool.eq_false_iff.2 hs)]
    show s.halt.pace = s.pace
    unfold halt
    dsimp only
    split
    · rfl
    split
    · rfl
    · exact pace_submit _ _

private theorem pace_queueAt (s : Scheduler) (t wake : Nat) :
    (s.queueAt t wake).2.pace = s.pace := by
  unfold queueAt
  split
  · rfl
  split <;> rfl

/-- The scheduler goes by these settings, and its clock samples no less often than they say. -/
structure Paced (settings : Settings.Scheduler) (s : Scheduler) : Prop where
  goes : s.settings = settings
  clock : s.clock.Bounded (Clock.longest settings.minSampleInterval settings.maxSampleInterval)

variable {settings : Settings.Scheduler}

private theorem Paced.same (h : s.Paced settings) (hp : s'.pace = s.pace) : s'.Paced settings where
  goes := (congrArg Prod.fst hp).trans h.goes
  clock := by
    rw [show s'.clock = s.clock from congrArg Prod.snd hp]
    exact h.clock

theorem paced_create (settings : Settings.Scheduler) (now : Nat) :
    (create settings now).Paced settings :=
  ⟨rfl, (Clock.bounded_create _ _).sample now⟩

/-- A scheduler keeps its pace. -/
theorem paced_lasts (settings : Settings.Scheduler) : Lasts (Paced settings) where
  stirred h hx := by
    cases h with
    | sample => exact ⟨hx.goes, hx.clock.sample _⟩
    | coordinate fuel => exact hx.same (pace_coordinateAll _ _ fuel)
    | finish place panicked => exact hx.same (pace_finish _ place panicked)
    | shutdown => exact hx.same (pace_shutdown _)
  start h hx := by
    unfold start at h
    split at h <;> cases h
    exact ⟨hx.goes, hx.clock⟩
  queue {x} t now delay hx := by
    have hread : (x.readClock delay).Paced settings := by
      unfold readClock
      split
      · exact ⟨hx.goes, hx.clock.least, hx.clock.greatest, hx.clock.interval⟩
      · exact hx
    rw [queue_eq]
    exact hread.same (pace_queueAt _ t _)
  cancel t hx := by
    unfold cancel
    dsimp only
    split
    · exact ⟨hx.goes, hx.clock⟩
    · exact hx

end Timer.Scheduler

namespace Engine

open Timer.Scheduler (wakeTime)

variable {l d : Nat} {s t : Engine} {k : Link} {settings : Settings.Scheduler}

/-- The published time is no staler than the interval at which the clock is sampled. -/
def Fresh (s : Engine) : Prop := s.now ≤ s.scheduler.clock.approx + s.scheduler.clock.interval

instance (s : Engine) : Decidable s.Fresh := inferInstanceAs (Decidable (_ ≤ _))

/-- A timer that is queued now wakes no earlier than its delay asks for. -/
def Prompt (s : Engine) : Prop :=
  ∀ delay : Duration, Millis.add (s.now + 1) delay.millisCeil ≤
    wakeTime s.scheduler.settings s.scheduler.clock.approx s.now delay

/-- **Where the published time is fresh, timers are queued for the right time.** -/
theorem Fresh.prompt (h : s.Fresh) (hp : s.scheduler.Paced settings)
    (hone : (Duration.ofMillis 1).le settings.maxSampleInterval = true)
    (hle : settings.minSampleInterval.le settings.maxSampleInterval = true) : s.Prompt := by
  intro delay
  have hlag : s.now ≤
      s.scheduler.clock.approx + s.scheduler.settings.maxSampleInterval.millis + 0 := by
    have hinterval := hp.clock.interval
    have hmillis := Duration.one_le_millis hone
    rw [Clock.longest_eq hle] at hinterval
    rw [hp.goes]
    unfold Fresh at h
    omega
  -- Nothing of the lag is left that was not made up for.
  have hwake : wakeTime s.scheduler.settings s.scheduler.clock.approx s.now delay = Millis.max ∨
      s.now + 1 + delay.millisCeil ≤
        wakeTime s.scheduler.settings s.scheduler.clock.approx s.now delay + 0 :=
    Timer.Scheduler.le_wakeTime fun _ => hlag
  unfold Millis.add
  omega

/-! ## Setting a deadline -/

/-- **A link whose deadline was just set bides its time.** -/
theorem arm_bides (hs : s.Timed) (hk : s.link? l = some k) (ht : k.Timely) {delay : Duration}
    (hd : d ≤ wakeTime s.scheduler.settings s.scheduler.clock.approx s.now delay) :
    (s.arm l delay).2.Bides l d := by
  have hfree : ¬ s.scheduler.IsAfoot s.alarms.length := fun h => Nat.lt_irrefl _ (hs.made _ h)
  have hfit := (hs.fit.queue s.alarms.length s.now delay).1
  have hheld := Timer.Scheduler.Withholds.queued hs.fit hfree delay hd
  -- No deadline fired of the wait that begins, and only the new timer is for it.
  have hout : ∀ k' : Link, k'.waitGeneration = k.waitGeneration + 1 →
      k'.expiredGeneration = k.expiredGeneration → k'.isTimedOut = false := by
    intro k' hg he
    refine beq_eq_false_iff_ne.2 fun hlate => ?_
    have := ht _ (he.symm.trans hlate)
    omega
  have honly : ∀ u : Nat, (s.alarms ++ [Alarm.deadline l (k.waitGeneration + 1)])[u]? =
      some (Alarm.deadline l (k.waitGeneration + 1)) → u = s.alarms.length := by
    intro u hu
    rcases alarm_append hu with ⟨-, hu⟩ | ⟨hu, -⟩
    · obtain ⟨x, hx, hle⟩ := hs.numbered u l _ hu
      cases hk.symm.trans hx
      omega
    · exact hu
  intro _
  rw [arm_eq hk]
  generalize s.scheduler.queue s.alarms.length s.now delay = queued at hfit hheld
  obtain ⟨r, x⟩ := queued
  cases r with
  | error f =>
    refine ⟨hfit, _, link?_setLink_self hk _, fun _ => ⟨hout _ rfl rfl, fun u hu => ?_⟩⟩
    rw [honly u hu]
    exact hheld
  | ok _ =>
    refine ⟨?_, _, link?_setLink_self hk _, fun _ => ⟨hout _ rfl rfl, fun u hu => ?_⟩⟩
    · cases k.deadline with
      | none => exact hfit
      | some u => exact (hfit.cancel u).1
    · rw [honly u hu]
      cases k.deadline with
      | none => exact hheld
      | some u => exact hheld.cancel hfit u

/-! ## Spells -/

/-- The ways to wait that have a limit to them. -/
inductive Spell where
  /-- A connection rests until its next request. -/
  | rest
  /-- A request is suspended until somebody wakes it. -/
  | suspension
  /-- A two-way stream listens for its peer. -/
  | listening

/-- With this step of the task of a link such a spell begins. -/
def Spell.begunBy : Spell → Step → Bool
  | .rest, .rest _ | .suspension, .suspend | .listening, .upgrade | .listening, .service => true
  | _, _ => false

/-- When a spell of a link is over that begins now. A reading drops a fraction of a
millisecond, which a suspended request is given in addition. -/
def Spell.expiry (w : Spell) (s : Engine) (k : Link) : Nat :=
  let settings := (s.listener k.listener).settings
  match w with
  | .rest => Millis.add s.now settings.keepaliveTimeout.millis
  | .suspension =>
    Millis.add (s.now + 1) ((k.comet.bind (·.timeout)).getD settings.suspendTimeout).millisCeil
  | .listening => Millis.add s.now settings.duplexIdleTimeout.millis

theorem Spell.expiry_le (w : Spell) (s : Engine) (k : Link) : w.expiry s k ≤ Millis.max := by
  cases w <;> exact Nat.min_le_right ..

/-- Counting moves no end. -/
theorem Spell.expiry_count (w : Spell) (s : Engine) (i : Nat) (c : Connection.Counter) (k : Link) :
    w.expiry (s.count i c) k = w.expiry s k := by
  have hsettings :
      ((s.count i c).listener k.listener).settings = (s.listener k.listener).settings := by
    unfold count
    rcases listener_modifyListener_cases s i k.listener _ with h | ⟨-, -, h⟩ <;> rw [h]
  unfold expiry
  rw [hsettings]
  rfl

/-- Neither does a deadline that is set. -/
theorem Spell.expiry_arm (w : Spell) (hk : s.link? l = some k) (delay : Duration) (k' : Link)
    (hk' : (s.arm l delay).2.link? l = some k') : w.expiry (s.arm l delay).2 k' = w.expiry s k := by
  rw [arm_eq hk] at hk' ⊢
  generalize s.scheduler.queue s.alarms.length s.now delay = queued at hk' ⊢
  obtain ⟨r, x⟩ := queued
  cases r with
  | error f =>
    cases (link?_setLink_self hk _).symm.trans hk'
    cases w <;> rfl
  | ok _ =>
    cases (link?_setLink_self hk _).symm.trans hk'
    cases w <;> rfl

/-- **A connection rests until its spell is over.** -/
theorem stepRest_expiry {killed : Bool} (h : stepRest l killed s = (.next .await, t)) :
    ∃ k, t.link? l = some k ∧ k.restUntil = Spell.rest.expiry t k := by
  unfold stepRest at h
  split at h
  next => cases h
  next k hk =>
  dsimp only at h
  split at h
  next => cases h
  split at h
  next => cases h
  next =>
  cases h
  refine ⟨_, link?_setLink_self hk _, ?_⟩
  rw [Spell.expiry_count]
  rfl

section Parts

variable {o : Outcome}

/-- A step goes on behind a move of the lifecycle only where that was not refused. -/
private theorem withTransition_of_open {e : Connection.Event}
    {go : Link → Engine → Outcome × Engine} (ho : o.isEnd = false)
    (h : withTransition l e s go = (o, t)) :
    ∃ k k', s.link? l = some k ∧ go k' (s.setLink l k') = (o, t) := by
  unfold withTransition at h
  split at h
  next => cases h; cases ho
  next k hk =>
  split at h
  next => cases h; cases ho
  next k' _ => exact ⟨k, k', hk, h⟩

/-- Behind a hook it goes on where that returned. -/
private theorem withHook_of_open {hook : Hook} {upgrades : Link.Upgrades}
    {go : Bool → Engine → Outcome × Engine} (ho : o.isEnd = false)
    (h : withHook l hook upgrades s go = (o, t)) : ∃ keep u, go keep u = (o, t) := by
  unfold withHook at h
  split at h
  next keep u _ => exact ⟨keep, u, h⟩
  next => cases h; cases ho
  next => cases h; cases ho

/-- And behind a flush where that worked. -/
private theorem withFlush_of_open {go : Link → Engine → Outcome × Engine} (ho : o.isEnd = false)
    (h : withFlush l s go = (o, t)) : ∃ k u, go k u = (o, t) := by
  unfold withFlush at h
  split at h
  next => cases h; cases ho
  dsimp only at h
  split at h
  next => cases h; cases ho
  next => exact ⟨_, _, h⟩

end Parts

/-- **A new two-way stream listens until its spell is over.** -/
theorem stepUpgrade_expiry (h : stepUpgrade l s = (.next (.listen d), t)) :
    ∃ k, t.link? l = some k ∧ d = Spell.listening.expiry t k := by
  obtain ⟨k, k', hk, h⟩ := withTransition_of_open rfl h
  cases h
  refine ⟨_, link?_setLink_self (link?_setLink_self hk k') _, ?_⟩
  rw [Spell.expiry_count]
  rfl

/-- **So it does again after it was served.** -/
theorem stepService_expiry (h : stepService l s = (.next (.listen d), t)) :
    ∃ k, t.link? l = some k ∧ d = Spell.listening.expiry t k := by
  obtain ⟨-, before, -, h⟩ := withTransition_of_open rfl h
  obtain ⟨_, _, h⟩ := withHook_of_open rfl h
  obtain ⟨k, u, h⟩ := withFlush_of_open rfl h
  dsimp only at h
  split at h
  next => cases h
  split at h
  next => cases h
  next =>
  obtain ⟨x, k', hx, h⟩ := withTransition_of_open rfl h
  cases h
  exact ⟨k', link?_setLink_self hx k', rfl⟩

/-! ## Deadlines of others -/

/-- The delay of a deadline that is a time to come makes up for the time that has passed. -/
private theorem le_add_remaining {now deadline : Nat} (h : deadline ≤ Millis.max) :
    deadline ≤ Millis.add (now + 1) (Duration.ofMillis (deadline - now)).millisCeil := by
  unfold Millis.add Duration.ofMillis Duration.millisCeil Duration.nanosPerMilli
  dsimp only
  omega

/-- **A link that rests bides its time when it is given away.** -/
theorem await_bides (hs : s.Timed) (hp : s.Prompt) (hk : s.link? l = some k) (ht : k.Timely)
    (hmax : k.restUntil ≤ Millis.max) (h : stepAwait l s = (.park, t)) :
    t.Bides l k.restUntil := by
  obtain ⟨k', stream, r, m, a, b, hk', harm, hregister⟩ := stepAwait_park h
  cases hk.symm.trans hk'
  have hpolled := link?_setLink_self hk { k with stream }
  have hrest : ((s.setLink l { k with stream }).setLink l { k with stream, request := r }).Timed :=
    Timed.setLink (hs.setLink hk rfl) hpolled rfl
  have harmed := arm_bides hrest (link?_setLink_self hpolled _) (d := k.restUntil) ht
    (Nat.le_trans (le_add_remaining hmax) (hp _))
  rw [harm] at harmed
  have hregistered := register_bides l { k with stream } m harmed
  rwa [hregister] at hregistered

/-- **A request that is suspended bides its time when it is given away.** -/
theorem suspend_bides (hs : s.Timed) (hp : s.Prompt) (hk : s.link? l = some k) (ht : k.Timely)
    (h : stepSuspend l s = (.park, t)) :
    ∃ k', t.link? l = some k' ∧ t.Bides l (Spell.suspension.expiry t k') := by
  obtain ⟨x, k', k₁, a, r, hx, hk', harm, hk₁, rfl⟩ := stepSuspend_park h
  cases hk.symm.trans hx
  have hset := link?_setLink_self hk k'
  have hcounted : (a.count k'.listener .suspends).link? l = some k₁ := hk₁
  have hexpiry := Spell.suspension.expiry_arm hset
    ((k'.comet.bind (·.timeout)).getD ((s.setLink l k').listener k'.listener).settings.suspendTimeout)
    k₁
  have ht' : k'.Timely := by
    unfold Link.transition at hk'
    split at hk' <;> cases hk'
    exact ht
  have harmed := arm_bides (hs.setLink hk (Link.wait_transition hk')) hset ht'
    (d := Spell.suspension.expiry (s.setLink l k') k') (hp _)
  rw [harm] at hexpiry harmed
  refine ⟨_, link?_setLink_self hcounted _, ?_⟩
  rw [show Spell.suspension.expiry ((a.count k'.listener .suspends).setLink l { k₁ with request := r })
      { k₁ with request := r } = Spell.suspension.expiry (a.count k'.listener .suspends) k₁ from rfl,
    Spell.expiry_count, hexpiry hk₁]
  exact (harmed.listener _ _).setLink hcounted fun hc => ⟨hc, rfl, rfl⟩

/-! ## Looking at the exact time -/

/-- A step that tells of a peer closes the link for another reason only where somebody asked for
that. -/
private theorem requestedClose_of_peerClosed {late : CloseReason} (hl : late ≠ .peerClosed)
    (h : peerClosed s k = .close late) : late = k.requestedClose := by
  unfold peerClosed closeReasonOr at h
  split at h <;> cases h
  · rfl
  · exact absurd rfl hl

/-- **A link that rests closes for that no earlier than its spell is over**, unless somebody
asked for it. -/
theorem stepAwait_late (hk : s.link? l = some k)
    (h : stepAwait l s = (.close .keepaliveTimeout, t)) :
    k.restUntil ≤ s.now ∨ .keepaliveTimeout = k.requestedClose := by
  unfold stepAwait at h
  rw [hk] at h
  dsimp only at h
  split at h
  next => cases h
  next => cases h
  next =>
    refine .inr ?_
    exact requestedClose_of_peerClosed (s := s.setLink l { k with stream := k.stream.poll.2 })
      (k := { k with stream := k.stream.poll.2 }) nofun (congrArg Prod.fst h)
  next =>
  split at h
  next hover => exact .inl (Nat.le_of_sub_eq_zero hover)
  next =>
  split at h
  next => cases h
  split at h
  next => cases h
  split at h
  next => cases h
  split at h
  next => cases h
  next => cases h
  next =>
  -- A link that the multiplexer did not take goes on, or somebody else has it.
  unfold stepAwait.declined at h
  split at h
  next => cases h
  split at h <;> cases h

/-- **A wait ends no earlier than at its time**, unless somebody asked the link to close for that
reason. -/
theorem waitOnce_late {deadline : Nat} {ready idle : Step} {late : CloseReason}
    (hl : late ≠ .peerClosed) (h : waitOnce l deadline ready idle late s = (.close late, t)) :
    deadline ≤ s.now ∨ ∃ k, t.link? l = some k ∧ late = k.requestedClose := by
  unfold waitOnce at h
  split at h
  next => cases h
  next k hk =>
  split at h
  next =>
    have hasked := requestedClose_of_peerClosed hl (congrArg Prod.fst h)
    cases h
    exact .inr ⟨k, hk, hasked⟩
  next =>
  split at h
  next hover => exact .inl (Nat.le_of_sub_eq_zero hover)
  next =>
  split at h
  next => cases h
  next => cases h
  next => cases h
  next u _ =>
  cases hu : u.link? l with
  | none =>
    rw [hu] at h
    cases h
  | some k' =>
    rw [hu] at h
    have hasked := requestedClose_of_peerClosed hl (congrArg Prod.fst h)
    cases h
    exact .inr ⟨k', hu, hasked⟩

/-- A link that rests on its task is as patient. -/
theorem stepBlock_late (hk : s.link? l = some k)
    (h : stepBlock l s = (.close .keepaliveTimeout, t)) :
    k.restUntil ≤ s.now ∨ ∃ k', t.link? l = some k' ∧ .keepaliveTimeout = k'.requestedClose := by
  unfold stepBlock at h
  rw [hk] at h
  exact waitOnce_late nofun h

/-- So is a two-way stream that listens. -/
theorem stepListen_late (h : stepLink l (.listen d) s = (.close .timeout, t)) :
    d ≤ s.now ∨ ∃ k, t.link? l = some k ∧ .timeout = k.requestedClose := by
  unfold stepLink at h
  exact waitOnce_late nofun h

end Engine

end LinkEngine

import LinkEngine.Proofs.Accounts
import LinkEngine.Proofs.Afoot
import LinkEngine.Proofs.Waits

/-!
# What the timers of an engine are for

A timer of an engine is made for one wait of one link, or for the housekeeping of one
listener. What is queued is always for the present wait of its link or for a listener that
was not shut down (`Timed`): whoever ends a wait takes its timer back, and a timer that is
queued again is still of use. So there is at most one timer for each wait, and a link that
is parked has one that is queued or about to be asked for (`Live`).
-/

namespace LinkEngine

open Connection (CloseReason)

/-! ## Listeners -/

/-- A listener keeps house as before. -/
def Listener.SameHouse (x y : Listener) : Prop :=
  y.housekeeping = x.housekeeping ∧ y.stopped = x.stopped

theorem Listener.Tended.sameHouse {f : Listener → Listener} (h : Tended f) (x : Listener) :
    x.SameHouse (f x) := by
  cases h with
  | extend more =>
    dsimp only
    split <;> exact ⟨rfl, rfl⟩
  | _ => exact ⟨rfl, rfl⟩

namespace Engine

variable {s t u : Engine} {l m i : Nat} {k k' : Link} {reason : CloseReason}

/-! ## Timers are of use -/

/-- The timers of an engine are for what their alarms say, and what is queued is of use. -/
structure Timed (s : Engine) : Prop where
  fit : s.scheduler.Fit
  made : ∀ t, s.scheduler.IsAfoot t → t < s.alarms.length
  /-- A deadline is one of a link that is there, and of no wait to come. -/
  numbered : ∀ t l g : Nat, s.alarms[t]? = some (Alarm.deadline l g) →
    ∃ k, s.link? l = some k ∧ g ≤ k.waitGeneration
  /-- There is one timer at most for each wait. -/
  unique : ∀ t t' l g : Nat, s.alarms[t]? = some (Alarm.deadline l g) →
    s.alarms[t']? = some (Alarm.deadline l g) → t = t'
  /-- The deadline of a link is for its present wait. -/
  present : ∀ (l : Nat) (k : Link) (t : Nat), s.link? l = some k → k.deadline = some t → s.scheduler.stopped = false →
    s.alarms[t]? = some (Alarm.deadline l k.waitGeneration)
  /-- A timer for the present wait of a link is the deadline of the link. -/
  owned : ∀ (t : Nat) (l : Nat) (k : Link), s.scheduler.IsAfoot t → s.link? l = some k →
    s.alarms[t]? = some (Alarm.deadline l k.waitGeneration) → k.deadline = some t
  /-- What is queued is for the present wait. -/
  queued : ∀ t l g : Nat, t ∈ s.scheduler.heap.items → s.alarms[t]? = some (Alarm.deadline l g) →
    ∃ k, s.link? l = some k ∧ k.waitGeneration = g
  /-- The timer of the housekeeping of a listener is for that. -/
  house : ∀ i t : Nat, (s.listener i).housekeeping = some t → s.alarms[t]? = some (Alarm.housekeeping i)
  /-- A timer for the housekeeping of a listener is the one of the listener. -/
  kept : ∀ t i : Nat, s.scheduler.IsAfoot t → s.alarms[t]? = some (Alarm.housekeeping i) →
    i < s.listeners.length ∧ ((s.listener i).stopped = false → (s.listener i).housekeeping = some t)
  /-- What is queued is for a listener that was not shut down. -/
  awake : ∀ t i : Nat, t ∈ s.scheduler.heap.items → s.alarms[t]? = some (Alarm.housekeeping i) →
    (s.listener i).stopped = false

/-- A link that is parked has a deadline, unless the scheduler was shut down. -/
def Live (s : Engine) (l : Nat) : Prop :=
  ∀ k, s.link? l = some k → k.closed = false → k.request.isParked = true →
    s.scheduler.stopped = false → ∃ u, k.deadline = some u ∧ s.scheduler.IsAfoot u

/-- The links of one engine wait as those of another. -/
def SameWaits (s t : Engine) : Prop := ∀ l, Option.Rel Link.Waits (s.link? l) (t.link? l)

theorem SameWaits.refl (s : Engine) : SameWaits s s := by
  intro l
  cases s.link? l with
  | none => exact .none
  | some k => exact .some (.refl k)

theorem SameWaits.of_slots (h : t.slots = s.slots) : SameWaits s t := by
  intro l
  rw [show t.link? l = s.link? l from congrArg (fun slots => slots[l]?.bind Slot.link?) h]
  exact SameWaits.refl s l

theorem SameWaits.setLink (hk : s.link? l = some k) (h : k.Waits k') :
    SameWaits s (s.setLink l k') := by
  intro m
  by_cases hm : m = l
  · subst hm
    rw [link?_setLink_self hk, hk]
    exact .some h
  · rw [link?_setLink_ne hm]
    exact SameWaits.refl s m

theorem SameWaits.of (h : SameWaits s t) (hk : t.link? l = some k') :
    ∃ k, s.link? l = some k ∧ k.Waits k' := by
  have := h l
  rw [hk] at this
  generalize s.link? l = a at *
  cases this with
  | some hw => exact ⟨_, rfl, hw⟩

theorem SameWaits.to (h : SameWaits s t) (hk : s.link? l = some k) :
    ∃ k', t.link? l = some k' ∧ k.Waits k' := by
  have := h l
  rw [hk] at this
  generalize t.link? l = b at *
  cases this with
  | some hw => exact ⟨_, rfl, hw⟩

/-- Every link has the same deadline and the same number of its wait. -/
structure WaitsAlike (s t : Engine) : Prop where
  earlier : ∀ l k', t.link? l = some k' → ∃ k, s.link? l = some k ∧ k'.wait = k.wait
  later : ∀ l k, s.link? l = some k → ∃ k', t.link? l = some k' ∧ k'.wait = k.wait

theorem SameWaits.alike (h : SameWaits s t) : WaitsAlike s t where
  earlier _ _ hk' :=
    have ⟨k, hk, hw⟩ := h.of hk'
    ⟨k, hk, hw.wait⟩
  later _ _ hk :=
    have ⟨k', hk', hw⟩ := h.to hk
    ⟨k', hk', hw.wait⟩

theorem WaitsAlike.of_slots (h : t.slots = s.slots) : WaitsAlike s t := (SameWaits.of_slots h).alike

theorem WaitsAlike.setLink (hk : s.link? l = some k) (h : k'.wait = k.wait) :
    WaitsAlike s (s.setLink l k') where
  earlier m x hx := by
    by_cases hm : m = l
    · subst hm
      rw [link?_setLink_self hk] at hx
      cases hx
      exact ⟨k, hk, h⟩
    · rw [link?_setLink_ne hm] at hx
      exact ⟨x, hx, rfl⟩
  later m x hx := by
    by_cases hm : m = l
    · subst hm
      rw [hk] at hx
      cases hx
      exact ⟨k', link?_setLink_self hk k', h⟩
    · exact ⟨x, (link?_setLink_ne hm s k').trans hx, rfl⟩

/-- The listeners of one engine keep house as those of another. -/
structure SameHouses (s t : Engine) : Prop where
  length : t.listeners.length = s.listeners.length
  same : ∀ i, (s.listener i).SameHouse (t.listener i)

theorem SameHouses.of_listeners (h : t.listeners = s.listeners) : SameHouses s t :=
  ⟨congrArg _ h, fun i => by unfold listener; rw [h]; exact ⟨rfl, rfl⟩⟩

theorem SameHouses.listener (i : Nat) {f : Listener → Listener}
    (h : ∀ x : Listener, x.SameHouse (f x)) : SameHouses s (s.modifyListener i f) := by
  refine ⟨List.length_modify .., fun j => ?_⟩
  rcases listener_modifyListener_cases s i j f with hsame | ⟨-, -, hself⟩
  · rw [hsame]
    exact ⟨rfl, rfl⟩
  · rw [hself]
    exact h _

/-- Timers are of use as long as nobody waits for another, and what is queued anew is. -/
theorem Timed.same (hs : s.Timed) (hf : t.scheduler.Fit) (ha : t.alarms = s.alarms)
    (hl : WaitsAlike s t) (hx : SameHouses s t)
    (hheap : ∀ u ∈ t.scheduler.heap.items, u ∈ s.scheduler.heap.items ∨ s.Needs u)
    (hafoot : ∀ u, t.scheduler.IsAfoot u → s.scheduler.IsAfoot u)
    (hstopped : t.scheduler.stopped = false → s.scheduler.stopped = false) : t.Timed where
  fit := hf
  made u hu := ha ▸ hs.made u (hafoot u hu)
  numbered u l g hu := by
    obtain ⟨k, hk, hg⟩ := hs.numbered u l g (ha ▸ hu)
    obtain ⟨k', hk', hw⟩ := hl.later l k hk
    exact ⟨k', hk', Nat.le_trans hg (Nat.le_of_eq (congrArg Prod.snd hw).symm)⟩
  unique u u' l g hu hu' := hs.unique u u' l g (ha ▸ hu) (ha ▸ hu')
  present l k' u hk' hd hst := by
    obtain ⟨k, hk, hw⟩ := hl.earlier l k' hk'
    rw [ha, show k'.waitGeneration = k.waitGeneration from congrArg Prod.snd hw]
    exact hs.present l k u hk ((congrArg Prod.fst hw).symm.trans hd) (hstopped hst)
  owned u l k' hu hk' hg := by
    obtain ⟨k, hk, hw⟩ := hl.earlier l k' hk'
    rw [ha, show k'.waitGeneration = k.waitGeneration from congrArg Prod.snd hw] at hg
    exact (congrArg Prod.fst hw).trans (hs.owned u l k (hafoot u hu) hk hg)
  queued u l g hu hg := by
    rw [ha] at hg
    obtain ⟨k, hk, hkg⟩ : ∃ k, s.link? l = some k ∧ k.waitGeneration = g := by
      rcases hheap u hu with h | ⟨l', k, hk, hl', -⟩ | ⟨i, hi, -⟩
      · exact hs.queued u l g h hg
      · cases hg.symm.trans hl'
        exact ⟨k, hk, rfl⟩
      · cases hg.symm.trans hi
    obtain ⟨k', hk', hw⟩ := hl.later l k hk
    exact ⟨k', hk', (congrArg Prod.snd hw).trans hkg⟩
  house i u hu := ha ▸ hs.house i u ((hx.same i).1 ▸ hu)
  kept u i hu hi := by
    rw [(hx.same i).1, (hx.same i).2, hx.length]
    exact hs.kept u i (hafoot u hu) (ha ▸ hi)
  awake u i hu hi := by
    rw [(hx.same i).2]
    rw [ha] at hi
    rcases hheap u hu with h | ⟨l', k, hk, hl', -⟩ | ⟨j, hj, hshut⟩
    · exact hs.awake u i h hi
    · cases hi.symm.trans hl'
    · cases hi.symm.trans hj
      exact (Bool.or_eq_false_iff.1 hshut).1

/-- Deadlines stay live as long as none of a link that is parked goes. -/
theorem Live.same (hs : s.Live l) (hl : SameWaits s t)
    (hstopped : t.scheduler.stopped = false → s.scheduler.stopped = false)
    (hafoot : t.scheduler.stopped = false → ∀ k u, s.link? l = some k → k.closed = false →
      k.request.isParked = true → k.deadline = some u → s.scheduler.IsAfoot u →
        t.scheduler.IsAfoot u) : t.Live l := by
  intro k' hk' hc hp hst
  obtain ⟨k, hk, hw⟩ := hl.of hk'
  obtain ⟨hc, hp, -⟩ := hw.parked hc hp
  obtain ⟨u, hu, ha⟩ := hs k hk hc hp (hstopped hst)
  exact ⟨u, hw.deadline.trans hu, hafoot hst k u hk hc hp hu ha⟩

/-! ## Changes -/

/-- Where a link and a listener were left as they were and the scheduler let its timers be. -/
private theorem Timed.lets (hs : s.Timed) (hx : s.scheduler.Lets t.scheduler)
    (ha : t.alarms = s.alarms) (hl : SameWaits s t) (hh : SameHouses s t) :
    t.Timed ∧ ∀ l, s.Live l → t.Live l :=
  ⟨hs.same hx.fit ha hl.alike hh (fun u hu => .inl (hx.heap u hu)) hx.afoot fun h => (hx.kept h).1,
    fun _ hlive => hlive.same hl (fun h => (hx.kept h).1) fun h _ u _ _ _ _ hu => (hx.kept h).2 u hu⟩

/-- Where only links and listeners were written to, and their waits are the same. -/
theorem Timed.written (hs : s.Timed) (hx : t.scheduler = s.scheduler) (ha : t.alarms = s.alarms)
    (hl : SameWaits s t) (hh : SameHouses s t) : t.Timed ∧ ∀ l, s.Live l → t.Live l :=
  hs.lets (hx ▸ hs.fit.lets) ha hl hh

/-- Where a link was written to that waits as before, or not at all. -/
theorem Timed.rewritten (hs : s.Timed) (hk : s.link? l = some k) (h : k.Waits k') :
    (s.setLink l k').Timed ∧ ∀ m, s.Live m → (s.setLink l k').Live m :=
  hs.written rfl rfl (.setLink hk h) (.of_listeners rfl)

/-- Where a listener was written to that keeps house as before. -/
theorem Timed.tended (hs : s.Timed) (i : Nat) {f : Listener → Listener}
    (hf : ∀ x : Listener, x.SameHouse (f x)) :
    (s.modifyListener i f).Timed ∧ ∀ l, s.Live l → (s.modifyListener i f).Live l :=
  hs.written rfl rfl (.of_slots rfl) (.listener i hf)

/-- A callback that starts for nobody. -/
private theorem Timed.rang {place : Nat} {task : Timer.Task} {x : Timer.Scheduler} (hs : s.Timed)
    (h : s.scheduler.start place = some (task, x)) (hspent : s.Spent task.timer) :
    Timed { s with scheduler := x } ∧ ∀ l, s.Live l → Live { s with scheduler := x } l := by
  obtain ⟨hfit, hheap, hstopped, hperm⟩ := hs.fit.start h
  have hmem : ∀ u, u ∈ s.scheduler.outstanding ↔ u = task.timer ∨ u ∈ x.outstanding := fun u => by
    rw [hperm.mem_iff, List.mem_cons]
  refine ⟨hs.same hfit rfl (.of_slots rfl) (.of_listeners rfl) (fun u hu => .inl (hheap ▸ hu))
    (fun u hu => hu.imp (fun h => hheap ▸ h) fun h => (hmem u).2 (.inr h))
    fun h => hstopped.symm.trans h, fun l hlive => ?_⟩
  refine hlive.same (.of_slots rfl) (fun h => hstopped.symm.trans h) ?_
  intro hst k u hk hc hp hd hu
  -- The deadline of a link that is parked is another timer.
  have hne : u ≠ task.timer := by
    rintro rfl
    have := hspent l k hk (hs.present l k _ hk hd (hstopped.symm.trans hst)) hc
    exact absurd (this.symm.trans hp) Bool.false_ne_true
  exact hu.imp (fun h => hheap ▸ h) fun h => ((hmem u).1 h).resolve_left hne

/-- A callback that starts and queues its timer again. -/
private theorem Timed.again {place : Nat} {task : Timer.Task} {x : Timer.Scheduler} (hs : s.Timed)
    (h : s.scheduler.start place = some (task, x)) (hneeds : s.Needs task.timer)
    (delay : Time.Duration) :
    Timed { s with scheduler := (x.queue task.timer s.now delay).2 } ∧
      ∀ l, s.Live l → Live { s with scheduler := (x.queue task.timer s.now delay).2 } l := by
  obtain ⟨hfit, hheap, hstopped, hperm⟩ := hs.fit.start h
  obtain ⟨hfit', hout, hstopped', hcases⟩ := hfit.queue task.timer s.now delay
  have hmem : ∀ u, u ∈ s.scheduler.outstanding ↔ u = task.timer ∨ u ∈ x.outstanding := fun u => by
    rw [hperm.mem_iff, List.mem_cons]
  have hheap' : ∀ u ∈ (x.queue task.timer s.now delay).2.heap.items,
      u = task.timer ∨ u ∈ s.scheduler.heap.items := by
    intro u hu
    rcases hcases with ⟨-, -, h⟩ | ⟨-, -, h⟩
    · exact .inr (hheap ▸ h ▸ hu)
    · exact ((h u).1 hu).imp id fun h => hheap ▸ h
  have hst : (x.queue task.timer s.now delay).2.stopped = s.scheduler.stopped :=
    hstopped'.trans hstopped
  refine ⟨hs.same hfit' rfl (.of_slots rfl) (.of_listeners rfl) (fun u hu => ?_) (fun u hu => ?_)
    fun h => hst.symm.trans h, fun l hlive => ?_⟩
  · rcases hheap' u hu with rfl | h
    · exact .inr hneeds
    · exact .inl h
  · rcases hu with hu | hu
    · rcases hheap' u hu with rfl | h
      · exact .inr ((hmem _).2 (.inl rfl))
      · exact .inl h
    · exact .inr ((hmem u).2 (.inr (hout ▸ hu)))
  · refine hlive.same (.of_slots rfl) (fun h => hst.symm.trans h) ?_
    intro hrun k u hk hc hp hd hu
    -- The scheduler was not shut down, so the timer is back in the heap.
    rcases hcases with ⟨h, -⟩ | ⟨-, -, hin⟩
    · exact absurd ((hstopped'.symm.trans hrun).symm.trans h) Bool.false_ne_true
    · rcases hu with hu | hu
      · exact .inl ((hin u).2 (.inr (hheap ▸ hu)))
      · rcases (hmem u).1 hu with rfl | h
        · exact .inl ((hin _).2 (.inl rfl))
        · exact .inr (hout.symm ▸ h)

/-- Taking back a timer, if there is one. -/
theorem elim_cancel {x : Timer.Scheduler} (hx : x.Fit) (o : Option Nat) :
    (o.elim x fun t => (x.cancel t).2).Fit ∧
      (∀ u, u ∈ (o.elim x fun t => (x.cancel t).2).heap.items ↔ u ∈ x.heap.items ∧ o ≠ some u) ∧
        (o.elim x fun t => (x.cancel t).2).outstanding = x.outstanding ∧
          (o.elim x fun t => (x.cancel t).2).stopped = x.stopped := by
  cases o with
  | none => exact ⟨hx, fun u => ⟨fun h => ⟨h, nofun⟩, And.left⟩, rfl, rfl⟩
  | some t =>
    obtain ⟨hfit, hheap, hout, hstopped⟩ := hx.cancel t
    refine ⟨hfit, fun u => (hheap u).trans (and_congr_right fun _ => ?_), hout, hstopped⟩
    simp [eq_comm]

/-- Where the timer of the deadline of a link is taken back, that of another stays. -/
theorem Timed.cancelled (hs : s.Timed) (hx : t.scheduler =
    (k.deadline.elim s.scheduler fun t => (s.scheduler.cancel t).2)) (hk : s.link? l = some k)
    (hm : m ≠ l) (hl : t.link? m = s.link? m) (hlive : s.Live m) : t.Live m := by
  obtain ⟨-, hheap, hout, hstopped⟩ := elim_cancel hs.fit k.deadline
  intro k' hk' hc hp hst
  rw [hx, hstopped] at hst
  rw [hl] at hk'
  obtain ⟨u, hd, hu⟩ := hlive k' hk' hc hp hst
  refine ⟨u, hd, ?_⟩
  rw [hx]
  rcases hu with hu | hu
  · refine .inl ((hheap u).2 ⟨hu, fun hku => ?_⟩)
    -- One timer is not for two links.
    have heq := (hs.present m k' u hk' hd hst).symm.trans (hs.present l k u hk hku hst)
    exact hm (Alarm.deadline.inj (Option.some.inj heq)).1
  · exact .inr (hout.symm ▸ hu)

/-- **The deadline of a link is taken back**, and its wait is over. -/
theorem Timed.disarmed (hs : s.Timed) (hk : s.link? l = some k) (hw : k'.wait = k.disarmed.wait) :
    Timed { s.setLink l k' with
      scheduler := k.deadline.elim s.scheduler fun t => (s.scheduler.cancel t).2 } := by
  obtain ⟨hfit, hheap, hout, hstopped⟩ := elim_cancel hs.fit k.deadline
  have hk' := link?_setLink_self hk k'
  cases hd : k.deadline with
  | none =>
    have hw : k'.wait = k.wait := by
      rw [hw]
      unfold Link.disarmed
      rw [hd]
    exact hs.same hs.fit rfl ⟨(WaitsAlike.setLink hk hw).earlier, (WaitsAlike.setLink hk hw).later⟩
      (.of_listeners rfl) (fun _ h => .inl h) (fun _ h => h) fun h => h
  | some d =>
    rw [hd] at hfit hheap hout hstopped
    obtain ⟨hnone, hnext⟩ : k'.deadline = none ∧ k'.waitGeneration = k.waitGeneration + 1 := by
      have hdis : k.disarmed.wait = (none, k.waitGeneration + 1) := by
        unfold Link.disarmed
        rw [hd]
        rfl
      rw [hdis] at hw
      exact ⟨congrArg Prod.fst hw, congrArg Prod.snd hw⟩
    have hafoot : ∀ u, Timer.Scheduler.IsAfoot (s.scheduler.cancel d).2 u →
        s.scheduler.IsAfoot u := fun u hu => hu.imp (fun h => ((hheap u).1 h).1) fun h => hout ▸ h
    have hother : ∀ {m x}, m ≠ l → ((s.setLink l k').link? m = some x ↔ s.link? m = some x) :=
      fun hm => by rw [link?_setLink_ne hm]
    exact {
      fit := hfit
      made := fun u hu => hs.made u (hafoot u hu)
      numbered := fun u m g hu => by
        obtain ⟨x, hx, hg⟩ := hs.numbered u m g hu
        by_cases hm : m = l
        · subst hm
          cases hk.symm.trans hx
          exact ⟨k', hk', by omega⟩
        · exact ⟨x, (hother hm).2 hx, hg⟩
      unique := hs.unique
      present := fun m x u hx hxd hst => by
        by_cases hm : m = l
        · subst hm
          cases hk'.symm.trans hx
          rw [hnone] at hxd
          cases hxd
        · exact hs.present m x u ((hother hm).1 hx) hxd (hstopped.symm.trans hst)
      owned := fun u m x hu hx hg => by
        by_cases hm : m = l
        · subst hm
          cases hk'.symm.trans hx
          -- No timer is for a wait to come.
          obtain ⟨y, hy, hle⟩ := hs.numbered u m _ hg
          cases hk.symm.trans hy
          omega
        · exact hs.owned u m x (hafoot u hu) ((hother hm).1 hx) hg
      queued := fun u m g hu hg => by
        obtain ⟨hin, hne⟩ := (hheap u).1 hu
        obtain ⟨x, hx, hxg⟩ := hs.queued u m g hin hg
        by_cases hm : m = l
        · subst hm
          cases hk.symm.trans hx
          -- What was queued for the wait that is over was taken back.
          have hown := hs.owned u m k (.inl hin) hk (hxg ▸ hg)
          rw [hd] at hown
          exact absurd hown hne
        · exact ⟨x, (hother hm).2 hx, hxg⟩
      house := hs.house
      kept := fun u i hu hi => hs.kept u i (hafoot u hu) hi
      awake := fun u i hu hi => hs.awake u i ((hheap u).1 hu).1 hi }

/-- **A listener is shut down**, and nobody keeps house for it. -/
private theorem Timed.stop (hs : s.Timed) (i : Nat) :
    Timed { s.modifyListener i Listener.halted with
      scheduler := (s.listener i).housekeeping.elim s.scheduler fun t => (s.scheduler.cancel t).2 } ∧
    ∀ l, s.Live l → Live { s.modifyListener i Listener.halted with
      scheduler := (s.listener i).housekeeping.elim s.scheduler fun t => (s.scheduler.cancel t).2 } l := by
  obtain ⟨hfit, hheap, hout, hstopped⟩ := elim_cancel hs.fit (s.listener i).housekeeping
  generalize hx : ((s.listener i).housekeeping.elim s.scheduler fun t => (s.scheduler.cancel t).2) = x
    at hfit hheap hout hstopped ⊢
  have hafoot : ∀ u, x.IsAfoot u → s.scheduler.IsAfoot u :=
    fun u hu => hu.imp (fun h => ((hheap u).1 h).1) fun h => hout ▸ h
  have hfirst : Timed { s with scheduler := x } :=
    hs.same hfit rfl (.of_slots rfl) (.of_listeners rfl)
      (fun u hu => .inl ((hheap u).1 hu).1) hafoot fun h => hstopped.symm.trans h
  -- The listener keeps no timer, and the others are as they were.
  have hhouse := fun j => listener_modifyListener_cases s i j Listener.halted
  have hlength : (s.modifyListener i Listener.halted).listeners.length = s.listeners.length :=
    List.length_modify ..
  refine ⟨⟨hfirst.fit, hfirst.made, hfirst.numbered, hfirst.unique, hfirst.present, hfirst.owned,
    hfirst.queued, fun j u hu => ?_, fun u j hu hj => ?_, fun u j hu hj => ?_⟩, fun l hlive => ?_⟩
  · have hu : ((s.modifyListener i Listener.halted).listener j).housekeeping = some u := hu
    rcases hhouse j with h | ⟨-, -, h⟩
    · rw [h] at hu
      exact hs.house j u hu
    · rw [h] at hu
      cases hu
  · show j < (s.modifyListener i Listener.halted).listeners.length ∧
      (((s.modifyListener i Listener.halted).listener j).stopped = false →
        ((s.modifyListener i Listener.halted).listener j).housekeeping = some u)
    rw [hlength]
    refine ⟨(hs.kept u j (hafoot u hu) hj).1, fun hst => ?_⟩
    rcases hhouse j with h | ⟨-, -, h⟩
    · rw [h] at hst ⊢
      exact (hs.kept u j (hafoot u hu) hj).2 hst
    · rw [h] at hst
      cases hst
  · show ((s.modifyListener i Listener.halted).listener j).stopped = false
    obtain ⟨hin, hne⟩ := (hheap u).1 hu
    have hawake := hs.awake u j hin hj
    rcases hhouse j with h | ⟨rfl, -, -⟩
    · rw [h]
      exact hawake
    · exact absurd ((hs.kept u j (.inl hin) hj).2 hawake) hne
  · refine hlive.same (.of_slots rfl) (fun h => hstopped.symm.trans h) ?_
    intro hst k u hk hc hp hd hu
    rcases hu with hu | hu
    · refine .inl ((hheap u).2 ⟨hu, fun hku => ?_⟩)
      -- A deadline is no timer of a listener.
      cases (hs.present l k u hk hd (hstopped.symm.trans hst)).symm.trans (hs.house i u hku)
    · exact .inr (hout.symm ▸ hu)

private theorem sameWaits_modifySocket (s : Engine) (l : Nat)
    (f : Socket.Endpoint Operation → Socket.Endpoint Operation) :
    SameWaits s (s.modifySocket l f) := by
  intro m
  rw [link?_modifySocket]
  split
  · cases s.link? m with
    | none => exact .none
    | some k => exact .some ⟨rfl, fun hc hp => ⟨hc, hp, rfl⟩⟩
  · exact SameWaits.refl s m

/-- **No change takes a timer from a link that is parked, or leaves one queued that is of no
use.** -/
theorem Change.timed (h : Change s t) (hs : s.Timed) : t.Timed ∧ ∀ l, s.Live l → t.Live l := by
  cases h with
  | scheduler hx => exact hs.lets (hs.fit.stirred hx) rfl (.of_slots rfl) (.of_listeners rfl)
  | listener i hf => exact hs.tended i hf.sameHouse
  | rang h hspent => exact hs.rang h hspent
  | again h hneeds delay => exact hs.again h hneeds delay
  | socket l hf => exact hs.written rfl rfl (sameWaits_modifySocket s l _) (.of_listeners rfl)
  | touched hk h => exact hs.rewritten hk h.waits
  | handed hk h =>
    have hset := SameWaits.setLink hk h.waits
    exact hs.written rfl rfl (fun m => hset m) (.of_listeners rfl)
  | _ => exact hs.written rfl rfl (.of_slots rfl) (.of_listeners rfl)

private theorem Halt.timed {done : Engine → Prop} (h : Halt s t done) (hs : s.Timed) :
    t.Timed ∧ ∀ l, s.Live l → t.Live l := by
  cases h with
  | listener i => exact hs.stop i
  | all => exact hs.written rfl rfl (.of_slots rfl) (.of_listeners rfl)

/-! ## Courses and teardowns -/

/-- The beginning of a teardown. -/
theorem timed_beginTearDown (hs : s.Timed) (hk : s.link? l = some k) (reason : CloseReason) :
    (beginTearDown l reason s).Timed ∧ ∀ m, s.Live m → (beginTearDown l reason s).Live m := by
  have hwait : (k.marked reason).wait = k.disarmed.wait := by
    unfold Link.marked Link.shut Link.disarmed
    cases h : k.deadline <;> simp [Link.note, Link.wait, h]
  rw [beginTearDown_eq hk]
  refine ⟨hs.disarmed hk hwait, fun m hlive => ?_⟩
  by_cases hm : m = l
  · subst hm
    -- It is closed now, and waits for nothing.
    intro x hx hc
    have hx : (s.setLink m (k.marked reason)).link? m = some x := hx
    rw [link?_setLink_self hk] at hx
    cases hx
    rw [Link.closed_marked] at hc
    cases hc
  · exact hs.cancelled rfl hk hm (link?_setLink_ne hm s _) hlive

/-- The end of a teardown. -/
theorem timed_giveBack (hs : s.Timed) (l : Nat) (reason : CloseReason) :
    (giveBack l reason s).Timed ∧ ∀ m, s.Live m → (giveBack l reason s).Live m := by
  cases hk : s.link? l with
  | none =>
    rw [giveBack_of_none hk]
    exact ⟨hs, fun _ h => h⟩
  | some k =>
    rw [giveBack_eq hk]
    have hset := SameWaits.setLink hk k.waits_gone
    have hhouses : SameHouses (s.setLink l k.gone) ((s.setLink l k.gone).modifyListener k.listener
        (·.released l k.stream.close.2.takeBuffers.1 reason)) :=
      .listener _ fun x => ⟨rfl, rfl⟩
    exact hs.written rfl rfl (fun m => hset m) ⟨hhouses.length, hhouses.same⟩

/-- **Whatever others do, the timers of an engine stay of use, and those of parked links
stay.** -/
theorem Course.timed (h : Course s t) (hs : s.Timed) : t.Timed ∧ ∀ l, s.Live l → t.Live l := by
  induction h with
  | refl => exact ⟨hs, fun _ h => h⟩
  | change h _ ih =>
    obtain ⟨ht, hlive⟩ := h.timed hs
    obtain ⟨hu, hlive'⟩ := ih ht
    exact ⟨hu, fun l hl => hlive' l (hlive l hl)⟩
  | halt h _ _ _ ihinner ihrest =>
    obtain ⟨h₁, l₁⟩ := h.timed hs
    obtain ⟨h₂, l₂⟩ := ihinner h₁
    obtain ⟨h₃, l₃⟩ := ihrest h₂
    exact ⟨h₃, fun l hl => l₃ l (l₂ l (l₁ l hl))⟩
  | @teardown s t u l k k' reason hk h _ _ ihhook ihrest =>
    obtain ⟨h₁, l₁⟩ := hs.rewritten hk h.waits
    obtain ⟨h₂, l₂⟩ := timed_beginTearDown h₁ (link?_setLink_self hk k') reason
    obtain ⟨h₃, l₃⟩ := ihhook h₂
    obtain ⟨h₄, l₄⟩ := timed_giveBack h₃ _ _
    obtain ⟨h₅, l₅⟩ := ihrest h₄
    exact ⟨h₅, fun l hl => l₅ l (l₄ l (l₃ l (l₂ l (l₁ l hl))))⟩

theorem TornDown.timed (h : TornDown l reason s t) (hs : s.Timed) :
    t.Timed ∧ ∀ m, s.Live m → t.Live m := by
  cases h with
  | absent | before => exact ⟨hs, fun _ h => h⟩
  | now hk hc hook =>
    obtain ⟨h₁, l₁⟩ := timed_beginTearDown hs hk reason
    obtain ⟨h₂, l₂⟩ := hook.timed h₁
    obtain ⟨h₃, l₃⟩ := timed_giveBack h₂ l reason
    exact ⟨h₃, fun m hm => l₃ m (l₂ m (l₁ m hm))⟩

end Engine

end LinkEngine

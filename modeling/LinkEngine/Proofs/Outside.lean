import LinkEngine.Proofs.Course

/-!
# Operations and teardowns are courses

Wakers, timers, operations and teardowns are gone through here once, each with
the way to tear down that it is given. A teardown calls the close hook, whose
operations tear down in turn: that the recursion is no deeper than there are open
links is an induction on its depth (`tearDownWithin_tears`), and from it all that
others do to an engine is a course (`perform_course`).
-/

namespace LinkEngine.Engine

open Connection (CloseReason)

variable {s t : Engine} {l : Nat} {k k' : Link} {reason : CloseReason}

/-! ## Wakers -/

variable {tear : Teardown} {d : Nat}

/-- Whoever seizes a parked link and tears it down follows a course. Something may come
between that does not show in the link. -/
theorem seize_course (hT : Tears d tear) (hs : s.openLinks ≤ d) (hk : s.link? l = some k)
    (h : k.Seized reason k') (ht : t.slots = (s.setLink l k').slots)
    (hbegin : Course (beginTearDown l reason (s.setLink l k')) (beginTearDown l reason t)) :
    Course s (tear l reason t) := by
  have hk' : t.link? l = some k' :=
    (congrArg (fun slots => slots[l]?.bind Slot.link?) ht).trans (link?_setLink_self hk k')
  have hd : t.openLinks ≤ d := by
    rw [openLinks_congr ht, openLinks_setLink hk (h.open.2.trans h.open.1.symm)]
    exact hs
  generalize hu : tear l reason t = u
  -- The link is there and open, so its teardown takes effect.
  cases hu ▸ hT l reason _ hd with
  | absent hn => rw [hk'] at hn; cases hn
  | before hk'' hc =>
    rw [hk'] at hk''
    cases hk''
    rw [h.open.2] at hc
    cases hc
  | now hk'' hc hook => exact .teardown hk h (hbegin.trans hook) (.refl _)

/-- Nothing comes of tearing down a link that is closed. -/
theorem tear_of_closed (hT : Tears d tear) (hs : s.openLinks ≤ d) (hk : s.link? l = some k)
    (hc : k.closed = true) : tear l reason s = s := by
  generalize ht : tear l reason s = t
  cases ht ▸ hT l reason _ hs with
  | absent | before => rfl
  | now hk' hc' _ =>
    rw [hk] at hk'
    cases hk'
    rw [hc] at hc'
    cases hc'

/-- Whoever takes over a parked link hands it to the pool or, where the pool
takes no task, tears it down. -/
theorem schedule_course (hT : Tears d tear) (hs : s.openLinks ≤ d) (hk : s.link? l = some k)
    (hh : k.Handed k') (hv : k.closed = true → k.Touched k')
    (hz : k.closed = false → k.Seized .shutdown k') :
    Course s (schedule tear l .resume (s.setLink l k')).2 := by
  unfold schedule
  split
  · cases hc : k.closed with
    | false => exact seize_course hT hs hk (hz hc) rfl (.refl _)
    | true =>
      -- The link is torn down already, so nothing happens but the wake.
      have hd : (s.setLink l k').openLinks ≤ d := by
        rw [openLinks_setLink hk hh.closed]
        exact hs
      rw [tear_of_closed hT hd (link?_setLink_self hk k') (hh.closed.trans hc)]
      exact .single (.touched hk (hv hc))
  · exact .single (.handed hk hh)

theorem notify_course (hT : Tears d tear) (hs : s.openLinks ≤ d) (l : Nat) :
    Course s (notify tear l s).2 := by
  unfold notify
  split
  · exact .refl s
  · next k hk =>
    split
    · next r hr =>
      -- The link was parked between two requests, and whoever notifies it takes it over.
      obtain ⟨hq, rfl⟩ := Connection.Request.wakeKeepalive_eq_resume hr
      have hp : k.request.isParked = true := by rw [hq]; rfl
      exact schedule_course hT hs hk (.noticed hq) (fun hc => .vain hc hp _)
        fun hc => .refused hc hp (.inl rfl)
    · exact .refl s

theorem wakeComet_course (hT : Tears d tear) (hs : s.openLinks ≤ d) (h : Handle) :
    Course s (wakeComet tear h s).2 := by
  unfold wakeComet
  split
  · exact .refl s
  · next k hk =>
    split
    · exact .refl s
    · next hg =>
      obtain ⟨hg, hc⟩ := not_or.1 hg
      have hg : k.cometGeneration = h.generation := Decidable.of_not_not hg
      have hc : k.closed = false := Bool.not_eq_true _ ▸ hc
      rw [← hg]
      split
      · next r hr =>
        -- parked already: taken over, or torn down where the pool takes nothing
        obtain ⟨hq, rfl⟩ := Connection.Request.wakeAsync_eq_resume hr
        have hp : k.request.isParked = true := by rw [hq]; rfl
        unfold schedule
        by_cases href : s.refusing
        · rw [if_pos (show (s.setLink h.link _).refusing = true from href)]
          exact seize_course hT hs hk (.refused hc hp (.inl rfl)) rfl (.refl _)
        · rw [if_neg (show ¬ (s.setLink h.link _).refusing = true from href)]
          have hnote := note_setLink s h.link { k with request := .request }
            (.woke k.cometGeneration)
          have := Change.handed hk (.woken hc hq)
          rw [← hnote] at this
          exact .single this
      · next r hr =>
        -- not parked yet: the wake is left for the task of the link
        obtain ⟨hq, rfl⟩ := Connection.Request.wakeAsync_eq_deferred hr
        have := Change.touched hk (.deferred hc hq)
        rw [← note_setLink] at this
        exact .single this
      · exact .refl s

theorem closeWith_course (hT : Tears d tear) (hs : s.openLinks ≤ d) (l : Nat)
    (reason : CloseReason) : Course s (closeWith tear l reason s) := by
  unfold closeWith
  split
  · exact .refl s
  · next k hk =>
    split
    · exact .refl s
    · next hc =>
      have hc : k.closed = false := Bool.not_eq_true _ ▸ hc
      simp only
      split
      · next r hr =>
        -- parked: whoever asks tears it down himself
        obtain ⟨hp, rfl⟩ := Connection.Request.wake_eq_resume hr
        exact seize_course hT hs hk (.asked hc hp reason) rfl (.refl _)
      · next w r hw hr =>
        -- driven: the task of the link sees the reason later
        have hp : k.request.isParked = false :=
          Connection.Request.isParked_of_wake fun h => hw ((congrArg Prod.fst hr).symm.trans h)
        obtain rfl : k.request.wake.2 = r := congrArg Prod.snd hr
        exact .single (.touched hk (.asked hc hp reason))

/-- What is a course for one of several things in turn is one for all of them. -/
theorem foldl_course {α : Type} {f : Engine → α → Engine} (hs : s.openLinks ≤ d)
    (hf : ∀ s a, s.openLinks ≤ d → Course s (f s a)) (xs : List α) :
    Course s (xs.foldl f s) := by
  -- A course opens no link, so the depth that was enough at first stays enough.
  induction xs generalizing s with
  | nil => exact .refl s
  | cons a xs ih =>
    have ha := hf s a hs
    exact ha.trans (ih (Nat.le_trans ha.openLinks_le hs))

/-- Who is asked to close heeds that, or is closed. -/
theorem closeWith_heeds (hT : Tears d tear) (hs : s.openLinks ≤ d) (l : Nat)
    (reason : CloseReason) : (closeWith tear l reason s).Heeds l := by
  unfold closeWith
  split
  next hk =>
    intro x hx
    cases hk.symm.trans hx
  next k hk =>
  split
  next hc =>
    intro x hx
    cases hk.symm.trans hx
    exact .of_closed hc
  next hc =>
  have hc : k.closed = false := Bool.not_eq_true _ ▸ hc
  dsimp only
  split
  next r _ =>
    refine (hT l _ _ ?_).heeds
    exact Nat.le_trans (Nat.le_of_eq (openLinks_setLink hk rfl)) hs
  next w r hw hr =>
    have hp : k.request.isParked = false :=
      Connection.Request.isParked_of_wake fun h => hw ((congrArg Prod.fst hr).symm.trans h)
    obtain rfl : k.request.wake.2 = r := congrArg Prod.snd hr
    intro x hx
    cases (link?_setLink_self hk _).symm.trans hx
    exact Link.heeding_asked hp reason

/-- All links that are asked to close heed that. -/
private theorem closeAll_heeds (hT : Tears d tear) (hs : s.openLinks ≤ d) (ls : List Nat)
    (reason : CloseReason) : ∀ l ∈ ls, (s.link? l).isSome = true →
      (closeAll tear ls reason s).Heeds l := by
  -- Who heeds it goes on to, while the others are asked.
  induction ls generalizing s with
  | nil => exact nofun
  | cons m ls ih =>
    intro l hl hk
    have hm := closeWith_course hT hs m reason
    have hd := Nat.le_trans hm.openLinks_le hs
    rcases List.mem_cons.1 hl with rfl | hl
    · have hrest : Course (closeWith tear l reason s) (closeAll tear (l :: ls) reason s) :=
        foldl_course hd (fun s m hs => closeWith_course hT hs m reason) ls
      exact hrest.heeds (hm.isSome hk) (closeWith_heeds hT hs l reason)
    · exact ih hd l hl (hm.isSome hk)

/-- What shutting a listener down comes to, unless that was done before. -/
theorem shutdownListener_eq (tear : Teardown) {i : Nat} (h : (s.listener i).stopped = false) :
    shutdownListener tear i s =
      closeAll tear (s.listener i).registry .shutdown (haltListener i s) := by
  unfold shutdownListener haltListener
  rw [if_neg (by rw [h]; exact Bool.false_ne_true)]
  cases (s.listener i).housekeeping <;> rfl

theorem shutdownListener_course (hT : Tears d tear) (hs : s.openLinks ≤ d) (i : Nat) :
    Course s (shutdownListener tear i s) := by
  cases h : (s.listener i).stopped with
  | true =>
    unfold shutdownListener
    rw [if_pos h]
    exact .refl s
  | false =>
    have hd : (haltListener i s).openLinks ≤ d := hs
    rw [shutdownListener_eq tear h]
    exact .halt (.listener i)
      (foldl_course hd (fun s l hs => closeWith_course hT hs l .shutdown) _)
      (closeAll_heeds hT hd _ .shutdown) (.refl _)

/-- A listener that is there is shut down in the end. -/
theorem shutdownListener_stopped (hT : Tears d tear) (hs : s.openLinks ≤ d) {i : Nat}
    (hi : i < s.listeners.length) : ((shutdownListener tear i s).listener i).stopped = true := by
  cases h : (s.listener i).stopped with
  | true => exact (shutdownListener_course hT hs i).stopped h
  | false =>
    have hd : (haltListener i s).openLinks ≤ d := hs
    have hhalted : ((haltListener i s).listener i).stopped = true := by
      show ((s.modifyListener i Listener.halted).listener i).stopped = true
      rw [listener_modifyListener_self hi]
      rfl
    rw [shutdownListener_eq tear h]
    exact (foldl_course hd (fun s l hs => closeWith_course hT hs l .shutdown) _).stopped hhalted

/-- All listeners that are shut down one after the other are so in the end. -/
private theorem shutdownAll_stopped (hT : Tears d tear) (hs : s.openLinks ≤ d) (is : List Nat) :
    ∀ i ∈ is, i < s.listeners.length →
      ((is.foldl (fun s i => shutdownListener tear i s) s).listener i).stopped = true := by
  induction is generalizing s with
  | nil => exact nofun
  | cons j is ih =>
    intro i hi hlt
    have hj := shutdownListener_course hT hs j
    have hd := Nat.le_trans hj.openLinks_le hs
    rcases List.mem_cons.1 hi with rfl | hi
    · exact (foldl_course hd (fun s i hs => shutdownListener_course hT hs i) is).stopped
        (shutdownListener_stopped hT hs hlt)
    · exact ih hd i hi (hj.length.symm ▸ hlt)

theorem trigger_course (hT : Tears d tear) (hs : s.openLinks ≤ d) (reason : Shutdown.Reason) :
    Course s (trigger tear reason s).2 := by
  unfold trigger
  split
  · exact .refl s
  · next h =>
    have hd : openLinks { s with signal := some reason } ≤ d := hs
    exact .halt (.all reason h)
      (foldl_course hd (fun s i hs => shutdownListener_course hT hs i) _)
      (fun i hi => shutdownAll_stopped hT hd _ i (List.mem_range.2 hi) hi) (.refl _)

/-! ## Timers -/

/-- The timer is the deadline of one link only. -/
private theorem spent_of_deadline {t g : Nat} (ha : s.alarms[t]? = some (.deadline l g))
    (h : ∀ k, s.link? l = some k → k.waitGeneration = g → k.closed = false →
      k.request.isParked = false) : s.Spent t := by
  intro m k hk hm hc
  obtain ⟨rfl, rfl⟩ : l = m ∧ g = k.waitGeneration := by
    simpa using Option.some.inj (ha.symm.trans hm)
  exact h k hk rfl hc

/-- The pool starts the same callback whether a timer is taken back before or after. -/
theorem start_cancel {x x' : Timer.Scheduler} {place : Nat} {task : Timer.Task}
    (h : x.start place = some (task, x')) (t : Nat) :
    (x.cancel t).2.start place = some (task, (x'.cancel t).2) := by
  unfold Timer.Scheduler.start at h
  split at h
  next => cases h
  next ready hready =>
    cases h
    unfold Timer.Scheduler.cancel Timer.Scheduler.start
    dsimp only
    cases (x.heap.remove x.table t).1 <;> simp only [hready, if_true, Bool.false_eq_true, if_false]

/-- A callback that seizes a link starts as well once the teardown has begun. -/
private theorem rang_beginTearDown {place g : Nat} {task : Timer.Task} {x : Timer.Scheduler}
    (hstart : s.scheduler.start place = some (task, x))
    (ha : s.alarms[task.timer]? = some (.deadline l g)) (hk : s.link? l = some k) :
    Change (beginTearDown l reason s) (beginTearDown l reason { s with scheduler := x }) := by
  have hk' : link? { s with scheduler := x } l = some k := hk
  rw [beginTearDown_eq hk, beginTearDown_eq hk']
  have hstart : Timer.Scheduler.start
      (k.deadline.elim s.scheduler fun t => (s.scheduler.cancel t).2) place =
        some (task, k.deadline.elim x fun t => (x.cancel t).2) := by
    cases k.deadline with
    | none => exact hstart
    | some t => exact start_cancel hstart t
  refine .rang hstart (spent_of_deadline (l := l) (g := g) ha ?_)
  intro k' hk' _ hc
  have hk' : (s.setLink l (k.marked reason)).link? l = some k' := hk'
  rw [link?_setLink_self hk] at hk'
  cases hk'
  rw [Link.closed_marked] at hc
  cases hc

section Deadline

variable {place g : Nat} {task : Timer.Task} {x : Timer.Scheduler}
  (hstart : s.scheduler.start place = some (task, x))
  (ha : s.alarms[task.timer]? = some (.deadline l g))

/-- A deadline that finds its link not parked hands nothing on. Only a suspended request that is not
parked yet takes the deadline with it. -/
private theorem late_course {w : Connection.Request.Waking} {r : Connection.Request}
    (hk : s.link? l = some k) (hd : k.isDriven = false) (hr : k.request.wake = (w, r))
    (hw : w ≠ .resume) : r.isParked = false ∧ Course s (s.setLink l { k with request := r }) := by
  cases hq : k.request with
  | asyncStart =>
    rw [hq] at hr
    cases hr
    exact ⟨rfl, .single (.touched hk (.late hd hq))⟩
  | keepalive | suspend =>
    rw [hq] at hr
    cases hr
    exact absurd rfl hw
  | _ =>
    -- There is nothing to wake.
    rw [hq] at hr
    cases hr
    rw [← hq, setLink_self hk, hq]
    exact ⟨rfl, .refl s⟩

include hstart ha

/-- The callback of a deadline only starts where it finds nothing to wake. -/
private theorem rang_of_unparked (h : ∀ k, s.link? l = some k → k.waitGeneration = g →
    k.closed = false → k.request.isParked = false) : Course s { s with scheduler := x } :=
  .single (.rang hstart (spent_of_deadline ha h))

/-- Where it writes to the link, it starts as well after that: nothing is left to wake. -/
private theorem rang_setLink (hk : s.link? l = some k) (hp : k'.request.isParked = false) :
    Course (s.setLink l k') { s.setLink l k' with scheduler := x } := by
  refine rang_of_unparked (s := s.setLink l k') hstart ha fun y hy _ _ => ?_
  cases (link?_setLink_self hk k').symm.trans hy
  exact hp

/-- The pool does not take the link that a deadline woke, so that is torn down, unless it was
before. -/
private theorem expire_refused (hT : Tears d tear) (hs : s.openLinks ≤ d) (hk : s.link? l = some k)
    (hd : k.isDriven = false) (hp : k.request.isParked = true)
    (hk' : k' = { k with request := .request, expiredGeneration := some k.waitGeneration }) :
    Course s (tear l .shutdown { s.setLink l k' with scheduler := x }) := by
  have hc' : k'.closed = k.closed := hk' ▸ rfl
  cases hc : k.closed with
  | false =>
    have hz : k.Seized .shutdown k' := hk' ▸ .refused hc hp (.inr ⟨hd, rfl⟩)
    exact seize_course hT hs hk hz rfl
      (.single (rang_beginTearDown (s := s.setLink l k') hstart ha (link?_setLink_self hk _)))
  | true =>
    have hs' : openLinks { s.setLink l k' with scheduler := x } ≤ d := by
      have hlinks : openLinks { s.setLink l k' with scheduler := x } =
          (s.setLink l k').openLinks := openLinks_congr rfl
      rw [hlinks, openLinks_setLink hk hc']
      exact hs
    have htear : tear l .shutdown { s.setLink l k' with scheduler := x } =
        { s.setLink l k' with scheduler := x } :=
      tear_of_closed hT hs' (link?_setLink_self hk k') (hc'.trans hc)
    rw [htear]
    have hv : k.Touched k' := hk' ▸ .vain hc hp _
    exact .change (.touched hk hv) (rang_setLink hstart ha hk (hk' ▸ rfl))

/-- **A deadline that takes a parked link over hands it to the pool.** -/
private theorem expire_course (hT : Tears d tear) (hs : s.openLinks ≤ d) (hk : s.link? l = some k)
    (hd : k.isDriven = false) (hp : k.request.isParked = true)
    (hk' : k' = { k with request := .request, expiredGeneration := some k.waitGeneration }) :
    Course s (schedule tear l .resume { s.setLink l k' with scheduler := x }).2 := by
  unfold schedule
  split
  · exact expire_refused hstart ha hT hs hk hd hp hk'
  · have hh : k.Handed k' := hk' ▸ .expired hd hp
    refine .change (.handed hk hh) (rang_of_unparked
      (s := { s.setLink l k' with tasks := s.tasks ++ [_] }) hstart ha fun y hy _ _ => ?_)
    cases (link?_setLink_self hk k').symm.trans hy
    rw [hk']
    rfl

/-- A callback that takes a link over, or finds nothing to do, is of no further use. -/
private theorem deadlineFired_course (hT : Tears d tear) (hs : s.openLinks ≤ d) :
    Course s (deadlineFired tear task.timer l g { s with scheduler := x }) := by
  unfold deadlineFired
  split
  next hk =>
    refine rang_of_unparked hstart ha fun k hk' => ?_
    rw [show s.link? l = none from hk] at hk'
    cases hk'
  next k hk =>
  have hk : s.link? l = some k := hk
  have hlink : ∀ k', s.link? l = some k' → k' = k := fun k' h => Option.some.inj (h.symm.trans hk)
  split
  next hd =>
    split
    next hcurrent =>
      obtain ⟨rfl, hc⟩ := hcurrent
      exact .single (.again hstart (.inl ⟨l, k, hk, ha, by simpa using hc⟩) deadlineRetry)
    next hcurrent =>
      refine rang_of_unparked hstart ha fun k' hk' hg hc => ?_
      obtain rfl := hlink k' hk'
      exact absurd ⟨hg, by simpa using hc⟩ hcurrent
  next hd =>
    have hd : k.isDriven = false := Bool.not_eq_true _ ▸ hd
    split
    next hg =>
      refine rang_of_unparked hstart ha fun k' hk' hg' _ => ?_
      obtain rfl := hlink k' hk'
      exact absurd hg' hg
    next hg =>
    obtain rfl : k.waitGeneration = g := Decidable.of_not_not hg
    split
    next r hr =>
      obtain ⟨hp, rfl⟩ := Connection.Request.wake_eq_resume hr
      exact expire_course hstart ha hT hs hk hd hp rfl
    next w r hw hr =>
      obtain ⟨hp, hcourse⟩ := late_course hk hd hr hw
      exact hcourse.trans (rang_setLink hstart ha hk hp)

end Deadline

private theorem housekeeping_course {place i : Nat} {task : Timer.Task} {x : Timer.Scheduler}
    (hstart : s.scheduler.start place = some (task, x))
    (ha : s.alarms[task.timer]? = some (.housekeeping i)) :
    Course s (housekeeping task.timer i { s with scheduler := x }) := by
  refine .change (.listener i .trim) ?_
  generalize htrim : s.modifyListener i (fun x =>
    { x with buffers := (x.buffers.trim (x.buffers.places / 2)).2 }) = t
  have hstart : t.scheduler.start place = some (task, x) := htrim ▸ hstart
  have ha : t.alarms[task.timer]? = some (.housekeeping i) := htrim ▸ ha
  have hhouse : housekeeping task.timer i { s with scheduler := x } =
      if t.isShuttingDown i then { t with scheduler := x }
      else { t with scheduler :=
        (x.queue task.timer t.now (t.listener i).settings.housekeepingInterval).2 } := by
    rw [← htrim]
    rfl
  rw [hhouse]
  split
  next =>
    refine .single (.rang hstart ?_)
    intro l k _ h
    cases ha.symm.trans h
  next h => exact .single (.again hstart (.inr ⟨i, ha, Bool.eq_false_iff.2 h⟩) _)

/-- **A callback that starts, and what it does, is a course.** -/
private theorem alarm_course (hT : Tears d tear) (hs : s.openLinks ≤ d) {place : Nat}
    {task : Timer.Task} {x : Timer.Scheduler}
    (hstart : s.scheduler.start place = some (task, x)) :
    Course s (alarm tear task.timer { s with scheduler := x }) := by
  unfold alarm
  split
  next ha =>
    refine .single (.rang hstart ?_)
    intro l k _ h
    cases (show s.alarms[task.timer]? = none from ha).symm.trans h
  next ha => exact deadlineFired_course hstart ha hT hs
  next ha => exact housekeeping_course hstart ha

theorem runTimer_course (hT : Tears d tear) (hs : s.openLinks ≤ d) {place : Nat}
    (h : runTimer tear place s = some t) : Course s t := by
  unfold runTimer at h
  split at h
  · cases h
  · next task scheduler hstart =>
    have halarm := alarm_course hT hs hstart
    have hfinish := halarm.trans (.single (.scheduler (.finish _ 0 false)))
    simp only [Option.some.injEq] at h
    subst h
    split
    · exact hfinish.trans (.single (.scheduler (.coordinate _ _)))
    · exact hfinish

private theorem runTimersWithin_course (hT : Tears d tear) :
    ∀ (fuel : Nat) (s : Engine), s.openLinks ≤ d → Course s (runTimersWithin tear s fuel).2
  | 0, s, _ => .refl s
  | fuel + 1, s, hs => by
    unfold runTimersWithin
    split
    · exact .refl s
    · next t ht =>
      have h := runTimer_course hT hs ht
      exact h.trans (runTimersWithin_course hT fuel t (Nat.le_trans h.openLinks_le hs))

theorem elapse_course (millis : Nat) (s : Engine) : Course s (s.elapse millis) :=
  .change (.pass millis) (.change (.scheduler (.sample _)) (.single (.scheduler (.coordinate _ _))))

/-! ## Operations and teardown -/

/-- Whatever operation is done is a course. -/
theorem performWith_course (hT : Tears d tear) (hs : s.openLinks ≤ d) (self : Nat)
    (op : Operation) : Course s (performWith tear self op s).2 := by
  have hreach : ∀ (l : Nat) (f : Engine → Link.Answer × Engine), Course s (f s).2 →
      Course s (s.withReachable l f).2 := by
    intro l f hf
    unfold withReachable
    split
    · exact hf
    · exact .refl s
  unfold performWith
  cases op with
  | wake name =>
    simp only
    split
    · exact .refl s
    · exact wakeComet_course hT hs _
  | isCurrent name =>
    simp only
    split <;> exact .refl s
  | notify l => exact hreach _ _ (notify_course hT hs _)
  | killKeepalive l =>
    refine hreach _ _ ?_
    cases hk : s.link? (l.getD self) with
    | none =>
      rw [modifyLink_of_none hk]
      exact .refl s
    | some k =>
      rw [modifyLink_eq_setLink hk]
      exact .single (.touched hk (.kill k))
  | close l reason => exact hreach _ _ (closeWith_course hT hs _ _)
  | feed l bytes => exact .single (.socket _ (.feed bytes))
  | hangUp l => exact .single (.socket _ .hangUp)
  | spoil l call kinds => exact .single (.socket _ (.addFailures call kinds))
  | shutdown i => exact shutdownListener_course hT hs i
  | trigger reason => exact trigger_course hT hs reason
  | refuse on => exact .single (.refuse on)
  | stopScheduler => exact .single (.scheduler (.shutdown _))
  | script i more => exact .single (.listener i (.extend more))
  | elapse millis => exact elapse_course _ s
  | runTimers => exact runTimersWithin_course hT _ s hs

/-- Noting upon a link, where others may, is a course. -/
theorem note_course (l : Nat) (n : Link.Note) (s : Engine)
    (h : ∀ k, s.link? l = some k → k.Touched (k.note n)) : Course s (s.note l n) := by
  cases hk : s.link? l with
  | none =>
    rw [show s.note l n = s from modifyLink_of_none hk _]
    exact .refl s
  | some k =>
    rw [note_eq_setLink hk]
    exact .single (.touched hk (h k hk))

private theorem performNoted_course (hT : Tears d tear) (hs : s.openLinks ≤ d) (self : Nat)
    (ops : List NamedOperation) : Course s (performNoted tear self ops s) := by
  refine foldl_course hs ?_ ops
  intro s op hs
  refine (performWith_course hT hs self op.operation).trans ?_
  exact note_course self _ _ fun k _ => .did k _ _

/-- A closed link stays closed in a course. -/
theorem Course.closed (h : Course s t) (hk : s.link? l = some k) (hc : k.closed = true) :
    ∃ k', t.link? l = some k' ∧ k'.closed = true := by
  obtain ⟨w, hw, hvw⟩ := h.stand (stand?_of_link? hk)
  exact ⟨w.link, (stand?_eq_some.1 hw).1, hvw.closed hc⟩

/-- Calling the close hook is a course. -/
private theorem callClose_course (hT : Tears d tear) (hk : s.link? l = some k)
    (hc : k.closed = true) (hs : s.openLinks ≤ d) (reason : CloseReason) :
    Course (s.note l (.closing reason)) (callClose tear l reason s) := by
  have hk' : (s.note l (.closing reason)).link? l = some (k.note (.closing reason)) := by
    rw [note_eq_setLink hk]
    exact link?_setLink_self hk _
  have hs' : (s.note l (.closing reason)).openLinks ≤ d := by
    rw [openLinks_note]
    exact hs
  unfold callClose
  rw [hk]
  simp only
  split
  · refine note_course l _ _ ?_
    intro k'' hk''
    rw [hk'] at hk''
    cases hk''
    exact .closeEnded (k := k.note (.closing reason)) hc _
  · have hops := performNoted_course hT hs' l k.handler.close
    refine hops.trans (note_course l _ _ ?_)
    intro k'' hk''
    obtain ⟨x, hx, hxc⟩ := hops.closed hk' hc
    rw [hx] at hk''
    cases hk''
    exact .closeEnded hxc _

/-- A teardown that may go as deep as there are open links tears down. -/
theorem tearDownWithin_tears : ∀ depth, Tears depth (tearDownWithin depth)
  | 0, l, reason, s, hs => by
    unfold tearDownWithin
    cases hk : s.link? l with
    | none => exact .absent hk
    | some k =>
      cases hc : k.closed with
      | true => exact .before hk hc
      | false =>
        -- An open link would be counted, and there are none.
        exact absurd (openLinks_pos hk hc) (by omega)
  | depth + 1, l, reason, s, hs => by
    unfold tearDownWithin
    split
    · next hk => exact .absent hk
    · next k hk =>
      split
      · next hc => exact .before hk hc
      · next hc =>
        have hc : k.closed = false := Bool.not_eq_true _ ▸ hc
        refine .now hk hc ?_
        have hk' := link?_markClosed hk reason
        refine callClose_course (tearDownWithin_tears depth) hk' (k.closed_shut reason) ?_ reason
        -- One link less is open once this one is marked.
        have := openLinks_beginTearDown hk hc reason
        unfold beginTearDown at this
        rw [openLinks_note] at this
        omega

/-- **A link is torn down at most once, and when it is, the close hook runs its
course between the marking of the link and the return of what it had.** -/
theorem tearDown_tornDown (l : Nat) (reason : CloseReason) (s : Engine) :
    TornDown l reason s (tearDown l reason s) :=
  tearDownWithin_tears s.openLinks l reason s (Nat.le_refl _)

theorem tears_tearDown (depth : Nat) : Tears depth tearDown :=
  fun l reason s _ => tearDown_tornDown l reason s

theorem runTimers_course (s : Engine) : Course s (runTimers tearDown s).2 :=
  runTimersWithin_course (tears_tearDown s.openLinks) _ s (Nat.le_refl _)

theorem perform_course (self : Nat) (op : Operation) (s : Engine) :
    Course s (perform self op s).2 :=
  performWith_course (tears_tearDown _) (Nat.le_refl _) self op

end LinkEngine.Engine

import LinkEngine.Proofs.Deadlines
import LinkEngine.Proofs.Punctuality

/-!
# No deadline rings early

The deadline of a wait is bound to its wake time when it is queued, and the coordinator takes it
out no earlier. So as long as a time `d` has not come, no timer of the present wait of a link
is out that was bound to `d` or later (`Withholds`), and the link is not timed out (`Bides`).
Nothing that others do changes that: wakers, operations and teardowns are gone through once
(`perform_bides`), then the steps of the tasks of other links (`stepLink_bides`) and the moves
of a run (`move_bides`).
-/

namespace LinkEngine

open Connection (CloseReason)

namespace Timer.Scheduler

variable {s s' : Scheduler} {t d now place : Nat} {task : Task}

/-! ## Timers that are withheld -/

/-- Timer `t` is not out, and if it is queued it wakes at time `d` or later. -/
structure Withholds (d t : Nat) (s : Scheduler) : Prop where
  out : t ∉ s.outstanding
  bound : ∀ wake, s.bindings.lookup t = some wake → d ≤ wake

theorem Withholds.drops (h : s.Withholds d t) (hd : Drops s s')
    (ho : t ∈ s'.outstanding → t ∈ s.outstanding) : s'.Withholds d t :=
  ⟨fun ht => h.out (ho ht), fun wake hw => h.bound wake (hd t wake hw)⟩

theorem Withholds.same (h : s.Withholds d t) (hb : s'.bindings = s.bindings)
    (ho : s'.outstanding = s.outstanding) : s'.Withholds d t :=
  h.drops (.of_eq hb) fun ht => ho ▸ ht

/-- What is handed on is what was taken out. -/
private theorem Passed.mem_outstanding (h : Passed s t s') {u : Nat} (hu : u ∈ s'.outstanding) :
    u = t ∨ u ∈ s.outstanding := by
  rcases h.handed with ⟨-, hperm⟩ | ⟨-, hsame⟩
  · exact List.mem_cons.1 (hperm.mem_iff.1 hu)
  · exact .inr (hsame ▸ hu)

/-- **The coordinator takes out no timer before its time.** -/
theorem Withholds.coordinate (hs : s.Fit) (h : s.Withholds d t) (hnow : now < d)
    (hc : s.coordinate now = some s') : s'.Withholds d t := by
  refine h.drops (drops_coordinate hs.whole hc) fun ht => ?_
  obtain ⟨-, ⟨u, throttle, hwaiting, hp⟩ | ⟨-, u, heap, table, hpop, hp⟩⟩ := coordinate_cases hc
  · -- The timer it waited with was out already.
    rcases hp.mem_outstanding ht with rfl | ht
    · exact List.mem_append_left _ (by rw [hwaiting]; exact List.mem_singleton_self _)
    · exact List.mem_append_right _ ht
  · rcases hp.mem_outstanding ht with rfl | ht
    · obtain ⟨⟨wake, hwake, hdue, -⟩, -⟩ := Heap.popDue_bindings hs.whole.kept hpop
      have := h.bound wake hwake
      omega
    · exact ht

theorem Withholds.coordinateAll (hs : s.Fit) (h : s.Withholds d t) (hnow : now < d) (fuel : Nat) :
    (s.coordinateAll now fuel).Withholds d t := by
  induction fuel generalizing s with
  | zero => exact h
  | succ fuel ih =>
    unfold Scheduler.coordinateAll
    split
    next => exact h
    next s' hc => exact ih (hs.coordinate hc).fit (h.coordinate hs hnow hc)

/-- **Whatever is done with a scheduler before the time, a timer that is withheld stays so.** -/
theorem Withholds.stirred (hs : s.Fit) (h : s.Withholds d t) (hnow : now < d)
    (hx : Stirred now s s') : s'.Withholds d t := by
  cases hx with
  | sample => exact h.same rfl rfl
  | coordinate fuel => exact h.coordinateAll hs hnow fuel
  | finish place panicked =>
    exact h.drops (drops_finish s place panicked) fun ht =>
      (s.finish_same place panicked).2.1 ▸ ht
  | shutdown => exact h.drops (drops_shutdown hs.whole) (hs.halts.2 t)

theorem Withholds.cancel (hs : s.Fit) (h : s.Withholds d t) (u : Nat) :
    (s.cancel u).2.Withholds d t :=
  h.drops (drops_cancel hs.whole u) fun ht => (hs.cancel u).2.2.1 ▸ ht

/-- The callback that starts is another's. -/
theorem Withholds.start (hs : s.Fit) (h : s.Withholds d t)
    (hstart : s.start place = some (task, s')) :
    s'.Withholds d t ∧ task.timer ≠ t := by
  obtain ⟨-, -, -, hperm⟩ := hs.start hstart
  refine ⟨h.drops (drops_start hstart) fun ht => hperm.mem_iff.2 (List.mem_cons_of_mem _ ht), ?_⟩
  rintro rfl
  exact h.out (hperm.mem_iff.2 List.mem_cons_self)

/-- Queuing another timer changes nothing. -/
theorem Withholds.queue (hs : s.Fit) (h : s.Withholds d t) {u : Nat} (hu : u ≠ t)
    (delay : Time.Duration) : (s.queue u now delay).2.Withholds d t := by
  refine ⟨fun ht => h.out ((hs.queue u now delay).2.1 ▸ ht), fun wake hw => h.bound wake ?_⟩
  rcases queue_bindings hs.whole u now delay with ⟨-, hb⟩ | ⟨-, hb⟩
  · rwa [hb, Finmap.lookup_insert_of_ne _ (Ne.symm hu)] at hw
  · rwa [hb] at hw

/-- A new timer is withheld until its wake time. -/
theorem Withholds.queued (hs : s.Fit) (ht : ¬ s.IsAfoot t) (delay : Time.Duration)
    (hd : d ≤ wakeTime s.settings s.clock.approx now delay) :
    (s.queue t now delay).2.Withholds d t := by
  refine ⟨fun hout => ht (.inr ((hs.queue t now delay).2.1 ▸ hout)), fun wake hw => ?_⟩
  rcases queue_bindings hs.whole t now delay with ⟨-, hb⟩ | ⟨-, hb⟩
  · rw [hb, Finmap.lookup_insert] at hw
    exact Option.some.inj hw ▸ hd
  · -- It was not queued before.
    rw [hb] at hw
    exact absurd (.inl (Heap.lookup_bindings_eq_some.1 hw).1) ht

end Timer.Scheduler

/-! ## Links that bide their time -/

/-- Where the link is open still, it is in the same wait, and no other wait timed out. -/
def Link.Stays (k k' : Link) : Prop :=
  k'.closed = false → k.closed = false ∧ k'.waitGeneration = k.waitGeneration ∧
    k'.expiredGeneration = k.expiredGeneration

theorem Link.Stays.of_closed {k k' : Link} (h : k'.closed = true) : k.Stays k' :=
  fun hc => absurd (h.symm.trans hc).symm Bool.false_ne_true

namespace Engine

variable {l m d : Nat} {s t : Engine} {k k' : Link}

/-- The link has not timed out, and no timer of its present wait rings before time `d`. -/
structure Pends (l d : Nat) (s : Engine) : Prop where
  fit : s.scheduler.Fit
  link : ∃ k, s.link? l = some k ∧ (k.closed = false → k.isTimedOut = false ∧
    ∀ u, s.alarms[u]? = some (.deadline l k.waitGeneration) → s.scheduler.Withholds d u)

/-- As long as time `d` has not come the link does not time out. -/
def Bides (l d : Nat) (s : Engine) : Prop := s.now < d → s.Pends l d

theorem Bides.of (h : s.Bides l d) (hnow : s.now ≤ t.now)
    (hf : s.scheduler.Fit → t.now < d → t.scheduler.Fit)
    (hl : ∀ k, s.link? l = some k → ∃ k', t.link? l = some k' ∧ k.Stays k')
    (ha : ∀ u g : Nat, t.alarms[u]? = some (Alarm.deadline l g) →
      s.alarms[u]? = some (Alarm.deadline l g))
    (hx : ∀ u g : Nat, s.scheduler.Fit → t.now < d → s.alarms[u]? = some (Alarm.deadline l g) →
      s.scheduler.Withholds d u → t.scheduler.Withholds d u) : t.Bides l d := by
  intro hd
  obtain ⟨hfit, k, hk, hlink⟩ := h (Nat.lt_of_le_of_lt hnow hd)
  obtain ⟨k', hk', hstays⟩ := hl k hk
  refine ⟨hf hfit hd, k', hk', fun hc => ?_⟩
  obtain ⟨hc, hg, he⟩ := hstays hc
  obtain ⟨hout, htimers⟩ := hlink hc
  refine ⟨?_, fun u hu => ?_⟩
  · unfold Link.isTimedOut at hout ⊢
    rwa [hg, he]
  · rw [hg] at hu
    exact hx u _ hfit hd (ha u _ hu) (htimers u (ha u _ hu))

/-- Nothing that is not about the link, its timers and the time matters. -/
theorem Bides.same (h : s.Bides l d) (hl : t.link? l = s.link? l)
    (hx : t.scheduler = s.scheduler) (ha : t.alarms = s.alarms) (hnow : s.now ≤ t.now) :
    t.Bides l d :=
  h.of hnow (fun hf _ => hx ▸ hf) (fun k hk => ⟨k, hl.trans hk, fun hc => ⟨hc, rfl, rfl⟩⟩)
    (fun _ _ hu => ha ▸ hu) fun _ _ _ _ _ hw => hx ▸ hw

/-- A link is written to. -/
theorem Bides.setLink (h : s.Bides l d) (hk : s.link? m = some k) (hs : k.Stays k') :
    (s.setLink m k').Bides l d := by
  refine h.of (Nat.le_refl _) (fun hf _ => hf) (fun x hx => ?_) (fun _ _ hu => hu)
    fun _ _ _ _ _ hw => hw
  by_cases hm : l = m
  · subst hm
    cases hk.symm.trans hx
    exact ⟨k', link?_setLink_self hk k', hs⟩
  · exact ⟨x, (link?_setLink_ne hm s k').trans hx, fun hc => ⟨hc, rfl, rfl⟩⟩

/-- A link is written to where it matters to no wait. -/
theorem Bides.modifyLink (h : s.Bides l d) (m : Nat) {f : Link → Link}
    (hf : ∀ k : Link, k.Stays (f k)) :
    (s.modifyLink m f).Bides l d := by
  cases hk : s.link? m with
  | none =>
    rw [modifyLink_of_none hk]
    exact h
  | some k =>
    rw [modifyLink_eq_setLink hk]
    exact h.setLink hk (hf k)

theorem Bides.note (h : s.Bides l d) (m : Nat) (n : Link.Note) : (s.note m n).Bides l d :=
  h.modifyLink m fun _ hc => ⟨hc, rfl, rfl⟩

theorem Bides.modifySocket (h : s.Bides l d) (m : Nat)
    (f : Socket.Endpoint Operation → Socket.Endpoint Operation) :
    (Engine.modifySocket m f s).Bides l d := by
  refine h.of (Nat.le_refl _) (fun hf _ => hf) (fun x hx => ?_) (fun _ _ hu => hu)
    fun _ _ _ _ _ hw => hw
  rw [link?_modifySocket, hx]
  split
  · exact ⟨_, rfl, fun hc => ⟨hc, rfl, rfl⟩⟩
  · exact ⟨x, rfl, fun hc => ⟨hc, rfl, rfl⟩⟩

theorem Bides.listener (h : s.Bides l d) (i : Nat) (f : Listener → Listener) :
    (s.modifyListener i f).Bides l d :=
  h.same rfl rfl rfl (Nat.le_refl _)

theorem Bides.pass (h : s.Bides l d) (millis : Nat) :
    Bides l d { s with now := s.now + millis } :=
  h.same rfl rfl rfl (Nat.le_add_right _ _)

/-- What is done with the scheduler before the time withholds its timers. -/
theorem Bides.stirred (h : s.Bides l d) {x : Timer.Scheduler}
    (hx : s.scheduler.Stirred s.now x) : Bides l d { s with scheduler := x } :=
  h.of (Nat.le_refl _) (fun hf _ => (hf.stirred hx).fit)
    (fun k hk => ⟨k, hk, fun hc => ⟨hc, rfl, rfl⟩⟩) (fun _ _ hu => hu)
    fun _ _ hf hnow _ hw => hw.stirred hf hnow hx

theorem Bides.cancelTimer (h : s.Bides l d) (u : Nat) : (s.cancelTimer u).Bides l d :=
  h.of (Nat.le_refl _) (fun hf _ => (hf.cancel u).1)
    (fun k hk => ⟨k, hk, fun hc => ⟨hc, rfl, rfl⟩⟩) (fun _ _ hu => hu)
    fun _ _ hf _ _ hw => hw.cancel hf u

/-- A timer is queued that is none of the link, or the time has come. -/
theorem Bides.queueTimer (h : s.Bides l d) {u : Nat}
    (hu : s.now < d → ∀ g : Nat, s.alarms[u]? ≠ some (Alarm.deadline l g))
    (delay : Time.Duration) : (s.queueTimer u delay).2.Bides l d :=
  h.of (Nat.le_refl _) (fun hf _ => (hf.queue u s.now delay).1)
    (fun k hk => ⟨k, hk, fun hc => ⟨hc, rfl, rfl⟩⟩) (fun _ _ hu => hu)
    fun _ _ hf hnow ha hw => hw.queue hf (fun heq => hu hnow _ (heq ▸ ha)) delay

/-- What others do one after the other. -/
theorem Bides.foldl {α : Type} {f : Engine → α → Engine}
    (hf : ∀ s a, s.Bides l d → (f s a).Bides l d) (xs : List α) (h : s.Bides l d) :
    (xs.foldl f s).Bides l d := by
  induction xs generalizing s with
  | nil => exact h
  | cons a xs ih => exact ih (hf s a h)

/-! ## Wakers -/

/-- A way to tear down that lets the link bide its time. -/
def Forbears (l d : Nat) (tear : Teardown) : Prop :=
  ∀ m reason s, s.Bides l d → (tear m reason s).Bides l d

variable {tear : Teardown}

theorem schedule_bides (hT : Forbears l d tear) (m : Nat) (entry : Link.Entry)
    (h : s.Bides l d) : (schedule tear m entry s).2.Bides l d := by
  unfold schedule
  split
  · exact hT m _ s h
  · exact h.same rfl rfl rfl (Nat.le_refl _)

theorem notify_bides (hT : Forbears l d tear) (m : Nat) (h : s.Bides l d) :
    (notify tear m s).2.Bides l d := by
  unfold notify
  split
  · exact h
  next k hk =>
  split
  · exact schedule_bides hT m _ (h.setLink hk fun hc => ⟨hc, rfl, rfl⟩)
  · exact h

theorem wakeComet_bides (hT : Forbears l d tear) (handle : Handle) (h : s.Bides l d) :
    (wakeComet tear handle s).2.Bides l d := by
  unfold wakeComet
  split
  · exact h
  next k hk =>
  split
  · exact h
  have hset : ∀ r, (s.setLink handle.link { k with request := r }).Bides l d := fun r =>
    h.setLink hk fun hc => ⟨hc, rfl, rfl⟩
  split
  next r _ =>
    have hscheduled := schedule_bides hT handle.link .resume (hset r)
    split
    next heq =>
      rw [heq] at hscheduled
      exact hscheduled.note _ _
    next heq =>
      rw [heq] at hscheduled
      exact hscheduled
  · exact (hset _).note _ _
  · exact h

/-- A deadline of the link fires no earlier than at its time; those of others do not matter. -/
theorem deadlineFired_bides (hT : Forbears l d tear) {u g : Nat} (h : s.Bides l d)
    (ha : s.alarms[u]? = some (.deadline m g))
    (hdue : ∀ k, s.link? l = some k → k.closed = false → m = l → k.waitGeneration = g →
      d ≤ s.now) : (deadlineFired tear u m g s).Bides l d := by
  unfold deadlineFired
  split
  · exact h
  next k hk =>
  split
  · split
    next hcurrent =>
      refine h.queueTimer (fun hnow g' hg' => ?_) _
      -- It is asked again, and it was out: so its time has come, if it is one of the link.
      obtain ⟨rfl, rfl⟩ := Alarm.deadline.inj (Option.some.inj (ha.symm.trans hg'))
      exact Nat.not_le_of_lt hnow (hdue k hk (by simpa using hcurrent.2) rfl hcurrent.1)
    · exact h
  split
  · exact h
  next hg =>
  have hg : k.waitGeneration = g := Decidable.of_not_not hg
  split
  next r _ =>
    refine schedule_bides hT m _ ?_
    by_cases hm : m = l
    · subst hm
      by_cases hc : k.closed = true
      · exact h.setLink hk (.of_closed hc)
      · have hc : k.closed = false := Bool.not_eq_true _ ▸ hc
        exact fun hnow => absurd (hdue k hk hc rfl hg) (Nat.not_le_of_lt hnow)
    · exact h.same (link?_setLink_ne (Ne.symm hm) _ _) rfl rfl (Nat.le_refl _)
  · exact h.setLink hk fun hc => ⟨hc, rfl, rfl⟩

theorem stays_interrupt (k : Link) : k.Stays k.interrupt := by
  unfold Link.interrupt
  split <;> exact fun hc => ⟨hc, rfl, rfl⟩

theorem closeWith_bides (hT : Forbears l d tear) (m : Nat) (reason : CloseReason)
    (h : s.Bides l d) : (closeWith tear m reason s).Bides l d := by
  unfold closeWith
  split
  · exact h
  next k hk =>
  split
  · exact h
  dsimp only
  split
  · exact hT m _ _ (h.setLink hk fun hc => ⟨hc, rfl, rfl⟩)
  · refine h.setLink hk fun hc => ?_
    exact stays_interrupt _ hc

theorem closeAll_bides (hT : Forbears l d tear) (ms : List Nat) (reason : CloseReason)
    (h : s.Bides l d) : (closeAll tear ms reason s).Bides l d :=
  .foldl (fun _ m h => closeWith_bides hT m reason h) ms h

theorem shutdownListener_bides (hT : Forbears l d tear) (i : Nat) (h : s.Bides l d) :
    (shutdownListener tear i s).Bides l d := by
  unfold shutdownListener
  dsimp only
  split
  · exact h
  refine closeAll_bides hT _ _ ?_
  cases (s.listener i).housekeeping with
  | none => exact h.listener i _
  | some u => exact (h.listener i _).cancelTimer u

theorem trigger_bides (hT : Forbears l d tear) (reason : Shutdown.Reason) (h : s.Bides l d) :
    (trigger tear reason s).2.Bides l d := by
  unfold trigger
  split
  · exact h
  · exact .foldl (fun _ i h => shutdownListener_bides hT i h) _
      (h.same rfl rfl rfl (Nat.le_refl _))

/-! ## Timers -/

theorem housekeeping_bides {u i : Nat} (ha : s.alarms[u]? = some (.housekeeping i))
    (h : s.Bides l d) : (housekeeping u i s).Bides l d := by
  unfold housekeeping
  dsimp only
  split
  · exact h.listener i _
  · refine (h.listener i _).queueTimer (fun _ g hg => ?_) _
    cases ha.symm.trans hg

/-- **A callback that runs before the time is none of the link.** -/
theorem runTimer_bides (hT : Forbears l d tear) {place : Nat} (h : s.Bides l d)
    (hrun : runTimer tear place s = some t) : t.Bides l d := by
  unfold runTimer at hrun
  split at hrun
  · cases hrun
  next task x hstart =>
  have hstarted : Bides l d { s with scheduler := x } :=
    h.of (Nat.le_refl _) (fun hf _ => (hf.start hstart).1)
      (fun k hk => ⟨k, hk, fun hc => ⟨hc, rfl, rfl⟩⟩) (fun _ _ hu => hu)
      fun _ _ hf _ _ hw => (hw.start hf hstart).1
  have halarm : (alarm tear task.timer { s with scheduler := x }).Bides l d := by
    unfold alarm
    split
    · exact hstarted
    next m g ha =>
      refine deadlineFired_bides hT hstarted ha fun k hk hc hm hg => ?_
      subst hm hg
      -- It was out already, and of the link no timer is before its time.
      by_contra hnow
      obtain ⟨hf, k', hk', hlink⟩ := h (Nat.lt_of_not_le hnow)
      cases hk.symm.trans hk'
      exact ((hlink hc).2 _ ha).start hf hstart |>.2 rfl
    next i ha => exact housekeeping_bides ha hstarted
  have hfinished := halarm.stirred (.finish _ 0 false)
  simp only [Option.some.injEq] at hrun
  subst hrun
  split
  · exact hfinished.stirred (.coordinate _ _)
  · exact hfinished

private theorem runTimersWithin_bides (hT : Forbears l d tear) :
    ∀ (fuel : Nat) (s : Engine), s.Bides l d → (runTimersWithin tear s fuel).2.Bides l d
  | 0, _, h => h
  | fuel + 1, s, h => by
    unfold runTimersWithin
    split
    · exact h
    · next t ht => exact runTimersWithin_bides hT fuel t (runTimer_bides hT h ht)

theorem elapse_bides (millis : Nat) (h : s.Bides l d) : (s.elapse millis).Bides l d :=
  ((h.pass millis).stirred (.sample _)).stirred (.coordinate _ _)

/-! ## Operations and teardowns -/

theorem performWith_bides (hT : Forbears l d tear) (self : Nat) (op : Operation)
    (h : s.Bides l d) : (performWith tear self op s).2.Bides l d := by
  have hreach : ∀ (m : Nat) (f : Engine → Link.Answer × Engine), (f s).2.Bides l d →
      (s.withReachable m f).2.Bides l d := by
    intro m f hf
    unfold withReachable
    split
    · exact hf
    · exact h
  unfold performWith
  cases op with
  | wake name =>
    dsimp only
    split
    · exact h
    · exact wakeComet_bides hT _ h
  | isCurrent name =>
    dsimp only
    split <;> exact h
  | notify m => exact hreach _ _ (notify_bides hT _ h)
  | killKeepalive m => exact hreach _ _ (h.modifyLink _ fun _ hc => ⟨hc, rfl, rfl⟩)
  | close m reason => exact hreach _ _ (closeWith_bides hT _ _ h)
  | feed m bytes => exact h.modifySocket _ _
  | hangUp m => exact h.modifySocket _ _
  | spoil m call kinds => exact h.modifySocket _ _
  | shutdown i => exact shutdownListener_bides hT i h
  | trigger reason => exact trigger_bides hT reason h
  | refuse on => exact h.same rfl rfl rfl (Nat.le_refl _)
  | stopScheduler => exact h.stirred (.shutdown _)
  | script i more => exact h.listener i _
  | elapse millis => exact elapse_bides _ h
  | runTimers => exact runTimersWithin_bides hT _ s h

private theorem callClose_bides (hT : Forbears l d tear) (m : Nat) (reason : CloseReason)
    (h : s.Bides l d) : (callClose tear m reason s).Bides l d := by
  unfold callClose
  split
  · exact h
  dsimp only
  split
  · exact (h.note m _).note m _
  · exact (Bides.foldl (fun _ op h => (performWith_bides hT m op.operation h).note m _) _
      (h.note m _)).note m _

private theorem giveBack_bides (m : Nat) (reason : CloseReason) (h : s.Bides l d) :
    (giveBack m reason s).Bides l d := by
  cases hk : s.link? m with
  | none =>
    rw [giveBack_of_none hk]
    exact h
  | some k =>
    rw [giveBack_eq hk]
    have hstays : k.Stays k.gone := fun hc => ⟨hc, rfl, rfl⟩
    exact (h.setLink hk hstays).listener _ _

/-- A link that is marked as closed has no wait any more. -/
private theorem markClosed_bides (m : Nat) (reason : CloseReason) (h : s.Bides l d) :
    (markClosed m reason s).Bides l d := by
  cases hk : s.link? m with
  | none =>
    unfold markClosed
    simp only [modifyLink_of_none, disarm_of_none, hk]
    exact h
  | some k =>
    rw [markClosed_eq hk]
    have hset := h.setLink hk (.of_closed (k.closed_shut reason))
    cases k.deadline with
    | none => exact hset
    | some u => exact hset.cancelTimer u

/-- **Teardowns let a link bide its time**, however deep they go. -/
theorem tearDownWithin_forbears (l d : Nat) : ∀ depth, Forbears l d (tearDownWithin depth)
  | 0, _, _, _, h => h
  | depth + 1, m, reason, s, h => by
    unfold tearDownWithin
    split
    · exact h
    split
    · exact h
    · exact giveBack_bides m reason
        (callClose_bides (tearDownWithin_forbears l d depth) m reason (markClosed_bides m reason h))

theorem tearDown_forbears (l d : Nat) : Forbears l d tearDown :=
  fun m reason s h => tearDownWithin_forbears l d s.openLinks m reason s h

theorem runTimers_bides (h : s.Bides l d) : (runTimers tearDown s).2.Bides l d :=
  runTimersWithin_bides (tearDown_forbears l d) _ s h

theorem perform_bides (self : Nat) (op : Operation) (h : s.Bides l d) :
    (perform self op s).2.Bides l d :=
  performWith_bides (tearDown_forbears l d) self op h

/-! ## The tasks of other links -/

/-- A timer is made that is none of the link, and perhaps queued. -/
private theorem Bides.made (h : s.Bides l d) {a : Alarm} (ha : ∀ g, a ≠ .deadline l g)
    {x : Timer.Scheduler} {delay : Time.Duration} {r : Except Failure Unit}
    (hx : s.scheduler.queue s.alarms.length s.now delay = (r, x)) :
    Bides l d { s with alarms := s.alarms ++ [a], scheduler := x } := by
  have hx : x = (s.scheduler.queue s.alarms.length s.now delay).2 := by rw [hx]
  refine h.of (Nat.le_refl _) (fun hf _ => hx ▸ (hf.queue _ _ _).1)
    (fun k hk => ⟨k, hk, fun hc => ⟨hc, rfl, rfl⟩⟩) (fun u g hu => ?_) fun u g hf _ hu hw => ?_
  · rcases alarm_append hu with ⟨-, hu⟩ | ⟨-, heq⟩
    · exact hu
    · exact absurd heq.symm (ha g)
  · rw [hx]
    exact hw.queue hf (Nat.ne_of_gt (lt_of_alarm hu)) delay

section Others

variable (hm : m ≠ l)
include hm

/-- What is written to another link does not matter. -/
theorem Bides.setOther (h : s.Bides l d) (k : Link) : (s.setLink m k).Bides l d :=
  h.same (link?_setLink_ne (Ne.symm hm) s k) rfl rfl (Nat.le_refl _)

theorem Bides.modifyOther (h : s.Bides l d) (f : Link → Link) : (s.modifyLink m f).Bides l d := by
  cases hk : s.link? m with
  | none =>
    rw [modifyLink_of_none hk]
    exact h
  | some k =>
    rw [modifyLink_eq_setLink hk]
    exact h.setOther hm _

/-- The deadline of another link is set. -/
theorem Bides.armOther (h : s.Bides l d) (delay : Time.Duration) :
    (s.arm m delay).2.Bides l d := by
  cases hk : s.link? m with
  | none =>
    rw [arm_of_none hk]
    exact h
  | some k =>
    have hother : ∀ g, Alarm.deadline m (k.waitGeneration + 1) ≠ .deadline l g := fun g heq =>
      hm (Alarm.deadline.inj heq).1
    rw [arm_eq hk]
    split
    next hq => exact (h.made hother hq).setOther hm _
    next hq =>
      have hset := (h.made hother hq).setOther hm
        { k with waitGeneration := k.waitGeneration + 1, deadline := some s.alarms.length }
      cases k.deadline with
      | none => exact hset
      | some u => exact hset.cancelTimer u

/-- The deadline of another link is taken back. -/
theorem Bides.disarmOther (h : s.Bides l d) : (s.disarm m).Bides l d := by
  cases hk : s.link? m with
  | none =>
    rw [disarm_of_none hk]
    exact h
  | some k =>
    rw [disarm_eq hk]
    have hset := h.setOther hm k.disarmed
    cases k.deadline with
    | none => exact hset
    | some u => exact hset.cancelTimer u

omit hm in
private theorem performAll_bides (self : Nat) (ops : List Operation) (h : s.Bides l d) :
    (performAll tearDown self ops s).Bides l d :=
  .foldl (fun _ op h => perform_bides self op h) ops h

private theorem awaitReadable_bides (h : s.Bides l d) : (awaitReadable m s).2.Bides l d := by
  unfold awaitReadable
  split
  · exact h
  next k _ =>
  have hset := h.setOther hm { k with stream := k.stream.wait.2 }
  dsimp only
  split
  · exact hset.pass _
  · exact performAll_bides m _ hset

/-! ### Hooks -/

private theorem act_bides (upgrades : Link.Upgrades) (a : Action.Kind) (h : s.Bides l d) :
    (act m upgrades a s).2.Bides l d := by
  unfold act
  split
  · exact h
  cases a with
  | wait => exact awaitReadable_bides hm h
  | operate op => exact perform_bides m op h
  | closeSelf reason => exact closeWith_bides (tearDown_forbears l d) m _ h
  | comet name timeout =>
    dsimp only
    split
    · exact h
    next k _ =>
      cases name with
      | none => exact h.setOther hm k
      | some n => exact (h.setOther hm k).same rfl rfl rfl (Nat.le_refl _)
  | duplex =>
    dsimp only
    split
    · exact h
    · exact h.setOther hm _
  | duplexClose =>
    dsimp only
    split
    · exact h.setOther hm _
    · exact h
  | duplexInfo =>
    dsimp only
    split <;> exact h
  | transfer | echoLine | kill => exact h.setOther hm _
  | _ => exact h

private theorem actAll_bides (upgrades : Link.Upgrades) (actions : List Action)
    (h : s.Bides l d) : (actAll m upgrades actions s).2.Bides l d := by
  induction actions generalizing s with
  | nil => exact h
  | cons a actions ih =>
    have hact := act_bides hm upgrades a.kind h
    unfold actAll
    split
    next heq =>
      rw [heq] at hact
      exact hact
    next heq =>
      rw [heq] at hact
      exact ih (hact.note m _)
    next heq =>
      rw [heq] at hact
      exact hact.note m _
    next heq =>
      rw [heq] at hact
      dsimp only
      split
      · exact ih (hact.note m _)
      · exact hact.note m _

/-- **The hooks of another link let a link bide its time.** -/
theorem callHook_bides (hook : Hook) (upgrades : Link.Upgrades) (h : s.Bides l d) :
    (callHook m hook upgrades s).2.Bides l d := by
  unfold callHook
  split
  · exact h
  next k _ =>
  have hran : (runHook m k hook upgrades (s.note m (.began hook))).2.Bides l d := by
    unfold runHook
    split
    · exact h.note m _
    · exact actAll_bides hm upgrades _ (h.note m _)
  dsimp only
  split
  · exact hran.note m _
  · exact hran.note m _
  · exact (hran.note m _).listener _ _

/-! ### Steps -/

private theorem withTransition_bides {e : Connection.Event}
    {go : Link → Engine → Link.Outcome × Engine}
    (hgo : ∀ k t, t.Bides l d → (go k t).2.Bides l d) (h : s.Bides l d) :
    (withTransition m e s go).2.Bides l d := by
  unfold withTransition
  split
  · exact h
  split
  · exact h
  · exact hgo _ _ (h.setOther hm _)

private theorem withHook_bides {hook : Hook} {upgrades : Link.Upgrades}
    {go : Bool → Engine → Link.Outcome × Engine}
    (hgo : ∀ keep t, t.Bides l d → (go keep t).2.Bides l d) (h : s.Bides l d) :
    (withHook m hook upgrades s go).2.Bides l d := by
  have hcalled := callHook_bides hm hook upgrades h
  unfold withHook
  split
  next heq =>
    rw [heq] at hcalled
    exact hgo _ _ hcalled
  next heq =>
    rw [heq] at hcalled
    exact hcalled
  next heq =>
    rw [heq] at hcalled
    exact hcalled

private theorem withFlush_bides {go : Link → Engine → Link.Outcome × Engine}
    (hgo : ∀ k t, t.Bides l d → (go k t).2.Bides l d) (h : s.Bides l d) :
    (withFlush m s go).2.Bides l d := by
  unfold withFlush
  split
  · exact h
  dsimp only
  split
  · exact (h.setOther hm _).note m _
  · exact hgo _ _ (h.setOther hm _)

private theorem stepAccept_bides (h : s.Bides l d) : (stepAccept m s).2.Bides l d := by
  refine withTransition_bides hm (fun k t h => ?_) h
  dsimp only
  split
  · exact h.setOther hm _
  · exact withHook_bides hm (fun _ _ h => h) (h.setOther hm _)

private theorem stepResumeParked_bides (h : s.Bides l d) : (stepResumeParked m s).2.Bides l d := by
  unfold stepResumeParked
  split
  · exact h
  dsimp only
  split
  · split <;> exact h.disarmOther hm
  · exact h.disarmOther hm
  · exact h.disarmOther hm

private theorem stepDispatch_bides (h : s.Bides l d) : (stepDispatch m s).2.Bides l d :=
  withTransition_bides hm (fun _ _ h => withHook_bides hm
    (fun _ _ h => withFlush_bides hm (fun _ _ h => h) h) ((h.listener _ _).setOther hm _)) h

private theorem stepAfter_bides (keep : Bool) (h : s.Bides l d) :
    (stepAfter m keep s).2.Bides l d := by
  unfold stepAfter
  split
  · exact h
  split
  · exact h.setOther hm _
  · exact h.setOther hm _
  · exact h

private theorem stepRest_bides (killed : Bool) (h : s.Bides l d) :
    (stepRest m killed s).2.Bides l d := by
  unfold stepRest
  split
  · exact h
  dsimp only
  split
  · exact h.setOther hm _
  split
  · exact h.setOther hm _
  · exact (h.setOther hm _).listener _ _

omit hm in
/-- Whatever happens while a link is registered with a multiplexer, also this one. -/
theorem register_bides (m : Nat) (k : Link) (x : Multiplexer) (h : s.Bides l d) :
    (register m k x s).2.Bides l d := by
  have hgo : ∀ takes events (s : Engine), s.Bides l d →
      (register.go m takes events s).2.Bides l d := by
    intro takes events
    induction events with
    | nil => exact fun _ h => h
    | cons e events ih =>
      intro s h
      have helapsed := elapse_bides (deadlineWhile + elapseSlack) h
      cases e with
      | notice => exact ih _ (notify_bides (tearDown_forbears l d) m h)
      | deadlines => exact ih _ (runTimers_bides helapsed)
      | deadlinesAfterShutdown =>
        exact ih _ (runTimers_bides (helapsed.stirred (.shutdown _)))
      | panic => exact h
  unfold register
  dsimp only
  split
  · exact h.listener _ _
  · exact hgo _ _ _ (h.listener _ _)

private theorem stepAwait_bides (h : s.Bides l d) : (stepAwait m s).2.Bides l d := by
  unfold stepAwait
  split
  · exact h
  next k _ =>
  dsimp only
  generalize k.stream.poll.2 = stream
  have hpolled := h.setOther hm { k with stream }
  generalize s.setLink m { k with stream } = u at hpolled ⊢
  split
  · exact hpolled
  · exact hpolled
  · exact hpolled
  split
  · exact hpolled
  split
  · exact hpolled
  next x _ =>
  split
  · exact hpolled
  next r _ =>
  have harmed := (hpolled.setOther hm { k with stream, request := r }).armOther hm
    (.ofMillis (k.restUntil - u.now))
  split
  next heq =>
    rw [heq] at harmed
    exact harmed
  next t heq =>
  rw [heq] at harmed
  have hregistered := register_bides m { k with stream } x harmed
  split
  next heq =>
    rw [heq] at hregistered
    exact hregistered
  next heq =>
    rw [heq] at hregistered
    exact hregistered
  next heq =>
    rw [heq] at hregistered
    unfold stepAwait.declined
    split
    · exact hregistered
    split
    · exact (hregistered.setOther hm _).disarmOther hm
    · exact hregistered

private theorem waitOnce_bides (deadline : Nat) (ready idle : Link.Step) (late : CloseReason)
    (h : s.Bides l d) : (waitOnce m deadline ready idle late s).2.Bides l d := by
  have hawaited := awaitReadable_bides hm h
  unfold waitOnce
  split
  · exact h
  split
  · exact h
  split
  · exact h
  split <;>
  next heq =>
    rw [heq] at hawaited
    exact hawaited

private theorem stepBlock_bides (h : s.Bides l d) : (stepBlock m s).2.Bides l d := by
  unfold stepBlock
  split
  · exact h
  · exact waitOnce_bides hm _ _ _ _ h

private theorem stepSuspend_bides (h : s.Bides l d) : (stepSuspend m s).2.Bides l d := by
  unfold stepSuspend
  split
  · exact h
  split
  · exact h
  refine withTransition_bides hm (fun k t h => ?_) h
  dsimp only
  have harmed := h.armOther hm
    ((k.comet.bind (·.timeout)).getD (t.listener k.listener).settings.suspendTimeout)
  split
  next heq =>
    rw [heq] at harmed
    exact harmed
  next heq =>
    rw [heq] at harmed
    unfold stepSuspend.park
    split
    · exact harmed.listener _ _
    split
    · exact harmed.listener _ _
    · exact (harmed.listener _ _).setOther hm _
    · exact ((harmed.listener _ _).setOther hm _).disarmOther hm

private theorem stepResume_bides (timedOut : Bool) (h : s.Bides l d) :
    (stepResume m timedOut s).2.Bides l d := by
  refine withTransition_bides hm (fun k t h => ?_) h
  dsimp only
  have hset := h.setOther hm { k with comet := none }
  split
  · have hcalled := callHook_bides hm .suspendTimeout .none hset
    split
    next heq =>
      rw [heq] at hcalled
      exact hcalled
    next heq =>
      rw [heq] at hcalled
      exact hcalled.modifyOther hm _
  split
  · exact hset
  · exact withHook_bides hm (fun _ _ h => withFlush_bides hm (fun _ _ h => h) h)
      (hset.listener _ _)

private theorem stepUpgrade_bides (h : s.Bides l d) : (stepUpgrade m s).2.Bides l d :=
  withTransition_bides hm (fun _ _ h => (h.setOther hm _).listener _ _) h

private theorem stepService_bides (h : s.Bides l d) : (stepService m s).2.Bides l d := by
  refine withTransition_bides hm (fun _ _ h => withHook_bides hm (fun _ _ h =>
    withFlush_bides hm (fun k t h => ?_) h) h) h
  dsimp only
  split
  · exact h
  split
  · exact h
  · exact withTransition_bides hm (fun _ _ h => h) (h.setOther hm _)

/-- **The steps of the task of another link let a link bide its time.** -/
theorem stepLink_bides (step : Link.Step) (h : s.Bides l d) :
    (stepLink m step s).2.Bides l d := by
  cases step with
  | accept => exact stepAccept_bides hm h
  | resumeParked => exact stepResumeParked_bides hm h
  | dispatch => exact stepDispatch_bides hm h
  | after keep => exact stepAfter_bides hm keep h
  | rest killed => exact stepRest_bides hm killed h
  | await => exact stepAwait_bides hm h
  | block => exact stepBlock_bides hm h
  | suspend => exact stepSuspend_bides hm h
  | resume timedOut => exact stepResume_bides hm timedOut h
  | upgrade => exact stepUpgrade_bides hm h
  | listen deadline => exact waitOnce_bides hm _ _ _ _ h
  | service => exact stepService_bides hm h

end Others

/-! ## Moves -/

/-- What a step decided is carried out, also one of the task of the link. -/
theorem conclude_bides (m : Nat) (outcome : Link.Outcome) (h : s.Bides l d) :
    (conclude m outcome s).Bides l d := by
  have hstep : ∀ {t : Engine} (step : Option Link.Step), t.Bides l d →
      (t.modifyLink m fun k => { k with step }).Bides l d := fun step h =>
    h.modifyLink m fun _ hc => ⟨hc, rfl, rfl⟩
  have hfailed : ∀ f, (failureReason m f s).2.Bides l d := by
    intro f
    unfold failureReason
    split
    · exact h
    split
    · exact h
    split
    · exact trigger_bides (tearDown_forbears l d) _ h
    · exact h
  unfold conclude
  cases outcome with
  | next step => exact hstep _ h
  | park => exact hstep _ h
  | close reason => exact hstep _ (tearDown_forbears l d m _ _ h)
  | fail f => exact hstep _ (tearDown_forbears l d m _ _ (hfailed f))
  | refused f => exact hstep _ (tearDown_forbears l d m _ _ (hfailed f))
  | panic => exact hstep _ (tearDown_forbears l d m _ _ h)

private theorem advance_bides (hm : m ≠ l) (h : s.Bides l d) : (advance m s).Bides l d := by
  unfold advance
  split
  · exact h
  · exact conclude_bides m _ (stepLink_bides hm _ h)

private theorem begin_bides (place : Nat) (h : s.Bides l d) : (begin place s).Bides l d := by
  unfold begin
  split
  · exact h
  next task _ =>
  split
  · exact h
  next k hk =>
  split
  · exact h
  have hdequeued : (s.dequeue place).Bides l d := h.same rfl rfl rfl (Nat.le_refl _)
  dsimp only
  split
  · exact hdequeued
  split
  · exact tearDown_forbears l d _ _ _ hdequeued
  · exact hdequeued.setLink (show (s.dequeue place).link? task.link = some k from hk)
      fun hc => ⟨hc, rfl, rfl⟩

private theorem build_bides (settings : Settings.Listener) (multiplexer : Option Multiplexer)
    (platform : Platform) (h : s.Bides l d) :
    (build settings multiplexer platform s).2.Bides l d := by
  unfold build
  split
  · exact h
  generalize hq : s.scheduler.queue s.alarms.length s.now settings.housekeepingInterval = queued
  have hqueue : (s.newTimer (.housekeeping s.listeners.length)).2.queueTimer
      (s.newTimer (.housekeeping s.listeners.length)).1 settings.housekeepingInterval =
      (queued.1, s.withHousekeeping queued.2) := hq ▸ rfl
  dsimp only
  rw [hqueue]
  obtain ⟨r, x⟩ := queued
  have hmade : (s.withHousekeeping x).Bides l d :=
    h.made (a := .housekeeping s.listeners.length) (fun _ => nofun) hq
  cases r with
  | error f => exact hmade
  | ok _ =>
    dsimp only
    split
    · exact shutdownListener_bides (tearDown_forbears l d) _
        (hmade.same rfl rfl rfl (Nat.le_refl _))
    · exact hmade.same rfl rfl rfl (Nat.le_refl _)

private theorem startLink_bides (m : Nat) (h : s.Bides l d) : (startLink m s).2.Bides l d := by
  unfold startLink
  split
  · exact h
  next k hk =>
  split
  · exact tearDown_forbears l d m _ _ h
  next r _ =>
  have hstays : k.Stays { k with request := r } := fun hc => ⟨hc, rfl, rfl⟩
  have hscheduled := schedule_bides (tearDown_forbears l d) m .accept (h.setLink hk hstays)
  split
  next heq =>
    rw [heq] at hscheduled
    exact hscheduled
  next heq =>
    rw [heq] at hscheduled
    exact hscheduled.modifyLink m fun _ hc => ⟨hc, rfl, rfl⟩

private theorem makeHandler_bides (m : Nat) (ops : List NamedOperation) (h : s.Bides l d) :
    (makeHandler m ops s).2.Bides l d := by
  induction ops generalizing s with
  | nil => exact h
  | cons op ops ih => exact ih (perform_bides m op.operation h)

/-- A new link is none that was there. -/
private theorem installLink_bides (i m : Nat) (handler : Handler) (notes : List Link.Note)
    (h : s.Bides l d) : (installLink i m handler notes s).Bides l d := by
  cases hslot : s.slots[m]? with
  | none =>
    unfold installLink
    rw [hslot]
    exact h
  | some slot =>
    cases slot with
    | link k =>
      unfold installLink
      rw [hslot]
      exact h
    | turnedAway e =>
      have hlinks := link?_installLink hslot i handler notes
      rw [installLink_eq hslot] at hlinks ⊢
      refine h.of (Nat.le_refl _) (fun hf _ => hf) (fun k hk => ⟨k, ?_, fun hc => ⟨hc, rfl, rfl⟩⟩)
        (fun _ _ hu => hu) fun _ _ _ _ _ hw => hw
      rw [hlinks, if_neg]
      · exact hk
      · rintro rfl
        rw [link?, hslot] at hk
        cases hk

private theorem accept_bides (i : Nat) (arrival : Arrival) (h : s.Bides l d) :
    (s.accept i arrival).2.Bides l d := by
  have hslot : (s.addSlot arrival.socket).Bides l d :=
    h.same (link?_addSlot s arrival.socket l) rfl rfl (Nat.le_refl _)
  unfold accept
  dsimp only
  split
  · exact hslot.listener i _
  split
  · exact hslot.listener i _
  next tracker _ =>
  have hmade := makeHandler_bides s.slots.length arrival.whileMaking
    (hslot.listener i fun x => { x with tracker })
  refine startLink_bides _ ?_
  split
  · exact closeWith_bides (tearDown_forbears l d) _ _ (installLink_bides _ _ _ _ hmade)
  · exact installLink_bides _ _ _ _ hmade

private theorem notifyWatched_bides (i : Nat) (ms : List Nat) (h : s.Bides l d) :
    (notifyWatched i ms s).Bides l d := by
  refine .foldl (fun t m h => ?_) ms h
  have hnotified := notify_bides (tearDown_forbears l d) m h
  dsimp only
  split
  · cases (notify tearDown m t).2.watcher? i with
    | none => exact hnotified
    | some w => exact hnotified.listener i _
  · exact hnotified

private theorem pollRound_bides (i : Nat) (h : s.Bides l d) : (pollRound i s).Bides l d := by
  unfold pollRound pollRoundWith
  split
  · exact h
  split
  · exact h
  · exact notifyWatched_bides i _ (h.listener i _)

private theorem stopWatcher_bides (i : Nat) (h : s.Bides l d) : (stopWatcher i s).Bides l d := by
  unfold stopWatcher
  split
  · exact h
  · exact .foldl (fun _ m h => notify_bides (tearDown_forbears l d) m h) _ (h.listener i _)

/-- **A link bides its time through every move but the steps of its own task.** -/
theorem move_bides {move' : Move} (hm : move' ≠ .advance l) (h : s.Bides l d) :
    (move move' s).Bides l d := by
  cases move' with
  | build settings multiplexer platform => exact build_bides settings multiplexer platform h
  | accept i arrival =>
    show Bides l d (if i < s.listeners.length then (s.accept i arrival).2 else s)
    split
    · exact accept_bides i arrival h
    · exact h
  | begin place => exact begin_bides place h
  | advance m => exact advance_bides (fun heq => hm (congrArg Move.advance heq)) h
  | perform self op => exact perform_bides self op h
  | wake handle => exact wakeComet_bides (tearDown_forbears l d) handle h
  | pass millis => exact h.pass millis
  | coordinate => exact h.stirred (.coordinate _ _)
  | fire place =>
    show Bides l d ((runTimer tearDown place s).getD s)
    cases hrun : runTimer tearDown place s with
    | none => exact h
    | some t => exact runTimer_bides (tearDown_forbears l d) h hrun
  | poll i => exact pollRound_bides i h
  | stopWatcher i => exact stopWatcher_bides i h
  | forget m => exact h.modifyLink m fun _ hc => ⟨hc, rfl, rfl⟩

end Engine

end LinkEngine

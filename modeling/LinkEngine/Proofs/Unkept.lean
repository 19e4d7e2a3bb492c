import LinkEngine.Engine.Operating
import LinkEngine.Proofs.Count

/-!
# A link that is not to be kept

Who asks that a connection end after its present request does nothing but set a mark on the link
(`Link.unkept`, `Engine.unkeep`). Nobody who wakes links, closes them, lets timers fire or does
any other operation looks at the mark: whatever they do, they do it to a link with the mark as
they do it to one without, and leave the mark alone. So each of these functions commutes with
setting the mark; for those that may tear links down this is shown of any teardown that does
(`Teardown.Blind`), and then of the teardown itself (`tearDown_blind`), by induction on how deep
teardowns may nest.
-/

namespace LinkEngine

open Connection (CloseReason)

/-- The link with the mark that it is not kept, if `b`. -/
def Link.unkept (b : Bool) (k : Link) : Link := { k with killKeepalive := b || k.killKeepalive }

/-- The mark is set once. -/
theorem Link.unkept_of {k : Link} (h : k.killKeepalive = true) (b : Bool) : k.unkept b = k := by
  unfold unkept
  rw [h, Bool.or_true]
  cases k
  cases h
  rfl

theorem Link.unkept_false (k : Link) : k.unkept false = k := by
  unfold unkept
  rw [Bool.false_or]

namespace Engine

variable {n : Nat} {s : Engine} {tear : Teardown}

/-! ## The mark -/

/-- Link `n` is not kept after its present request. -/
def unkeep (s : Engine) (n : Nat) : Engine := s.modifyLink n (·.unkept true)

/-- The same answer, and the mark on link `n`. -/
def unkeepIn {α : Type} (n : Nat) (r : α × Engine) : α × Engine := (r.1, r.2.unkeep n)

/-- A way to tear down that pays no attention to whether link `n` is kept. -/
def Teardown.Blind (n : Nat) (tear : Teardown) : Prop :=
  ∀ l reason s, tear l reason (s.unkeep n) = (tear l reason s).unkeep n

theorem link?_unkeep (s : Engine) (n m : Nat) :
    (s.unkeep n).link? m = (s.link? m).map (·.unkept (m == n)) := by
  unfold unkeep
  rw [link?_modifyLink]
  by_cases h : m = n
  · rw [if_pos h, beq_iff_eq.2 h]
  · rw [if_neg h, beq_eq_false_iff_ne.2 h]
    cases s.link? m <;> rfl

/-- Work on a slot that is done to a marked link as to any, or to another one. -/
theorem modifySlot_unkeep {m : Nat} {f f' : Slot → Slot}
    (heq : m = n → ∀ x : Slot, f' (x.withLink (·.unkept true)) = (f x).withLink (·.unkept true))
    (hne : m ≠ n → f' = f) (s : Engine) :
    { s.unkeep n with slots := (s.unkeep n).slots.modify m f' } =
      ({ s with slots := s.slots.modify m f } : Engine).unkeep n := by
  have hslots : (s.slots.modify n (Slot.withLink (·.unkept true))).modify m f' =
      (s.slots.modify m f).modify n (Slot.withLink (·.unkept true)) := by
    by_cases h : m = n
    · subst h
      rw [List.modify_modify_eq, List.modify_modify_eq]
      exact congrArg (s.slots.modify m) (funext (heq rfl))
    · rw [hne h]
      exact List.modify_modify_ne _ _ _ (Ne.symm h)
  exact congrArg (fun slots => { s with slots }) hslots

/-- What is done to a link in the same way, whether it is kept or not. -/
theorem modifyLink_unkeep {f : Link → Link} (hf : ∀ k, f (k.unkept true) = (f k).unkept true)
    (s : Engine) (m : Nat) : (s.unkeep n).modifyLink m f = (s.modifyLink m f).unkeep n := by
  refine modifySlot_unkeep (fun _ x => ?_) (fun _ => rfl) s
  cases x with
  | link k => exact congrArg Slot.link (hf k)
  | turnedAway socket => rfl

/-- A link that is put in its place takes the mark along. -/
theorem setLink_unkeep (s : Engine) (m : Nat) (k : Link) :
    (s.unkeep n).setLink m (k.unkept (m == n)) = (s.setLink m k).unkeep n := by
  refine modifySlot_unkeep (fun h x => ?_) (fun h => ?_) s
  · rw [beq_iff_eq.2 h]
    cases x <;> rfl
  · rw [beq_eq_false_iff_ne.2 h, Link.unkept_false]

theorem setLink_unkeep_of {m : Nat} {k k' : Link} (h : k' = k.unkept (m == n)) (s : Engine) :
    (s.unkeep n).setLink m k' = (s.setLink m k).unkeep n := by
  rw [h]
  exact setLink_unkeep s m k

theorem openLinks_unkeep (s : Engine) (n : Nat) : (s.unkeep n).openLinks = s.openLinks := by
  unfold unkeep
  cases hk : s.link? n with
  | none => rw [modifyLink_of_none hk]
  | some k =>
    rw [modifyLink_eq_setLink hk]
    exact openLinks_setLink hk rfl

theorem note_unkeep (s : Engine) (m : Nat) (x : Link.Note) :
    (s.unkeep n).note m x = (s.note m x).unkeep n :=
  modifyLink_unkeep (f := (·.note x)) (fun _ => rfl) s m

theorem modifySocket_unkeep (s : Engine) (m : Nat)
    (f : Socket.Endpoint Operation → Socket.Endpoint Operation) :
    modifySocket m f (s.unkeep n) = (modifySocket m f s).unkeep n := by
  refine modifySlot_unkeep (fun _ x => ?_) (fun _ => rfl) s
  cases x <;> rfl

theorem foldl_unkeep {α : Type} {f : Engine → α → Engine}
    (hf : ∀ s a, f (s.unkeep n) a = (f s a).unkeep n) (xs : List α) (s : Engine) :
    xs.foldl f (s.unkeep n) = (xs.foldl f s).unkeep n := by
  induction xs generalizing s with
  | nil => rfl
  | cons a xs ih =>
    rw [List.foldl_cons, hf, ih]
    rfl

/-! What is done case by case is done so with the mark, too. -/

theorem mk_unkeepIn {α : Type} {a : α} {t t' : Engine} (h : t' = t.unkeep n) :
    (a, t') = unkeepIn n (a, t) :=
  congrArg (Prod.mk a) h

theorem ite_unkeep {c : Prop} [Decidable c] {a b a' b' : Engine} (ha : c → a' = a.unkeep n)
    (hb : ¬c → b' = b.unkeep n) :
    (if c then a' else b') = (if c then a else b).unkeep n := by
  split
  · exact ha ‹_›
  · exact hb ‹_›

theorem ite_unkeepIn {α : Type} {c : Prop} [Decidable c] {a b a' b' : α × Engine}
    (ha : c → a' = unkeepIn n a) (hb : ¬c → b' = unkeepIn n b) :
    (if c then a' else b') = unkeepIn n (if c then a else b) := by
  split
  · exact ha ‹_›
  · exact hb ‹_›

/-! ## Wakers -/

theorem schedule_unkeep (hT : tear.Blind n) (l : Nat) (entry : Link.Entry) (s : Engine) :
    schedule tear l entry (s.unkeep n) = unkeepIn n (schedule tear l entry s) := by
  unfold schedule
  exact ite_unkeepIn (fun _ => mk_unkeepIn (hT l .shutdown s)) fun _ => rfl

theorem notify_unkeep (hT : tear.Blind n) (l : Nat) (s : Engine) :
    notify tear l (s.unkeep n) = unkeepIn n (notify tear l s) := by
  unfold notify
  rw [link?_unkeep]
  cases s.link? l with
  | none => rfl
  | some k =>
    dsimp only [Option.map_some, Link.unkept]
    split
    · rw [← schedule_unkeep hT, ← setLink_unkeep]
      rfl
    · rfl

theorem wakeComet_unkeep (hT : tear.Blind n) (h : Handle) (s : Engine) :
    wakeComet tear h (s.unkeep n) = unkeepIn n (wakeComet tear h s) := by
  unfold wakeComet
  rw [link?_unkeep]
  cases s.link? h.link with
  | none => rfl
  | some k =>
    dsimp only [Option.map_some, Link.unkept]
    split
    · rfl
    split
    · next r _ =>
      have hschedule : schedule tear h.link .resume ((s.unkeep n).setLink h.link
          (Link.unkept (h.link == n) { k with request := r })) =
          unkeepIn n (schedule tear h.link .resume (s.setLink h.link { k with request := r })) := by
        rw [setLink_unkeep, schedule_unkeep hT]
      dsimp only [Link.unkept] at hschedule
      rw [hschedule]
      generalize schedule tear h.link .resume (s.setLink h.link { k with request := r }) = x
      obtain ⟨b, t⟩ := x
      cases b with
      | true => exact congrArg (Prod.mk true) (note_unkeep t _ _)
      | false => rfl
    · next r _ =>
      refine congrArg (Prod.mk true) (Eq.trans ?_ (note_unkeep _ _ _))
      rw [← setLink_unkeep]
      rfl
    · rfl

theorem deadlineFired_unkeep (hT : tear.Blind n) (u l g : Nat) (s : Engine) :
    deadlineFired tear u l g (s.unkeep n) = (deadlineFired tear u l g s).unkeep n := by
  unfold deadlineFired
  rw [link?_unkeep]
  cases s.link? l with
  | none => rfl
  | some k =>
    dsimp only [Option.map_some]
    refine ite_unkeep (fun _ => ite_unkeep (fun _ => rfl) fun _ => rfl) fun _ =>
      ite_unkeep (fun _ => rfl) fun _ => ?_
    dsimp only [Link.unkept]
    split
    · next r _ =>
      have h := schedule_unkeep hT l .resume
        (s.setLink l { k with request := r, expiredGeneration := some g })
      rw [← setLink_unkeep] at h
      exact congrArg Prod.snd h
    · rw [← setLink_unkeep]
      rfl

theorem interrupt_unkept (b : Bool) (k : Link) : (k.unkept b).interrupt = k.interrupt.unkept b := by
  unfold Link.interrupt
  exact (apply_ite (Link.unkept b) (k.stream.socket.interruptible = true)
    (k.withSocket (·.interrupt)) k).symm

theorem ask_unkept (b : Bool) (k : Link) (reason : CloseReason) :
    (k.unkept b).ask reason = (k.ask reason).unkept b := by
  unfold Link.ask Link.unkept
  rw [Bool.or_true]

theorem closeWith_unkeep (hT : tear.Blind n) (l : Nat) (reason : CloseReason) (s : Engine) :
    closeWith tear l reason (s.unkeep n) = (closeWith tear l reason s).unkeep n := by
  unfold closeWith
  rw [link?_unkeep]
  cases s.link? l with
  | none => rfl
  | some k =>
    dsimp only [Option.map_some]
    refine ite_unkeep (fun _ => rfl) fun _ => ?_
    rw [ask_unkept]
    generalize k.ask reason = asked
    have hwake : (asked.unkept (l == n)).request = asked.request := rfl
    rw [hwake]
    split
    · rw [← hT, ← setLink_unkeep]
      rfl
    · rw [← setLink_unkeep, ← interrupt_unkept]
      rfl

theorem closeAll_unkeep (hT : tear.Blind n) (ls : List Nat) (reason : CloseReason) (s : Engine) :
    closeAll tear ls reason (s.unkeep n) = (closeAll tear ls reason s).unkeep n :=
  foldl_unkeep (fun s l => closeWith_unkeep hT l reason s) ls s

theorem shutdownListener_unkeep (hT : tear.Blind n) (i : Nat) (s : Engine) :
    shutdownListener tear i (s.unkeep n) = (shutdownListener tear i s).unkeep n := by
  have hx : (s.unkeep n).listener i = s.listener i := rfl
  unfold shutdownListener
  rw [hx]
  dsimp only
  split
  · rfl
  · rw [← closeAll_unkeep hT]
    cases (s.listener i).housekeeping <;> rfl

theorem trigger_unkeep (hT : tear.Blind n) (reason : Shutdown.Reason) (s : Engine) :
    trigger tear reason (s.unkeep n) = unkeepIn n (trigger tear reason s) := by
  have hsignal : (s.unkeep n).signal = s.signal := rfl
  unfold trigger
  rw [hsignal]
  cases s.signal with
  | some _ => rfl
  | none =>
    exact congrArg (Prod.mk true)
      (foldl_unkeep (fun s i => shutdownListener_unkeep hT i s) _ { s with signal := some reason })

theorem housekeeping_unkeep (u i : Nat) (s : Engine) :
    housekeeping u i (s.unkeep n) = (housekeeping u i s).unkeep n := by
  unfold housekeeping
  exact ite_unkeep (fun _ => rfl) fun _ => rfl

theorem alarm_unkeep (hT : tear.Blind n) (u : Nat) (s : Engine) :
    alarm tear u (s.unkeep n) = (alarm tear u s).unkeep n := by
  have halarms : (s.unkeep n).alarms = s.alarms := rfl
  unfold alarm
  rw [halarms]
  cases s.alarms[u]? with
  | none => rfl
  | some alarm =>
    cases alarm with
    | deadline l g => exact deadlineFired_unkeep hT u l g s
    | housekeeping i => exact housekeeping_unkeep u i s

theorem runTimer_unkeep (hT : tear.Blind n) (place : Nat) (s : Engine) :
    runTimer tear place (s.unkeep n) = (runTimer tear place s).map (·.unkeep n) := by
  have hscheduler : (s.unkeep n).scheduler = s.scheduler := rfl
  unfold runTimer
  rw [hscheduler]
  cases s.scheduler.start place with
  | none => rfl
  | some started =>
    have halarm : alarm tear started.1.timer { s.unkeep n with scheduler := started.2 } =
        (alarm tear started.1.timer { s with scheduler := started.2 }).unkeep n :=
      alarm_unkeep hT _ { s with scheduler := started.2 }
    dsimp only
    rw [halarm]
    rfl

theorem runTimersWithin_unkeep (hT : tear.Blind n) (fuel : Nat) (s : Engine) :
    runTimersWithin tear (s.unkeep n) fuel = unkeepIn n (runTimersWithin tear s fuel) := by
  induction fuel generalizing s with
  | zero => rfl
  | succ fuel ih =>
    unfold runTimersWithin
    rw [runTimer_unkeep hT]
    cases runTimer tear 0 s with
    | none => rfl
    | some t =>
      dsimp only [Option.map_some]
      rw [ih]
      rfl

theorem runTimers_unkeep (hT : tear.Blind n) (s : Engine) :
    runTimers tear (s.unkeep n) = unkeepIn n (runTimers tear s) := by
  have hfuel : (s.unkeep n).timerFuel = s.timerFuel := by
    unfold timerFuel
    rw [openLinks_unkeep]
    rfl
  unfold runTimers
  rw [hfuel]
  exact runTimersWithin_unkeep hT _ s

/-! ## Operations -/

theorem isReachable_unkeep (s : Engine) (m : Nat) :
    (s.unkeep n).isReachable m = s.isReachable m := by
  unfold isReachable
  rw [link?_unkeep]
  cases s.link? m <;> rfl

theorem isCurrent_unkeep (s : Engine) (h : Handle) :
    (s.unkeep n).isCurrent h = s.isCurrent h := by
  unfold isCurrent
  rw [link?_unkeep]
  cases s.link? h.link <;> rfl

theorem withReachable_unkeep {f : Engine → Link.Answer × Engine} (m : Nat)
    (hf : ∀ s, f (s.unkeep n) = unkeepIn n (f s)) (s : Engine) :
    (s.unkeep n).withReachable m f = unkeepIn n (s.withReachable m f) := by
  unfold withReachable
  rw [isReachable_unkeep]
  split
  · exact hf s
  · rfl

theorem performWith_unkeep (hT : tear.Blind n) (self : Nat) (op : Operation) (s : Engine) :
    performWith tear self op (s.unkeep n) = unkeepIn n (performWith tear self op s) := by
  have hhandles : (s.unkeep n).handles = s.handles := rfl
  unfold performWith
  cases op with
  | wake name =>
    dsimp only
    rw [hhandles]
    cases s.handles.lookup name with
    | none => rfl
    | some h =>
      dsimp only
      rw [wakeComet_unkeep hT]
      rfl
  | isCurrent name =>
    dsimp only
    rw [hhandles]
    cases s.handles.lookup name with
    | none => rfl
    | some h =>
      dsimp only
      rw [isCurrent_unkeep]
      rfl
  | notify m =>
    refine withReachable_unkeep _ (fun s => ?_) s
    rw [notify_unkeep hT]
    rfl
  | killKeepalive m =>
    refine withReachable_unkeep _ (fun s => ?_) s
    refine congrArg (Prod.mk _) (modifyLink_unkeep (fun k => ?_) s _)
    unfold Link.unkept
    rw [Bool.or_true]
  | close m reason =>
    refine withReachable_unkeep _ (fun s => ?_) s
    exact congrArg (Prod.mk _) (closeWith_unkeep hT _ _ s)
  | feed m bytes => exact congrArg (Prod.mk _) (modifySocket_unkeep s _ _)
  | hangUp m => exact congrArg (Prod.mk _) (modifySocket_unkeep s _ _)
  | spoil m call kinds => exact congrArg (Prod.mk _) (modifySocket_unkeep s _ _)
  | shutdown i => exact congrArg (Prod.mk _) (shutdownListener_unkeep hT i s)
  | trigger reason =>
    dsimp only
    rw [trigger_unkeep hT]
    rfl
  | refuse on => rfl
  | stopScheduler => rfl
  | script i more => rfl
  | elapse millis => rfl
  | runTimers =>
    dsimp only
    rw [runTimers_unkeep hT]
    rfl

theorem performNoted_unkeep (hT : tear.Blind n) (self : Nat) (ops : List NamedOperation)
    (s : Engine) :
    performNoted tear self ops (s.unkeep n) = (performNoted tear self ops s).unkeep n := by
  refine foldl_unkeep (fun s op => ?_) ops s
  rw [performWith_unkeep hT]
  exact note_unkeep _ _ _

theorem performAll_unkeep (hT : tear.Blind n) (self : Nat) (ops : List Operation) (s : Engine) :
    performAll tear self ops (s.unkeep n) = (performAll tear self ops s).unkeep n := by
  refine foldl_unkeep (fun s op => ?_) ops s
  rw [performWith_unkeep hT]
  rfl

/-! ## Teardown -/

theorem callClose_unkeep (hT : tear.Blind n) (l : Nat) (reason : CloseReason) (s : Engine) :
    callClose tear l reason (s.unkeep n) = (callClose tear l reason s).unkeep n := by
  unfold callClose
  rw [link?_unkeep]
  cases s.link? l with
  | none => rfl
  | some k =>
    refine ite_unkeep (fun _ => ?_) fun _ => ?_
    · rw [note_unkeep, note_unkeep]
    · dsimp only
      rw [note_unkeep, performNoted_unkeep hT, note_unkeep]
      rfl

theorem giveBack_unkeep (l : Nat) (reason : CloseReason) (s : Engine) :
    giveBack l reason (s.unkeep n) = (giveBack l reason s).unkeep n := by
  unfold giveBack
  rw [link?_unkeep]
  cases s.link? l with
  | none => rfl
  | some k =>
    refine Eq.trans ?_ (congrArg (fun t : Engine => t.modifyListener _ _) (setLink_unkeep s l _))
    rfl

theorem disarm_unkeep (l : Nat) (s : Engine) : (s.unkeep n).disarm l = (s.disarm l).unkeep n := by
  unfold disarm
  rw [link?_unkeep]
  cases s.link? l with
  | none => rfl
  | some k =>
    have hdeadline : (k.unkept (l == n)).deadline = k.deadline := rfl
    dsimp only [Option.map_some]
    rw [hdeadline]
    cases k.deadline with
    | none => rfl
    | some t =>
      exact congrArg (·.cancelTimer t) (setLink_unkeep s l
        { k with deadline := none, waitGeneration := k.waitGeneration + 1 })

theorem markClosed_unkeep (l : Nat) (reason : CloseReason) (s : Engine) :
    markClosed l reason (s.unkeep n) = (markClosed l reason s).unkeep n := by
  have hmark := modifyLink_unkeep (n := n)
    (f := fun k => { k with closed := true, closeReason := some reason }) (fun _ => rfl) s l
  unfold markClosed
  dsimp only
  rw [hmark, disarm_unkeep]
  refine modifyLink_unkeep (fun k => ?_) _ l
  rfl

theorem tearDownWithin_blind (n depth : Nat) : Teardown.Blind n (tearDownWithin depth) := by
  induction depth with
  | zero => exact fun _ _ _ => rfl
  | succ depth ih =>
    intro l reason s
    unfold tearDownWithin
    rw [link?_unkeep]
    cases s.link? l with
    | none => rfl
    | some k =>
      refine ite_unkeep (fun _ => rfl) fun _ => ?_
      rw [markClosed_unkeep, callClose_unkeep ih, giveBack_unkeep]

/-- **No teardown pays attention to whether a link is kept.** -/
theorem tearDown_blind (n : Nat) : Teardown.Blind n tearDown := by
  intro l reason s
  unfold tearDown
  rw [openLinks_unkeep]
  exact tearDownWithin_blind n _ l reason s

theorem perform_unkeep (self : Nat) (op : Operation) (s : Engine) :
    perform self op (s.unkeep n) = unkeepIn n (perform self op s) :=
  performWith_unkeep (tearDown_blind n) self op s

end Engine

end LinkEngine

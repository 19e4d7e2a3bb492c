import LinkEngine.Engine.Polling
import LinkEngine.Proofs.Course

/-!
# What notices do to watchers

A round takes watches out of the watch list and notifies their links. A notice may tear its
link down, and the close hook may do any operation, which may tear down further links; but
none of this registers a link, polls, or stops a watcher. So every listener has the watcher
afterwards that it had before (`tearDown_sparesWatchers`, `notify_watcher?`), and a round ends
with the watch list it had made before its first notice (`pollRoundWith_watcher?`).

As long as the pool takes tasks, a link that is notified and rests is handed to it, once
however often it is notified (`Roused`, `pollRoundWith_roused`).
-/

namespace LinkEngine.Engine

open Connection (CloseReason)
open Multiplexer (Watcher)

variable {s t : Engine} {i l : Nat} {tear : Teardown} {w : Watcher}

/-! ## The watchers of the listeners -/

/-- The watchers are decided by the listeners. -/
theorem watcher?_congr (h : t.listeners = s.listeners) : t.watcher? = s.watcher? := by
  funext i
  unfold watcher? listener
  rw [h]

/-- Work on a listener that leaves its multiplexer alone. -/
theorem watcher?_modifyListener (s : Engine) (i : Nat) (f : Listener → Listener)
    (hf : ∀ x : Listener, (f x).multiplexer = x.multiplexer) :
    (s.modifyListener i f).watcher? = s.watcher? := by
  funext j
  unfold watcher?
  rcases listener_modifyListener_cases s i j f with hsame | ⟨-, -, hself⟩
  · rw [hsame]
  · rw [hself, hf]

/-- A script is added to where there is one, and there nobody polls. -/
theorem watcher?_extendScript (i : Nat) (more : List Multiplexer.Registration) (s : Engine) :
    (extendScript i more s).watcher? = s.watcher? := by
  funext j
  unfold extendScript watcher?
  rcases listener_modifyListener_cases s i j _ with hsame | ⟨-, -, hself⟩
  · rw [hsame]
  · rw [hself]
    cases hx : (s.listener j).multiplexer with
    | none => simp only [hx]
    | some m => cases m <;> simp only [hx]

theorem watcher?_setWatcher (hw : s.watcher? i = some w) (w' : Watcher) :
    (s.setWatcher i w').watcher? i = some w' := by
  have hi : i < s.listeners.length := by
    refine Nat.lt_of_not_le fun hi => ?_
    unfold watcher? listener at hw
    rw [List.getD_eq_getElem?_getD, List.getElem?_eq_none hi] at hw
    cases hw
  unfold setWatcher watcher?
  rw [listener_modifyListener_self hi]

/-! ## Wakers and timers -/

/-- A way to tear down that leaves the watchers of the listeners alone. -/
def Teardown.SparesWatchers (tear : Teardown) : Prop :=
  ∀ l reason s, (tear l reason s).watcher? = s.watcher?

theorem foldl_watcher? {α : Type} {f : Engine → α → Engine}
    (hf : ∀ s a, (f s a).watcher? = s.watcher?) (xs : List α) (s : Engine) :
    (xs.foldl f s).watcher? = s.watcher? := by
  induction xs generalizing s with
  | nil => rfl
  | cons a xs ih => exact (ih (f s a)).trans (hf s a)

section Wakers

variable (hT : tear.SparesWatchers)
include hT

theorem schedule_watcher? (l : Nat) (entry : Link.Entry) (s : Engine) :
    (schedule tear l entry s).2.watcher? = s.watcher? := by
  unfold schedule
  split
  · exact hT l _ s
  · rfl

theorem notify_watcher? (l : Nat) (s : Engine) :
    (notify tear l s).2.watcher? = s.watcher? := by
  unfold notify
  split
  · rfl
  split
  · exact schedule_watcher? hT l _ _
  · rfl

theorem wakeComet_watcher? (h : Handle) (s : Engine) :
    (wakeComet tear h s).2.watcher? = s.watcher? := by
  unfold wakeComet
  split
  · rfl
  split
  · rfl
  split
  · split
    all_goals
      next hscheduled =>
        exact (congrArg (·.2.watcher?) hscheduled).symm.trans (schedule_watcher? hT h.link _ _)
  · rfl
  · rfl

theorem deadlineFired_watcher? (u l generation : Nat) (s : Engine) :
    (deadlineFired tear u l generation s).watcher? = s.watcher? := by
  unfold deadlineFired
  split
  · rfl
  split
  · split <;> rfl
  split
  · rfl
  split
  · exact schedule_watcher? hT l _ _
  · rfl

theorem closeWith_watcher? (l : Nat) (reason : CloseReason) (s : Engine) :
    (closeWith tear l reason s).watcher? = s.watcher? := by
  unfold closeWith
  split
  · rfl
  split
  · rfl
  dsimp only
  split
  · exact hT l _ _
  · rfl

theorem shutdownListener_watcher? (i : Nat) (s : Engine) :
    (shutdownListener tear i s).watcher? = s.watcher? := by
  unfold shutdownListener
  dsimp only
  split
  · rfl
  refine (foldl_watcher? (fun s l => closeWith_watcher? hT l _ s) _ _).trans ?_
  have hmarked := watcher?_modifyListener s i Listener.halted fun _ => rfl
  cases (s.listener i).housekeeping <;> exact hmarked

theorem trigger_watcher? (reason : Shutdown.Reason) (s : Engine) :
    (trigger tear reason s).2.watcher? = s.watcher? := by
  unfold trigger
  split
  · rfl
  · exact foldl_watcher? (fun s i => shutdownListener_watcher? hT i s) _ _

theorem alarm_watcher? (u : Nat) (s : Engine) : (alarm tear u s).watcher? = s.watcher? := by
  unfold alarm
  split
  · rfl
  · exact deadlineFired_watcher? hT u _ _ s
  · unfold housekeeping
    dsimp only
    split <;> exact watcher?_modifyListener s _
      (fun x => { x with buffers := (x.buffers.trim (x.buffers.places / 2)).2 }) fun _ => rfl

theorem runTimer_watcher? {place : Nat} (h : runTimer tear place s = some t) :
    t.watcher? = s.watcher? := by
  unfold runTimer at h
  split at h
  · cases h
  next task x _ =>
  simp only [Option.some.injEq] at h
  subst h
  exact alarm_watcher? hT task.timer { s with scheduler := x }

theorem runTimersWithin_watcher? (fuel : Nat) (s : Engine) :
    (runTimersWithin tear s fuel).2.watcher? = s.watcher? := by
  induction fuel generalizing s with
  | zero => rfl
  | succ fuel ih =>
    unfold runTimersWithin
    split
    · rfl
    · next t ht => exact (ih t).trans (runTimer_watcher? hT ht)

/-! ## Operations and teardowns -/

theorem performWith_watcher? (self : Nat) (op : Operation) (s : Engine) :
    (performWith tear self op s).2.watcher? = s.watcher? := by
  have hreach : ∀ (m : Nat) (f : Engine → Link.Answer × Engine),
      (f s).2.watcher? = s.watcher? → (s.withReachable m f).2.watcher? = s.watcher? := by
    intro m f hf
    unfold withReachable
    split
    · exact hf
    · rfl
  unfold performWith
  cases op with
  | wake name =>
    dsimp only
    split
    · rfl
    · exact wakeComet_watcher? hT _ s
  | isCurrent name =>
    dsimp only
    split <;> rfl
  | notify m => exact hreach _ _ (notify_watcher? hT _ s)
  | killKeepalive m => exact hreach _ _ rfl
  | close m reason => exact hreach _ _ (closeWith_watcher? hT _ _ s)
  | shutdown i => exact shutdownListener_watcher? hT i s
  | trigger reason => exact trigger_watcher? hT reason s
  | script i more => exact watcher?_extendScript i more s
  | runTimers => exact runTimersWithin_watcher? hT _ s
  | _ => rfl

private theorem performNoted_watcher? (self : Nat) (ops : List NamedOperation) (s : Engine) :
    (performNoted tear self ops s).watcher? = s.watcher? := by
  refine foldl_watcher? (fun s op => ?_) ops s
  exact performWith_watcher? hT self op.operation s

private theorem callClose_watcher? (l : Nat) (reason : CloseReason) (s : Engine) :
    (callClose tear l reason s).watcher? = s.watcher? := by
  unfold callClose
  split
  · rfl
  dsimp only
  split
  · rfl
  · exact performNoted_watcher? hT l _ _

end Wakers

private theorem markClosed_watcher? (l : Nat) (reason : CloseReason) (s : Engine) :
    (markClosed l reason s).watcher? = s.watcher? := by
  refine watcher?_congr ?_
  cases hk : s.link? l with
  | none =>
    unfold markClosed
    simp only [modifyLink_of_none, disarm_of_none, hk]
  | some k =>
    rw [markClosed_eq hk]
    rfl

private theorem giveBack_watcher? (l : Nat) (reason : CloseReason) (s : Engine) :
    (giveBack l reason s).watcher? = s.watcher? := by
  cases hk : s.link? l with
  | none => rw [giveBack_of_none hk]
  | some k =>
    rw [giveBack_eq hk]
    exact watcher?_modifyListener (s.setLink l k.gone) k.listener
      (·.released l k.stream.close.2.takeBuffers.1 reason) fun _ => rfl

private theorem tearDownWithin_sparesWatchers (depth : Nat) :
    Teardown.SparesWatchers (tearDownWithin depth) := by
  induction depth with
  | zero => exact fun _ _ _ => rfl
  | succ depth ih =>
    intro l reason s
    unfold tearDownWithin
    split
    · rfl
    split
    · rfl
    · exact (giveBack_watcher? l reason _).trans
        ((callClose_watcher? ih l reason _).trans (markClosed_watcher? l reason s))

/-- **Teardowns leave the watchers alone**, whatever the close hooks do. -/
theorem tearDown_sparesWatchers : Teardown.SparesWatchers tearDown :=
  fun l reason s => tearDownWithin_sparesWatchers s.openLinks l reason s

/-! ## Notices -/

/-- What came of a notice, after the watcher of listener `i` counted it. -/
private def noted (i : Nat) (x : Bool × Engine) : Engine :=
  if x.1 then (x.2.watcher? i).elim x.2 fun w => x.2.setWatcher i w.noteWoken else x.2

private theorem notifyWatched_cons (i l : Nat) (ls : List Nat) (s : Engine) :
    notifyWatched i (l :: ls) s = notifyWatched i ls (noted i (notify tearDown l s)) := rfl

private theorem noted_watcher? {x : Bool × Engine} (hw : x.2.watcher? i = some w) :
    ∃ n, (noted i x).watcher? i = some { w with woken := w.woken + n } := by
  unfold noted
  split
  · rw [hw]
    exact ⟨1, watcher?_setWatcher hw w.noteWoken⟩
  · exact ⟨0, hw⟩

/-- Notices leave a watcher as it was, except that it counts whom they woke. -/
theorem notifyWatched_watcher? (ls : List Nat) (hw : s.watcher? i = some w) :
    ∃ n, (notifyWatched i ls s).watcher? i = some { w with woken := w.woken + n } := by
  induction ls generalizing s w with
  | nil => exact ⟨0, hw⟩
  | cons l ls ih =>
    have hnotified := congrFun (notify_watcher? tearDown_sparesWatchers l s) i
    obtain ⟨n, hnoted⟩ := noted_watcher? (hnotified.trans hw)
    obtain ⟨m, hrest⟩ := ih hnoted
    refine ⟨n + m, ?_⟩
    rw [notifyWatched_cons, ← Nat.add_assoc]
    exact hrest

/-- The pool was handed one task for each of these links that rests, and they rest no more. -/
structure Roused (ls : List Nat) (s t : Engine) : Prop where
  refusing : t.refusing = false
  resting : ∀ m, t.isResting m = true ↔ s.isResting m = true ∧ m ∉ ls
  entries : ∀ m, t.entries m = s.entries m ++ if m ∈ ls ∧ s.isResting m = true then [.resume] else []

theorem Roused.nil (h : s.refusing = false) : Roused [] s s :=
  ⟨h, fun m => by simp, fun m => by simp⟩

theorem Roused.cons {u : Engine} {ls : List Nat} (h : Roused [l] s t) (hls : Roused ls t u) :
    Roused (l :: ls) s u where
  refusing := hls.refusing
  resting m := by
    rw [hls.resting, h.resting, List.mem_singleton, List.mem_cons, not_or, and_assoc]
  entries m := by
    rw [hls.entries, h.entries, List.append_assoc]
    congr 1
    simp only [h.resting, List.mem_cons, List.not_mem_nil, or_false]
    by_cases hm : m = l <;> by_cases hr : s.isResting m = true <;> simp [hm, hr]

theorem isResting_iff : s.isResting l = true ↔ ∃ k, s.link? l = some k ∧ k.request = .keepalive := by
  unfold isResting
  cases s.link? l <;> simp

theorem isResting_congr {m : Nat} (h : t.link? m = s.link? m) :
    t.isResting m = true ↔ s.isResting m = true := by
  unfold isResting
  rw [h]

/-- A link that does not rest is roused by leaving it alone. -/
private theorem Roused.awake (hs : s.refusing = false) (hl : ¬ s.isResting l = true) :
    Roused [l] s s where
  refusing := hs
  resting m := by
    refine ⟨fun h => ⟨h, fun hm => hl ?_⟩, And.left⟩
    rwa [List.mem_singleton.1 hm] at h
  entries m := by
    rw [if_neg, List.append_nil]
    rintro ⟨hm, h⟩
    rw [List.mem_singleton.1 hm] at h
    exact hl h

/-- A notice hands a link that rests to the pool, and does nothing to others. -/
theorem notify_roused (tear : Teardown) (hs : s.refusing = false) (l : Nat) :
    Roused [l] s (notify tear l s).2 := by
  unfold notify
  split
  · next hk => exact .awake hs fun h => by simp [isResting, hk] at h
  next k hk =>
  split
  · next r hr =>
    obtain ⟨hq, rfl⟩ := Connection.Request.wakeKeepalive_eq_resume hr
    unfold schedule
    rw [if_neg (show ¬ (s.setLink l _).refusing = true from hs ▸ Bool.false_ne_true)]
    have hrests : s.isResting l = true := isResting_iff.2 ⟨k, hk, hq⟩
    refine ⟨hs, fun m => ?_, fun m => ?_⟩
    · rw [List.mem_singleton]
      by_cases hm : m = l
      · subst hm
        have hlink := link?_setLink_self hk { k with request := .request }
        refine ⟨fun h => ?_, fun h => absurd rfl h.2⟩
        obtain ⟨k', hk', hq'⟩ := isResting_iff.1 h
        cases hlink.symm.trans hk'
        cases hq'
      · have hlink := link?_setLink_ne hm s { k with request := .request }
        exact (isResting_congr hlink).trans (and_iff_left hm).symm
    · refine (entries_append (s.setLink l { k with request := .request }) l m .resume).trans ?_
      by_cases hm : m = l
      · subst hm
        rw [if_pos rfl, if_pos ⟨List.mem_singleton_self _, hrests⟩]
        rfl
      · rw [if_neg hm, if_neg fun h => hm (List.mem_singleton.1 h.1), List.append_nil]
        rfl
  · next hr =>
    refine .awake hs fun h => ?_
    obtain ⟨k', hk', hq⟩ := isResting_iff.1 h
    cases hk.symm.trans hk'
    exact hr .request (by rw [hq]; rfl)

private theorem Roused.noted {ls : List Nat} {x : Bool × Engine} (h : Roused ls s x.2) (i : Nat) :
    Roused ls s (noted i x) := by
  unfold Engine.noted
  split
  · cases x.2.watcher? i <;> exact ⟨h.refusing, h.resting, h.entries⟩
  · exact h

theorem foldl_notify_roused (ls : List Nat) (hs : s.refusing = false) :
    Roused ls s (ls.foldl (fun s l => (notify tearDown l s).2) s) := by
  induction ls generalizing s with
  | nil => exact .nil hs
  | cons l ls ih =>
    have hl := notify_roused tearDown hs l
    exact hl.cons (ih hl.refusing)

theorem notifyWatched_roused (i : Nat) (ls : List Nat) (hs : s.refusing = false) :
    Roused ls s (notifyWatched i ls s) := by
  induction ls generalizing s with
  | nil => exact .nil hs
  | cons l ls ih =>
    have hl := (notify_roused tearDown hs l).noted i
    rw [notifyWatched_cons]
    exact hl.cons (ih hl.refusing)

/-! ## Rounds -/

theorem register_polling (k : Link) (l : Nat) (w : Watcher) (s : Engine) :
    s.register l k (.polling w) =
      (some (w.register l k.stream.socket.hasDescriptor).1,
        s.setWatcher k.listener (w.register l k.stream.socket.hasDescriptor).2) := rfl

theorem pollRoundWith_eq (hw : s.watcher? i = some w) (hs : w.stopped = false)
    (poll : Watcher.Poll) :
    s.pollRoundWith poll i =
      notifyWatched i (w.round s.isResting poll).1 (s.setWatcher i (w.round s.isResting poll).2) := by
  unfold pollRoundWith
  rw [hw]
  exact if_neg (hs ▸ Bool.false_ne_true)

theorem stopWatcher_eq (hw : s.watcher? i = some w) :
    s.stopWatcher i =
      w.stop.1.foldl (fun s l => (notify tearDown l s).2) (s.setWatcher i w.stop.2) := by
  unfold stopWatcher
  rw [hw]

/-- **A round leaves the watcher as the watcher left itself**, but for the count of those who
woke, whatever the notices set off. -/
theorem pollRoundWith_watcher? (hw : s.watcher? i = some w) (hs : w.stopped = false)
    (poll : Watcher.Poll) :
    ∃ n, (s.pollRoundWith poll i).watcher? i =
      some { (w.round s.isResting poll).2 with
        woken := (w.round s.isResting poll).2.woken + n } := by
  rw [pollRoundWith_eq hw hs]
  exact notifyWatched_watcher? _ (watcher?_setWatcher hw _)

theorem stopWatcher_watcher? (hw : s.watcher? i = some w) :
    (s.stopWatcher i).watcher? i = some w.stop.2 := by
  rw [stopWatcher_eq hw,
    foldl_watcher? (fun s l => notify_watcher? tearDown_sparesWatchers l s) w.stop.1]
  exact watcher?_setWatcher hw _

private theorem Roused.of_setWatcher {ls : List Nat} (h : Roused ls (s.setWatcher i w) t) :
    Roused ls s t := ⟨h.refusing, h.resting, h.entries⟩

theorem pollRoundWith_roused (hw : s.watcher? i = some w) (hs : w.stopped = false)
    (poll : Watcher.Poll) (hr : s.refusing = false) :
    Roused (w.round s.isResting poll).1 s (s.pollRoundWith poll i) := by
  rw [pollRoundWith_eq hw hs]
  exact (notifyWatched_roused i _ (s := s.setWatcher i _) hr).of_setWatcher

theorem stopWatcher_roused (hw : s.watcher? i = some w) (hr : s.refusing = false) :
    Roused w.stop.1 s (s.stopWatcher i) := by
  rw [stopWatcher_eq hw]
  exact (foldl_notify_roused _ (s := s.setWatcher i _) hr).of_setWatcher

end LinkEngine.Engine

import LinkEngine.Proofs.Accounts
import LinkEngine.Proofs.Growth

/-!
# Who hears of a shutdown

A listener that is shut down goes through its links and asks them to close, while hooks
of them do whatever they do, shut down others and ask others to close. When it is through,
every link of it that is still open has word of it and is not parked, so its task sees to
the rest (`move_summons`). The one exception is the link whose own task is at it: that one has
word of it, too, but may be about to be parked. A signal that is raised is heard by every
listener, also by those that are built later (`Shuts`).
-/

namespace LinkEngine

open Connection (CloseReason)

/-! ## Links -/

namespace Link

variable {k k' : Link}

/-- Where it is open, the link was asked to close. -/
def Summoned (k : Link) : Prop :=
  k.closed = false → k.closing = true ∧ k.closeRequest.isSome = true

theorem Heeding.summoned (h : k.Heeding) : k.Summoned := fun hc => ⟨(h hc).1, (h hc).2.1⟩

theorem Summoned.of_closed (hc : k.closed = true) : k.Summoned :=
  fun h => nomatch hc.symm.trans h

theorem Summoned.grown (h : k.Summoned) (hg : k.Grown k')
    (hc : k.closed = true → k'.closed = true) : k'.Summoned := by
  intro hopen
  have hk : k.closed = false := by
    exact Bool.eq_false_iff.2 fun hclosed => nomatch (hc hclosed).symm.trans hopen
  obtain ⟨r, hr⟩ := Option.isSome_iff_exists.1 (h hk).2
  exact ⟨hg.closing (h hk).1, Option.isSome_iff_exists.2 ⟨r, hg.closeRequest r hr⟩⟩

theorem Own.closed (h : k.Own k') : k'.closed = k.closed := congrArg (·.2.2.1) h.frame

theorem Summoned.own (h : k.Summoned) (ho : k.Own k') : k'.Summoned :=
  h.grown ho.grown fun hc => ho.closed.trans hc

end Link

theorem Stand.Course.summoned {v w : Stand} (h : Course v w) (hv : v.link.Summoned) :
    w.link.Summoned :=
  hv.grown h.grown h.closed

namespace Engine

variable {s t u : Engine} {i j l : Nat} {k k' : Link} {reason : CloseReason} {d : Option Nat}
  {joins : Nat → Nat}

/-! ## Shutdowns -/

/-- Where the signal was raised, every listener is shut down. -/
def Heard (s : Engine) : Prop :=
  s.signal.isSome = true → ∀ i < s.listeners.length, (s.listener i).stopped = true

/-- What was shut down stays so, and signals that are raised are heard and keep their
reason. -/
structure Shuts (s t : Engine) : Prop where
  length : s.listeners.length ≤ t.listeners.length
  stopped : ∀ i, (s.listener i).stopped = true → (t.listener i).stopped = true
  signal : ∀ reason, s.signal = some reason → t.signal = some reason
  heard : s.Heard → t.Heard

theorem Shuts.raised (h : Shuts s t) (hs : s.signal.isSome = true) : t.signal.isSome = true := by
  obtain ⟨reason, hs⟩ := Option.isSome_iff_exists.1 hs
  rw [h.signal reason hs]
  rfl

theorem Calm.shuts (h : Calm s t) : Shuts s t where
  length := Nat.le_of_eq h.length.symm
  stopped i hi := (h.stopped i).trans hi
  signal _ hs := h.signal.trans hs
  heard hs ht i hi := (h.stopped i).trans (hs (h.signal ▸ ht) i (h.length ▸ hi))

theorem Shuts.trans (h₁ : Shuts s t) (h₂ : Shuts t u) : Shuts s u where
  length := Nat.le_trans h₁.length h₂.length
  stopped i hi := h₂.stopped i (h₁.stopped i hi)
  signal reason hs := h₂.signal reason (h₁.signal reason hs)
  heard hs := h₂.heard (h₁.heard hs)

theorem Shuts.of_same (hl : t.listeners = s.listeners) (hs : t.signal = s.signal) : Shuts s t :=
  (Calm.of hl hs).shuts

theorem Shuts.refl (s : Engine) : Shuts s s := .of_same rfl rfl

/-- What comes before shuts nothing down. -/
theorem Shuts.after (h : Shuts t u) (hl : t.listeners = s.listeners) (hs : t.signal = s.signal) :
    Shuts s u :=
  (Calm.of hl hs).shuts.trans h

/-- A listener that is shut down is closed to connections, and so are all of them once the
signal was raised. -/
theorem Shuts.isShuttingDown (h : Shuts s t) (hi : s.isShuttingDown i = true) :
    t.isShuttingDown i = true := by
  rcases Bool.or_eq_true_iff.1 hi with hi | hi
  · exact Bool.or_eq_true_iff.2 (.inl (h.stopped i hi))
  · exact Bool.or_eq_true_iff.2 (.inr (h.raised hi))

theorem Course.shuts (h : Course s t) : Shuts s t := by
  induction h with
  | refl => exact .refl _
  | change h _ ih => exact h.calm.shuts.trans ih
  | @halt s s' t u done h inner hd _ ihinner ihrest =>
    refine .trans ⟨?_, ?_, ?_, ?_⟩ ihrest
    · exact Nat.le_of_eq (inner.length.trans h.length).symm
    · exact fun i hi => inner.stopped (h.stopped hi)
    · intro r hs
      refine ihinner.signal r ?_
      cases h with
      | listener => exact hs
      | all _ hnone => exact nomatch hnone.symm.trans hs
    · cases h with
      | listener j =>
        exact fun hs => ihinner.heard fun hsignal i hi =>
          (Halt.listener j).stopped (hs hsignal i (List.length_modify .. ▸ hi))
      | all reason hnone =>
        -- The signal is raised here, and in the end every listener is shut down.
        exact fun _ _ i hi => hd i (inner.length ▸ hi)
  | teardown hk h _ _ ihhook ihrest =>
    have hhook := (calm_beginTearDown _ _ _).shuts.trans ihhook
    exact (hhook.trans ((calm_giveBack _ _ _).shuts.trans ihrest)).after rfl rfl

theorem TornDown.shuts (h : TornDown l reason s t) : Shuts s t := by
  cases h with
  | absent | before => exact .refl _
  | now hk hc hook =>
    exact (calm_beginTearDown _ _ _).shuts.trans (hook.shuts.trans (calm_giveBack _ _ _).shuts)

theorem Work.shuts (h : Work l s t) : Shuts s t := by
  induction h with
  | refl => exact .refl _
  | course h _ ih => exact h.shuts.trans ih
  | own _ _ _ _ ih => exact ih.after rfl rfl
  | armed delay _ ih => exact (calm_arm _ delay _).shuts.trans ih
  | disarmed _ ih => exact (calm_disarm _ _).shuts.trans ih
  | stats i _ _ ih =>
    refine Shuts.trans (Calm.shuts ?_) ih
    exact .listener _ i fun _ => rfl
  | handle _ _ _ ih => exact ih.after rfl rfl

theorem Drove.shuts (h : Drove l s t) : Shuts s t := by
  cases h with
  | work h => exact h.shuts
  | torn h ht h' => exact h.shuts.trans (ht.shuts.trans h'.shuts)

private theorem Begun.shuts {place : Nat} (h : Begun place s t) : Shuts s t := by
  cases h with
  | nothing => exact .refl _
  | taken ht hk hd h => exact h.shuts.after rfl rfl

private theorem Starts.shuts (h : Starts l s t) : Shuts s t := by
  cases h with
  | queued => exact .of_same rfl rfl
  | refused hk h =>
    refine Shuts.after (h.shuts.trans ?_) rfl rfl
    exact .of_same rfl rfl

/-- Installing a link shuts nothing down. -/
private theorem calm_installLink {e : Socket.Endpoint Operation}
    (he : s.slots[l]? = some (.turnedAway e)) (i : Nat) (handler : Handler)
    (notes : List Link.Note) : Calm s (installLink i l handler notes s) := by
  rw [installLink_eq he]
  refine Calm.trans ?_ (.listener _ i fun _ => rfl)
  exact .of rfl rfl

/-- Letting a connection in shuts nothing down. -/
private theorem calm_join (s : Engine) (socket : Socket.Endpoint Operation) (i : Nat)
    (tracker : Shutdown.Tracker) :
    Calm s ((s.addSlot socket).modifyListener i fun x => { x with tracker }) := by
  have hslot : Calm s (s.addSlot socket) := .of rfl rfl
  exact hslot.trans (.listener _ i fun _ => rfl)

private theorem Accepts.shuts {arrival : Arrival} (h : Accepts j arrival s t) : Shuts s t := by
  cases h with
  | turnedAway =>
    have hcount : Calm (s.addSlot arrival.socket) ((s.addSlot arrival.socket).count j .rejected) :=
      .listener _ j fun _ => rfl
    exact hcount.shuts.after rfl rfl
  | started hj make hn ask _ start =>
    obtain ⟨e, he, -⟩ := make.turnedAway (slots_addSlot s arrival.socket)
    exact (calm_join s arrival.socket j _).shuts.trans (make.shuts.trans
      ((calm_installLink he _ _ _).shuts.trans (ask.shuts.trans start.shuts)))

private theorem listener_of_le (h : s.listeners.length ≤ i) : s.listener i = default := by
  unfold listener
  rw [List.getD_eq_getElem?_getD, List.getElem?_eq_none h]
  rfl

/-- A listener that is added shuts nothing down, but has to hear the signal. -/
private theorem Builds.shuts (h : Builds s t) : Shuts s t := by
  cases h with
  | refused => exact .refl s
  | unqueued => exact .of_same rfl rfl
  | @built delay x y t h hf hy hs h' ht =>
    have hcourse := h'.shuts
    have hlength : t.listeners.length = s.listeners.length + 1 :=
      h'.length.trans List.length_append
    have hold : ∀ i < s.listeners.length, (s.listener i).stopped = true →
        (t.listener i).stopped = true := by
      intro i hlt hi
      exact hcourse.stopped i ((congrArg Listener.stopped
        (listener_append_of_lt (s := s.withHousekeeping x) hlt y)).trans hi)
    refine ⟨hlength ▸ Nat.le_succ _, fun i hi => ?_, hcourse.signal, fun hheard hsignal => ?_⟩
    · by_cases hlt : i < s.listeners.length
      · exact hold i hlt hi
      · -- Where there is no listener, none is shut down.
        rw [listener_of_le (Nat.le_of_not_lt hlt)] at hi
        cases hi
    · cases hraised : s.signal with
      | none =>
        refine hcourse.heard (fun h => ?_) hsignal
        have h : s.signal.isSome = true := h
        rw [hraised] at h
        cases h
      | some reason =>
        intro i hi
        rw [hlength] at hi
        rcases Nat.lt_succ_iff_lt_or_eq.1 hi with hlt | rfl
        · exact hold i hlt (hheard (hraised ▸ rfl) i hlt)
        · exact ht (hraised ▸ rfl)

theorem move_shuts (m : Move) (s : Engine) : Shuts s (move m s) := by
  cases move_moves m s with
  | course h => exact h.shuts
  | built h => exact h.shuts
  | accepted hi h => exact h.shuts
  | begun h => exact h.shuts
  | drove h => exact h.shuts

theorem follow_shuts (moves : List Move) (s : Engine) : Shuts s (follow moves s) := by
  induction moves generalizing s with
  | nil => exact .refl s
  | cons m moves ih => exact (move_shuts m s).trans (ih _)

/-- **The signal is heard throughout every run.** -/
theorem heard (settings : Settings.Scheduler) (now : Nat) (moves : List Move) :
    (after settings now moves).Heard :=
  after_induction (P := Heard) nofun (fun m s hs => (move_shuts m s).heard hs) moves

/-! ## Links that are asked to close -/

/-- Where listener `i` is shut down, its links were all asked to close, and each of them
heeds that, but the one whose task is at it may be about to be parked. -/
def Summons (s : Engine) (i : Nat) (d : Option Nat) : Prop :=
  (s.listener i).stopped = true → ∀ l k, s.link? l = some k → k.listener = i →
    k.Summoned ∧ (some l ≠ d → k.Heeding)

namespace Summons

/-- A listener that is not shut down asks nobody. -/
theorem of_running (h : (s.listener i).stopped = false) : s.Summons i d :=
  fun hs => nomatch h.symm.trans hs

/-- It depends on the links that are open. -/
theorem congr (hs : s.Summons i d)
    (hstop : (t.listener i).stopped = true → (s.listener i).stopped = true)
    (hl : ∀ l k', t.link? l = some k' → k'.closed = false →
      ∃ k, s.link? l = some k ∧ k.listener = k'.listener ∧ (k.Summoned → k'.Summoned) ∧
        (some l ≠ d → k.Heeding → k'.Heeding)) : t.Summons i d := by
  intro ht l k' hk' hi
  cases hc : k'.closed with
  | true => exact ⟨.of_closed hc, fun _ => .of_closed hc⟩
  | false =>
    obtain ⟨k, hk, hlistener, hsummoned, hheeding⟩ := hl l k' hk' hc
    obtain ⟨h, h'⟩ := hs (hstop ht) l k hk (hlistener.trans hi)
    exact ⟨hsummoned h, fun hd => hheeding hd (h' hd)⟩

/-- Where the links are the same. -/
theorem same (hs : s.Summons i d) (hcalm : Calm s t) (hl : ∀ l, t.link? l = s.link? l) :
    t.Summons i d :=
  hs.congr (fun h => (hcalm.stopped i).symm.trans h)
    fun l k' hk' _ => ⟨k', (hl l).symm.trans hk', rfl, id, fun _ => id⟩

/-- Where one link is another. -/
theorem rewritten (hs : s.Summons i d) (hcalm : Calm s t) (hk : s.link? l = some k)
    (hl : ∀ m, m ≠ l → t.link? m = s.link? m) (hk' : t.link? l = some k')
    (h : k'.closed = false → k.listener = k'.listener ∧ (k.Summoned → k'.Summoned) ∧
      (some l ≠ d → k.Heeding → k'.Heeding)) : t.Summons i d := by
  refine hs.congr (fun h => (hcalm.stopped i).symm.trans h) fun m x hx hc => ?_
  by_cases hm : m = l
  · subst hm
    cases hk'.symm.trans hx
    exact ⟨k, hk, h hc⟩
  · exact ⟨x, (hl m hm).symm.trans hx, rfl, id, fun _ => id⟩

theorem setLink (hs : s.Summons i d) (hk : s.link? l = some k)
    (h : k'.closed = false → k.listener = k'.listener ∧ (k.Summoned → k'.Summoned) ∧
      (some l ≠ d → k.Heeding → k'.Heeding)) : (s.setLink l k').Summons i d :=
  hs.rewritten (.of rfl rfl) hk (fun _ hm => link?_setLink_ne hm s k') (link?_setLink_self hk k') h

end Summons

/-- A link that is there after a course was there before, and sees it as a course of its
own. -/
theorem Course.link?_of (h : Course s t) (hk' : t.link? l = some k') :
    ∃ k, s.link? l = some k ∧ Stand.Course ⟨k, s.entries l⟩ ⟨k', t.entries l⟩ := by
  have hsome : (s.link? l).isSome = true := by
    rw [← h.peopled.links, hk']
    rfl
  obtain ⟨k, hk⟩ := Option.isSome_iff_exists.1 hsome
  obtain ⟨w, hw, hvw⟩ := h.stand (stand?_of_link? hk)
  cases hw.symm.trans (stand?_of_link? hk')
  exact ⟨k, hk, hvw⟩

/-- Where nothing is shut down on the way, a course leaves it at that. -/
private theorem Course.summons_of_calm (h : Course s t) (hs : s.Summons i d)
    (hi : (t.listener i).stopped = true → (s.listener i).stopped = true) : t.Summons i d := by
  refine hs.congr hi fun l k' hk' _ => ?_
  obtain ⟨k, hk, hcourse⟩ := h.link?_of hk'
  exact ⟨k, hk, (congrArg Prod.fst hcourse.owner).symm, hcourse.summoned, fun _ => hcourse.heeding⟩

/-- Whoever is torn down is closed, whatever was done to him before. -/
private theorem summons_seized (hs : s.Summons i d) (hk : s.link? l = some k) (k' : Link)
    (reason : CloseReason) : (beginTearDown l reason (s.setLink l k')).Summons i d := by
  have hk' := link?_setLink_self hk k'
  have hset : Calm s (s.setLink l k') := .of rfl rfl
  refine hs.rewritten (hset.trans (calm_beginTearDown l reason _)) hk (fun m hm => ?_)
    (stand?_eq_some.1 (stand?_beginTearDown_self (stand?_of_link? hk') reason)).1 fun hc => ?_
  · rw [beginTearDown_eq hk']
    exact (link?_setLink_ne hm (s.setLink l k') _).trans (link?_setLink_ne hm s k')
  · rw [Link.closed_marked] at hc
    cases hc

theorem summons_giveBack (hs : s.Summons i d) (l : Nat) (reason : CloseReason) :
    (giveBack l reason s).Summons i d := by
  cases hk : s.link? l with
  | none =>
    rw [giveBack_of_none hk]
    exact hs
  | some k =>
    refine hs.rewritten (calm_giveBack l reason s) hk (fun m hm => ?_)
      (stand?_eq_some.1 (stand?_giveBack_self (stand?_of_link? hk) reason)).1
      fun _ => ⟨rfl, id, fun _ h hc => ⟨(h hc).1, (h hc).2.1, rfl⟩⟩
    rw [giveBack_eq hk]
    exact link?_setLink_ne hm s _

/-- When a listener is shut down, who is registered heeds that in the end. -/
private theorem Halt.heeds {done : Engine → Prop} (h : Halt s t done)
    (hi : ¬ (s.listener i).stopped = true) (ht : (t.listener i).stopped = true) (hd : done u)
    (hl : l ∈ (s.listener i).registry) (hk : (s.link? l).isSome = true) : u.Heeds l := by
  cases h with
  | listener j =>
    rcases listener_modifyListener_cases s j i Listener.halted with hsame | ⟨rfl, -, -⟩
    · exact absurd ((congrArg Listener.stopped hsame).symm.trans ht) hi
    · exact hd l hl hk
  | all => exact absurd ht hi

/-- **When others are through, every link of a listener that they shut down heeds that.** -/
theorem Course.summons (h : Course s t) (ha : s.Audited joins) (hs : s.Summons i d) :
    t.Summons i d := by
  induction h with
  | refl => exact hs
  | change h rest ih =>
    exact ih (ha.agree h.agree)
      ((Course.single h).summons_of_calm hs fun hi => (h.calm.stopped i).symm.trans hi)
  | @halt s s' t u done h inner hd _ ihinner ihrest =>
    have ha' := ha.agree h.agree
    refine ihrest (inner.audited ha') ?_
    have hsame : ∀ l, s'.link? l = s.link? l := fun l =>
      congrArg (fun slots => slots[l]?.bind Slot.link?) h.slots
    by_cases hi : (s'.listener i).stopped = true → (s.listener i).stopped = true
    · exact ihinner ha' (hs.congr hi fun l k hk _ =>
        ⟨k, (hsame l).symm.trans hk, rfl, id, fun _ => id⟩)
    -- Here the listener is shut down: its registry says who is asked to close.
    obtain ⟨hstopped, hi⟩ := Classical.not_imp.1 hi
    intro _ l x hx hlistener
    cases hc : x.closed with
    | true => exact ⟨.of_closed hc, fun _ => .of_closed hc⟩
    | false =>
      obtain ⟨k, hk, hcourse⟩ := inner.link?_of hx
      have hk := (hsame l).symm.trans hk
      have hopen : k.closed = false := hcourse.open hc
      have howner : k.listener = i := (congrArg Prod.fst hcourse.owner).symm.trans hlistener
      have hmem := ((ha.books i (howner ▸ ha.housed l k hk)).registered l).2
        ⟨k, hk, howner, ha.counted l k hk hopen⟩
      have hheeding := h.heeds hi hstopped hd hmem (hk ▸ rfl) x hx
      exact ⟨hheeding.summoned, fun _ => hheeding⟩
  | @teardown s t u l k k' reason hk h hook _ ihhook ihrest =>
    have hset := ha.agree (.setLink hk h.kin)
    have hk' := link?_setLink_self hk k'
    have hbegun := audited_beginTearDown hset hk' h.open.2 reason
    exact ihrest (audited_hooked hset hk' h.open.2 hook (hook.audited hbegun))
      (summons_giveBack (ihhook hbegun (summons_seized hs hk k' reason)) l reason)

theorem TornDown.summons (h : TornDown l reason s t) (ha : s.Audited joins)
    (hs : s.Summons i d) : t.Summons i d := by
  cases h with
  | absent | before => exact hs
  | now hk hc hook =>
    have hbegun := setLink_self hk ▸ summons_seized hs hk _ reason
    exact summons_giveBack (hook.summons (audited_beginTearDown ha hk hc reason) hbegun) l reason

/-! ## Moves -/

/-- What a task writes to its link does not unmake that it was asked to close. -/
private theorem Summons.own (hs : s.Summons i (some l)) (hcalm : Calm s t)
    (hk : s.link? l = some k) (hl : ∀ m, m ≠ l → t.link? m = s.link? m)
    (hk' : t.link? l = some k') (ho : k.Own k') : t.Summons i (some l) :=
  hs.rewritten hcalm hk hl hk' fun _ =>
    ⟨(congrArg Prod.fst ho.frame).symm, fun h => h.own ho, fun h => absurd rfl h⟩

/-- Its own link apart, a task leaves all that were asked to close heeding that. -/
private theorem Work.summons (h : Work l s t) (ha : s.Audited joins)
    (hs : s.Summons i (some l)) : t.Summons i (some l) := by
  induction h with
  | refl => exact hs
  | course h _ ih => exact ih (h.audited ha) (h.summons ha hs)
  | own hk h hw _ ih =>
    exact ih ((Work.write hk h hw).audited ha) (hs.own (.of rfl rfl) hk
      (fun m hm => link?_setLink_ne hm _ _) (link?_setLink_self hk _) h)
  | @armed s u delay rest ih =>
    refine ih ((Work.armed delay (.refl _)).audited ha) ?_
    cases hk : s.link? l with
    | none =>
      rw [arm_of_none hk]
      exact hs
    | some k =>
      obtain ⟨k', hk', ho⟩ := stand?_arm_self (stand?_of_link? hk) delay
      refine hs.own (calm_arm l delay s) hk (fun m hm => ?_) (stand?_eq_some.1 hk').1 ho
      rw [arm_eq hk]
      split <;> exact link?_setLink_ne hm s _
  | @disarmed s u rest ih =>
    refine ih ((Work.disarmed (.refl _)).audited ha) ?_
    cases hk : s.link? l with
    | none =>
      rw [disarm_of_none hk]
      exact hs
    | some k =>
      refine hs.own (calm_disarm l s) hk (fun m hm => ?_)
        (stand?_eq_some.1 (stand?_disarm (stand?_of_link? hk))).1 (.disarmed k)
      rw [disarm_eq hk]
      exact link?_setLink_ne hm s _
  | stats j h _ ih =>
    exact ih ((Work.stats (l := l) j h (.refl _)).audited ha)
      (hs.same (.listener _ j fun _ => rfl) fun _ => rfl)
  | handle name h _ ih =>
    exact ih ((Work.handle (l := l) name h (.refl _)).audited ha) (hs.same (.of rfl rfl) fun _ => rfl)

private theorem Drove.summons (h : Drove l s t) (ha : s.Audited joins)
    (hs : s.Summons i (some l)) : t.Summons i (some l) := by
  cases h with
  | work h => exact h.summons ha hs
  | torn h ht h' =>
    have hwork := h.audited ha
    exact h'.summons (ht.audited hwork) (ht.summons hwork (h.summons ha hs))

/-- A task that begins does not keep anybody from heeding. -/
private theorem summons_begin (place : Nat) (ha : s.Audited joins) (hs : s.Summons i none) :
    (begin place s).Summons i none := by
  unfold begin
  split
  · exact hs
  next task _ =>
  split
  · exact hs
  next k hk =>
  split
  · exact hs
  have hdequeue : (s.dequeue place).Summons i none := hs.same (.of rfl rfl) fun _ => rfl
  dsimp only
  split
  · exact hdequeue
  · split
    · exact (tearDown_tornDown _ _ (s.dequeue place)).summons (ha.agree (.same rfl rfl)) hdequeue
    · exact hdequeue.setLink (show (s.dequeue place).link? task.link = some k from hk)
        fun _ => ⟨rfl, fun h hc => h hc, fun _ h hc => h hc⟩

/-- A link that is started is not parked. -/
private theorem Starts.summons (h : Starts l s t) (ha : s.Audited joins)
    (hs : s.Summons i none) : t.Summons i none := by
  have hset : ∀ {k}, s.link? l = some k →
      (s.setLink l { k with request := .request }).Summons i none := fun hk =>
    hs.setLink hk fun _ => ⟨rfl, fun h hc => h hc, fun _ h hc => ⟨(h hc).1, (h hc).2.1, rfl⟩⟩
  cases h with
  | queued hk => exact (hset hk).same (.of rfl rfl) fun _ => rfl
  | @refused k t hk h =>
    have haset : (s.setLink l { k with request := .request }).Audited joins :=
      ha.agree (.setLink hk (.of rfl rfl rfl rfl))
    have ht := h.summons haset (hset hk)
    cases hk' : t.link? l with
    | none =>
      rw [modifyLink_of_none hk']
      exact ht
    | some k' =>
      rw [modifyLink_eq_setLink hk']
      exact ht.setLink hk' fun _ => ⟨rfl, fun h hc => h hc, fun _ h hc => h hc⟩

/-- **A connection that a listener lets in while it shuts down is asked to close as a link.** -/
private theorem Accepts.summons {arrival : Arrival} (h : Accepts j arrival s t)
    (hj : j < s.listeners.length) (ha : s.Audited fun _ => 0) (hs : s.Summons i none) :
    t.Summons i none := by
  have hslot : (s.addSlot arrival.socket).Summons i none :=
    hs.same (.of rfl rfl) (link?_addSlot s arrival.socket)
  have haslot := ha.agree (agree_addSlot s arrival.socket)
  cases h with
  | turnedAway => exact hslot.same (.listener _ j fun _ => rfl) fun _ => rfl
  | @started tracker t₁ t₂ w notes hjoin make hn ask asked start =>
    have hajoin := audited_join (s := s.addSlot arrival.socket) haslot hjoin
    have hmade := make.summons hajoin (hslot.same (.listener _ j fun _ => rfl) fun _ => rfl)
    obtain ⟨e, he, -⟩ := make.turnedAway (slots_addSlot s arrival.socket)
    have hlt : j < t₁.listeners.length := by
      rw [make.length, (calm_join s arrival.socket j tracker).length]
      exact hj
    have hinstalled := audited_installLink he arrival.handler notes (make.audited hajoin) hlt
    have hcalm := calm_installLink he j arrival.handler notes
    refine start.summons (ask.audited hinstalled) ?_
    cases hi : (t₁.listener i).stopped with
    | false => exact ask.summons hinstalled (.of_running ((hcalm.stopped i).trans hi))
    | true =>
      -- It was shut down while the handler was made, and asks the new link itself.
      intro _ l x hx hlistener
      obtain ⟨k, hk, hcourse⟩ := ask.link?_of hx
      rw [link?_installLink he] at hk
      have howner : k.listener = i := (congrArg Prod.fst hcourse.owner).symm.trans hlistener
      split at hk
      · next hl =>
        subst hl
        obtain rfl : j = i := (congrArg Link.listener (Option.some.inj hk)).trans howner
        have hheeding := asked (Bool.or_eq_true_iff.2 (.inl ((hcalm.stopped j).trans hi))) x hx
        exact ⟨hheeding.summoned, fun _ => hheeding⟩
      · obtain ⟨hsummoned, hheeding⟩ := hmade hi l k hk howner
        exact ⟨hcourse.summoned hsummoned, fun h => hcourse.heeding (hheeding h)⟩

private theorem Builds.summons (h : Builds s t) (hi : i < s.listeners.length)
    (ha : s.Audited fun _ => 0) (hs : s.Summons i none) : t.Summons i none := by
  cases h with
  | refused => exact hs
  | unqueued => exact hs.same (.of rfl rfl) fun _ => rfl
  | @built delay x y t h hf hy hrun h' ht =>
    have hadded := audited_addListener (s := s.withHousekeeping x) (ha.agree (.same rfl rfl)) hf
    refine h'.summons hadded (hs.congr (fun h => ?_) fun l k hk _ =>
      ⟨k, hk, rfl, id, fun _ => id⟩)
    exact (congrArg Listener.stopped
      (listener_append_of_lt (s := s.withHousekeeping x) hi y)).symm.trans h

/-- The link whose task a move is a step of. -/
def Move.driven? : Move → Option Nat
  | .advance l => some l
  | _ => none

/-- **When a move has shut down a listener, all links of it were asked to close.** They heed
that, but for the one that is driven. -/
theorem move_summons (ha : s.Audited fun _ => 0) (hi : i < s.listeners.length)
    (hrun : (s.listener i).stopped = false) (m : Move) : (move m s).Summons i m.driven? := by
  have hs : ∀ {d}, s.Summons i d := .of_running hrun
  cases m with
  | build settings multiplexer platform =>
    exact (build_builds settings multiplexer platform s).summons hi ha hs
  | accept j arrival =>
    show Summons (if j < s.listeners.length then (s.accept j arrival).2 else s) i none
    split
    · next hj => exact (accept_accepts j arrival s).summons hj ha hs
    · exact hs
  | begin place => exact summons_begin place ha hs
  | advance l => exact (advance_drove l s).summons ha hs
  | _ => exact (move_course rfl s).summons ha hs

end Engine

end LinkEngine

import LinkEngine.Proofs.Alternation
import LinkEngine.Proofs.Blame
import LinkEngine.Proofs.Ledger
import LinkEngine.Proofs.Spells

/-!
# No wait is cut short

Whoever waits for a link, its task or a deadline, knows when the present spell is over, and a
link that is given away bides its time until then (`Patient`). Every move keeps that: those of
others since they let the link bide its time, and the steps of its own task one by one
(`Patient.advanced`). So no connection closes because it rested for too long, no handler is told
that its request was suspended for too long, and no two-way stream closes as idle before the
spell is over, unless somebody asked for the close for that very reason (`no_wait_cut_short`).
-/

namespace LinkEngine

open Connection (CloseReason)
open Link (Entry Outcome Step)
open Time (Duration Millis.max)

/-! ## What others leave to a link -/

namespace Stand

variable {v w : Stand} {o : Outcome} {step : Step}

/-- Others do not write the time until which a link rests. -/
theorem Course.restUntil (h : Course v w) : w.link.restUntil = v.link.restUntil := by
  refine h.induction (P := fun k => k.restUntil = v.link.restUntil) ?_ ?_ ?_ (fun _ h => h) rfl
  · intro k k' h hk
    refine Eq.trans ?_ hk
    cases h with
    | asked =>
      unfold Link.interrupt
      split <;> rfl
    | _ => rfl
  · intro k k' h hk
    cases h <;> exact hk
  · intro k reason k' h hk
    refine Eq.trans ?_ hk
    have hseized : k'.restUntil = k.restUntil := by cases h <;> rfl
    refine Eq.trans ?_ hseized
    unfold Link.marked Link.shut Link.disarmed
    cases k'.deadline <;> rfl

private theorem restUntil_disarmed (k : Link) : k.disarmed.restUntil = k.restUntil := by
  unfold Link.disarmed
  split <;> rfl

/-- A step that only waits for the next request does not write it either. -/
theorem restUntil_of_waits (hs : step = .resumeParked ∨ step = .await ∨ step = .block)
    (h : plan step v o w) (ho : o.isEnd = false) : w.link.restUntil = v.link.restUntil := by
  rcases hs with rfl | rfl | rfl
  · obtain ⟨rfl, -⟩ := h
    exact restUntil_disarmed _
  · rcases h with ⟨kind, rfl, -⟩ | ⟨-, rfl⟩ | ⟨_, -, rfl, -⟩ | ⟨rfl, -⟩ | ⟨-, rfl⟩ | h
    · cases ho
    · rfl
    · cases ho
    · cases ho
    · rfl
    split at h
    · obtain ⟨rfl, -⟩ := h
      cases ho
    rcases h with ⟨rfl, -⟩ | ⟨t, u, hu, h⟩
    · cases ho
    have hcourse : u.link.restUntil = v.link.restUntil := hu.restUntil
    rcases h with ⟨rfl, -⟩ | ⟨-, rfl⟩ | h
    · cases ho
    · exact hcourse
    · unfold Plan.declined at h
      split at h
      · obtain ⟨-, rfl⟩ := h
        exact (restUntil_disarmed _).trans hcourse
      · obtain ⟨-, rfl⟩ := h
        exact hcourse
  · rcases h with ⟨_, -, rfl, -⟩ | ⟨-, ⟨rfl, -⟩ | ⟨u, hu, h⟩⟩
    · cases ho
    · cases ho
    have hcourse : u.link.restUntil = v.link.restUntil :=
      Course.restUntil (v := v.put { v.link with stream := v.link.stream.wait.2 }) hu
    rcases h with ⟨kind, rfl, -⟩ | ⟨-, rfl⟩ | ⟨-, rfl⟩ | ⟨_, -, rfl, -⟩
    · cases ho
    · exact hcourse
    · exact hcourse
    · cases ho

/-- A link that others left open is where it was, or its task begins. -/
theorem Aside.abides (h : Aside v w) (hc : w.link.closed = false) :
    w.link.machine.state = v.link.machine.state ∧ w.link.restUntil = v.link.restUntil ∧
      (w.link.step = v.link.step ∨
        v.link.step = none ∧ ∃ e : Entry, w.link.step = some e.step) := by
  have hcourse : Course v w → w.link.machine.state = v.link.machine.state ∧
      w.link.restUntil = v.link.restUntil ∧ w.link.step = v.link.step := fun h =>
    ⟨(h.abides hc).2.1, h.restUntil, (h.abides hc).1⟩
  rcases h with h | ⟨hs, h⟩
  · obtain ⟨hm, hr, hs⟩ := hcourse h
    exact ⟨hm, hr, .inl hs⟩
  cases h with
  | course h =>
    obtain ⟨hm, hr, hs⟩ := hcourse h
    exact ⟨hm, hr, .inl hs⟩
  | @begin k q _ i e => exact ⟨rfl, rfl, .inr ⟨hs, e, rfl⟩⟩
  | idle => exact ⟨rfl, rfl, .inl rfl⟩
  | doomed _ _ _ _ h => exact nomatch h.closed.symm.trans hc
  | step hs' => exact nomatch hs.symm.trans hs'

/-- A link that is justified stays so while others move. -/
theorem Aside.justified {r : CloseReason} {P : Link → Prop} (hP : Blames r P)
    (hr : r ≠ .handlerError) (h : Aside v w) (hj : Justified r P v.link) :
    Justified r P w.link := by
  rcases h with h | ⟨hs, h⟩
  · exact h.justified hP hj
  · exact h.justified hP hj hr fun _ _ _ hs' => nomatch hs.symm.trans hs'

/-- Nobody drives a new link, and its lifecycle has not begun. -/
theorem Started.resting {i : Nat} {arrival : Engine.Arrival} (h : Started i arrival v)
    (hc : v.link.closed = false) : v.link.step = none ∧ v.link.machine.state = .init := by
  cases h with
  | queued _ _ h =>
    obtain ⟨hs, hm, -⟩ := h.abides hc
    exact ⟨hs, hm⟩
  | refused _ _ _ ht => exact nomatch ht.closed.symm.trans hc

/-- A request that was woken before it was given away has not timed out: its deadline was
just set. -/
theorem suspend_woken {timedOut : Bool} (hv : v.link.Timely)
    (h : Plan.suspend v (.next (.resume timedOut)) w) : timedOut = false := by
  unfold Plan.suspend at h
  split at h
  next => cases h.1
  rcases transition_cases h with ⟨ho, -⟩ | ⟨machine, h⟩
  · cases ho
  rcases h with ⟨ho, -⟩ | ⟨t, h⟩
  · cases ho
  unfold Plan.park at h
  split at h
  · cases h.1
  · cases h.1
  · obtain ⟨ho, -⟩ := h
    cases ho
    refine beq_eq_false_iff_ne.2 fun hlate => ?_
    have := hv _ hlate
    simp only [link_put] at this
    omega

/-- A link that closes because it rested for too long was in a step that says so, or somebody
asked for that. -/
theorem closesFor_keepaliveTimeout (h : step.ClosesFor .keepaliveTimeout) :
    step = .resumeParked ∨ step = .await ∨ step = .block := by
  cases step <;> simp [Step.ClosesFor] at h ⊢

end Stand

namespace Engine

open Stand (Aside Blames Justified)

variable {l d : Nat} {s t : Engine} {k k' : Link} {v w : Stand} {m : Move} {step : Step}

/-! ## Time goes on -/

/-- A link that is not there bides no time. -/
private theorem Bides.le_of_none (h : s.Bides l d) (hk : s.link? l = none) : d ≤ s.now := by
  by_contra hnow
  obtain ⟨-, k, hk', -⟩ := h (Nat.lt_of_not_le hnow)
  cases hk.symm.trans hk'

private theorem link?_of_length_le (h : s.slots.length ≤ l) : s.link? l = none := by
  unfold link?
  rw [List.getElem?_eq_none h]
  rfl

/-- **Time never goes back.** -/
theorem now_le_move (m : Move) (s : Engine) : s.now ≤ (move m s).now := by
  -- A link that no move is about lets the present time pass.
  have hgone : ∀ l, (move m s).slots.length ≤ l → m ≠ .advance l → s.now ≤ (move m s).now := by
    intro l hl hm
    have hbides : s.Bides l s.now := fun h => absurd h (Nat.lt_irrefl _)
    exact (move_bides hm hbides).le_of_none (link?_of_length_le hl)
  by_cases hm : m = .advance (move m s).slots.length
  · exact hgone ((move m s).slots.length + 1) (Nat.le_succ _) fun h => by
      have := Move.advance.inj (hm.symm.trans h)
      omega
  · exact hgone _ (Nat.le_refl _) hm

/-! ## When spells are over -/

/-- When the spell is over that a link begins by a move, if it begins one. -/
def Spell.begins (w : Spell) (l : Nat) (m : Move) (s : Engine) : List Nat :=
  match m with
  | .advance n =>
    if n = l ∧ ((s.link? l).bind (·.step)).any w.begunBy = true then
      (((move m s).link? l).toList.filter (!·.closed)).map (w.expiry (move m s))
    else []
  | _ => []

/-- When the latest spell of a link is over, if it began one in a run. -/
def Spell.due (w : Spell) (settings : Settings.Scheduler) (now l : Nat) (moves : List Move) :
    Option Nat :=
  (along (w.begins l) moves (create settings now)).getLast?

/-- The exact clock has reached the end of the latest spell of a link. -/
def Spell.IsOver (w : Spell) (settings : Settings.Scheduler) (now l : Nat) (moves : List Move) :
    Prop :=
  ∃ d, w.due settings now l moves = some d ∧ d ≤ (after settings now moves).now

theorem Spell.begins_of_ne (w : Spell) (hm : m ≠ .advance l) : w.begins l m s = [] := by
  cases m with
  | advance n => exact if_neg fun h => hm (congrArg _ h.1)
  | _ => rfl

theorem Spell.begins_of_not (w : Spell) (hv : s.stand? l = some v)
    (hb : v.link.step.any w.begunBy = false) : w.begins l (.advance l) s = [] := by
  refine if_neg fun h => ?_
  rw [(stand?_eq_some.1 hv).1, Option.bind_some] at h
  exact absurd (hb.symm.trans h.2) Bool.false_ne_true

theorem Spell.begins_eq (w : Spell) (hv : s.stand? l = some v) (hst : v.link.step = some step)
    (hb : w.begunBy step = true) (hk : (advance l s).link? l = some k) (hc : k.closed = false) :
    w.begins l (.advance l) s = [w.expiry (advance l s) k] := by
  have hbegun : l = l ∧ ((s.link? l).bind (·.step)).any w.begunBy = true := by
    rw [(stand?_eq_some.1 hv).1, Option.bind_some, hst]
    exact ⟨rfl, hb⟩
  refine (if_pos hbegun).trans ?_
  show (((advance l s).link? l).toList.filter _).map _ = _
  rw [hk, Option.toList_some, List.filter_cons_of_pos (by rw [hc]; rfl)]
  rfl

section Runs

variable (settings : Settings.Scheduler) (now : Nat)

theorem Spell.due_concat (w : Spell) (moves : List Move) (m : Move) :
    w.due settings now l (moves ++ [m]) =
      (w.begins l m (after settings now moves)).getLast?.or (w.due settings now l moves) := by
  unfold due
  rw [along_concat, List.getLast?_append]
  rfl

/-- No spell is over beyond the greatest reading. -/
theorem Spell.due_le (w : Spell) (moves : List Move) (h : w.due settings now l moves = some d) :
    d ≤ Millis.max := by
  induction moves using List.reverseRecOn with
  | nil => cases h
  | append_singleton moves m ih =>
    rw [w.due_concat] at h
    cases hb : (w.begins l m (after settings now moves)).getLast? with
    | none =>
      rw [hb, Option.none_or] at h
      exact ih h
    | some d' =>
      rw [hb] at h
      cases h
      have hmem := List.mem_of_getLast? hb
      unfold begins at hmem
      split at hmem
      · split at hmem
        · obtain ⟨k, -, rfl⟩ := List.mem_map.1 hmem
          exact w.expiry_le _ k
        · cases hmem
      · cases hmem

end Runs

/-! ## Patience -/

/-- A link that is given away bides its time until the spell that it waits in is over. -/
structure GivenAway (due : Spell → Option Nat) (l : Nat) (k : Link) (s : Engine) : Prop where
  rest : k.machine.state = .keepalive → due .rest = some k.restUntil ∧ s.Bides l k.restUntil
  suspension : k.machine.state = .cometSuspend → ∃ d, due .suspension = some d ∧ s.Bides l d

/-- Whoever waits for a link knows when its spell is over, by `due`: the task, if it drives the
link, and otherwise the deadline. -/
def Patient (due : Spell → Option Nat) (l : Nat) (k : Link) (s : Engine) : Prop :=
  match k.step with
  | none | some .resumeParked => GivenAway due l k s
  | some .await | some .block => due .rest = some k.restUntil
  | some (.resume true) => ∃ d, due .suspension = some d ∧ d ≤ s.now
  | some (.listen d) => due .listening = some d
  | _ => True

variable {due due' : Spell → Option Nat}

private theorem GivenAway.of (h : GivenAway due l k s) (hm : k'.machine.state = k.machine.state)
    (hr : k'.restUntil = k.restUntil) (hb : ∀ d, s.Bides l d → t.Bides l d) :
    GivenAway due l k' t where
  rest hstate := by
    rw [hr]
    exact (h.rest (hm ▸ hstate)).imp_right (hb _)
  suspension hstate := by
    obtain ⟨d, hd, hbides⟩ := h.suspension (hm ▸ hstate)
    exact ⟨d, hd, hb d hbides⟩

/-- A link that is where it was is as patient as it was, if others let it bide its time. -/
private theorem Patient.of (h : Patient due l k s) (hs : k'.step = k.step)
    (hm : k'.machine.state = k.machine.state) (hr : k'.restUntil = k.restUntil)
    (hb : ∀ d, s.Bides l d → t.Bides l d) (hnow : s.now ≤ t.now) : Patient due l k' t := by
  unfold Patient at h ⊢
  rw [hs, hr]
  generalize k.step = step at h ⊢
  cases step with
  | none => exact h.of hm hr hb
  | some step =>
    cases step with
    | resumeParked => exact h.of hm hr hb
    | resume timedOut =>
      cases timedOut with
      | false => trivial
      | true =>
        obtain ⟨d, hd, hle⟩ := h
        exact ⟨d, hd, Nat.le_trans hle hnow⟩
    | _ => exact h

/-- **A link stays patient while others move.** -/
theorem Patient.aside (h : Patient due l v.link s) (hm : m ≠ .advance l) (ha : Aside v w)
    (hc : w.link.closed = false) : Patient due l w.link (move m s) := by
  have hb : ∀ d, s.Bides l d → (move m s).Bides l d := fun d => move_bides hm
  have hnow := now_le_move m s
  obtain ⟨hstate, hrest, hstep | ⟨hnone, e, hstep⟩⟩ := ha.abides hc
  · exact h.of hstep hstate hrest hb hnow
  -- Its task begins where it was left.
  unfold Patient at h ⊢
  rw [hnone] at h
  rw [hstep]
  cases e with
  | accept => trivial
  | resume => exact h.of hstate hrest hb

/-- A new link waits for nothing. -/
theorem patient_started {i : Nat} {arrival : Arrival} (h : Stand.Started i arrival v)
    (hc : v.link.closed = false) : Patient due l v.link s := by
  obtain ⟨hs, hm⟩ := h.resting hc
  unfold Patient
  rw [hs]
  exact ⟨fun h => (nomatch hm.symm.trans h), fun h => (nomatch hm.symm.trans h)⟩

/-- A link whose deadline took it over did not do so before its spell was over. -/
private theorem Bides.le_of_timedOut (h : s.Bides l d) (hk : s.link? l = some k)
    (hc : k.closed = false) (ht : k.isTimedOut = true) : d ≤ s.now := by
  by_contra hnow
  obtain ⟨-, k', hk', hlink⟩ := h (Nat.lt_of_not_le hnow)
  cases hk.symm.trans hk'
  exact absurd ((hlink hc).1.symm.trans ht) Bool.false_ne_true

/-- A step of its own task leaves a link patient, which may begin a spell by it. -/
private theorem Patient.stepped {o : Outcome} (h : Patient due l v.link s) (hs : s.Timed)
    (hp : s.Prompt) (hmax : ∀ w d, due w = some d → d ≤ Millis.max) (hv : s.stand? l = some v)
    (hst : v.link.step = some step) (hready : Stand.Ready step v) (ht : v.link.Timely)
    (hstep : stepLink l step s = (o, t)) (hw : t.stand? l = some w) (hplan : Stand.plan step v o w)
    (ho : o.isEnd = false) (hc : w.link.closed = false) (hnow : s.now ≤ t.now)
    (hkept : ∀ x, Spell.begunBy x step = false → due' x = due x)
    (hbegun : ∀ x, Spell.begunBy x step = true → due' x = some (x.expiry t w.link)) :
    Patient due' l (w.next o.step?).link t := by
  obtain ⟨hk, -⟩ := stand?_eq_some.1 hv
  obtain ⟨hkw, -⟩ := stand?_eq_some.1 hw
  unfold Patient at h
  rw [hst] at h
  cases (Stand.plan_leads step v o w hplan).resolve_left (Bool.eq_false_iff.1 ho) with
  | rests =>
    have hrest := Stand.restUntil_of_waits (.inl rfl) hplan rfl
    obtain ⟨-, hstate⟩ := hplan
    split at hstate
    next hm => exact (hkept .rest rfl).trans ((h.rest hm).1.trans (congrArg some hrest.symm))
    next => cases hstate
    next => cases hstate
  | resumes timedOut =>
    obtain ⟨-, hstate⟩ := hplan
    split at hstate
    next => split at hstate <;> cases hstate
    next hm =>
      obtain ⟨d, hd, hbides⟩ := h.suspension hm
      cases hlate : v.link.isTimedOut with
      | false =>
        rw [hlate] at hstate
        cases hstate
        exact True.intro
      | true =>
        rw [hlate] at hstate
        cases hstate
        have hle := hbides.le_of_timedOut hk hready.closed hlate
        exact ⟨d, (hkept .suspension rfl).trans hd, Nat.le_trans hle hnow⟩
    next => cases hstate
  | await =>
    obtain ⟨k, hk, hexpiry⟩ := stepRest_expiry hstep
    cases hkw.symm.trans hk
    exact (hbegun .rest rfl).trans (congrArg some hexpiry.symm)
  | block =>
    have hrest := Stand.restUntil_of_waits (.inr (.inl rfl)) hplan rfl
    exact (hkept .rest rfl).trans (h.trans (congrArg some hrest.symm))
  | idleBlocked =>
    have hrest := Stand.restUntil_of_waits (.inr (.inr rfl)) hplan rfl
    exact (hkept .rest rfl).trans (h.trans (congrArg some hrest.symm))
  | parks =>
    have hrest := Stand.restUntil_of_waits (.inr (.inl rfl)) hplan rfl
    have hm := Stand.await_parks hready hplan hc
    have hbides := await_bides hs hp hk ht (hmax .rest _ h) hstep
    refine ⟨fun _ => ⟨?_, hrest ▸ hbides⟩, fun hm' => ?_⟩
    · exact (hkept .rest rfl).trans (h.trans (congrArg some hrest.symm))
    · exact nomatch hm.symm.trans hm'
  | suspends =>
    have hm := Stand.suspend_moves hready hplan rfl
    obtain ⟨k, hk, hbides⟩ := suspend_bides hs hp hk ht hstep
    cases hkw.symm.trans hk
    exact ⟨fun hm' => (nomatch hm.symm.trans hm'), fun _ => ⟨_, hbegun .suspension rfl, hbides⟩⟩
  | woken timedOut =>
    obtain rfl := Stand.suspend_woken ht hplan
    exact True.intro
  | listen deadline =>
    obtain ⟨k, hk, hexpiry⟩ := stepUpgrade_expiry hstep
    cases hkw.symm.trans hk
    exact (hbegun .listening rfl).trans (congrArg some hexpiry.symm)
  | listenAgain deadline =>
    obtain ⟨k, hk, hexpiry⟩ := stepService_expiry hstep
    cases hkw.symm.trans hk
    exact (hbegun .listening rfl).trans (congrArg some hexpiry.symm)
  | idle deadline => exact (hkept .listening rfl).trans h
  | _ => exact True.intro

/-- Where a step does not close the link, its task goes on or gives it away. -/
private theorem conclude_of_open {o : Outcome} (ho : o.isEnd = false) (t : Engine) :
    conclude l o t = t.modifyLink l fun k => { k with step := o.step? } := by
  cases o with
  | next | park => rfl
  | _ => cases ho

/-- **The steps of its own task leave a link patient**, which may begin a spell by them. -/
theorem Patient.advanced (h : Patient due l v.link s) (hs : s.Timed) (hp : s.Prompt)
    (hmax : ∀ w d, due w = some d → d ≤ Millis.max) (hv : s.stand? l = some v)
    (hstanding : v.Standing) (hcycles : v.link.Cycles) (hw : (advance l s).stand? l = some w)
    (hc : w.link.closed = false) :
    Patient (fun x => (x.begins l (.advance l) s).getLast?.or (due x)) l w.link (advance l s) := by
  have hkept : ∀ x : Spell, v.link.step.any x.begunBy = false →
      (x.begins l (.advance l) s).getLast?.or (due x) = due x := fun x hb => by
    rw [x.begins_of_not hv hb]
    rfl
  cases hst : v.link.step with
  | none =>
    rw [advance_of_none hv hst] at hw ⊢
    cases hv.symm.trans hw
    rwa [show (fun x => (Spell.begins x l (.advance l) s).getLast?.or (due x)) = due from
      funext fun x => hkept x (by rw [hst]; rfl)]
  | some step =>
    have hready := (Stand.standing_some hst).1 hstanding
    obtain ⟨u, w', hu, hw', hplan, -, hconcluded⟩ := advance_stepped hs.fit.sole hv hst
    cases hw.symm.trans hw'
    have ho : (stepLink l step s).1.isEnd = false := Bool.eq_false_iff.2 fun ho =>
      absurd ((hconcluded.closed ho).1.symm.trans hc).symm Bool.false_ne_true
    obtain rfl := hconcluded.eq_next ho
    have hnow := now_le_move (.advance l) s
    have hbegun : ∀ x : Spell, x.begunBy step = true →
        (x.begins l (.advance l) s).getLast?.or (due x) =
          some (x.expiry (stepLink l step s).2 u.link) := by
      intro x hb
      rw [x.begins_eq hv hst hb (stand?_eq_some.1 hw).1 hc, advance_eq hv hst, conclude_of_open ho]
      cases x <;> rfl
    rw [move, advance_eq hv hst, conclude_of_open ho] at hnow
    have hstepped := h.stepped hs hp hmax hv hst hready (hcycles.timed hready.closed) rfl hu hplan
      ho hc hnow (fun x hb => hkept x (by rw [hst]; exact hb)) hbegun
    refine hstepped.of rfl rfl rfl (fun d hb => ?_) (Nat.le_of_eq ?_)
    · rw [advance_eq hv hst]
      exact conclude_bides l _ hb
    · rw [advance_eq hv hst, conclude_of_open ho]
      rfl

/-! ## What comes of patience -/

/-- A failure does not stand for a rest that was too long. -/
private theorem closeReason_ne (f : Failure) : f.closeReason ≠ .keepaliveTimeout := by
  unfold Failure.closeReason
  cases f <;> (dsimp only; repeat' split) <;> nofun

/-- **A patient link does not close because it rested for too long before its spell is over**,
unless somebody asked for that. -/
private theorem Patient.justified (h : Patient due l v.link s) (hs : s.scheduler.Sole)
    (hv : s.stand? l = some v) (hst : v.link.step = some step) (hready : Stand.Ready step v)
    (htold : v.link.Told) (hw : (advance l s).stand? l = some w) {C : Prop}
    (hC : ∀ d, due .rest = some d → d ≤ s.now → C) :
    Justified .keepaliveTimeout (fun k => k.closeRequest = some .keepaliveTimeout ∨ C) w.link := by
  have hP := Stand.blames_or (r := .keepaliveTimeout) nofun C
  obtain ⟨hk, -⟩ := stand?_eq_some.1 hv
  obtain ⟨u, w', hu, hw', hplan, hworked, hconcluded⟩ := advance_stepped hs hv hst
  cases hw.symm.trans hw'
  have hj : Justified .keepaliveTimeout (fun k => k.closeRequest = some .keepaliveTimeout ∨ C)
      v.link := fun hr => nomatch (htold.closeReason_eq_none hready.closed).symm.trans hr
  refine hconcluded.justified hP (hworked.justified hP hj) (fun ho => ?_)
    (fun f _ hf => absurd hf (closeReason_ne f)) nofun
  have hasked : .keepaliveTimeout = u.link.requestedClose →
      u.link.closeRequest = some .keepaliveTimeout ∨ C :=
    fun h => .inl (Stand.closeRequest_of_requestedClose h nofun)
  have hstep : stepLink l step s = (.close .keepaliveTimeout, (stepLink l step s).2) :=
    Prod.ext ho rfl
  rw [ho] at hplan
  rcases Stand.plan_excused hplan with hown | hrequested
  · unfold Patient at h
    rw [hst] at h
    rcases Stand.closesFor_keepaliveTimeout hown with rfl | rfl | rfl
    · -- Its deadline took it over.
      obtain ⟨-, hstate⟩ := hplan
      split at hstate
      next hm =>
        obtain ⟨hdue, hbides⟩ := h.rest hm
        split at hstate
        next hlate => exact .inr (hC _ hdue (hbides.le_of_timedOut hk hready.closed hlate))
        next => cases hstate
      next => cases hstate
      next => cases hstate
    · rcases stepAwait_late hk hstep with hle | hrequested
      · exact .inr (hC _ h hle)
      · exact hP.grown (.inl (Stand.closeRequest_of_requestedClose hrequested nofun)) hworked.grown
    · rcases stepBlock_late hk hstep with hle | ⟨k, hk', hrequested⟩
      · exact .inr (hC _ h hle)
      · cases (stand?_eq_some.1 hu).1.symm.trans hk'
        exact hasked hrequested
  · exact hasked hrequested

/-- **The task of a two-way stream does not close it as idle before its spell is over**, unless
somebody asked for that or the wait itself failed so. -/
private theorem justified_of_listen (hs : s.scheduler.Sole) (hv : s.stand? l = some v)
    (hst : v.link.step = some (.listen d)) (hready : Stand.Ready (.listen d) v)
    (htold : v.link.Told) (hw : (advance l s).stand? l = some w) {C : Prop} (hC : d ≤ s.now → C)
    (hfail : ∀ f, (stepLink l (.listen d) s).1 = .fail f → f.closeReason = .timeout → C) :
    Justified .timeout (fun k => k.closeRequest = some .timeout ∨ C) w.link := by
  have hP := Stand.blames_or (r := .timeout) nofun C
  obtain ⟨u, w', hu, hw', hplan, hworked, hconcluded⟩ := advance_stepped hs hv hst
  cases hw.symm.trans hw'
  have hj : Justified .timeout (fun k => k.closeRequest = some .timeout ∨ C) v.link :=
    fun hr => nomatch (htold.closeReason_eq_none hready.closed).symm.trans hr
  refine hconcluded.justified hP (hworked.justified hP hj) (fun ho => ?_) (fun f ho hf => ?_) nofun
  · rcases stepListen_late (Prod.ext ho rfl) with hle | ⟨k, hk, hrequested⟩
    · exact .inr (hC hle)
    · cases (stand?_eq_some.1 hu).1.symm.trans hk
      exact .inl (Stand.closeRequest_of_requestedClose hrequested nofun)
  · rcases ho with ho | ho
    · exact .inr (hfail f ho hf)
    · rw [ho] at hplan
      exact (hready.decided hplan).elim

/-- **The handler is not told that its request was suspended for too long before its spell is
over.** -/
private theorem Patient.told (h : Patient due l v.link s) (hs : s.scheduler.Sole)
    (hv : s.stand? l = some v) (hst : v.link.step = some step) (hready : Stand.Ready step v)
    (hw : (advance l s).stand? l = some w)
    (hcalls : w.link.hooks.count .suspendTimeout ≠ v.link.hooks.count .suspendTimeout) :
    ∃ d, due .suspension = some d ∧ d ≤ s.now := by
  obtain ⟨u, w', -, hw', hplan, -, hconcluded⟩ := advance_stepped hs hv hst
  cases hw.symm.trans hw'
  rw [hconcluded.silent.hooks] at hcalls
  rcases hready.invokes hplan with ⟨hsilent, -⟩ | ⟨hook, hhook, hinvoked⟩
  · rw [hsilent.hooks] at hcalls
    exact absurd rfl hcalls
  · -- Only a step of a request that is late tells the handler of it.
    obtain ⟨ending, more, hu, hmore, -⟩ := hinvoked.calls
    rw [Link.hooks_of_began hu hmore, List.count_append] at hcalls
    unfold Patient at h
    rw [hst] at h
    cases step with
    | resume timedOut =>
      cases timedOut with
      | true => exact h
      | false =>
        cases hhook
        exact absurd rfl hcalls
    | accept | dispatch | service =>
      cases hhook
      exact absurd rfl hcalls
    | _ => cases hhook

section Runs

variable (settings : Settings.Scheduler) (now : Nat)

/-- **Every link is patient throughout every run** whose published time stays fresh. -/
private theorem patient (hone : (Duration.ofMillis 1).le settings.minSampleInterval = true)
    (hle : settings.minSampleInterval.le settings.maxSampleInterval = true) (moves : List Move)
    (hfresh : ∀ n < moves.length, (after settings now (moves.take n)).Fresh) :
    ∀ v, (after settings now moves).stand? l = some v → v.link.closed = false →
      Patient (fun x => x.due settings now l moves) l v.link (after settings now moves) := by
  have hone : (Duration.ofMillis 1).le settings.maxSampleInterval = true := by
    simp only [Duration.le, decide_eq_true_eq] at hone hle ⊢
    omega
  induction moves using List.reverseRecOn with
  | nil =>
    intro v hv
    cases hv
  | append_singleton moves m ih =>
    intro w hw hc
    rw [after_concat] at hw ⊢
    have ih := ih fun n hn => by
      have := hfresh n (by rw [List.length_append]; omega)
      rwa [List.take_append_of_le_length (Nat.le_of_lt hn)] at this
    have hfresh : (after settings now moves).Fresh := by
      have := hfresh moves.length (by simp)
      rwa [List.take_left] at this
    have hpaced := after_lasts settings now (Timer.Scheduler.paced_lasts settings)
      (Timer.Scheduler.paced_create settings now) moves
    have hprompt := hfresh.prompt hpaced hone hle
    simp only [Spell.due_concat]
    by_cases hm : m = .advance l
    · subst hm
      cases hk : (after settings now moves).link? l with
      | none =>
        rw [move, advance_of_absent hk] at hw
        cases hk.symm.trans (stand?_eq_some.1 hw).1
      | some k =>
        have hv := stand?_of_link? hk
        obtain ⟨hstanding, hcycles⟩ := standing_cycles settings now moves hv
        have hopen : k.closed = false := by
          cases hst : k.step with
          | none =>
            rw [move, advance_of_none hv hst] at hw
            cases hv.symm.trans hw
            exact hc
          | some step => exact ((Stand.standing_some (v := ⟨k, _⟩) hst).1 hstanding).closed
        exact (ih _ hv hopen).advanced (timed settings now moves).1 hprompt
          (fun x d => x.due_le settings now moves) hv hstanding hcycles hw hc
    · have hkept : ∀ x : Spell, ((x.begins l m (after settings now moves)).getLast?.or
          (x.due settings now l moves)) = x.due settings now l moves := fun x => by
        rw [x.begins_of_ne hm]
        rfl
      simp only [hkept]
      cases hk : (after settings now moves).link? l with
      | none =>
        obtain ⟨i, arrival, -, -, -, hstarted⟩ :=
          move_started (after_manned settings now moves) m hk hw
        exact patient_started hstarted hc
      | some k =>
        obtain ⟨w', hw', haside⟩ := move_aside hm (stand?_of_link? hk)
        cases hw.symm.trans hw'
        exact (ih _ (stand?_of_link? hk) (haside.rests.silent.open hc)).aside hm haside hc

section Outcomes

variable {settings now} {moves : List Move}
  (h : ∀ v, (after settings now moves).stand? l = some v → v.link.closed = false →
    Patient (fun x => x.due settings now l moves) l v.link (after settings now moves))
include h

/-- Where a move closes a link because it rested for too long, the spell of its rest is over, or
somebody asked for that. -/
private theorem justified_move
    (hopen : ∀ k, (after settings now moves).link? l = some k → k.closed = false)
    (hw : (move m (after settings now moves)).stand? l = some w) :
    Justified .keepaliveTimeout (fun k => k.closeRequest = some .keepaliveTimeout ∨
      Spell.rest.IsOver settings now l moves) w.link := by
  have hP := Stand.blames_or (r := .keepaliveTimeout) nofun (Spell.rest.IsOver settings now l moves)
  cases hk : (after settings now moves).link? l with
  | none =>
    obtain ⟨i, arrival, -, -, -, hstarted⟩ := move_started (after_manned settings now moves) m hk hw
    exact hstarted.justified hP
  | some k =>
    have hv := stand?_of_link? hk
    have htold := told settings now moves hv
    have hj : Justified .keepaliveTimeout (fun k => k.closeRequest = some .keepaliveTimeout ∨
        Spell.rest.IsOver settings now l moves) k :=
      fun hr => nomatch (htold.closeReason_eq_none (hopen k hk)).symm.trans hr
    by_cases hm : m = .advance l
    · subst hm
      cases hst : k.step with
      | none =>
        rw [move, advance_of_none hv hst] at hw
        cases hv.symm.trans hw
        exact hj
      | some step =>
        have hready := (Stand.standing_some (v := ⟨k, _⟩) hst).1 (standing settings now moves hv)
        exact (h _ hv (hopen k hk)).justified (after_sole settings now moves) hv hst hready htold hw
          fun d hd hle => ⟨d, hd, hle⟩
    · obtain ⟨w', hw', haside⟩ := move_aside hm hv
      cases hw.symm.trans hw'
      exact haside.justified hP nofun hj

/-- Where a move tells the handler that its request was suspended for too long, the spell of the
suspension is over. -/
private theorem isOver_of_told (hcalls : (after settings now moves).callsOf l .suspendTimeout <
      (move m (after settings now moves)).callsOf l .suspendTimeout) :
    Spell.suspension.IsOver settings now l moves := by
  cases hv : (after settings now moves).link? l with
  | none =>
    refine absurd hcalls (Nat.not_lt.2 ?_)
    cases hk : (move m (after settings now moves)).link? l with
    | none =>
      unfold callsOf
      rw [hk]
      exact Nat.zero_le _
    | some k =>
      have hw := stand?_of_link? hk
      obtain ⟨i, arrival, -, -, -, hstarted⟩ :=
        move_started (after_manned settings now moves) m hv hw
      rw [callsOf_of_stand? hw, hstarted.hooks]
      exact Nat.zero_le _
  | some k =>
    have hv := stand?_of_link? hv
    by_cases hm : m = .advance l
    · subst hm
      cases hst : k.step with
      | none =>
        rw [move, advance_of_none hv hst] at hcalls
        exact absurd hcalls (Nat.lt_irrefl _)
      | some step =>
        have hready := (Stand.standing_some (v := ⟨k, _⟩) hst).1 (standing settings now moves hv)
        obtain ⟨u, w, -, hw, -⟩ := advance_stepped (after_sole settings now moves) hv hst
        rw [callsOf_of_stand? hv, callsOf_of_stand? (s := move (.advance l) _) hw] at hcalls
        exact (h _ hv hready.closed).told (after_sole settings now moves) hv hst hready hw
          (Nat.ne_of_gt hcalls)
    · obtain ⟨w, hw, haside⟩ := move_aside hm hv
      rw [callsOf_of_stand? hv, callsOf_of_stand? hw, haside.rests.silent.hooks] at hcalls
      exact absurd hcalls (Nat.lt_irrefl _)

/-- Where a move closes a two-way stream that listens, because of a timeout, the spell of listening
is over, or somebody asked for that, or the wait itself failed so. -/
private theorem justified_idle (hk : (after settings now moves).link? l = some k)
    (hst : k.step = some (.listen d))
    (hw : (move m (after settings now moves)).stand? l = some w) :
    Justified .timeout (fun k => k.closeRequest = some .timeout ∨
      Spell.listening.IsOver settings now l moves ∨
        ∃ f, (stepLink l (.listen d) (after settings now moves)).1 = .fail f ∧
          f.closeReason = .timeout) w.link := by
  have hv := stand?_of_link? hk
  have hready := (Stand.standing_some (v := ⟨k, _⟩) hst).1 (standing settings now moves hv)
  have htold := told settings now moves hv
  by_cases hm : m = .advance l
  · subst hm
    have hdue := h _ hv hready.closed
    unfold Patient at hdue
    rw [show (⟨k, _⟩ : Stand).link.step = _ from hst] at hdue
    exact justified_of_listen (after_sole settings now moves) hv hst hready htold hw
      (fun hle => .inl ⟨d, hdue, hle⟩) fun f ho hf => .inr ⟨f, ho, hf⟩
  · -- Others leave the close to the task.
    obtain ⟨w', hw', haside⟩ := move_aside hm hv
    cases hw.symm.trans hw'
    exact haside.justified (Stand.blames_or (r := .timeout) nofun _) nofun
      fun hr => nomatch (htold.closeReason_eq_none hready.closed).symm.trans hr

end Outcomes

/-- **No wait is cut short.** Let the sampler's intervals be in order and a millisecond at
least, and the published time never staler than the present one. Whatever happens next in a run,
a link that was not closed before closes because it rested for too long only where the spell of
its rest is over, or somebody asked for just that reason; its handler is told that a request was
suspended for too long only where the spell of the suspension is over; and a two-way stream that
listens closes for a timeout only where the spell of listening is over, or somebody asked for just
that, or its task did not close it as idle at all: the wait for input failed, and the failure
stands for a timeout. -/
theorem no_wait_cut_short (hone : (Duration.ofMillis 1).le settings.minSampleInterval = true)
    (hle : settings.minSampleInterval.le settings.maxSampleInterval = true) (moves : List Move)
    (hfresh : ∀ n < moves.length, (after settings now (moves.take n)).Fresh) (m : Move) (l : Nat) :
    (∀ k, (after settings now (moves ++ [m])).link? l = some k →
      (∀ k', (after settings now moves).link? l = some k' → k'.closed = false) →
      k.closeReason = some .keepaliveTimeout →
        Spell.rest.IsOver settings now l moves ∨ k.closeRequest = some .keepaliveTimeout) ∧
    ((after settings now moves).callsOf l .suspendTimeout <
        (after settings now (moves ++ [m])).callsOf l .suspendTimeout →
      Spell.suspension.IsOver settings now l moves) ∧
    (∀ k d k', (after settings now moves).link? l = some k → k.step = some (.listen d) →
      (after settings now (moves ++ [m])).link? l = some k' → k'.closeReason = some .timeout →
        Spell.listening.IsOver settings now l moves ∨ k'.closeRequest = some .timeout ∨
          ∃ f, (stepLink l (.listen d) (after settings now moves)).1 = .fail f ∧
            f.closeReason = .timeout) := by
  have hpatient := patient (l := l) settings now hone hle moves hfresh
  rw [after_concat]
  refine ⟨fun k hk hopen hr => ?_, isOver_of_told hpatient, fun k d k' hk hst hk' hr => ?_⟩
  · exact (justified_move hpatient hopen (stand?_of_link? hk) hr).symm
  · exact or_left_comm.1 (justified_idle hpatient hk hst (stand?_of_link? hk') hr)

end Runs

/-- One connection to a listener whose timeouts are short and whose multiplexer takes every link.
Its handler does this with the first request, its task takes this many steps, and more
happens. -/
def hurried (first : Action.Kind) (steps : Nat) (more : List Move) : List Move :=
  [.build
      { keepaliveTimeout := .ofMillis 10
        suspendTimeout := .ofMillis 10
        duplexIdleTimeout := .ofMillis 10 } (some (.scripted [])),
    .accept 0 { socket := {}, handler := { requests := [[⟨"first", first, false⟩]] } },
    .begin 0] ++ List.replicate steps (.advance 0) ++ more

/-- The connection rests, is told of input in vain, and rests on until its deadline takes it
over. -/
def restless : List Move :=
  hurried (.return true) 5 [.perform 0 (.notify (some 0)), .begin 0, .advance 0, .advance 0,
    .perform 0 (.elapse 20), .fire 0, .begin 0]

/-- Its request is suspended until its deadline takes it over. -/
def overdue : List Move :=
  hurried (.comet none none) 4 [.perform 0 (.elapse 20), .fire 0, .begin 0, .advance 0]

/-- It becomes a two-way stream, whose peer stays silent. -/
def silent : List Move := hurried .duplex 4 [.perform 0 (.elapse 20)]

/-- The next step of each closes the link, tells the handler or closes the stream, and by then the
spell is over. -/
theorem no_wait_cut_short_hurried :
    (((after {} 0 (restless ++ [.advance 0])).link? 0).map (·.closeReason) =
      some (some .keepaliveTimeout) ∧ Spell.rest.IsOver {} 0 0 restless) ∧
    ((after {} 0 overdue).callsOf 0 .suspendTimeout <
        (after {} 0 (overdue ++ [.advance 0])).callsOf 0 .suspendTimeout ∧
      Spell.suspension.IsOver {} 0 0 overdue) ∧
    (((after {} 0 (silent ++ [.advance 0])).link? 0).map (·.closeReason) = some (some .timeout) ∧
      Spell.listening.IsOver {} 0 0 silent) := by
  have hclosed : ((after {} 0 (restless ++ [.advance 0])).link? 0).map
      (fun k => (k.closeReason, k.closeRequest)) = some (some .keepaliveTimeout, none) := by decide
  have hopen : ((after {} 0 restless).link? 0).map (·.closed) = some false := by decide
  have htold : (after {} 0 overdue).callsOf 0 .suspendTimeout <
      (after {} 0 (overdue ++ [.advance 0])).callsOf 0 .suspendTimeout := by decide
  have hlistens : ((after {} 0 silent).link? 0).map (·.step) = some (some (.listen 10)) := by decide
  have hdecides : (stepLink 0 (.listen 10) (after {} 0 silent)).1 = .close .timeout := by decide
  have hidle : ((after {} 0 (silent ++ [.advance 0])).link? 0).map
      (fun k => (k.closeReason, k.closeRequest)) = some (some .timeout, none) := by decide
  obtain ⟨k, hk, hkey⟩ := Option.map_eq_some_iff.1 hclosed
  obtain ⟨k', hk', hc⟩ := Option.map_eq_some_iff.1 hopen
  obtain ⟨x, hx, hst⟩ := Option.map_eq_some_iff.1 hlistens
  obtain ⟨y, hy, hykey⟩ := Option.map_eq_some_iff.1 hidle
  obtain ⟨hr, hq⟩ := Prod.mk.inj hkey
  obtain ⟨hyr, hyq⟩ := Prod.mk.inj hykey
  refine ⟨⟨?_, ?_⟩, ⟨htold, ?_⟩, ?_, ?_⟩
  · rw [hk]
    exact congrArg some hr
  · have hrest := (no_wait_cut_short {} 0 (by decide) (by decide) restless (by decide)
      (.advance 0) 0).1 k hk (fun y hy => by cases hk'.symm.trans hy; exact hc) hr
    exact hrest.resolve_right fun h => nomatch hq.symm.trans h
  · exact (no_wait_cut_short {} 0 (by decide) (by decide) overdue (by decide)
      (.advance 0) 0).2.1 htold
  · rw [hy]
    exact congrArg some hyr
  · rcases (no_wait_cut_short {} 0 (by decide) (by decide) silent (by decide)
      (.advance 0) 0).2.2 x 10 y hx hst hy hyr with hover | hasked | ⟨f, hfail, -⟩
    · exact hover
    · exact nomatch hyq.symm.trans hasked
    · exact nomatch hdecides.symm.trans hfail

/-- One connection, which is asked to close because it rested for too long before its task
begins. -/
def hustled : List Move :=
  [.build {} none, .accept 0 { socket := {} },
    .perform 0 (.close (some 0) (some .keepaliveTimeout))]

/-- A link may close because it rested for too long although it never rested: somebody may have
asked for that. -/
theorem closed_without_rest :
    ¬ ∀ (moves : List Move) (m : Move) (l : Nat) (k : Link),
      (∀ n < moves.length, (after {} 0 (moves.take n)).Fresh) →
      (after {} 0 (moves ++ [m])).link? l = some k →
      (∀ k', (after {} 0 moves).link? l = some k' → k'.closed = false) →
      k.closeReason = some .keepaliveTimeout → Spell.rest.IsOver {} 0 l moves := by
  intro h
  have hclosed : ((after {} 0 (hustled ++ [.begin 0])).link? 0).map (·.closeReason) =
      some (some .keepaliveTimeout) := by decide
  have hopen : ((after {} 0 hustled).link? 0).map (·.closed) = some false := by decide
  have hnever : Spell.rest.due {} 0 0 hustled = none := by decide
  obtain ⟨k, hk, hr⟩ := Option.map_eq_some_iff.1 hclosed
  obtain ⟨k', hk', hc⟩ := Option.map_eq_some_iff.1 hopen
  obtain ⟨d, hd, -⟩ := h hustled (.begin 0) 0 k (by decide) hk
    (fun y hy => by cases hk'.symm.trans hy; exact hc) hr
  exact nomatch hnever.symm.trans hd

end Engine

end LinkEngine

import LinkEngine.Proofs.Departure

/-!
# Closes that are missed

Whoever asks for the close of a link leaves it to the task that drives the link to see to
that. From some steps on, that task may let the link rest without a further look
(`Link.Step.mayRest`), so a close that is asked for there is missed: the link rests although
it is to close (`Link.Lingers`). All others are seen to. A link that is to close is never
suspended (`unsuspended`), and it lingers or leaves (`lingers_or_leaves`). The one that lingers
was overlooked by its task just there (`overlooked`); nobody drives it any more, and whoever
wakes it closes it.
-/

namespace LinkEngine

open Connection (CloseReason)
open Link (Outcome Step)

/-! ## Links -/

namespace Link

variable {k k' : Link}

/-- The link is to close, but rests, or its task may let it rest without a look at that. -/
structure Lingers (k : Link) : Prop where
  closing : k.closing = true
  closed : k.closed = false
  rests : k.mayRest = true ∨ k.step = none ∧ k.request = .keepalive

/-- No link does both. -/
theorem Leaving.not_lingers (h : k.Leaving) : ¬ k.Lingers := by
  rintro ⟨-, hopen, hrest | ⟨-, hr⟩⟩
  · exact nomatch (h.mayRest hopen).symm.trans hrest
  · have hunparked := (h.heeding hopen).2.2
    rw [hr] at hunparked
    cases hunparked

/-- Where it is open and to close, the link is not suspended. -/
def Unsuspended (k : Link) : Prop :=
  k.closing = true → k.closed = false → k.request ≠ .suspend

theorem Unsuspended.of_closed (hc : k.closed = true) : k.Unsuspended :=
  fun _ hopen => nomatch hc.symm.trans hopen

theorem Unsuspended.of_unparked (hp : k.request.isParked = false) : k.Unsuspended := by
  intro _ _ hr
  rw [hr] at hp
  cases hp

theorem Touched.unsuspended (h : k.Touched k') (hk : k.Unsuspended) : k'.Unsuspended := by
  cases h with
  | asked hc hp reason =>
    have hopen := (closed_interrupt { k.ask reason with request := k.request.wake.2 }).trans hc
    exact .of_unparked (heeding_asked hp reason hopen).2.2
  | deferred | late | vain => exact .of_unparked rfl
  | _ => exact hk

theorem Handed.unsuspended (h : k.Handed k') : k'.Unsuspended := by
  cases h <;> exact .of_unparked rfl

end Link

/-! ## Turns -/

namespace Stand

variable {v w u : Stand} {o : Outcome} {step : Step} {reason : CloseReason}

theorem Course.unsuspended (h : Course v w) (hv : v.link.Unsuspended) : w.link.Unsuspended :=
  h.induction (P := Link.Unsuspended) (fun h => h.unsuspended) (fun h _ => h.unsuspended)
    (fun _ _ => .of_closed (Link.closed_marked _ _)) (fun _ _ => .of_unparked rfl) hv

/-- Who parks a link that is to close does not suspend it: the step that suspends has looked. -/
private theorem park_unsuspended (hv : Ready step v) (hp : plan step v .park w) :
    w.link.Unsuspended := by
  rcases step_of_park hp with rfl | rfl
  · obtain ⟨stream, r, t, hr, hcourse⟩ := await_park hp
    refine hcourse.unsuspended fun _ _ hsuspend => ?_
    rw [hv.expects.2.1] at hr
    cases hr
    cases hsuspend
  · obtain ⟨hc, machine, r, t, rfl⟩ := suspend_park hp
    exact fun hclosing => nomatch hc.symm.trans hclosing

/-- **No turn suspends a link that is to close**, or asks for the close of a suspended one and
leaves it there. -/
theorem Turn.unsuspended (h : Turn v w) (hv : Standing v) (hs : v.link.Unsuspended) :
    w.link.Unsuspended := by
  cases h with
  | course h => exact h.unsuspended hs
  | begin | idle => exact hs
  | doomed hd he hc hc' h => exact .of_closed h.closed
  | step hstep hp hw hc =>
    have hstanding := hv.turn (.step hstep hp hw hc)
    cases hc with
    | next next => exact .of_unparked ((standing_some rfl).1 hstanding).expects.isParked
    | park =>
      have hparked := park_unsuspended ((standing_some hstep).1 hv) hp
      exact hparked
    | close ht => exact .of_closed ht.closed
    | fail _ _ _ _ ht => exact .of_closed ht.closed
    | panic ht => exact .of_closed ht.closed

theorem Started.unsuspended {i : Nat} {arrival : Engine.Arrival} (h : Started i arrival v) :
    v.link.Unsuspended := by
  cases h with
  | queued => exact .of_unparked rfl
  | refused _ _ _ ht => exact .of_closed ht.closed

/-- A new link does not linger. -/
theorem Started.not_lingers {i : Nat} {arrival : Engine.Arrival} (h : Started i arrival v) :
    ¬ v.link.Lingers := by
  rintro ⟨-, hopen, hrest | ⟨-, hr⟩⟩
  · exact nomatch (Link.mayRest_of_none h.step).symm.trans hrest
  · cases h with
    | queued => cases hr
    | refused _ _ _ ht => exact nomatch ht.closed.symm.trans hopen

/-- **A link that is to close lingers or leaves.** -/
theorem Standing.lingers_or_leaves (hv : Standing v) (hm : v.link.Matched)
    (hs : v.link.Unsuspended) (hc : v.link.closing = true) :
    v.link.Lingers ∨ v.link.Leaving := by
  cases hclosed : v.link.closed with
  | true => exact .inr (.of_closed hclosed)
  | false =>
    have hleaving : v.link.request.isParked = false → v.link.mayRest = false →
        v.link.Leaving := fun hp hrest =>
      ⟨fun _ => ⟨hc, hm.trans hc, hp⟩, fun _ => hrest⟩
    cases hstep : v.link.step with
    | none =>
      have hrest := Link.mayRest_of_none hstep
      cases hr : v.link.request with
      | keepalive => exact .inl ⟨hc, hclosed, .inr ⟨hstep, hr⟩⟩
      | suspend => exact absurd hr (hs hc hclosed)
      | _ => exact .inr (hleaving (congrArg _ hr) hrest)
    | some step =>
      have hp := ((standing_some hstep).1 hv).expects.isParked
      cases hrest : v.link.mayRest with
      | true => exact .inl ⟨hc, hclosed, .inl hrest⟩
      | false => exact .inr (hleaving hp hrest)

/-- A link leaves when its close is asked for in a turn, if its task could not let it rest. -/
theorem Turn.leaving_of_free (h : Turn v w) (hv : Standing v) (ha : v.link.Matched)
    (hc : v.link.closing = false) (hm : v.link.mayRest = false) (hw : w.link.Summoned) :
    w.link.Leaving := by
  cases hclosed : v.link.closed with
  | true =>
    exact .of_closed ((h.settled hclosed (hv.gone hclosed).2).1.closed.trans hclosed)
  | false =>
    have hobeys : v.link.Obeys := .of_open ha hclosed fun hc' => nomatch hc.symm.trans hc'
    refine h.leaving_of hv ha (fun _ => hm) hw fun hcourse hopen => ?_
    obtain ⟨hclosing, hasked⟩ := hw hopen
    exact ⟨hclosing, hasked, (hcourse.obeys hobeys).unparked hclosing hopen⟩

/-- **Nobody drives a link again that is to close and that nobody drives**, and no hook of it
but the close hook is called. -/
theorem Turn.undriven (h : Turn v w) (hc : v.link.closing = true) (hs : v.link.step = none) :
    w.link.closing = true ∧ w.link.step = none ∧ w.link.hooks = v.link.hooks := by
  cases h with
  | course h => exact ⟨h.grown.closing hc, h.step.trans hs, h.silent.hooks⟩
  | begin hd he hc' hc'' => exact nomatch hc''.symm.trans hc
  | idle => exact ⟨hc, hs, rfl⟩
  | doomed hd he hc' hc'' h => exact ⟨h.grown.closing hc, h.step.trans hs, h.silent.hooks⟩
  | step hs' => exact nomatch hs.symm.trans hs'

end Stand

/-! ## Runs -/

namespace Engine

variable {s : Engine} {l place : Nat} {k k' : Link} {v : Stand} {m : Move} {entry : Link.Entry}

/-- A task that is queued for a link that is to close, and that nobody drives, closes it when
it begins. -/
theorem begin_of_closing (ht : s.tasks[place]? = some ⟨l, entry⟩) (hk : s.link? l = some k)
    (hs : k.step = none) (hc : k.closing = true) :
    ∃ k', (begin place s).link? l = some k' ∧ k'.closed = true := by
  have hd : k.isDriven = false := congrArg Option.isSome hs
  unfold begin
  rw [ht]
  simp only [hk, hd, Bool.false_eq_true, if_false]
  cases hclosed : k.closed with
  | true => exact ⟨k, hk, hclosed⟩
  | false =>
    rw [if_neg Bool.false_ne_true, if_pos hc]
    have hk' : (s.dequeue place).link? l = some k := hk
    obtain ⟨w, hw, htorn⟩ := (tears_tearDown _ l k.requestedClose (s.dequeue place)
      (Nat.le_refl _)).stand_self (stand?_of_link? hk')
    exact ⟨w.link, (stand?_eq_some.1 hw).1, htorn.closed⟩

variable (settings : Settings.Scheduler) (now : Nat)

/-- **No link that is to close is ever suspended.** -/
theorem unsuspended (moves : List Move) (hv : (after settings now moves).stand? l = some v) :
    v.link.Unsuspended :=
  (after_stand settings now (P := fun v => v.Standing ∧ v.link.Unsuspended)
    (fun _ _ _ h => ⟨h.standing, h.unsuspended⟩)
    (fun _ _ hv h => ⟨hv.1.turn h, h.unsuspended hv.1 hv.2⟩) moves l v hv).2

/-- In this run somebody other than the task of the link asked for its close when the task
might let it rest without a further look, and ever since the link lingers. -/
def Overlooked (l : Nat) (moves : List Move) : Prop :=
  ∃ before m rest, moves = before ++ m :: rest ∧ m.advances l = false ∧
    (∃ k, (after settings now before).link? l = some k ∧ k.closing = false ∧
      k.mayRest = true) ∧
    ∀ earlier later, rest = earlier ++ later →
      ∃ k, (after settings now (before ++ m :: earlier)).link? l = some k ∧ k.Lingers

variable {settings now}

/-- What is overlooked stays so while the link lingers. -/
private theorem Overlooked.concat {moves : List Move} (h : Overlooked settings now l moves)
    (hk : (after settings now (moves ++ [m])).link? l = some k) (hl : k.Lingers) :
    Overlooked settings now l (moves ++ [m]) := by
  obtain ⟨before, asking, rest, rfl, hothers, hfree, hsince⟩ := h
  refine ⟨before, asking, rest ++ [m], by simp, hothers, hfree, fun earlier later he => ?_⟩
  rcases List.eq_nil_or_concat later with rfl | ⟨later, m', rfl⟩
  · rw [List.append_nil] at he
    exact ⟨k, by simpa [← he] using hk, hl⟩
  · rw [List.concat_eq_append, ← List.append_assoc] at he
    exact hsince earlier later (List.append_inj_left' he rfl)

/-- **A link that nobody asked to close lingers after a move only if that is not a step of its
task**, and the task might let it rest. -/
private theorem mayRest_of_lingers {moves : List Move}
    (hk : (after settings now moves).link? l = some k) (hc : k.closing = false)
    (hk' : (after settings now (moves ++ [m])).link? l = some k') (hl : k'.Lingers) :
    m.advances l = false ∧ k.mayRest = true := by
  have hv := stand?_of_link? hk
  have hstanding := standing settings now moves hv
  have hmatched := matched settings now moves hv
  have hsole := after_sole settings now moves
  have hsummoned : k'.Summoned := fun _ =>
    ⟨hl.closing, (matched settings now _ (stand?_of_link? hk')).trans hl.closing⟩
  rw [after_concat] at hk'
  obtain ⟨w, hw, hturn⟩ := move_turn hsole m hv
  obtain rfl : w.link = k' := Option.some.inj ((stand?_eq_some.1 hw).1.symm.trans hk')
  constructor
  · -- A step that begins before the close was asked for does not let it rest after that.
    refine Bool.eq_false_iff.2 fun hadvances => ?_
    obtain rfl := Move.eq_of_advances hadvances
    cases hstep : k.step with
    | none =>
      rw [show move (.advance l) _ = _ from advance_of_none hv hstep, hk] at hk'
      exact nomatch (Option.some.inj hk' ▸ hc).symm.trans hl.closing
    | some step =>
      obtain ⟨t, u, hu, hplan, hworked, hconcluded⟩ := advance_step hsole hv hstep
      obtain rfl : u = w := Option.some.inj (hu.symm.trans hw)
      exact (Stand.step_leaving hstanding hstep hplan hworked hconcluded hmatched (fun _ => hc)
        hsummoned).not_lingers hl
  · by_contra hrest
    have hrest := Bool.eq_false_iff.2 hrest
    exact (hturn.leaving_of_free hstanding hmatched hc hrest hsummoned).not_lingers hl

variable (settings now)

/-- **A link that lingers was overlooked.** -/
theorem overlooked (moves : List Move) (hk : (after settings now moves).link? l = some k)
    (hl : k.Lingers) : Overlooked settings now l moves := by
  induction moves using List.reverseRecOn generalizing k with
  | nil => cases hk
  | append_singleton moves m ih =>
    cases hold : (after settings now moves).link? l with
    | none =>
      obtain ⟨i, arrival, -, -, -, hstarted⟩ := move_started (after_manned settings now moves) m
        hold (after_concat settings now moves m ▸ stand?_of_link? hk)
      exact absurd hl hstarted.not_lingers
    | some old =>
      have hv := stand?_of_link? hold
      have hstanding := standing settings now moves hv
      have hmatched := matched settings now moves hv
      cases hc : old.closing with
      | false =>
        obtain ⟨hothers, hrest⟩ := mayRest_of_lingers hold hc hk hl
        refine ⟨moves, m, [], rfl, hothers, ⟨old, hold, hc, hrest⟩, fun earlier later he => ?_⟩
        obtain ⟨rfl, -⟩ := List.append_eq_nil_iff.1 he.symm
        exact ⟨k, hk, hl⟩
      | true =>
        rcases hstanding.lingers_or_leaves hmatched (unsuspended settings now moves hv) hc with
          hlingers | hleaving
        · exact (ih hold hlingers).concat hk hl
        · obtain ⟨w, hw, hturn⟩ := move_turn (after_sole settings now moves) m hv
          rw [← after_concat] at hw
          obtain rfl : w.link = k := Option.some.inj ((stand?_eq_some.1 hw).1.symm.trans hk)
          exact absurd hl (hturn.leaving hstanding hmatched hleaving).not_lingers

/-- **A requested close is missed only by a link that comes to rest while it is asked for.**
Where a link is to close and is open, while no task of it runs and none is queued, it is in
keepalive, never suspended, and it was overlooked. From then on nobody drives it and no hook
of it but the close hook is called, whatever happens; and whoever queues a task for it has it
closed when that begins. -/
theorem missed_only_when_resting (moves : List Move)
    (hk : (after settings now moves).link? l = some k) (hclosing : k.closing = true)
    (hopen : k.closed = false) (hd : k.isDriven = false)
    (hq : (after settings now moves).entries l = []) :
    k.machine.state = .keepalive ∧ k.request = .keepalive ∧ Overlooked settings now l moves ∧
    ∀ later, ∃ k', (after settings now (moves ++ later)).link? l = some k' ∧
      k'.isDriven = false ∧ k'.hooks = k.hooks ∧
      ∀ place entry, (after settings now (moves ++ later)).tasks[place]? = some ⟨l, entry⟩ →
        ∃ x, (begin place (after settings now (moves ++ later))).link? l = some x ∧
          x.closed = true := by
  have hv := stand?_of_link? hk
  have hstanding := standing settings now moves hv
  have hstep := Stand.step_eq_none hd
  have hlingers : k.Lingers :=
    (hstanding.lingers_or_leaves (matched settings now moves hv) (unsuspended settings now moves hv)
      hclosing).resolve_right fun hleaving =>
        nomatch (closed_of_finished hstanding hleaving hd hq).symm.trans hopen
  have hr : k.request = .keepalive := by
    rcases hlingers.rests with hrest | ⟨-, hr⟩
    · exact nomatch (Link.mayRest_of_none hstep).symm.trans hrest
    · exact hr
  refine ⟨?_, hr, overlooked settings now moves hk hlingers, fun later => ?_⟩
  · cases (Stand.standing_none hstep).1 hstanding with
    | gone hg => exact nomatch hg.closed.symm.trans hopen
    | idle _ _ hi =>
      dsimp only at hi
      rw [hr, hq] at hi
      generalize k.machine.state = m at hi ⊢
      cases hi
      rfl
  · obtain ⟨w, hw, hclosing', hnone, hhooks⟩ := follow_stand
      (P := fun w => w.link.closing = true ∧ w.link.step = none ∧ w.link.hooks = k.hooks)
      (fun _ _ hP h => by
        obtain ⟨hc, hs, hh⟩ := h.undriven hP.1 hP.2.1
        exact ⟨hc, hs, hh.trans hP.2.2⟩)
      (after_sole settings now moves) hv ⟨hclosing, hstep, rfl⟩ later
    rw [← after_append] at hw
    have hk' := (stand?_eq_some.1 hw).1
    exact ⟨w.link, hk', congrArg Option.isSome hnone, hhooks, fun place entry ht =>
      begin_of_closing ht hk' hnone hclosing'⟩

/-- A connection whose socket cannot be interrupted is kept after its request. Its close is
asked for when its task is about to wait for the next one, and then its task goes on. -/
def askedLate : List Move :=
  [.build {} (some (.scripted [])),
    .accept 0 {
      socket := { interruptible := false }
      handler := { requests := [[⟨"return", .return true, false⟩]] } },
    .begin 0, .advance 0, .advance 0, .advance 0, .advance 0, .perform 0 (.close none none),
    .advance 0]

/-- **The close is missed**: the connection is parked in keepalive although its close was
requested, and no task of it runs or is queued. -/
theorem close_missed :
    ∃ k, (after {} 0 askedLate).link? 0 = some k ∧ k.closing = true ∧ k.closed = false ∧
      k.request = .keepalive ∧ k.isDriven = false ∧ (after {} 0 askedLate).tasks = [] := by
  have hmissed : ((after {} 0 askedLate).link? 0).map
      (fun k => (k.closing, k.closed, k.request, k.isDriven)) =
        some (true, false, .keepalive, false) := by
    decide
  obtain ⟨k, hk, he⟩ := Option.map_eq_some_iff.1 hmissed
  simp only [Prod.mk.injEq] at he
  obtain ⟨hclosing, hopen, hr, hd⟩ := he
  exact ⟨k, hk, hclosing, hopen, hr, hd, by decide⟩

/-- It was overlooked, and when input arrives it is closed, with no other request served. -/
theorem missed_only_when_resting_late :
    Overlooked {} 0 0 askedLate ∧
    ∃ k, (after {} 0 (askedLate ++ [.perform 0 (.notify none)])).link? 0 = some k ∧
      k.hooks = [.start, .request] ∧
      ∃ x, (begin 0 (after {} 0 (askedLate ++ [.perform 0 (.notify none)]))).link? 0 = some x ∧
        x.closed = true := by
  have hmissed : ((after {} 0 askedLate).link? 0).map
      (fun k => (k.closing, k.closed, k.isDriven, k.hooks)) =
        some (true, false, false, [.start, .request]) := by
    decide
  obtain ⟨k, hk, he⟩ := Option.map_eq_some_iff.1 hmissed
  simp only [Prod.mk.injEq] at he
  obtain ⟨hclosing, hopen, hd, hhooks⟩ := he
  obtain ⟨-, -, hoverlooked, hlater⟩ := missed_only_when_resting {} 0 askedLate hk hclosing hopen
    hd (by decide)
  obtain ⟨k', hk', -, hsame, hbegin⟩ := hlater [.perform 0 (.notify none)]
  exact ⟨hoverlooked, k', hk', hsame.trans hhooks, hbegin 0 .resume (by decide)⟩

end Engine

end LinkEngine

import LinkEngine.Proofs.Flow
import LinkEngine.Proofs.Growth
import LinkEngine.Proofs.Heeding

/-!
# Links that leave

A task looks at whether its link is to close before it gets to parking it, but not
immediately before: from some steps on it may park the link without a further look
(`Step.mayRest`). A link that was asked to close and whose task is past none of these
looks is leaving: whatever happens, nobody parks it any more (`Turn.leaving`), and when its
task is over it is closed.

A link that was asked to close does so for the reason it was first given, unless its
task ends for another one (`Outcome.isOwn`): a panic, a lack of memory, a deadline that
passed before, or a handler that does not keep to the protocol (`step_obeys`).
-/

namespace LinkEngine

open Connection (CloseReason)
open Link (Outcome Step)

namespace Link

variable {k k' : Link} {reason : CloseReason}

/-- From this step on the task may park its link without a look at whether that is to
close. -/
def Step.mayRest : Step → Bool
  | .resumeParked | .rest false | .await => true
  | _ => false

/-- Its task may be about to park it. -/
def mayRest (k : Link) : Bool := k.step.any Step.mayRest

theorem mayRest_of_none (hs : k.step = none) : k.mayRest = false := by
  unfold mayRest
  rw [hs]
  rfl

theorem mayRest_of_some {step : Step} (hs : k.step = some step) : k.mayRest = step.mayRest := by
  unfold mayRest
  rw [hs]
  rfl

/-- Where it is open, the link heeds that it was asked to close, and its task will not
park it. -/
structure Leaving (k : Link) : Prop where
  heeding : k.Heeding
  mayRest : k.closed = false → k.mayRest = false

theorem Leaving.of_closed (hc : k.closed = true) : k.Leaving :=
  ⟨.of_closed hc, fun h => nomatch hc.symm.trans h⟩

/-- The task ended for a reason of its own, whatever was asked for. -/
def Outcome.isOwn : Outcome → Bool
  | .panic => true
  | .fail f | .refused f => f.isOutOfMemory
  | .close reason => reason = .suspendTimeout || reason = .protocolViolation
  | .next _ | .park => false

/-- Who asked for a close gave a reason. -/
def Matched (k : Link) : Prop := k.closeRequest.isSome = k.closing

/-- The link closed before anybody asked for that. -/
def Unasked (k : Link) : Prop := k.closed = true ∧ k.closing = false

/-- The link does as it was asked: it is not parked once somebody asked for its close, and
where it is closed, that was for the reason that was asked for. -/
structure Obeys (k : Link) : Prop where
  matched : k.Matched
  unparked : k.closing = true → k.closed = false → k.request.isParked = false
  reason : k.closed = true → k.closeReason = some k.requestedClose

theorem Own.closing (h : k.Own k') : k'.closing = k.closing := congrArg (·.2.2.2.2.2.2) h.frame

theorem Own.closeRequest (h : k.Own k') : k'.closeRequest = k.closeRequest :=
  congrArg (·.2.2.2.2.2.1) h.frame

theorem Matched.own (hk : k.Matched) (h : k.Own k') : k'.Matched := by
  unfold Matched
  rw [h.closeRequest, h.closing]
  exact hk

theorem matched_interrupt (h : k.Matched) : k.interrupt.Matched := by
  unfold interrupt
  split <;> exact h

theorem Touched.matched (h : k.Touched k') (hk : k.Matched) : k'.Matched := by
  cases h with
  | asked hc hp reason =>
    refine matched_interrupt ?_
    exact rfl
  | _ => exact hk

theorem Handed.matched (h : k.Handed k') (hk : k.Matched) : k'.Matched := by
  cases h <;> exact hk

/-- What marking a link as closed leaves of what was asked of it. -/
theorem asked_marked (k : Link) (reason : CloseReason) :
    (k.marked reason).closing = k.closing ∧ (k.marked reason).closeRequest = k.closeRequest := by
  unfold marked shut disarmed
  cases k.deadline <;> exact ⟨rfl, rfl⟩

theorem Matched.marked (h : k.Matched) (reason : CloseReason) : (k.marked reason).Matched := by
  obtain ⟨hc, hr⟩ := asked_marked k reason
  unfold Matched
  rw [hc, hr]
  exact h

theorem Seized.matched (h : k.Seized reason k') (hk : k.Matched) : k'.Matched := by
  cases h with
  | refused => exact hk
  | asked => exact rfl

/-- Nobody asked, so nobody gave a reason. -/
theorem Matched.requestedClose (h : k.Matched) (hc : k.closing = false) :
    k.requestedClose = .shutdown := by
  have hnone : k.closeRequest = none :=
    Option.not_isSome_iff_eq_none.1 (Bool.eq_false_iff.1 (h.trans hc))
  unfold Link.requestedClose
  rw [hnone]
  rfl

/-- An open link obeys, if it is not parked once it was asked. -/
theorem Obeys.of_open (hm : k.Matched) (hc : k.closed = false)
    (hp : k.closing = true → k.request.isParked = false) : k.Obeys :=
  ⟨hm, fun h _ => hp h, fun h => nomatch h.symm.trans hc⟩

/-- A link that is closed for the reason that was asked for obeys. -/
theorem Obeys.marked (hm : k.Matched) (reason : CloseReason) (hr : reason = k.requestedClose) :
    (k.marked reason).Obeys := by
  refine ⟨hm.marked reason, fun _ h => ?_, fun _ => ?_⟩
  · rw [closed_marked] at h
    cases h
  · rw [(marked_fields k reason).1]
    unfold Link.requestedClose at hr ⊢
    rw [(asked_marked k reason).2]
    exact congrArg some hr

theorem Touched.obeys (h : k.Touched k') (hk : k.Obeys) : k'.Obeys := by
  have hm := h.matched hk.matched
  cases h with
  | asked hc hp reason =>
    have hheeding := heeding_asked hp reason
    have hopen := (closed_interrupt { k.ask reason with request := k.request.wake.2 }).trans hc
    exact .of_open hm hopen fun _ => (hheeding hopen).2.2
  | deferred hc hr => exact .of_open hm hc fun _ => rfl
  | late => exact ⟨hm, fun _ _ => rfl, hk.reason⟩
  | vain => exact ⟨hm, fun _ _ => rfl, hk.reason⟩
  | _ => exact ⟨hm, hk.unparked, hk.reason⟩

theorem Handed.obeys (h : k.Handed k') (hk : k.Obeys) : k'.Obeys := by
  have hm := h.matched hk.matched
  cases h <;> exact ⟨hm, fun _ _ => rfl, hk.reason⟩

/-- Who takes over a parked link to tear it down does so for the reason that was asked
for. -/
theorem Seized.obeys (h : k.Seized reason k') (hk : k.Obeys) : (k'.marked reason).Obeys := by
  refine .marked (h.matched hk.matched) reason ?_
  cases h with
  | refused hc hp =>
    -- It was parked, so nobody had asked.
    have hclosing : k.closing = false := Bool.eq_false_iff.2 fun hclosing =>
      nomatch (hk.unparked hclosing hc).symm.trans hp
    exact (hk.matched.requestedClose hclosing).symm
  | asked => rfl

theorem Obeys.gone (h : k.Obeys) : k.gone.Obeys := ⟨h.matched, fun _ _ => rfl, h.reason⟩

/-- Whether a link obeys does not depend on the next step of its task. -/
theorem Obeys.next (h : k.Obeys) (step : Option Step) : { k with step }.Obeys :=
  ⟨h.matched, h.unparked, h.reason⟩

theorem Unasked.touched (h : k.Touched k') (hk : k.Unasked) : k'.Unasked := by
  cases h with
  | asked hc => exact nomatch hk.1.symm.trans hc
  | _ => exact hk

end Link

namespace Stand

variable {v w u : Stand} {o : Outcome} {step next : Step} {reason : CloseReason}

/-! ## What others do -/

theorem Course.matched (h : Course v w) (hv : v.link.Matched) : w.link.Matched :=
  h.induction (fun h => h.matched) (fun h => h.matched)
    (fun h hk => (h.matched hk).marked _) (fun _ hk => hk) hv

theorem TornDown.matched (h : TornDown reason v w) (hv : v.link.Matched) : w.link.Matched := by
  cases h with
  | before => exact hv
  | now hc hook => exact hook.matched (hv.marked reason)

theorem Worked.matched (h : Worked v w) (hv : v.link.Matched) : w.link.Matched := by
  induction h with
  | refl => exact hv
  | course h _ ih => exact ih (h.matched hv)
  | own h _ ih => exact ih (hv.own h)

theorem Turn.matched (h : Turn v w) (hv : v.link.Matched) : w.link.Matched :=
  h.induction (fun _ _ hk => hk) (fun h => h.matched) (fun h => h.matched) (fun h => h.matched) hv

theorem Started.matched {i : Nat} {arrival : Engine.Arrival} (h : Started i arrival v) :
    v.link.Matched := by
  cases h with
  | queued _ _ h => exact h.matched (v := ⟨_, []⟩) rfl
  | @refused _ _ _ w u _ _ h ht =>
    have hw : w.link.Matched := h.matched rfl
    exact ht.matched hw

/-- **Whatever others do, a link that obeys goes on to.** -/
theorem Course.obeys (h : Course v w) (hv : v.link.Obeys) : w.link.Obeys :=
  h.induction (fun h => h.obeys) (fun h => h.obeys) (fun h => h.obeys) (fun _ hk => hk.gone) hv

/-- A closed link that nobody asked is asked no more. -/
theorem Course.unasked (h : Course v w) (hv : v.link.Unasked) : w.link.Unasked :=
  h.induction (P := Link.Unasked) (fun h hk => hk.touched h)
    (fun h hk => by cases h <;> exact hk)
    (fun h hk => nomatch h.open.1.symm.trans hk.1) (fun _ hk => hk) hv

/-- A link that is torn down obeys if it was asked for that, or was not asked at all. -/
theorem TornDown.obeys (h : TornDown reason v w) (hc : v.link.closed = false)
    (hm : v.link.Matched) (hr : v.link.closing = true → reason = v.link.requestedClose) :
    w.link.Obeys ∨ w.link.Unasked := by
  cases h with
  | before hclosed => exact nomatch hclosed.symm.trans hc
  | now _ hook =>
    cases hclosing : v.link.closing with
    | true => exact .inl (hook.obeys (.marked hm reason (hr hclosing))).gone
    | false =>
      exact .inr (hook.unasked
        ⟨Link.closed_marked _ _, (Link.asked_marked v.link reason).1.trans hclosing⟩)

/-! ## Steps on a link that is to close -/

/-- **Where a link is to close after a step, the next one does not park it.** -/
theorem next_mayRest (hp : plan step v (.next next) w)
    (hm : step.mayRest = true → v.link.closing = false) (hc : w.link.closing = true) :
    next.mayRest = false := by
  have hleads := (plan_leads step v _ w hp).resolve_left Bool.false_ne_true
  cases hleads with
  | rests =>
    obtain ⟨rfl, -⟩ := hp
    rw [link_put, (Link.Own.disarmed v.link).closing, hm rfl] at hc
    cases hc
  | rest keep killed =>
    have hp : Plan.after keep v (.next (.rest killed)) w := hp
    unfold Plan.after at hp
    split at hp
    · cases hp.1
    · cases hp.1
    · obtain ⟨⟨killed', hkilled, he⟩, rfl⟩ := hp
      cases he
      rw [hkilled (.inl hc)]
      rfl
  | await =>
    have hp : Plan.rest false v (.next .await) w := hp
    unfold Plan.rest Plan.write at hp
    dsimp only at hp
    split at hp
    · cases hp.1
    · split at hp
      · obtain ⟨_, -, ho, -⟩ := hp
        cases ho
      · obtain ⟨t, -, rfl⟩ := hp
        exact nomatch (hm rfl).symm.trans hc
  | _ => rfl

/-- **A step that parks its link does so before it is asked to close**, and then the link
obeys. -/
theorem park_obeys (hv : Ready step v) (hp : plan step v .park w)
    (hm : step.mayRest = true → v.link.closing = false) (ha : v.link.Matched) :
    w.link.Obeys := by
  rcases step_of_park hp with rfl | rfl
  · obtain ⟨stream, r, t, -, hcourse⟩ := await_park hp
    refine hcourse.obeys ?_
    refine .of_open ha hv.closed fun h => ?_
    exact nomatch (hm rfl).symm.trans h
  · obtain ⟨hc, machine, r, t, rfl⟩ := suspend_park hp
    refine .of_open ha hv.closed fun h => ?_
    exact nomatch hc.symm.trans h

/-- **A link that was asked to close before the end of a step leaves.** -/
theorem step_leaving (hv : Standing v) (hs : v.link.step = some step) (hp : plan step v o w)
    (hw : Worked v w) (hc : Concluded w o u) (ha : v.link.Matched)
    (hm : step.mayRest = true → v.link.closing = false) (hu : u.link.Summoned) :
    u.link.Leaving := by
  cases hclosed : u.link.closed with
  | true => exact .of_closed hclosed
  | false =>
    obtain ⟨hclosing, hasked⟩ := hu hclosed
    have hstanding := hv.turn (.step hs hp hw hc)
    cases hc with
    | next next =>
      have hready := (standing_some rfl).1 hstanding
      exact ⟨fun _ => ⟨hclosing, hasked, hready.expects.isParked⟩,
        fun _ => next_mayRest hp hm hclosing⟩
    | park =>
      have hobeys := park_obeys ((standing_some hs).1 hv) hp hm ha
      exact ⟨fun _ => ⟨hclosing, hasked, hobeys.unparked hclosing hclosed⟩, fun _ => rfl⟩
    | close ht => exact nomatch ht.closed.symm.trans hclosed
    | fail _ _ _ _ ht => exact nomatch ht.closed.symm.trans hclosed
    | panic ht => exact nomatch ht.closed.symm.trans hclosed

/-- A link that was asked to close leaves after a turn, if its task was not about to park
it. -/
theorem Turn.leaving_of (h : Turn v w) (hv : Standing v) (ha : v.link.Matched)
    (hm : v.link.closed = false → v.link.mayRest = false) (hw : w.link.Summoned)
    (hcourse : Course v w → w.link.Heeding) : w.link.Leaving := by
  cases h with
  | course h =>
    refine ⟨hcourse h, fun hopen => ?_⟩
    unfold Link.mayRest
    rw [h.step]
    exact hm (h.open hopen)
  | begin hd he hc hc' => exact nomatch hc'.symm.trans (hw hc).1
  | idle hd he hc => exact .of_closed hc
  | doomed hd he hc hc' h => exact .of_closed h.closed
  | step hs hp hworked hc =>
    refine step_leaving hv hs hp hworked hc ha (fun hrest => ?_) hw
    have hm := hm ((standing_some hs).1 hv).closed
    exact nomatch hm.symm.trans ((Link.mayRest_of_some hs).trans hrest)

/-- **Whatever happens to it, a link that leaves goes on to.** -/
theorem Turn.leaving (h : Turn v w) (hv : Standing v) (ha : v.link.Matched)
    (hl : v.link.Leaving) : w.link.Leaving := by
  refine h.leaving_of hv ha hl.mayRest ?_ fun h => h.heeding hl.heeding
  refine hl.heeding.summoned.grown h.grown fun hc => ?_
  exact (h.settled hc (hv.gone hc).2).1.closed.trans hc

/-! ## Reasons -/

/-- What a step closes its link for, where that is to close: what was asked for, or a reason
of its own. -/
def Grants (o : Outcome) (w : Stand) : Prop :=
  ∀ reason, o = .close reason → w.link.closing = true →
    o.isOwn = true ∨ reason = w.link.requestedClose

namespace Plan

private theorem grants_of_broken (o : Outcome) (w : Stand) (h : o.isBroken = true) :
    Grants o w := by
  rintro reason rfl
  cases h

/-- What does not close the link grants what was asked for. -/
private theorem grants_of_next (step : Step) (w : Stand) : Grants (.next step) w := fun _ => nofun

private theorem grants_of_park (w : Stand) : Grants .park w := fun _ => nofun

private theorem grants_next {step : Step} : (yield (.next step)).Gives Grants :=
  gives_yield (grants_of_next step)

private theorem grants_close (own : CloseReason) : (close own).Gives Grants := by
  rintro v _ _ ⟨reason, hr, rfl, rfl⟩ _ ho hc
  cases ho
  rcases hr with ⟨-, hopen⟩ | hr
  · exact nomatch hopen.symm.trans hc
  · exact .inr hr

/-- Who is not to close closes for what it likes. -/
private theorem grants_of_free (o : Outcome) (h : w.link.closing = false) : Grants o w :=
  fun _ _ hc => nomatch h.symm.trans hc

private theorem grants_wait {ready idle : Step} {late : CloseReason} :
    (Plan.wait ready idle late).Gives Grants :=
  gives_wait grants_of_broken (grants_close _) (fun _ => grants_of_free _)
    (grants_of_next ready) (grants_of_next idle)

end Plan

private theorem accept_grants (h : Plan.accept v o w) : Grants o w := by
  refine Plan.gives_transition Plan.grants_of_broken ?_ _ _ _ h
  rintro v o w ⟨stream, -, ⟨kind, rfl, -⟩ | h⟩
  · exact Plan.grants_of_broken _ _ rfl
  · exact Plan.gives_hook Plan.grants_of_broken (fun _ => Plan.grants_next) _ _ _ h

private theorem resumeParked_grants (h : Plan.resumeParked v o w) (hv : v.link.closing = false) :
    Grants o w := by
  obtain ⟨rfl, -⟩ := h
  exact Plan.grants_of_free o ((Link.Own.disarmed v.link).closing.trans hv)

private theorem dispatch_grants (h : Plan.dispatch v o w) : Grants o w :=
  Plan.gives_transition Plan.grants_of_broken (fun v => Plan.gives_hook Plan.grants_of_broken
    (fun _ => Plan.gives_flush Plan.grants_of_broken Plan.grants_next)
    (v.put { v.link with pending := .none })) _ _ _ h

private theorem after_grants {keep : Bool} (h : Plan.after keep v o w) : Grants o w := by
  unfold Plan.after at h
  split at h
  · obtain ⟨rfl, -⟩ := h
    exact Plan.grants_of_next _ _
  · obtain ⟨rfl, -⟩ := h
    exact Plan.grants_of_next _ _
  · obtain ⟨⟨_, -, rfl⟩, -⟩ := h
    exact Plan.grants_of_next _ _

private theorem rest_grants (killed : Bool) (h : Plan.rest killed v o w) : Grants o w := by
  unfold Plan.rest Plan.write at h
  dsimp only at h
  split at h
  · obtain ⟨rfl, -⟩ := h
    exact Plan.grants_of_broken _ _ rfl
  · split at h
    · exact Plan.grants_close _ _ _ _ h
    · obtain ⟨t, h⟩ := h
      exact Plan.grants_next _ _ _ h

private theorem await_grants (h : Plan.await v o w) (hv : v.link.closing = false) :
    Grants o w := by
  rcases h with ⟨kind, rfl, -⟩ | h | h | ⟨rfl, rfl⟩ | h | h
  · exact Plan.grants_of_broken _ _ rfl
  · exact Plan.grants_next _ _ _ h
  · exact Plan.grants_close _ _ _ _ h
  · exact Plan.grants_of_free _ hv
  · exact Plan.grants_next _ _ _ h
  · split at h
    · obtain ⟨rfl, -⟩ := h
      exact Plan.grants_of_broken _ _ rfl
    · exact Plan.gives_arm Plan.grants_of_broken (Plan.gives_register Plan.grants_of_broken
        Plan.grants_of_park (Plan.grants_of_next _)) _ _ _ h

private theorem suspend_grants (h : Plan.suspend v o w) : Grants o w := by
  unfold Plan.suspend at h
  split at h
  · obtain ⟨rfl, rfl⟩ := h
    rintro _ ho -
    cases ho
    exact .inr rfl
  · exact Plan.gives_transition Plan.grants_of_broken (Plan.gives_arm Plan.grants_of_broken
      (Plan.gives_park Plan.grants_of_broken Plan.grants_of_park
        fun _ => Plan.grants_of_next _)) _ _ _ h

private theorem resume_grants (timedOut : Bool) (h : Plan.resume timedOut v o w) :
    Grants o w := by
  refine Plan.gives_transition Plan.grants_of_broken (fun v o w h => ?_) _ _ _ h
  unfold Plan.write at h
  split at h
  · exact Plan.gives_expire Plan.grants_of_broken (fun _ _ _ _ => .inl rfl) _ _ _ h
  · split at h
    · obtain ⟨rfl, rfl⟩ := h
      rintro _ ho -
      cases ho
      exact .inr rfl
    · exact Plan.gives_hook Plan.grants_of_broken (fun keep => Plan.gives_flush
        Plan.grants_of_broken Plan.grants_next) _ _ _ h

private theorem upgrade_grants (h : Plan.upgrade v o w) : Grants o w := by
  refine Plan.gives_transition Plan.grants_of_broken ?_ _ _ _ h
  rintro v o w ⟨t, h⟩
  exact Plan.grants_next _ _ _ h

private theorem service_grants (h : Plan.service v o w) : Grants o w := by
  refine Plan.gives_transition Plan.grants_of_broken (fun before => Plan.gives_hook
    Plan.grants_of_broken (fun _ => Plan.gives_flush Plan.grants_of_broken ?_) before) _ _ _ h
  rintro v o w (⟨-, h⟩ | ⟨-, -, rfl, -⟩ | ⟨-, -, h⟩)
  · exact Plan.grants_close _ _ _ _ h
  · exact fun _ _ _ => .inl rfl
  · refine Plan.gives_transition Plan.grants_of_broken ?_ _ _ _ h
    rintro v o w ⟨t, h⟩
    exact Plan.grants_next _ _ _ h

/-- **A step closes a link that is to close for what was asked for**, or for a reason of its
own. -/
theorem plan_grants (h : plan step v o w) (hm : step.mayRest = true → v.link.closing = false) :
    Grants o w := by
  cases step with
  | accept => exact accept_grants h
  | resumeParked => exact resumeParked_grants h (hm rfl)
  | dispatch => exact dispatch_grants h
  | after keep => exact after_grants h
  | rest killed => exact rest_grants killed h
  | await => exact await_grants h (hm rfl)
  | block => exact Plan.grants_wait _ _ _ h
  | suspend => exact suspend_grants h
  | resume timedOut => exact resume_grants timedOut h
  | upgrade => exact upgrade_grants h
  | listen deadline => exact Plan.grants_wait _ _ _ h
  | service => exact service_grants h

/-- **After a step a link obeys, unless the step closed it for a reason of its own**, or
before anybody asked. -/
theorem step_obeys (hv : Standing v) (hs : v.link.step = some step) (hp : plan step v o w)
    (hw : Worked v w) (hc : Concluded w o u) (ha : v.link.Matched)
    (hm : step.mayRest = true → v.link.closing = false) (ho : o.isOwn = false) :
    u.link.Obeys ∨ u.link.Unasked := by
  have hready := (standing_some hs).1 hv
  have hdecided := hready.decided hp
  have hstanding := hv.turn (.step hs hp hw hc)
  have hmatched := hw.matched ha
  cases hc with
  | next next =>
    have hnext := (standing_some rfl).1 hstanding
    exact .inl (.of_open hmatched hnext.closed fun _ => hnext.expects.isParked)
  | park => exact .inl ((park_obeys hready hp hm ha).next none)
  | close ht =>
    have hobeys := ht.obeys hdecided hmatched fun hclosing =>
      (plan_grants hp hm _ rfl hclosing).resolve_left (Bool.eq_false_iff.1 ho)
    exact hobeys.imp_left fun h => h.next none
  | fail hf hr hcourse hsame ht =>
    rcases hf with rfl | rfl
    · obtain rfl := hsame ho
      have hobeys := ht.obeys hdecided hmatched fun hclosing => by
        rcases hr with ⟨-, hopen | hmemory⟩ | hr
        · exact nomatch hopen.symm.trans hclosing
        · exact nomatch hmemory.symm.trans ho
        · exact hr
      exact hobeys.imp_left fun h => h.next none
    · exact hdecided.elim
  | panic => cases ho

end Stand

end LinkEngine

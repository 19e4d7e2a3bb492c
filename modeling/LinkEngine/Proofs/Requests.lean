import LinkEngine.Proofs.Calls

/-!
# How many requests the lifecycle counts

The lifecycle of a link counts a request whenever it enters the active state from another
one. Of all steps only the one that calls the request hook does that (`Ready.requests`),
and nothing else that happens to a link moves the count.
-/

namespace LinkEngine

open Connection (CloseReason Event State)
open Link (Ending Outcome Step Upgrades)

namespace Connection.Machine

/-- Where the lifecycle goes elsewhere, no request starts. -/
theorem requests_enter_of_ne (m : Machine) {next : State} (h : next ≠ .active) :
    (m.enter next).requests = m.requests := by
  unfold enter
  rw [if_neg h]
  split <;> rfl

theorem requests_enter_active {m : Machine} (h : m.state ≠ .active) :
    (m.enter .active).requests = min (m.requests + 1) maxRequests := by
  unfold enter
  rw [if_neg h.symm, if_pos rfl]

/-- Only a dispatch leads to the active state. -/
theorem eq_dispatch_of_next? {s : State} {e : Event} (h : s.next? e = some .active) :
    e = .dispatch := by
  cases s <;> cases e <;> first | rfl | cases h

theorem requests_apply {m m' : Machine} {e : Event} (h : m.apply e = .ok m') (he : e ≠ .dispatch) :
    m'.requests = m.requests := by
  unfold apply at h
  split at h
  · next next hn =>
    cases h
    exact requests_enter_of_ne m fun ha => he (eq_dispatch_of_next? (ha ▸ hn))
  · cases h

theorem requests_finish {m m' : Machine} {killed : Bool} (h : m.finish killed = .ok m') :
    m'.requests = m.requests := by
  unfold finish at h
  split at h
  · cases h
  · refine requests_apply h ?_
    cases killed <;> exact nofun

end Connection.Machine

/-- How many requests the lifecycle counted. -/
def Link.requests (k : Link) : Nat := k.machine.requests

namespace Stand

variable {v w u : Stand} {o : Outcome} {reason : CloseReason}

/-- **Others start no request.** -/
theorem Course.requests (h : Course v w) : w.link.requests = v.link.requests := by
  refine h.induction (P := fun k => k.requests = v.link.requests) ?_ ?_ ?_ (fun _ hk => hk) rfl
  · intro k k' h hk
    rw [← hk]
    cases h with
    | asked hc hp reason =>
      unfold Link.interrupt
      split <;> rfl
    | _ => rfl
  · intro k k' h hk
    rw [← hk]
    cases h <;> rfl
  · intro k reason k' h hk
    rw [← hk]
    have hmarked : ∀ k : Link, (k.marked reason).requests = k.requests := by
      intro k
      unfold Link.marked Link.shut Link.disarmed
      cases k.deadline <;> rfl
    refine (hmarked k').trans ?_
    cases h <;> rfl

theorem TornDown.requests (h : TornDown reason v w) : w.link.requests = v.link.requests := by
  cases h with
  | before => rfl
  | now hc hook =>
    refine hook.requests.trans ?_
    unfold Stand.put Link.marked Link.shut Link.disarmed
    cases v.link.deadline <;> rfl

theorem Concluded.requests (h : Concluded v o w) : w.link.requests = v.link.requests := by
  cases h with
  | next | park => rfl
  | close ht => exact ht.requests
  | fail _ _ h _ ht => exact ht.requests.trans h.requests
  | panic ht => exact ht.requests

theorem Served.requests {upgrades : Upgrades} (h : Served upgrades v w) :
    w.link.requests = v.link.requests := by
  induction h with
  | refl => rfl
  | course h _ ih => exact ih.trans h.requests
  | acted h _ ih =>
    refine ih.trans ?_
    cases h with
    | comet hk =>
      unfold Engine.startComet at hk
      split at hk
      · cases hk
      · split at hk <;> cases hk
        rfl
    | duplex hk =>
      unfold Engine.startDuplex at hk
      split at hk <;> cases hk
      rfl
    | _ => rfl

theorem Hooked.requests {hook : Hook} {upgrades : Upgrades} {ending : Ending}
    (h : Hooked hook upgrades v ending w) : w.link.requests = v.link.requests := by
  obtain ⟨u, hu, rfl⟩ := h
  exact hu.requests

/-! ## The parts of a step -/

namespace Plan

/-- By this plan no request starts. -/
def StartsNone (p : Plan) : Prop :=
  ∀ v o w, p v o w → ∀ n, v.link.requests = n → w.link.requests = n

variable {go : Plan}

private theorem startsNone_yield (o : Outcome) : (yield o).StartsNone := by
  rintro v _ w ⟨-, rfl⟩ _ rfl
  rfl

private theorem startsNone_close (own : CloseReason) : (close own).StartsNone := by
  rintro v o w ⟨reason, -, -, rfl⟩ _ rfl
  rfl

private theorem startsNone_transition {e : Event} (he : e ≠ .dispatch) (hgo : go.StartsNone) :
    (transition e go).StartsNone := by
  rintro v o w h _ rfl
  unfold transition Link.transition at h
  cases hm : v.link.machine.apply e with
  | error r =>
    rw [hm] at h
    obtain ⟨-, rfl⟩ := h
    rfl
  | ok machine =>
    rw [hm] at h
    exact hgo _ _ _ h _ (Connection.Machine.requests_apply hm he)

private theorem startsNone_hook (hook : Hook) (upgrades : Upgrades) {go : Bool → Plan}
    (hgo : ∀ keep, (go keep).StartsNone) : (Plan.hook hook upgrades go).StartsNone := by
  rintro v o w ⟨ending, u, hu, h⟩ _ rfl
  cases ending with
  | returned keep => exact hgo keep _ _ _ h _ hu.requests
  | failed f =>
    obtain ⟨-, rfl⟩ := h
    exact hu.requests
  | panicked =>
    obtain ⟨-, rfl⟩ := h
    exact hu.requests

private theorem startsNone_flush (hgo : go.StartsNone) : (flush go).StartsNone := by
  rintro v o w h _ rfl
  obtain ⟨stream, ⟨kind, -, rfl⟩ | h⟩ := flush_cases h
  · rfl
  · exact hgo _ _ _ h _ rfl

private theorem startsNone_arm (hgo : go.StartsNone) : (arm go).StartsNone := by
  rintro v o w (⟨-, rfl⟩ | ⟨t, h⟩) _ rfl
  · rfl
  · exact hgo _ _ _ h _ rfl

private theorem startsNone_wait (ready idle : Step) (late : CloseReason) :
    (Plan.wait ready idle late).StartsNone := by
  rintro v o w (h | ⟨-, ⟨-, rfl⟩ | ⟨u, hu, h⟩⟩) _ rfl
  · exact startsNone_close _ _ _ _ h _ rfl
  · rfl
  · have hcourse : Course _ u := hu
    have hwaited : u.link.requests = v.link.requests := hcourse.requests
    rcases h with ⟨kind, -, rfl⟩ | ⟨-, rfl⟩ | ⟨-, rfl⟩ | h
    · exact hwaited
    · exact hwaited
    · exact hwaited
    · exact startsNone_close _ _ _ _ h _ hwaited

private theorem requests_disarmed (k : Link) : k.disarmed.requests = k.requests := by
  unfold Link.disarmed
  split <;> rfl

private theorem startsNone_register : register.StartsNone := by
  rintro v o w ⟨u, hu, h⟩ _ rfl
  refine Eq.trans ?_ hu.requests
  rcases h with ⟨-, rfl⟩ | ⟨-, rfl⟩ | h
  · rfl
  · rfl
  · unfold declined at h
    split at h <;> obtain ⟨-, rfl⟩ := h
    · exact requests_disarmed _
    · rfl

private theorem startsNone_park : Plan.park.StartsNone := by
  rintro v o w h _ rfl
  unfold Plan.park at h
  split at h <;> obtain ⟨-, rfl⟩ := h
  · rfl
  · rfl
  · exact requests_disarmed _

private theorem startsNone_accept : accept.StartsNone := by
  refine startsNone_transition (by decide) ?_
  rintro v o w ⟨stream, -, ⟨kind, -, rfl⟩ | h⟩ _ rfl
  · rfl
  · exact startsNone_hook _ _ (fun _ => startsNone_yield _) _ _ _ h _ rfl

private theorem startsNone_resumeParked : resumeParked.StartsNone := by
  rintro v o w ⟨rfl, -⟩ _ rfl
  exact requests_disarmed _

private theorem startsNone_after (keep : Bool) : (after keep).StartsNone := by
  rintro v o w h _ rfl
  unfold Plan.after at h
  split at h
  · obtain ⟨-, rfl⟩ := h
    rfl
  · obtain ⟨-, rfl⟩ := h
    rfl
  · obtain ⟨killed, -, -, rfl⟩ := h
    rfl

private theorem startsNone_rest (killed : Bool) : (rest killed).StartsNone := by
  rintro v o w h _ rfl
  unfold Plan.rest Plan.write at h
  simp only [link_put] at h
  split at h
  · obtain ⟨-, rfl⟩ := h
    rfl
  · next machine hm =>
    have hrequests : machine.requests = v.link.requests := Connection.Machine.requests_finish hm
    split at h
    · exact startsNone_close _ _ _ _ h _ hrequests
    · obtain ⟨t, -, rfl⟩ := h
      exact hrequests

private theorem startsNone_await : await.StartsNone := by
  rintro v o w (⟨kind, -, rfl⟩ | ⟨-, rfl⟩ | h | ⟨-, rfl⟩ | ⟨-, rfl⟩ | h) _ rfl
  · rfl
  · rfl
  · exact startsNone_close _ _ _ _ h _ rfl
  · rfl
  · rfl
  · split at h
    · obtain ⟨-, rfl⟩ := h
      rfl
    · exact startsNone_arm startsNone_register _ _ _ h _ rfl

private theorem startsNone_suspend : suspend.StartsNone := by
  intro v o w h
  unfold Plan.suspend at h
  split at h
  · obtain ⟨-, rfl⟩ := h
    rintro _ rfl
    rfl
  · exact startsNone_transition (by decide) (startsNone_arm startsNone_park) _ _ _ h

private theorem startsNone_expire : expire.StartsNone := by
  rintro v o w ⟨ending, u, hu, h⟩ _ rfl
  split at h <;> obtain ⟨-, rfl⟩ := h
  · exact hu.requests
  · refine Eq.trans ?_ hu.requests
    obtain ⟨stream, hf | ⟨kind, hf⟩⟩ := u.link.flushed_cases <;>
    · rw [link_put, hf]
      rfl

private theorem startsNone_resume (timedOut : Bool) : (resume timedOut).StartsNone := by
  refine startsNone_transition (by decide) ?_
  rintro v o w h _ rfl
  unfold Plan.write at h
  split at h
  · exact startsNone_expire _ _ _ h _ rfl
  · split at h
    · obtain ⟨-, rfl⟩ := h
      rfl
    · exact startsNone_hook _ _ (fun _ => startsNone_flush (startsNone_yield _)) _ _ _ h _ rfl

private theorem startsNone_upgrade : upgrade.StartsNone := by
  refine startsNone_transition (by decide) ?_
  rintro v o w ⟨t, -, rfl⟩ _ rfl
  rfl

end Plan

/-! ## The steps -/

/-- A dispatch of a two-way stream starts no request. -/
private theorem service_requests (hv : Ready .service v) (h : Plan.service v o w) :
    w.link.requests = v.link.requests := by
  obtain ⟨hm, -, -⟩ := hv.expects
  have h := transition_enters (m := .duplexActive) (by rw [hm]; rfl) h
  refine Plan.startsNone_hook _ _ (fun _ => Plan.startsNone_flush ?_) _ _ _ h _
    (Connection.Machine.requests_enter_of_ne _ (by decide))
  rintro v o w (⟨-, h⟩ | ⟨-, -, -, rfl⟩ | ⟨-, -, h⟩) _ rfl
  · exact Plan.startsNone_close _ _ _ _ h _ rfl
  · rfl
  · refine Plan.startsNone_transition (by decide) ?_ _ _ _ h _ rfl
    rintro v o w ⟨t, -, rfl⟩ _ rfl
    rfl

private theorem dispatch_requests (hv : Ready .dispatch v) (h : Plan.dispatch v o w) :
    w.link.requests = min (v.link.requests + 1) Connection.Machine.maxRequests := by
  obtain ⟨hm, -, -⟩ := hv.expects
  have hne : v.link.machine.state ≠ .active := by
    rcases hm with hm | hm <;>
    · rw [hm]
      decide
  have h := transition_enters (m := .active) (by rcases hm with hm | hm <;> rw [hm] <;> rfl) h
  exact Plan.startsNone_hook _ _
    (fun _ => Plan.startsNone_flush (Plan.startsNone_yield _)) _ _ _ h _
    (Connection.Machine.requests_enter_active hne)

/-- **A request starts in the step that calls its hook, and in no other.** -/
theorem Ready.requests {step : Step} (hv : Ready step v) (h : plan step v o w) :
    w.link.requests = if step = .dispatch then
      min (v.link.requests + 1) Connection.Machine.maxRequests else v.link.requests := by
  cases step with
  | accept => exact Plan.startsNone_accept _ _ _ h _ rfl
  | resumeParked => exact Plan.startsNone_resumeParked _ _ _ h _ rfl
  | dispatch => exact dispatch_requests hv h
  | after keep => exact Plan.startsNone_after keep _ _ _ h _ rfl
  | rest killed => exact Plan.startsNone_rest killed _ _ _ h _ rfl
  | await => exact Plan.startsNone_await _ _ _ h _ rfl
  | block => exact Plan.startsNone_wait _ _ _ _ _ _ h _ rfl
  | suspend => exact Plan.startsNone_suspend _ _ _ h _ rfl
  | resume timedOut => exact Plan.startsNone_resume timedOut _ _ _ h _ rfl
  | upgrade => exact Plan.startsNone_upgrade _ _ _ h _ rfl
  | listen deadline => exact Plan.startsNone_wait _ _ _ _ _ _ h _ rfl
  | service => exact service_requests hv h

end Stand

end LinkEngine

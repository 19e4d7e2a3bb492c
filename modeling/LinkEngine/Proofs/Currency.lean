import LinkEngine.Proofs.Flow
import LinkEngine.Proofs.Hooks
import LinkEngine.Proofs.Wakes

/-!
# Which suspended request is current

A handle belongs to one suspended request of its link, and tells whether that one is
current. A link begins a suspended request only when it took up the one before, so at most
the latest is under way (`Link.Renewed`). The number of the latest is all that a handle
looks at: its answer is right until the request is taken up, and from then on it is wrong
until the next is begun or the link closes (`isCurrent_iff`).
-/

namespace LinkEngine

open Connection (CloseReason State)
open Link (Note Outcome Step Upgrades)

namespace Link

variable {k k' : Link} {g : Nat}

/-- Suspended request `g` is under way: it was begun, the handler neither took it up nor was
told of its deadline, and the link is open. -/
structure UnderWay (k : Link) (g : Nat) : Prop where
  closed : k.closed = false
  begun : .cycle g ∈ k.history
  resumes : k.resumes g = 0
  timeouts : k.timeouts g = 0

/-- Suspended request `g` is over, but the link is open and has begun no other since. -/
structure Outlived (k : Link) (g : Nat) : Prop where
  closed : k.closed = false
  past : 1 ≤ k.resumes g ∨ 1 ≤ k.timeouts g
  last : ∀ g', .cycle g' ∈ k.history → g' ≤ g

/-- The latest suspended request still has to be taken up: it is about to be parked, or the
lifecycle says that it is suspended. -/
def Outstanding (k : Link) : Prop :=
  k.request = .asyncStart ∨ k.request = .asyncWake ∨ k.machine.state = .cometSuspend

/-- All suspended requests were taken up, but for the latest while that one is outstanding. -/
structure Renewed (k : Link) : Prop where
  earlier (g : Nat) : 0 < g → g < k.cometGeneration → 1 ≤ k.resumes g
  latest : 0 < k.cometGeneration → k.Outstanding ∨ 1 ≤ k.resumes k.cometGeneration

/-- The suspended requests that were begun are those up to the latest. -/
theorem Numbered.begun_iff (h : k.Numbered) :
    .cycle g ∈ k.history ↔ 0 < g ∧ g ≤ k.cometGeneration := by
  have hmem : .cycle g ∈ k.history ↔ g ∈ k.history.filterMap Note.cycle? := by
    rw [List.mem_filterMap]
    constructor
    · exact fun hmem => ⟨_, hmem, rfl⟩
    · rintro ⟨n, hmem, hn⟩
      cases n <;> cases hn
      exact hmem
  rw [hmem, h, List.mem_range'_1]
  omega

/-- What was taken up stays so. -/
theorem resumes_mono (h : k.history <+: k'.history) (g : Nat) : k.resumes g ≤ k'.resumes g := by
  obtain ⟨more, h⟩ := h
  unfold resumes during
  rw [← h, episode_append]
  exact (List.prefix_append _ _).sublist.count_le _

theorem renewed_of_zero (h : k.cometGeneration = 0) : k.Renewed := by
  refine ⟨fun g _ hg => ?_, fun hg => ?_⟩ <;> rw [h] at hg <;> exact absurd hg (Nat.not_lt_zero _)

/-- The history may grow while no request is begun, as long as what waits goes on to. -/
theorem Renewed.grown (h : k.Renewed) (hh : k.history <+: k'.history)
    (hg : k'.cometGeneration = k.cometGeneration) (hw : k.Outstanding → k'.Outstanding) :
    k'.Renewed := by
  refine ⟨fun g hpos hlt => ?_, fun hpos => ?_⟩
  · exact Nat.le_trans (h.earlier g hpos (hg ▸ hlt)) (resumes_mono hh g)
  · rw [hg]
    exact (h.latest (hg ▸ hpos)).imp hw fun hone => Nat.le_trans hone (resumes_mono hh _)

/-- The latest request is taken up, wherever that leaves the link. -/
theorem Renewed.resume (h : k.Renewed) (hk : k.Numbered)
    (hh : k'.history = (k.note (.began .resume)).history)
    (hg : k'.cometGeneration = k.cometGeneration) : k'.Renewed := by
  have hprefix : k.history <+: k'.history := hh ▸ List.prefix_append _ _
  refine ⟨fun g hpos hlt => ?_, fun _ => .inr ?_⟩
  · exact Nat.le_trans (h.earlier g hpos (hg ▸ hlt)) (resumes_mono hprefix g)
  · obtain ⟨-, hresumes, -⟩ := (Logged.began_resume hk).latest
    have hsame : k'.resumes k'.cometGeneration =
        (k.note (.began .resume)).resumes k.cometGeneration := by
      unfold resumes during
      rw [hh, hg]
    rw [hsame]
    exact hresumes ▸ Nat.le_add_left 1 (k.resumes k.cometGeneration)

/-- The next request is begun when the latest does not wait. -/
theorem Renewed.begin {l : Nat} {upgrades : Upgrades} {timeout : Option Time.Duration}
    {handle : Engine.Handle} (h : k.Renewed) (hm : k.machine.state ≠ .cometSuspend)
    (hstart : Engine.startComet l k upgrades timeout = .ok (handle, k')) : k'.Renewed := by
  unfold Engine.startComet at hstart
  split at hstart
  · cases hstart
  split at hstart
  · cases hstart
  next r hr =>
  obtain ⟨rfl, hrequest⟩ : r = .asyncStart ∧ k.request = .request := by
    unfold Connection.Request.beginAsync Connection.Request.move at hr
    split at hr <;> cases hr
    exact ⟨rfl, ‹_›⟩
  have hidle : ¬ k.Outstanding := by
    rintro (hwaits | hwaits | hwaits)
    · exact nomatch hrequest.symm.trans hwaits
    · exact nomatch hrequest.symm.trans hwaits
    · exact hm hwaits
  cases hstart
  refine ⟨fun g hpos hlt => ?_, fun _ => .inl (.inl rfl)⟩
  have hone : 1 ≤ k.resumes g := by
    rcases Nat.lt_or_eq_of_le (Nat.le_of_lt_succ hlt) with hlt | rfl
    · exact h.earlier g hpos hlt
    · exact (h.latest hpos).resolve_left hidle
  exact Nat.le_trans hone (resumes_mono (List.prefix_append _ _) g)

/-! ## What others do -/

private theorem cometGeneration_touched (h : k.Touched k') :
    k'.cometGeneration = k.cometGeneration := by
  cases h with
  | asked =>
    unfold interrupt
    split <;> rfl
  | _ => rfl

private theorem cometGeneration_handed (h : k.Handed k') :
    k'.cometGeneration = k.cometGeneration := by
  cases h <;> rfl

/-- While a link is open, no request is kept from waiting by others. -/
private theorem Outstanding.touched (h : k.Touched k') (hc : k.closed = false)
    (hk : k.Outstanding) : k'.Outstanding := by
  cases h with
  | asked _ _ reason =>
    have hwake : { k.ask reason with request := k.request.wake.2 }.Outstanding := by
      rcases hk with hr | hr | hm
      · exact .inr (.inl (congrArg (·.wake.2) hr))
      · exact .inr (.inl (congrArg (·.wake.2) hr))
      · exact .inr (.inr hm)
    unfold interrupt
    split <;> exact hwake
  | deferred | late => exact .inr (.inl rfl)
  | vain hc' => exact nomatch hc.symm.trans hc'
  | _ => exact hk

/-- What is parked waits because its lifecycle says so, and that nobody changes who takes
it over. -/
private theorem Outstanding.handed (h : k.Handed k') (hk : k.Outstanding) : k'.Outstanding := by
  have hm : k'.machine = k.machine := by
    cases h <;> rfl
  have hp := h.isParked
  rcases hk with hr | hr | hm'
  · rw [hr] at hp
    cases hp
  · rw [hr] at hp
    cases hp
  · exact .inr (.inr (hm ▸ hm'))

end Link

namespace Stand

variable {v w u : Stand} {o : Outcome} {step : Step}

/-- Others begin no suspended request. -/
theorem Course.cometGeneration (h : Course v w) :
    w.link.cometGeneration = v.link.cometGeneration := by
  refine h.induction (P := fun k => k.cometGeneration = v.link.cometGeneration)
    (fun h hk => (Link.cometGeneration_touched h).trans hk)
    (fun h hk => (Link.cometGeneration_handed h).trans hk) ?_ (fun _ hk => hk) rfl
  intro k reason k' h hk
  refine Eq.trans ?_ hk
  have hseized : k'.cometGeneration = k.cometGeneration := by
    cases h <;> rfl
  refine Eq.trans ?_ hseized
  unfold Link.marked Link.shut Link.disarmed
  cases k'.deadline <;> rfl

/-- **Others leave the suspended requests of a link that stays open as they were.** -/
theorem Course.renewed (h : Course v w) (hv : v.link.Renewed) (hc : w.link.closed = false) :
    w.link.Renewed := by
  refine h.induction (P := fun k => k.closed = false → k.Renewed) ?_ ?_ ?_ ?_ (fun _ => hv) hc
  · intro k k' h hk hc
    have hc' := h.closed.symm.trans hc
    exact (hk hc').grown h.grown.history (Link.cometGeneration_touched h) (.touched h hc')
  · intro k k' h hk hc
    exact (hk (h.closed.symm.trans hc)).grown h.grown.history (Link.cometGeneration_handed h)
      (.handed h)
  · intro k reason k' _ _ hc
    exact nomatch (Link.closed_marked k' reason).symm.trans hc
  · intro k hc _ hc'
    exact nomatch hc.symm.trans hc'

/-! ## What its task does -/

/-- A link whose task serves it, or waits for input, has no suspended request that waits. -/
private theorem not_outstanding {k : Link} (hr : k.request = .request)
    (hm : k.machine.state ≠ .cometSuspend) : ¬ k.Outstanding := by
  rintro (hwaits | hwaits | hwaits)
  · exact nomatch hr.symm.trans hwaits
  · exact nomatch hr.symm.trans hwaits
  · exact hm hwaits

/-- What is written to a link aside from its history and its requests. -/
private theorem renewed_of_same {k k' : Link} (h : k.Renewed) (hh : k'.history = k.history)
    (hg : k'.cometGeneration = k.cometGeneration) (hw : k.Outstanding → k'.Outstanding) :
    k'.Renewed :=
  h.grown (hh ▸ List.prefix_rfl) hg hw

section Hooks

variable {upgrades : Upgrades} {m : State}

theorem Served.renewed (h : Served upgrades v w) (hs : Serving upgrades m v)
    (hm : m ≠ .cometSuspend) (hv : v.link.Renewed) : w.link.Renewed := by
  induction h with
  | refl => exact hv
  | course h _ ih =>
    have hserving := hs.course h
    exact ih hserving (h.renewed hv hserving.closed)
  | acted h _ ih =>
    refine ih (hs.acted h) ?_
    cases h with
    | stream | kill | twoWay => exact renewed_of_same hv rfl rfl id
    | comet hk => exact hv.begin (hs.machine.trans_ne hm) hk
    | duplex hk =>
      unfold Engine.startDuplex at hk
      split at hk <;> cases hk
      exact renewed_of_same hv rfl rfl id

/-- A hook that returned goes on with a link that is renewed. -/
private theorem hook_renewed {hook : Hook} {go : Bool → Plan} (h : Plan.hook hook upgrades go v o w)
    (hs : Serving upgrades m v) (hm : m ≠ .cometSuspend)
    (hv : (v.link.note (.began hook)).Renewed) (ho : o.isEnd = false) :
    ∃ keep u, Serving upgrades m u ∧ u.link.Renewed ∧ go keep u o w := by
  obtain ⟨ending, u, hu, h⟩ := h
  have hserving := hs.hooked hu
  obtain ⟨x, hx, rfl⟩ := hu
  have hrenewed : x.link.Renewed :=
    hx.renewed ⟨hs.closed, hs.queue, hs.machine, hs.asked⟩ hm hv
  cases ending with
  | returned keep =>
    exact ⟨keep, _, hserving, hrenewed.grown (List.prefix_append _ _) rfl id, h⟩
  | failed f =>
    obtain ⟨rfl, -⟩ := h
    cases ho
  | panicked =>
    obtain ⟨rfl, -⟩ := h
    cases ho

/-- A flush that did not fail leaves it so. -/
private theorem flush_renewed {go : Plan} (h : Plan.flush go v o w) (hs : Serving upgrades m v)
    (hv : v.link.Renewed) (ho : o.isEnd = false) :
    ∃ u, Serving upgrades m u ∧ u.link.Renewed ∧ go u o w := by
  obtain ⟨stream, ⟨kind, rfl, -⟩ | h⟩ := Plan.flush_cases h
  · cases ho
  · exact ⟨v.put { v.link with stream }, ⟨hs.closed, hs.queue, hs.machine, hs.asked⟩,
      renewed_of_same hv rfl rfl id, h⟩

end Hooks

private theorem accept_renewed (hv : Ready .accept v) (hk : v.link.Renewed)
    (h : Plan.accept v o w) (ho : o.isEnd = false) : w.link.Renewed := by
  obtain ⟨hm, hr, hp⟩ := hv.expects
  obtain ⟨machine, hm', stream, -, h⟩ := transition_moves (m := .accepting) (by rw [hm]; rfl) h
  have hmoved : { v.link with machine, stream }.Renewed :=
    renewed_of_same hk rfl rfl fun hw => absurd hw (not_outstanding hr (hm.trans_ne nofun))
  rcases h with ⟨kind, rfl, -⟩ | h
  · cases ho
  · obtain ⟨keep, u, -, hrenewed, -, rfl⟩ := hook_renewed h
      (serving_of hv.closed hv.queue hr hp) (hm'.trans_ne nofun)
      (hmoved.grown (List.prefix_append _ _) rfl id) ho
    exact hrenewed

private theorem dispatch_renewed (hv : Ready .dispatch v) (hk : v.link.Renewed)
    (h : Plan.dispatch v o w) (ho : o.isEnd = false) : w.link.Renewed := by
  obtain ⟨hm, hr, hp⟩ := hv.expects
  obtain ⟨machine, hm', h⟩ := transition_moves (m := .active)
    (by rcases hm with hm | hm <;> rw [hm] <;> rfl) h
  have hidle : ¬ v.link.Outstanding := by
    refine not_outstanding hr ?_
    rcases hm with hm | hm <;> exact hm.trans_ne nofun
  have hmoved : { v.link with machine, pending := .none }.Renewed :=
    renewed_of_same hk rfl rfl fun hw => absurd hw hidle
  obtain ⟨keep, u, hu, hrenewed, h⟩ := hook_renewed h (serving_of hv.closed hv.queue hr rfl)
    (hm'.trans_ne nofun) (hmoved.grown (List.prefix_append _ _) rfl id) ho
  obtain ⟨x, -, hrenewed, -, rfl⟩ := flush_renewed h hu hrenewed ho
  exact hrenewed

private theorem after_renewed {keep : Bool} (hk : v.link.Renewed) (h : Plan.after keep v o w) :
    w.link.Renewed := by
  unfold Plan.after at h
  split at h
  · obtain ⟨-, rfl⟩ := h
    exact renewed_of_same hk rfl rfl id
  · obtain ⟨-, rfl⟩ := h
    exact renewed_of_same hk rfl rfl id
  · obtain ⟨-, rfl⟩ := h
    exact hk

private theorem rest_renewed {killed : Bool} (hv : Ready (.rest killed) v) (hk : v.link.Renewed)
    (h : Plan.rest killed v o w) (ho : o.isEnd = false) : w.link.Renewed := by
  obtain ⟨hm, hr, -⟩ := hv.expects
  have hidle : ¬ v.link.Outstanding := by
    refine not_outstanding hr ?_
    rcases hm with hm | hm <;> exact hm.trans_ne nofun
  obtain ⟨m, hfinish, -⟩ := finish_served hm killed
  unfold Plan.rest Plan.write at h
  simp only [link_put, hfinish] at h
  split at h
  · obtain ⟨reason, -, rfl, -⟩ := h
    cases ho
  · obtain ⟨t, -, rfl⟩ := h
    exact renewed_of_same hk rfl rfl fun hw => absurd hw hidle

/-- Taking back a deadline leaves the suspended requests as they were. -/
private theorem renewed_disarmed {k : Link} (h : k.Renewed) : k.disarmed.Renewed := by
  unfold Link.disarmed
  split
  · exact h
  · exact renewed_of_same h rfl rfl id

private theorem wait_renewed {ready idle : Step} {late : CloseReason} (hk : v.link.Renewed)
    (h : Plan.wait ready idle late v o w) (ho : o.isEnd = false) (hc : w.link.closed = false) :
    w.link.Renewed := by
  rcases h with ⟨reason, -, rfl, -⟩ | ⟨-, ⟨rfl, -⟩ | ⟨u, hu, h⟩⟩
  · cases ho
  · cases ho
  have hcourse : u.link.closed = false → u.link.Renewed :=
    Course.renewed (v := v.put { v.link with stream := v.link.stream.wait.2 }) hu
      (renewed_of_same hk rfl rfl id)
  rcases h with ⟨kind, rfl, -⟩ | ⟨-, rfl⟩ | ⟨-, rfl⟩ | ⟨reason, -, rfl, -⟩
  · cases ho
  · exact hcourse hc
  · exact hcourse hc
  · cases ho

private theorem declined_renewed (hk : v.link.Renewed) (h : Plan.declined v o w) :
    w.link.Renewed := by
  unfold Plan.declined at h
  split at h
  · next r hr =>
    obtain ⟨hq, rfl⟩ := Connection.Request.wakeKeepalive_eq_resume hr
    obtain ⟨-, rfl⟩ := h
    refine renewed_disarmed (renewed_of_same hk rfl rfl ?_)
    rintro (hwaits | hwaits | hwaits)
    · exact nomatch hq.symm.trans hwaits
    · exact nomatch hq.symm.trans hwaits
    · exact .inr (.inr hwaits)
  · obtain ⟨-, rfl⟩ := h
    exact hk

private theorem await_renewed (hv : Ready .await v) (hk : v.link.Renewed)
    (h : Plan.await v o w) (ho : o.isEnd = false) (hc : w.link.closed = false) :
    w.link.Renewed := by
  obtain ⟨hm, hr, -⟩ := hv.expects
  have hidle : ¬ v.link.Outstanding := not_outstanding hr (hm.trans_ne nofun)
  rcases h with ⟨kind, rfl, -⟩ | ⟨-, rfl⟩ | ⟨_, -, rfl, -⟩ | ⟨rfl, -⟩ | ⟨-, rfl⟩ | h
  · cases ho
  · exact renewed_of_same hk rfl rfl id
  · cases ho
  · cases ho
  · exact renewed_of_same hk rfl rfl id
  split at h
  · obtain ⟨rfl, -⟩ := h
    cases ho
  rcases h with ⟨rfl, -⟩ | ⟨t, u, hu, h⟩
  · cases ho
  have hcourse : u.link.closed = false → u.link.Renewed := hu.renewed <|
    renewed_of_same hk rfl rfl fun hw => absurd hw hidle
  rcases h with ⟨rfl, -⟩ | ⟨-, rfl⟩ | h
  · cases ho
  · exact hcourse hc
  · -- Who takes the wait back does not close the link.
    refine declined_renewed (hcourse ?_) h
    unfold Plan.declined at h
    split at h
    · next r _ =>
      obtain ⟨-, rfl⟩ := h
      exact (disarmed_same { u.link with request := r }).1.symm.trans hc
    · obtain ⟨-, rfl⟩ := h
      exact hc

private theorem suspend_renewed (hv : Ready .suspend v) (hk : v.link.Renewed)
    (h : Plan.suspend v o w) (ho : o.isEnd = false) (hw : v.link.history <+: w.link.history) :
    w.link.Renewed := by
  have hm := suspend_moves hv h ho
  have hg : w.link.cometGeneration = v.link.cometGeneration := by
    unfold Plan.suspend at h
    split at h
    · obtain ⟨rfl, -⟩ := h
      cases ho
    rcases transition_cases h with ⟨ho', -⟩ | ⟨machine, h⟩
    · exact nomatch ho.symm.trans ho'
    rcases h with ⟨rfl, -⟩ | ⟨t, h⟩
    · cases ho
    unfold Plan.park at h
    split at h
    · obtain ⟨rfl, -⟩ := h
      cases ho
    · obtain ⟨-, rfl⟩ := h
      rfl
    · obtain ⟨-, rfl⟩ := h
      unfold Link.disarmed
      rfl
  exact hk.grown hw hg fun _ => .inr (.inr hm)

private theorem resume_renewed {timedOut : Bool} (hv : Ready (.resume timedOut) v)
    (hk : v.link.Renewed) (hn : v.link.Numbered) (h : Plan.resume timedOut v o w)
    (ho : o.isEnd = false) : w.link.Renewed := by
  obtain ⟨hm, hr, hp⟩ := hv.expects
  obtain ⟨machine, hm', h⟩ := transition_moves (m := .cometActive) (by rw [hm]; rfl) h
  unfold Plan.write at h
  -- A request that is late ends here, and so does a link that is to close.
  split at h
  · obtain ⟨ending, u, -, h⟩ := h
    split at h <;> obtain ⟨rfl, -⟩ := h <;> cases ho
  split at h
  · obtain ⟨rfl, -⟩ := h
    cases ho
  obtain ⟨keep, u, hu, hrenewed, h⟩ := hook_renewed h (serving_of hv.closed hv.queue hr hp)
    (hm'.trans_ne nofun) (hk.resume hn rfl rfl) ho
  obtain ⟨x, -, hrenewed, -, rfl⟩ := flush_renewed h hu hrenewed ho
  exact hrenewed

private theorem upgrade_renewed (hv : Ready .upgrade v) (hk : v.link.Renewed)
    (h : Plan.upgrade v o w) : w.link.Renewed := by
  obtain ⟨hm, hr, -⟩ := hv.expects
  obtain ⟨machine, -, t, -, rfl⟩ := transition_moves (m := .duplex) (by rw [hm]; rfl) h
  exact renewed_of_same hk rfl rfl fun hw => absurd hw (not_outstanding hr (hm.trans_ne nofun))

private theorem service_renewed (hv : Ready .service v) (hk : v.link.Renewed)
    (h : Plan.service v o w) (ho : o.isEnd = false) : w.link.Renewed := by
  obtain ⟨hm, hr, hp⟩ := hv.expects
  obtain ⟨machine, hm', h⟩ := transition_moves (m := .duplexActive) (by rw [hm]; rfl) h
  have hmoved : { v.link with machine }.Renewed :=
    renewed_of_same hk rfl rfl fun hw => absurd hw (not_outstanding hr (hm.trans_ne nofun))
  obtain ⟨keep, u, hu, hrenewed, h⟩ := hook_renewed h (serving_of hv.closed hv.queue hr hp)
    (hm'.trans_ne nofun) (hmoved.grown (List.prefix_append _ _) rfl id) ho
  obtain ⟨x, hx, hrenewed, h⟩ := flush_renewed h hu hrenewed ho
  have hne : x.link.machine.state ≠ .cometSuspend := hx.machine.trans_ne (hm'.trans_ne nofun)
  rcases h with ⟨-, reason, -, rfl, -⟩ | ⟨-, -, rfl, -⟩ | ⟨-, -, h⟩
  · cases ho
  · cases ho
  · rcases transition_cases h with ⟨ho', -⟩ | ⟨machine', t, -, rfl⟩
    · exact nomatch ho.symm.trans ho'
    · exact renewed_of_same hrenewed rfl rfl fun hw =>
        absurd hw (not_outstanding hx.asked.refused.1 hne)

/-- **Each step that leaves its link open begins a suspended request only after the one
before was taken up.** -/
theorem Ready.renewed (hv : Ready step v) (hk : v.link.Renewed) (hn : v.link.Numbered)
    (h : plan step v o w) (hw : v.link.history <+: w.link.history) (ho : o.isEnd = false)
    (hc : w.link.closed = false) : w.link.Renewed := by
  cases step with
  | accept => exact accept_renewed hv hk h ho
  | resumeParked =>
    obtain ⟨rfl, -⟩ := h
    exact renewed_disarmed hk
  | dispatch => exact dispatch_renewed hv hk h ho
  | after keep => exact after_renewed hk h
  | rest killed => exact rest_renewed hv hk h ho
  | await => exact await_renewed hv hk h ho hc
  | block => exact wait_renewed hk h ho hc
  | suspend => exact suspend_renewed hv hk h ho hw
  | resume timedOut => exact resume_renewed hv hk hn h ho
  | upgrade => exact upgrade_renewed hv hk h
  | listen deadline => exact wait_renewed hk h ho hc
  | service => exact service_renewed hv hk h ho

/-- **A turn that leaves a link open leaves its suspended requests as they should be.** -/
theorem Turn.renewed (h : Turn v w) (hv : Standing v) (hn : v.link.Numbered)
    (hk : v.link.closed = false → v.link.Renewed) (hc : w.link.closed = false) :
    w.link.Renewed := by
  cases h with
  | course h => exact h.renewed (hk (h.open hc)) hc
  | begin _ _ hc' => exact renewed_of_same (hk hc') rfl rfl id
  | idle => exact hk hc
  | doomed _ _ _ _ h => exact nomatch h.closed.symm.trans hc
  | @step _ x _ _ _ hs h hw hconcluded =>
    have hready := (standing_some hs).1 hv
    have hkept : ∀ {o}, o.isEnd = false → plan _ v o x → x.link.closed = false → x.link.Renewed :=
      fun ho h hc => hready.renewed (hk hready.closed) hn h hw.grown.history ho hc
    cases hconcluded with
    | next step => exact renewed_of_same (hkept rfl h hc) rfl rfl id
    | park => exact renewed_of_same (hkept rfl h hc) rfl rfl id
    | close htorn => exact nomatch htorn.closed.symm.trans hc
    | fail _ _ _ _ htorn => exact nomatch htorn.closed.symm.trans hc
    | panic htorn => exact nomatch htorn.closed.symm.trans hc

/-- A link that just started has no suspended requests. -/
theorem Started.renewed {i : Nat} {arrival : Engine.Arrival} (h : Started i arrival v)
    (hc : v.link.closed = false) : v.link.Renewed := by
  cases h with
  | queued _ _ h => exact Link.renewed_of_zero h.cometGeneration
  | refused _ _ _ ht => exact nomatch ht.closed.symm.trans hc

end Stand

namespace Engine

variable {l g : Nat} {k : Link} {v : Stand}

variable (settings : Settings.Scheduler) (now : Nat)

/-- The suspended requests of an open link were begun one after the other was taken up. -/
theorem renewed (moves : List Move) (hv : (after settings now moves).stand? l = some v)
    (hc : v.link.closed = false) : v.link.Renewed :=
  (after_stand settings now
    (P := fun v => (v.Standing ∧ v.link.Cycles) ∧ (v.link.closed = false → v.link.Renewed))
    (fun _ _ _ h => ⟨⟨h.standing, h.cycles⟩, h.renewed⟩)
    (fun _ _ hv h => ⟨⟨hv.1.1.turn h, h.cycles hv.1.1 hv.1.2⟩,
      h.renewed hv.1.1 hv.1.2.numbered hv.2⟩) moves l v hv).2 hc

/-- **What a handle tells of its suspended request**, at every moment of every run: it says
that the request is current while that is under way, and goes on to say so when the request
is over, until the next is begun or the link closes. Otherwise it says that it is not. -/
theorem isCurrent_iff (moves : List Move) (hk : (after settings now moves).link? l = some k)
    (hg : .cycle g ∈ k.history) :
    (after settings now moves).isCurrent { link := l, generation := g } = true ↔
      k.UnderWay g ∨ k.Outlived g := by
  have hv := stand?_of_link? hk
  have hnumbered : k.Numbered := (standing_cycles settings now moves hv).2.numbered
  have hcurrent : (after settings now moves).isCurrent { link := l, generation := g } = true ↔
      k.closed = false ∧ k.cometGeneration = g := by
    unfold isCurrent
    simp only [hk, Bool.and_eq_true, Bool.not_eq_true', beq_iff_eq]
  obtain ⟨hpos, hle⟩ := hnumbered.begun_iff.1 hg
  rw [hcurrent]
  constructor
  · rintro ⟨hc, rfl⟩
    rcases Nat.eq_zero_or_pos (k.resumes k.cometGeneration) with hr | hr
    · rcases Nat.eq_zero_or_pos (k.timeouts k.cometGeneration) with ht | ht
      · exact .inl ⟨hc, hg, hr, ht⟩
      · exact .inr ⟨hc, .inr ht, fun g' h => (hnumbered.begun_iff.1 h).2⟩
    · exact .inr ⟨hc, .inl hr, fun g' h => (hnumbered.begun_iff.1 h).2⟩
  · rintro (⟨hc, -, hr, -⟩ | ⟨hc, -, hlast⟩)
    · refine ⟨hc, ?_⟩
      -- Were it not the latest, it would have been taken up.
      rcases Nat.lt_or_eq_of_le hle with hlt | heq
      · have hone := (renewed settings now moves hv hc).earlier g hpos hlt
        rw [hr] at hone
        exact absurd hone (Nat.not_succ_le_zero 0)
      · exact heq.symm
    · exact ⟨hc, Nat.le_antisymm
        (hlast _ (hnumbered.begun_iff.2 ⟨Nat.lt_of_lt_of_le hpos hle, Nat.le_refl _⟩)) hle⟩

/-- One connection whose first request is suspended, woken and taken up again, after which
the link rests; its multiplexer takes what it is handed. -/
def resumed : List Move :=
  [.build {} (some (.scripted [])),
    .accept 0
      { socket := {}
        handler :=
          { requests := [[⟨"comet", .comet none none, false⟩]]
            resumes := [[⟨"return", .return true, false⟩]] } },
    .begin 0] ++ List.replicate 4 (.advance 0) ++ [.wake ⟨0, 1⟩, .begin 0] ++
      List.replicate 5 (.advance 0)

/-- While the request is suspended, its handle is current because it is under way. -/
theorem isCurrent_iff_suspended :
    ∃ k, (after {} 0 (resumed.take 7)).link? 0 = some k ∧ .cycle 1 ∈ k.history ∧
      (after {} 0 (resumed.take 7)).isCurrent ⟨0, 1⟩ = true ∧
      (k.UnderWay 1 ∨ k.Outlived 1) := by
  have hrun : ((after {} 0 (resumed.take 7)).link? 0).map (·.history.contains (.cycle 1)) =
      some true := by decide
  obtain ⟨k, hk, hg⟩ := Option.map_eq_some_iff.1 hrun
  have hcurrent : (after {} 0 (resumed.take 7)).isCurrent ⟨0, 1⟩ = true := by decide
  have hg : .cycle 1 ∈ k.history := by simpa using hg
  exact ⟨k, hk, hg, hcurrent, (isCurrent_iff {} 0 _ hk hg).1 hcurrent⟩

/-- **A handle outlives its request**: the handler took it up, the link rests and nobody
drives it, and the handle still says that the request is current. -/
theorem current_after_resume :
    ((after {} 0 resumed).link? 0).map (fun k =>
        (k.closed, k.resumes 1, k.isDriven, k.machine.state, k.request)) =
      some (false, 1, false, .keepalive, .keepalive) ∧
    (after {} 0 resumed).isCurrent ⟨0, 1⟩ = true :=
  ⟨by decide, by decide⟩

end Engine

end LinkEngine

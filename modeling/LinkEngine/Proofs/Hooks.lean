import LinkEngine.Proofs.Calls
import LinkEngine.Proofs.Ownership

/-!
# Which hook a link heads for

Of all steps of a task only four call a hook, each its own (`Step.hook?`), and what they
come to when the hook returned says which hook may be next (`Leads`). The other steps, and
whatever others do to the link, leave it heading for the hook it headed for
(`Ready.awaited`, `Course.abides`). What it heads for after a request depends on what the
request asked for, so that step is told apart.
-/

namespace LinkEngine

open Connection (CloseReason State)
open Link (Ending Note Outcome Pending Step Upgrades)

namespace Link

/-- The hook that a step calls. -/
def Step.hook? : Step → Option Hook
  | .accept => some .start
  | .dispatch => some .request
  | .resume timedOut => some (if timedOut then .suspendTimeout else .resume)
  | .service => some .service
  | _ => none

/-- The hook that a link heads for while no task drives it: that depends on where in its
lifecycle it was left. -/
def awaitedIn : State → Option Hook
  | .init => some .start
  | .keepalive => some .request
  | .cometSuspend => some .resume
  | _ => none

/-- The hook that a link heads for. A request that is over heads for none yet. -/
def awaited (k : Link) : Option Hook :=
  match k.step with
  | none | some .resumeParked => awaitedIn k.machine.state
  | some .accept => some .start
  | some .dispatch | some (.rest false) | some .await | some .block => some .request
  | some .suspend | some (.resume _) => some .resume
  | some .upgrade | some (.listen _) | some .service => some .service
  | some (.after _) | some (.rest true) => none

/-- What a call of a hook came to by its ending and what was noted after it: the hook failed,
or it returned and what it wrote could not be flushed. -/
inductive Failed : Ending → List Note → Failure → Prop where
  | hook (f : Failure) (more : List Note) : Failed (.failed f) more f
  | flush (keep : Bool) (kind : IoKind) (more : List Note) :
      Failed (.returned keep) (.unflushed kind :: more) (.ofKind kind)

/-- The step that a task goes on with. -/
def Outcome.step? : Outcome → Option Step
  | .next step => some step
  | _ => none

end Link

namespace Stand

variable {v w u : Stand} {o : Outcome} {step : Step}

/-! ## Others -/

/-- The link is where it was: its task, the state of its lifecycle and the upgrade that was
asked for. -/
def Abides (k k' : Link) : Prop :=
  k'.step = k.step ∧ k'.machine.state = k.machine.state ∧ k'.pending = k.pending

/-- **Others leave an open link where it is.** -/
theorem Course.abides (h : Course v w) (hc : w.link.closed = false) : Abides v.link w.link := by
  refine h.induction (P := fun k => k.closed = false → Abides v.link k) ?_ ?_ ?_ ?_
    (fun _ => ⟨rfl, rfl, rfl⟩) hc
  · intro k k' h hk hc
    obtain ⟨hs, hm, hp⟩ := hk (h.closed.symm.trans hc)
    cases h with
    | asked =>
      unfold Link.interrupt
      split <;> exact ⟨hs, hm, hp⟩
    | _ => exact ⟨hs, hm, hp⟩
  · intro k k' h hk hc
    obtain ⟨hs, hm, hp⟩ := hk (h.closed.symm.trans hc)
    cases h <;> exact ⟨hs, hm, hp⟩
  · intro k reason k' _ _ hc
    exact nomatch (Link.closed_marked k' reason).symm.trans hc
  · intro k hc _ hc'
    exact nomatch hc.symm.trans hc'

/-- No hook of a new link was called. -/
theorem Started.hooks {i : Nat} {arrival : Engine.Arrival} (h : Started i arrival v) :
    v.link.hooks = [] := by
  have hnew : ∀ {handler socket buffers} {notes : List Note}, (∀ n ∈ notes, n.isDeed = true) →
      (Link.new i handler socket buffers notes).hooks = [] := by
    intro handler socket buffers notes hn
    refine List.filterMap_eq_nil_iff.2 ?_
    intro n hmem
    have hdeed := hn n hmem
    cases n <;> first | rfl | cases hdeed
  cases h with
  | queued hs hn h => exact h.silent.hooks.trans (hnew hn)
  | refused hs hn h ht => exact ht.silent.hooks.trans (h.silent.hooks.trans (hnew hn))

/-! ## Steps that call no hook -/

private theorem resumeParked_awaited (h : Plan.resumeParked v (.next step) w) :
    (w.next (some step)).link.awaited = Link.awaitedIn v.link.machine.state := by
  obtain ⟨-, h⟩ := h
  cases hm : v.link.machine.state with
  | keepalive =>
    rw [hm] at h
    dsimp only at h
    split at h <;> cases h
    rfl
  | cometSuspend =>
    rw [hm] at h
    cases h
    rfl
  | _ =>
    rw [hm] at h
    cases h

/-- A request that is suspended waits for being taken up, or is taken up at once. -/
theorem suspend_moves (hv : Ready .suspend v) (h : Plan.suspend v o w) (ho : o.isEnd = false) :
    w.link.machine.state = .cometSuspend := by
  obtain ⟨hm, -, -⟩ := hv.expects
  unfold Plan.suspend at h
  split at h
  · obtain ⟨rfl, -⟩ := h
    cases ho
  obtain ⟨machine, hm', h⟩ := transition_moves (m := .cometSuspend)
    (by rcases hm with hm | hm <;> rw [hm] <;> rfl) h
  rcases h with ⟨rfl, -⟩ | ⟨t, h⟩
  · cases ho
  unfold Plan.park at h
  split at h
  · obtain ⟨rfl, -⟩ := h
    cases ho
  · obtain ⟨-, rfl⟩ := h
    exact hm'
  · obtain ⟨-, rfl⟩ := h
    rw [link_put, (disarmed_same _).2.1]
    exact hm'

/-- A link that rests waits for its next request, unless it was torn down at once. -/
theorem await_parks (hv : Ready .await v) (h : Plan.await v .park w)
    (hc : w.link.closed = false) : w.link.machine.state = .keepalive := by
  obtain ⟨stream, r, t, -, hcourse⟩ := await_park h
  obtain ⟨-, hm, -⟩ := hcourse.abides hc
  exact hm.trans hv.expects.1

/-- **A step that calls no hook goes on to the same one.** -/
theorem Ready.awaited (hv : Ready step v) (hs : v.link.step = some step) (h : plan step v o w)
    (hh : step.hook? = none) (ha : ∀ keep, step ≠ .after keep) (ho : o.isEnd = false)
    (hc : w.link.closed = false) :
    (w.next o.step?).link.awaited = v.link.awaited ∧ ∀ keep, o ≠ .next (.after keep) := by
  have hleads := (plan_leads step v o w h).resolve_left (Bool.eq_false_iff.1 ho)
  have hawaited : v.link.awaited = { v.link with step := some step }.awaited := by
    rw [← hs]
  rw [hawaited]
  cases hleads with
  | started | served | resumed | listenAgain => cases hh
  | upgrade keep | suspend keep | rest keep => exact absurd rfl (ha keep)
  | rests | resumes => exact ⟨resumeParked_awaited h, nofun⟩
  | parks =>
    refine ⟨?_, nofun⟩
    show Link.awaitedIn w.link.machine.state = _
    rw [await_parks hv h hc]
    rfl
  | suspends =>
    refine ⟨?_, nofun⟩
    show Link.awaitedIn w.link.machine.state = _
    rw [suspend_moves hv h rfl]
    rfl
  | _ => exact ⟨rfl, nofun⟩

/-- What follows a request is what it asked for; only a request that is to be kept rests
where it asked for nothing. -/
theorem after_cases {keep : Bool} (h : Plan.after keep v o w) :
    (v.link.pending = .duplex ∧ o = .next .upgrade) ∨
    (∃ c, v.link.pending = .comet c ∧ o = .next .suspend) ∨
    v.link.pending = .none ∧ ∃ killed, (killed = false → keep = true) ∧
      o = .next (.rest killed) := by
  unfold Plan.after at h
  split at h
  next hp => exact .inl ⟨hp, h.1⟩
  next c hp => exact .inr (.inl ⟨c, hp, h.1⟩)
  next hp =>
    obtain ⟨⟨killed, hkilled, rfl⟩, -⟩ := h
    refine .inr (.inr ⟨hp, killed, ?_, rfl⟩)
    intro hk
    cases keep with
    | true => rfl
    | false => exact nomatch (hkilled (.inr rfl)).symm.trans hk

/-! ## Steps that call a hook -/

/-- What comes of a step whose hook returned, where the link does not close; `read` is how
many bytes of its stream had been consumed before. -/
inductive Leads (read : Nat) (w : Stand) : Hook → Bool → Outcome → Prop where
  | started (keep : Bool) : Leads read w .start keep (.next .dispatch)
  | served (keep : Bool) : Leads read w .request keep (.next (.after keep))
  /-- A request that was taken up again cannot become a two-way stream. -/
  | resumed (keep : Bool) (hp : w.link.pending ≠ .duplex) :
      Leads read w .resume keep (.next (.after keep))
  /-- Some bytes were consumed, and the two-way stream was not ended. -/
  | serviced (keep : Bool) (t : Nat) {d : Link.Duplex} (hd : w.link.duplex = some d)
      (hc : d.closed = false) (hb : read < w.link.stream.bytesRead) :
      Leads read w .service keep (.next (.listen t))

/-- A call that failed fails the step, but for that which told of a deadline: there the request
is over anyway. -/
def Reports (hook : Hook) (o : Outcome) (w : Stand) (ending : Ending) (more : List Note) : Prop :=
  ∀ f, Link.Failed ending more f → hook ≠ .suspendTimeout →
    o = .fail f ∧ w.link.request.isParked = false

/-- A hook was called, and no other; the link is open when the step has decided what comes of
that. -/
structure Invoked (hook : Hook) (v : Stand) (o : Outcome) (w : Stand) : Prop where
  closed : w.link.closed = false
  calls : ∃ ending more,
    w.link.calls = v.link.calls ++ .began hook :: .ended hook ending :: more ∧
    more.filterMap Note.began? = [] ∧
    (o.isEnd = true ∨
      ∃ keep, ending = .returned keep ∧ Leads v.link.stream.bytesRead w hook keep o)
  reports : ∀ ending more,
    w.link.calls = v.link.calls ++ .began hook :: .ended hook ending :: more →
      Reports hook o w ending more

/-- What a call came to is what was noted of it. -/
private theorem reports_of {hook : Hook} {ending : Ending} {more : List Note}
    (hcalls : w.link.calls = v.link.calls ++ .began hook :: .ended hook ending :: more)
    (hf : Reports hook o w ending more) (ending' : Ending) (more' : List Note)
    (h : w.link.calls = v.link.calls ++ .began hook :: .ended hook ending' :: more') :
    Reports hook o w ending' more' := by
  rw [hcalls, List.append_cancel_left_eq] at h
  cases h
  exact hf

/-- A hook was called, and the link closes. -/
private theorem invoked_of_end {hook : Hook} {ending : Ending} {more : List Note}
    (hc : w.link.closed = false)
    (hcalls : w.link.calls = v.link.calls ++ .began hook :: .ended hook ending :: more)
    (hmore : more.filterMap Note.began? = []) (ho : o.isEnd = true)
    (hf : Reports hook o w ending more) : Invoked hook v o w :=
  ⟨hc, ⟨ending, more, hcalls, hmore, .inl ho⟩, reports_of hcalls hf⟩

section Hooks

variable {upgrades : Upgrades} {m : State} {hook : Hook} {keep : Bool}

/-- A hook was called and returned; what it asked for, it was allowed to. -/
private structure Returned (hook : Hook) (keep : Bool) (upgrades : Upgrades) (m : State)
    (v w : Stand) : Prop extends Serving upgrades m w where
  calls : w.link.calls = v.link.calls ++ Note.served hook keep

private theorem hook_returned {go : Bool → Plan} (h : Plan.hook hook upgrades go v o w)
    (hv : Serving upgrades m v) (hh : hook ≠ .close) :
    Invoked hook v o w ∨ ∃ keep u, Returned hook keep upgrades m v u ∧ go keep u o w := by
  obtain ⟨ending, u, hu, h⟩ := h
  obtain ⟨hcalls, -⟩ := hv.calls hu hh
  have hs := hv.hooked hu
  cases ending with
  | returned keep => exact .inr ⟨keep, u, ⟨hs, hcalls⟩, h⟩
  | failed f =>
    obtain ⟨rfl, rfl⟩ := h
    refine .inl (invoked_of_end hs.closed hcalls rfl rfl ?_)
    rintro _ ⟨⟩ -
    exact ⟨rfl, hs.asked.isParked⟩
  | panicked =>
    obtain ⟨rfl, rfl⟩ := h
    exact .inl (invoked_of_end hs.closed hcalls rfl rfl nofun)

/-- What is noted where the output of a hook could not be flushed. -/
private theorem calls_unflushed {k : Link} {ending : Ending} {stream : Stream Operation}
    (h : u.link.calls = k.calls ++ [.began hook, .ended hook ending]) (kind : IoKind) :
    ({ u.link with stream }.note (.unflushed kind)).calls =
      k.calls ++ [.began hook, .ended hook ending, .unflushed kind] := by
  refine (Link.calls_note _ _).trans ?_
  show u.link.calls ++ _ = _
  rw [h]
  exact List.append_assoc ..

private theorem flush_returned {go : Plan} (h : Plan.flush go u o w)
    (hu : Returned hook keep upgrades m v u) :
    Invoked hook v o w ∨ ∃ x, Returned hook keep upgrades m v x ∧ go x o w := by
  obtain ⟨stream, ⟨kind, rfl, rfl⟩ | h⟩ := Plan.flush_cases h
  · refine .inl (invoked_of_end hu.closed (calls_unflushed hu.calls kind) rfl rfl ?_)
    rintro _ ⟨⟩ -
    exact ⟨rfl, hu.asked.isParked⟩
  · exact .inr ⟨u.put { u.link with stream },
      ⟨⟨hu.closed, hu.queue, hu.machine, hu.asked⟩, hu.calls⟩, h⟩

/-- A hook that returned, and what that led to. -/
private theorem Returned.invoked (h : Returned hook keep upgrades m v w)
    (hl : o.isEnd = true ∨ Leads v.link.stream.bytesRead w hook keep o) : Invoked hook v o w :=
  ⟨h.closed, ⟨.returned keep, [], h.calls, rfl, hl.imp_right fun hl => ⟨keep, rfl, hl⟩⟩,
    reports_of h.calls nofun⟩

end Hooks

/-- The start hook is called unless the socket fails before. -/
private theorem accept_invoked (hv : Ready .accept v) (h : Plan.accept v o w) :
    v.link.Silent w.link ∧ o.isEnd = true ∨ Invoked .start v o w := by
  obtain ⟨-, hr, hp⟩ := hv.expects
  rcases transition_cases h with ⟨ho, rfl⟩ | ⟨machine, stream, hquiet, h⟩
  · exact .inl ⟨.refl _, ho⟩
  rcases h with ⟨kind, rfl, rfl⟩ | h
  · exact .inl ⟨.of rfl rfl hquiet, rfl⟩
  rcases hook_returned h (serving_of hv.closed hv.queue hr hp) nofun with
    ⟨hc, ⟨ending, more, hcalls, hmore, hl⟩, hreports⟩ | ⟨keep, u, hu, rfl, rfl⟩
  · refine .inr ⟨hc, ⟨ending, more, hcalls, hmore, ?_⟩, hreports⟩
    rcases hl with ho | ⟨keep, rfl, hl⟩
    · exact .inl ho
    · cases hl
      exact .inr ⟨keep, rfl, .started keep⟩
  · exact .inr ⟨hu.closed,
      ⟨.returned keep, [], hu.calls, rfl, .inr ⟨keep, rfl, .started keep⟩⟩, reports_of hu.calls nofun⟩

private theorem dispatch_invoked (hv : Ready .dispatch v) (h : Plan.dispatch v o w) :
    Invoked .request v o w := by
  obtain ⟨hm, hr, -⟩ := hv.expects
  obtain ⟨machine, -, h⟩ := transition_moves (m := .active)
    (by rcases hm with hm | hm <;> rw [hm] <;> rfl) h
  rcases hook_returned h (serving_of hv.closed hv.queue hr rfl) nofun with h | ⟨keep, u, hu, h⟩
  · exact ⟨h.closed, h.calls, h.reports⟩
  rcases flush_returned h hu with h | ⟨x, hx, rfl, rfl⟩
  · exact ⟨h.closed, h.calls, h.reports⟩
  · have h := hx.invoked (.inr (.served keep))
    exact ⟨h.closed, h.calls, h.reports⟩

/-- A request whose deadline passed is over, whatever its hook does about it. -/
private theorem expire_invoked {m : State} (h : Plan.expire v o w) (hv : Serving .none m v) :
    Invoked .suspendTimeout v o w := by
  obtain ⟨ending, u, hu, h⟩ := h
  obtain ⟨hcalls, -⟩ := hv.calls hu nofun
  have hs := hv.hooked hu
  have hlate : ∀ {o w ending more}, Reports .suspendTimeout o w ending more :=
    fun _ _ h => absurd rfl h
  split at h
  · obtain ⟨rfl, rfl⟩ := h
    exact invoked_of_end hs.closed hcalls rfl rfl hlate
  · obtain ⟨rfl, rfl⟩ := h
    obtain ⟨stream, hf | ⟨kind, hf⟩⟩ := u.link.flushed_cases
    · rw [hf]
      exact invoked_of_end hs.closed hcalls rfl rfl hlate
    · rw [hf]
      exact invoked_of_end hs.closed (calls_unflushed hcalls kind) rfl rfl hlate

private theorem resume_invoked {timedOut : Bool} (hv : Ready (.resume timedOut) v)
    (h : Plan.resume timedOut v o w) :
    v.link.Silent w.link ∧ o.isEnd = true ∨
      Invoked (if timedOut then .suspendTimeout else .resume) v o w := by
  obtain ⟨hm, hr, hp⟩ := hv.expects
  obtain ⟨machine, -, h⟩ := transition_moves (m := .cometActive) (by rw [hm]; rfl) h
  -- It is late, it is to close, or the handler takes it up.
  unfold Plan.write at h
  split at h
  · next ht =>
    have h := expire_invoked h (serving_of hv.closed hv.queue hr hp)
    rw [if_pos ht]
    exact .inr ⟨h.closed, h.calls, h.reports⟩
  next ht =>
  rw [if_neg ht]
  split at h
  · obtain ⟨rfl, rfl⟩ := h
    exact .inl ⟨.of rfl rfl (.refl _), rfl⟩
  rcases hook_returned h (serving_of hv.closed hv.queue hr hp) nofun with h | ⟨keep, u, hu, h⟩
  · exact .inr ⟨h.closed, h.calls, h.reports⟩
  rcases flush_returned h hu with h | ⟨x, hx, rfl, rfl⟩
  · exact .inr ⟨h.closed, h.calls, h.reports⟩
  · have hpending : w.link.pending ≠ .duplex := by
      intro hd
      have hasked := hx.asked
      rw [hd] at hasked
      exact nomatch hasked.of_duplex.1
    have h := hx.invoked (.inr (.resumed keep hpending))
    exact .inr ⟨h.closed, h.calls, h.reports⟩

private theorem service_invoked (hv : Ready .service v) (h : Plan.service v o w) :
    Invoked .service v o w := by
  obtain ⟨hm, hr, hp⟩ := hv.expects
  obtain ⟨machine, hm', h⟩ := transition_moves (m := .duplexActive) (by rw [hm]; rfl) h
  rcases hook_returned h (serving_of hv.closed hv.queue hr hp) nofun with h | ⟨keep, u, hu, h⟩
  · exact ⟨h.closed, h.calls, h.reports⟩
  rcases flush_returned h hu with h | ⟨x, hx, h⟩
  · exact ⟨h.closed, h.calls, h.reports⟩
  rcases h with ⟨-, reason, -, rfl, rfl⟩ | ⟨-, -, rfl, rfl⟩ | ⟨hread, hd, h⟩
  · exact invoked_of_end hx.closed hx.calls rfl rfl nofun
  · exact invoked_of_end hx.closed hx.calls rfl rfl nofun
  · -- The stream goes on, and the lifecycle with it.
    have hstate : x.link.machine.state = .duplexActive := hx.machine.trans hm'
    obtain ⟨machine', -, t, rfl, rfl⟩ := transition_moves (m := .duplex)
      (by show x.link.machine.state.next? _ = _; rw [hstate]; rfl) h
    exact ⟨hx.closed,
      ⟨.returned keep, [], hx.calls, rfl, .inr ⟨keep, rfl, .serviced keep t rfl hd (Nat.lt_of_sub_pos hread)⟩⟩,
      reports_of hx.calls nofun⟩

/-- **A step calls the hook that is its own**, or none. Where it has one and does not call
it, the link closes, and a request hook is always called. -/
theorem Ready.invokes (hv : Ready step v) (h : plan step v o w) :
    (v.link.Silent w.link ∧ step ≠ .dispatch ∧ (step.hook? = none ∨ o.isEnd = true)) ∨
      ∃ hook, step.hook? = some hook ∧ Invoked hook v o w := by
  cases step with
  | accept =>
    exact (accept_invoked hv h).imp (fun ⟨hs, ho⟩ => ⟨hs, nofun, .inr ho⟩) fun h => ⟨_, rfl, h⟩
  | dispatch => exact .inr ⟨_, rfl, dispatch_invoked hv h⟩
  | resume timedOut =>
    exact (resume_invoked hv h).imp (fun ⟨hs, ho⟩ => ⟨hs, nofun, .inr ho⟩) fun h => ⟨_, rfl, h⟩
  | service => exact .inr ⟨_, rfl, service_invoked hv h⟩
  | resumeParked => exact .inl ⟨resumeParked_silent h, nofun, .inl rfl⟩
  | after keep => exact .inl ⟨after_silent h, nofun, .inl rfl⟩
  | rest killed => exact .inl ⟨rest_silent h, nofun, .inl rfl⟩
  | await => exact .inl ⟨await_silent h, nofun, .inl rfl⟩
  | block => exact .inl ⟨wait_silent h, nofun, .inl rfl⟩
  | suspend => exact .inl ⟨suspend_silent h, nofun, .inl rfl⟩
  | upgrade => exact .inl ⟨upgrade_silent h, nofun, .inl rfl⟩
  | listen deadline => exact .inl ⟨wait_silent h, nofun, .inl rfl⟩

/-- **A step calls the request hook once where it is a dispatch**, and else not. -/
theorem Ready.served (hv : Ready step v) (h : plan step v o w) :
    w.link.hooks.count .request =
      v.link.hooks.count .request + if step = .dispatch then 1 else 0 := by
  rcases hv.invokes h with ⟨hs, hne, -⟩ | ⟨hook, hh, hi⟩
  · rw [if_neg hne, hs.hooks]
    rfl
  · obtain ⟨_, more, hcalls, hmore, -⟩ := hi.calls
    rw [Link.hooks_of_began hcalls hmore, List.count_append]
    cases step with
    | resume timedOut => cases timedOut <;> (cases hh; rfl)
    | accept | dispatch | service =>
      cases hh
      rfl
    | _ => cases hh

/-- Where the link does not close, its task goes on, or gives it away. -/
theorem Concluded.eq_next (h : Concluded v o w) (ho : o.isEnd = false) : w = v.next o.step? := by
  cases h with
  | next | park => rfl
  | fail hf => rcases hf with rfl | rfl <;> cases ho
  | _ => cases ho

end Stand

end LinkEngine

import LinkEngine.Proofs.Flow
import LinkEngine.Proofs.Settled

/-!
# What a step calls

A step of the task that drives a link calls one hook at most, and says by its outcome
which one that was (`Ready.called`): only after the start hook does a request follow at
once, and only what the start hook wrote is not flushed in the same step. Whatever else
happens on a link calls none of these hooks, and hands nothing in or on while the link
is open (`Link.Silent`).
-/

namespace LinkEngine

open Connection (CloseReason State)
open Link (Ending Note Outcome Step Upgrades)

/-! ## Calls -/

namespace Link

/-- The note tells of a call of a hook, of its end, or that what it wrote was not
flushed. The close hook is left out. -/
def Note.isCall : Note → Bool
  | .began _ | .unflushed _ => true
  | .ended hook _ => hook != .close
  | _ => false

/-- What the history tells of calls of hooks. -/
def calls (k : Link) : List Note := k.history.filter Note.isCall

/-- What is noted of a hook that returned, and whose output was flushed where it is
flushed at all. -/
def Note.served (hook : Hook) (keep : Bool) : List Note :=
  [.began hook, .ended hook (.returned keep)]

theorem Note.served_inj {hook hook' : Hook} {keep keep' : Bool}
    (h : served hook keep = served hook' keep') : hook = hook' ∧ keep = keep' := by
  cases h
  exact ⟨rfl, rfl⟩

variable {k k' k'' : Link}

theorem hooks_eq_calls (k : Link) : k.hooks = k.calls.filterMap Note.began? := by
  unfold hooks calls
  rw [List.filterMap_filter]
  congr 1
  funext n
  cases n <;> simp [Note.isCall, Note.began?]

/-- How often a hook was called. -/
theorem callsOf_eq (k : Link) (hook : Hook) : k.callsOf hook = k.hooks.count hook := by
  unfold callsOf hooks List.count
  rw [List.countP_filterMap]
  congr 1
  funext n
  cases n with
  | began hook' =>
    show (Note.began hook' == .began hook) = (hook' == hook)
    rw [Bool.eq_iff_iff, beq_iff_eq, beq_iff_eq, Note.began.injEq]
  | _ => rfl

/-- A hook that was called is the last of the hooks that were. -/
theorem hooks_of_began {hook : Hook} {more : List Note}
    (hc : k'.calls = k.calls ++ .began hook :: more) (hm : more.filterMap Note.began? = []) :
    k'.hooks = k.hooks ++ [hook] := by
  have hbegan : (Note.began hook :: more).filterMap Note.began? =
      hook :: more.filterMap Note.began? := rfl
  rw [k'.hooks_eq_calls, hc, List.filterMap_append, hbegan, hm, k.hooks_eq_calls]

theorem hooks_of_served {hook : Hook} {keep : Bool}
    (hc : k'.calls = k.calls ++ Note.served hook keep) : k'.hooks = k.hooks ++ [hook] :=
  hooks_of_began hc rfl

theorem calls_note (k : Link) (n : Note) :
    (k.note n).calls = k.calls ++ if n.isCall then [n] else [] := by
  show (k.history ++ [n]).filter Note.isCall = _
  rw [List.filter_append, List.filter_cons, List.filter_nil]
  rfl

/-- No hook was called meanwhile, and nothing was handed in or on unless the link was torn
down. -/
structure Silent (k k' : Link) : Prop where
  closed : k.closed = true → k'.closed = true
  calls : k'.calls = k.calls
  stream : k'.closed = false → k.stream.Quiet k'.stream

theorem Silent.open (h : k.Silent k') (hc : k'.closed = false) : k.closed = false :=
  Bool.eq_false_iff.2 fun hc' => nomatch (h.closed hc').symm.trans hc

theorem Silent.trans (h₁ : k.Silent k') (h₂ : k'.Silent k'') : k.Silent k'' where
  closed hc := h₂.closed (h₁.closed hc)
  calls := h₂.calls.trans h₁.calls
  stream hc := (h₁.stream (h₂.open hc)).trans (h₂.stream hc)

/-- Which hooks were called does not change then. -/
theorem Silent.hooks (h : k.Silent k') : k'.hooks = k.hooks := by
  rw [k'.hooks_eq_calls, h.calls, k.hooks_eq_calls]

/-- What works on the stream at most, and quietly. -/
theorem Silent.of (hc : k'.closed = k.closed) (hh : k'.history = k.history)
    (hs : k.stream.Quiet k'.stream) : k.Silent k' :=
  ⟨fun h => hc.trans h, congrArg (·.filter Note.isCall) hh, fun _ => hs⟩

theorem Silent.refl (k : Link) : k.Silent k := .of rfl rfl (.refl _)

theorem Silent.note (h : k.Silent k') {n : Note} (hn : n.isCall = false) :
    k.Silent (k'.note n) := by
  refine ⟨h.closed, ?_, h.stream⟩
  rw [calls_note, hn]
  exact (List.append_nil _).trans h.calls

theorem Silent.interrupt (h : k.Silent k') : k.Silent k'.interrupt := by
  unfold Link.interrupt
  split
  · exact h.trans (.of rfl rfl ⟨rfl, rfl, rfl⟩)
  · exact h

theorem silent_disarmed (k : Link) : k.Silent k.disarmed := by
  unfold disarmed
  split
  · exact .refl k
  · exact .of rfl rfl (.refl _)

theorem Touched.silent (h : k.Touched k') : k.Silent k' := by
  cases h with
  | socket hf => exact .of rfl rfl ⟨(hf.untouched k.stream.socket).2, rfl, rfl⟩
  | did | closeEnded => exact .note (.refl k) rfl
  | asked => exact .interrupt (.of rfl rfl (.refl _))
  | deferred =>
    refine .note ?_ rfl
    exact .of rfl rfl (.refl _)
  | _ => exact .of rfl rfl (.refl _)

theorem Handed.silent (h : k.Handed k') : k.Silent k' := by
  cases h with
  | woken =>
    refine .note ?_ rfl
    exact .of rfl rfl (.refl _)
  | _ => exact .of rfl rfl (.refl _)

theorem Seized.silent {reason : CloseReason} (h : k.Seized reason k') : k.Silent k' := by
  cases h <;> exact .of rfl rfl (.refl _)

theorem silent_marked (k : Link) (reason : CloseReason) : k.Silent (k.marked reason) := by
  refine .note ⟨fun _ => closed_shut k reason, ?_, ?_⟩ rfl
  · unfold Link.shut
    exact (silent_disarmed _).calls
  · intro hc
    rw [closed_shut] at hc
    cases hc

theorem silent_gone (hc : k.closed = true) : k.Silent k.gone :=
  ⟨fun h => h, rfl, fun h => nomatch hc.symm.trans h⟩

end Link

namespace Stand

variable {v w u : Stand} {o : Outcome} {reason : CloseReason}

/-- **Others call no hook but the close hook.** -/
theorem Course.silent (h : Course v w) : v.link.Silent w.link :=
  h.induction (P := fun k => v.link.Silent k) (fun h hk => hk.trans h.silent)
    (fun h hk => hk.trans h.silent)
    (fun h hk => hk.trans (h.silent.trans (Link.silent_marked _ _)))
    (fun hc hk => hk.trans (Link.silent_gone hc)) (.refl _)

theorem TornDown.silent (h : TornDown reason v w) : v.link.Silent w.link := by
  cases h with
  | before => exact .refl _
  | now hc hook =>
    exact (Link.silent_marked _ _).trans (hook.silent.trans
      (Link.silent_gone (hook.closed (Link.closed_marked _ _))))

theorem Concluded.silent (h : Concluded v o w) : v.link.Silent w.link := by
  have hnext : ∀ (u : Stand) step, u.link.Silent (u.next step).link :=
    fun _ _ => .of rfl rfl (.refl _)
  cases h with
  | next | park => exact hnext v _
  | close ht => exact ht.silent.trans (hnext _ _)
  | fail _ _ h _ ht => exact h.silent.trans (ht.silent.trans (hnext _ _))
  | panic ht => exact ht.silent.trans (hnext _ _)

/-- Where the task is over and the link closes, it is closed. -/
theorem Concluded.closed (h : Concluded v o w) (ho : o.isEnd = true) :
    w.link.closed = true ∧ w.link.step = none := by
  cases h with
  | next | park => cases ho
  | close ht => exact ⟨ht.closed, rfl⟩
  | fail _ _ _ _ ht => exact ⟨ht.closed, rfl⟩
  | panic ht => exact ⟨ht.closed, rfl⟩

/-! ## Hooks -/

section Hooks

variable {upgrades : Upgrades} {m : State} {hook : Hook} {keep : Bool}

/-- While a hook runs no other hook of the link is called, and its stream takes what it
is handed. -/
theorem Serving.used (h : Served upgrades v w) (hv : Serving upgrades m v) :
    w.link.calls = v.link.calls ∧ v.link.stream.Used w.link.stream := by
  induction h with
  | refl => exact ⟨rfl, .refl _⟩
  | course h _ ih =>
    have hw := hv.course h
    obtain ⟨hcalls, hused⟩ := ih hw
    have hsilent := h.silent
    exact ⟨hcalls.trans hsilent.calls, (hsilent.stream hw.closed).used.trans hused⟩
  | acted h _ ih =>
    obtain ⟨hcalls, hused⟩ := ih (hv.acted h)
    cases h with
    | stream hx => exact ⟨hcalls, hx.trans hused⟩
    | kill | twoWay => exact ⟨hcalls, hused⟩
    | comet hk =>
      unfold Engine.startComet at hk
      split at hk
      · cases hk
      · split at hk <;> cases hk
        refine ⟨hcalls.trans ?_, hused⟩
        exact (Link.calls_note _ _).trans (List.append_nil _)
    | duplex hk =>
      unfold Engine.startDuplex at hk
      split at hk <;> cases hk
      exact ⟨hcalls, hused⟩

theorem Serving.calls {ending : Ending} (h : Hooked hook upgrades v ending w)
    (hv : Serving upgrades m v) (hh : hook ≠ .close) :
    w.link.calls = v.link.calls ++ [.began hook, .ended hook ending] ∧
      v.link.stream.Used w.link.stream := by
  obtain ⟨u, hu, rfl⟩ := h
  have hbegan : Serving upgrades m (v.put (v.link.note (.began hook))) :=
    ⟨hv.closed, hv.queue, hv.machine, hv.asked⟩
  obtain ⟨hcalls, hused⟩ := hbegan.used hu
  refine ⟨?_, hused⟩
  have hended : (Note.ended hook ending).isCall = true := bne_iff_ne.2 hh
  rw [link_put, Link.calls_note, hcalls, link_put, Link.calls_note, hended]
  exact List.append_assoc ..

end Hooks

/-! ## Steps -/

/-- A hook was called that did not return, or whose output could not be flushed, and the
link closes. -/
structure Broke (hook : Hook) (v : Stand) (o : Outcome) (w : Stand) : Prop where
  calls : ∃ more, w.link.calls = v.link.calls ++ .began hook :: more ∧
    more.filterMap Note.began? = [] ∧ ∀ hook' keep, .began hook :: more ≠ Note.served hook' keep
  isEnd : o.isEnd = true

/-- A hook was called and returned, and what it wrote was handed to the socket. -/
structure Delivered (hook : Hook) (v w : Stand) : Prop where
  calls : ∃ keep, w.link.calls = v.link.calls ++ Note.served hook keep
  stream : ∃ more, v.link.stream.Delivers w.link.stream more

/-- Which hook a step called, what came of it, and where what it wrote is. -/
inductive Called (v : Stand) : Outcome → Stand → Prop where
  /-- None was called. -/
  | nothing {o : Outcome} {w : Stand} (h : v.link.Silent w.link) : Called v o w
  | broke {o : Outcome} {w : Stand} {hook : Hook} (h : Broke hook v o w) : Called v o w
  /-- The start hook returned, and the first request is next. -/
  | started {w : Stand} {keep : Bool} (hc : w.link.calls = v.link.calls ++ Note.served .start keep)
      (hs : v.link.stream.Used w.link.stream) : Called v (.next .dispatch) w
  /-- Another hook returned, and what it wrote was flushed. -/
  | served {o : Outcome} {w : Stand} {hook : Hook} (h : Delivered hook v w) (hh : hook ≠ .start)
      (ho : o.isEnd = true ∨ (∃ keep, o = .next (.after keep)) ∨ ∃ t, o = .next (.listen t)) :
      Called v o w

theorem Broke.hooks {hook : Hook} (h : Broke hook v o w) :
    w.link.hooks = v.link.hooks ++ [hook] := by
  obtain ⟨more, hc, hm, -⟩ := h.calls
  exact Link.hooks_of_began hc hm

theorem Delivered.hooks {hook : Hook} (h : Delivered hook v w) :
    w.link.hooks = v.link.hooks ++ [hook] := by
  obtain ⟨keep, hc⟩ := h.calls
  exact Link.hooks_of_served hc

theorem Broke.of_silent {hook : Hook} (h : Broke hook w o u) (hs : v.link.Silent w.link) :
    Broke hook v o u :=
  ⟨hs.calls ▸ h.calls, h.isEnd⟩

theorem Delivered.of_silent {hook : Hook} (h : Delivered hook w u) (hs : v.link.Silent w.link)
    (hc : w.link.closed = false) : Delivered hook v u := by
  obtain ⟨more, hd⟩ := h.stream
  exact ⟨hs.calls ▸ h.calls, more, (hs.stream hc).delivers hd⟩

section Hooks

variable {upgrades : Upgrades} {m : State} {hook : Hook} {keep : Bool}

/-- A hook returned, or the link closes. -/
private theorem hook_called {go : Bool → Plan} (h : Plan.hook hook upgrades go v o w)
    (hv : Serving upgrades m v) (hh : hook ≠ .close) :
    Broke hook v o w ∨ ∃ keep u, u.link.calls = v.link.calls ++ Note.served hook keep ∧
      v.link.stream.Used u.link.stream ∧ go keep u o w := by
  obtain ⟨ending, u, hu, h⟩ := h
  obtain ⟨hcalls, hused⟩ := hv.calls hu hh
  cases ending with
  | returned keep => exact .inr ⟨keep, u, hcalls, hused, h⟩
  | failed f =>
    obtain ⟨rfl, rfl⟩ := h
    exact .inl ⟨⟨_, hcalls, rfl, nofun⟩, rfl⟩
  | panicked =>
    obtain ⟨rfl, rfl⟩ := h
    exact .inl ⟨⟨_, hcalls, rfl, nofun⟩, rfl⟩

/-- What a hook wrote is handed on by a flush, or that it was not is noted. -/
private theorem flushed_called {ending : Ending}
    (hcalls : u.link.calls = v.link.calls ++ [.began hook, .ended hook ending])
    (hused : v.link.stream.Used u.link.stream) :
    (u.link.stream.flush.1 = .ok () ∧
      u.link.flushed.calls = v.link.calls ++ [.began hook, .ended hook ending] ∧
      ∃ more, v.link.stream.Delivers u.link.flushed.stream more) ∨
    ∃ kind, u.link.stream.flush.1 = .error kind ∧ u.link.flushed.calls =
      v.link.calls ++ [.began hook, .ended hook ending, .unflushed kind] := by
  cases hf : u.link.stream.flush.1 with
  | ok _ =>
    rw [Link.flushed_of_ok hf]
    exact .inl ⟨rfl, hcalls, hused.flush hf⟩
  | error kind =>
    refine .inr ⟨kind, rfl, ?_⟩
    rw [Link.flushed_of_error hf, Link.calls_note]
    show u.link.calls ++ _ = _
    rw [hcalls]
    exact List.append_assoc ..

private theorem flush_called {go : Plan} (h : Plan.flush go u o w)
    (hcalls : u.link.calls = v.link.calls ++ Note.served hook keep)
    (hused : v.link.stream.Used u.link.stream) :
    Broke hook v o w ∨
      Delivered hook v (u.put u.link.flushed) ∧ go (u.put u.link.flushed) o w := by
  unfold Plan.flush at h
  rcases flushed_called hcalls hused with ⟨hok, hf, hd⟩ | ⟨kind, herror, hf⟩
  · rw [hok] at h
    exact .inr ⟨⟨⟨keep, hf⟩, hd⟩, h⟩
  · rw [herror] at h
    obtain ⟨rfl, rfl⟩ := h
    exact .inl ⟨⟨_, hf, rfl, nofun⟩, rfl⟩

end Hooks

private theorem accept_called (hv : Ready .accept v) (h : Plan.accept v o w) : Called v o w := by
  obtain ⟨-, hr, hp⟩ := hv.expects
  rcases transition_cases h with ⟨-, rfl⟩ | ⟨machine, stream, hquiet, h⟩
  · exact .nothing (.refl _)
  have hsilent : v.link.Silent { v.link with machine, stream } := .of rfl rfl hquiet
  rcases h with ⟨kind, -, rfl⟩ | h
  · exact .nothing hsilent
  rcases hook_called h (serving_of hv.closed hv.queue hr hp) nofun with
    hbroke | ⟨keep, u, hcalls, hused, rfl, rfl⟩
  · exact .broke (hbroke.of_silent hsilent)
  · exact .started hcalls ((hsilent.stream hv.closed).used.trans hused)

theorem resumeParked_silent (h : Plan.resumeParked v o w) : v.link.Silent w.link := by
  obtain ⟨rfl, -⟩ := h
  exact Link.silent_disarmed _

/-- The request hook is called where the link is ready for it. -/
theorem dispatch_called (hv : Ready .dispatch v) (h : Plan.dispatch v o w) :
    Broke .request v o w ∨ Delivered .request v w ∧ ∃ keep, o = .next (.after keep) := by
  obtain ⟨hm, hr, -⟩ := hv.expects
  obtain ⟨machine, -, h⟩ := transition_moves (m := .active)
    (by rcases hm with hm | hm <;> rw [hm] <;> rfl) h
  have hsilent : v.link.Silent { v.link with machine, pending := .none } := .of rfl rfl (.refl _)
  rcases hook_called h (serving_of hv.closed hv.queue hr rfl) nofun with
    hbroke | ⟨keep, u, hcalls, hused, h⟩
  · exact .inl (hbroke.of_silent hsilent)
  rcases flush_called h hcalls hused with hbroke | ⟨hd, rfl, rfl⟩
  · exact .inl (hbroke.of_silent hsilent)
  · exact .inr ⟨hd.of_silent hsilent hv.closed, keep, rfl⟩

theorem after_silent {keep : Bool} (h : Plan.after keep v o w) : v.link.Silent w.link := by
  unfold Plan.after at h
  split at h <;>
  · obtain ⟨-, rfl⟩ := h
    exact .of rfl rfl (.refl _)

theorem rest_silent {killed : Bool} (h : Plan.rest killed v o w) : v.link.Silent w.link := by
  unfold Plan.rest Plan.write at h
  simp only [link_put] at h
  split at h
  · obtain ⟨-, rfl⟩ := h
    exact .of rfl rfl (.refl _)
  · split at h
    · obtain ⟨_, -, -, rfl⟩ := h
      exact .of rfl rfl (.refl _)
    · obtain ⟨_, -, rfl⟩ := h
      exact .of rfl rfl (.refl _)

private theorem register_silent (h : Plan.register v o w) : v.link.Silent w.link := by
  obtain ⟨u, hu, h⟩ := h
  refine hu.silent.trans ?_
  rcases h with ⟨-, rfl⟩ | ⟨-, rfl⟩ | h
  · exact .refl _
  · exact .refl _
  unfold Plan.declined at h
  split at h
  · obtain ⟨-, rfl⟩ := h
    refine .trans ?_ (Link.silent_disarmed _)
    exact .of rfl rfl (.refl _)
  · obtain ⟨-, rfl⟩ := h
    exact .refl _

/-- Setting a deadline is silent, if what follows is. -/
private theorem arm_silent {go : Plan} (h : Plan.arm go v o w)
    (hgo : ∀ u, go u o w → u.link.Silent w.link) : v.link.Silent w.link := by
  rcases h with ⟨-, rfl⟩ | ⟨t, h⟩
  · refine .note ?_ rfl
    exact .of rfl rfl (.refl _)
  · refine .trans ?_ (hgo _ h)
    exact .of rfl rfl (.refl _)

theorem await_silent (h : Plan.await v o w) : v.link.Silent w.link := by
  have hpolled : v.link.Silent { v.link with stream := v.link.stream.poll.2 } :=
    .of rfl rfl v.link.stream.poll_quiet
  rcases h with ⟨_, -, rfl⟩ | ⟨-, rfl⟩ | ⟨_, -, -, rfl⟩ | ⟨-, rfl⟩ | ⟨-, rfl⟩ | h
  iterate 5 exact hpolled
  split at h
  · obtain ⟨-, rfl⟩ := h
    exact hpolled
  · have harmed := arm_silent h fun _ => register_silent
    refine hpolled.trans (.trans ?_ harmed)
    exact .of rfl rfl (.refl _)

theorem wait_silent {ready idle : Step} {late : CloseReason}
    (h : Plan.wait ready idle late v o w) : v.link.Silent w.link := by
  rcases h with ⟨_, -, -, rfl⟩ | ⟨-, ⟨-, rfl⟩ | ⟨u, hu, h⟩⟩
  · exact .refl _
  · exact .refl _
  have hwaiting : v.link.Silent { v.link with stream := v.link.stream.wait.2 } :=
    .of rfl rfl v.link.stream.wait_quiet
  have hcourse : Course (v.put { v.link with stream := v.link.stream.wait.2 }) u := hu
  have hwaited := hwaiting.trans hcourse.silent
  rcases h with ⟨_, -, rfl⟩ | ⟨-, rfl⟩ | ⟨-, rfl⟩ | ⟨_, -, -, rfl⟩ <;> exact hwaited

theorem suspend_silent (h : Plan.suspend v o w) : v.link.Silent w.link := by
  unfold Plan.suspend at h
  split at h
  · obtain ⟨-, rfl⟩ := h
    exact .refl _
  rcases transition_cases h with ⟨-, rfl⟩ | ⟨machine, h⟩
  · exact .refl _
  have hpark : ∀ u, Plan.park u o w → u.link.Silent w.link := by
    intro u h
    unfold Plan.park at h
    split at h
    · obtain ⟨-, rfl⟩ := h
      exact .refl _
    · obtain ⟨-, rfl⟩ := h
      exact .of rfl rfl (.refl _)
    · obtain ⟨-, rfl⟩ := h
      refine .trans ?_ (Link.silent_disarmed _)
      exact .of rfl rfl (.refl _)
  refine .trans ?_ (arm_silent h hpark)
  exact .of rfl rfl (.refl _)

private theorem expire_called {m : State} (h : Plan.expire v o w) (hv : Serving .none m v) :
    Broke .suspendTimeout v o w ∨ Delivered .suspendTimeout v w ∧ o.isEnd = true := by
  obtain ⟨ending, u, hu, h⟩ := h
  obtain ⟨hcalls, hused⟩ := hv.calls hu nofun
  split at h
  · next hending =>
    obtain ⟨rfl, rfl⟩ := h
    subst hending
    exact .inl ⟨⟨_, hcalls, rfl, nofun⟩, rfl⟩
  · next hending =>
    obtain ⟨rfl, rfl⟩ := h
    -- Whether it returned or failed, what it wrote is flushed.
    rcases flushed_called hcalls hused with ⟨-, hf, hd⟩ | ⟨kind, -, hf⟩
    · cases ending with
      | returned keep => exact .inr ⟨⟨⟨keep, hf⟩, hd⟩, rfl⟩
      | failed f => exact .inl ⟨⟨_, hf, rfl, nofun⟩, rfl⟩
      | panicked => exact absurd rfl hending
    · exact .inl ⟨⟨_, hf, rfl, nofun⟩, rfl⟩

private theorem resume_called {timedOut : Bool} (hv : Ready (.resume timedOut) v)
    (h : Plan.resume timedOut v o w) : Called v o w := by
  obtain ⟨-, hr, hp⟩ := hv.expects
  rcases transition_cases h with ⟨-, rfl⟩ | ⟨machine, h⟩
  · exact .nothing (.refl _)
  have hsilent : v.link.Silent { v.link with machine, comet := none } := .of rfl rfl (.refl _)
  -- It is late, it is to close, or the handler takes it up.
  unfold Plan.write at h
  split at h
  · rcases expire_called h (serving_of hv.closed hv.queue hr hp) with hbroke | ⟨hd, ho⟩
    · exact .broke (hbroke.of_silent hsilent)
    · exact .served (hd.of_silent hsilent hv.closed) nofun (.inl ho)
  · split at h
    · obtain ⟨-, rfl⟩ := h
      exact .nothing hsilent
    · rcases hook_called h (serving_of hv.closed hv.queue hr hp) nofun with
        hbroke | ⟨keep, u, hcalls, hused, h⟩
      · exact .broke (hbroke.of_silent hsilent)
      rcases flush_called h hcalls hused with hbroke | ⟨hd, rfl, rfl⟩
      · exact .broke (hbroke.of_silent hsilent)
      · exact .served (hd.of_silent hsilent hv.closed) nofun (.inr (.inl ⟨keep, rfl⟩))

theorem upgrade_silent (h : Plan.upgrade v o w) : v.link.Silent w.link := by
  rcases transition_cases h with ⟨-, rfl⟩ | ⟨machine, t, -, rfl⟩
  · exact .refl _
  · exact .of rfl rfl (.refl _)

private theorem service_called (hv : Ready .service v) (h : Plan.service v o w) :
    Called v o w := by
  obtain ⟨-, hr, hp⟩ := hv.expects
  rcases transition_cases h with ⟨-, rfl⟩ | ⟨machine, h⟩
  · exact .nothing (.refl _)
  have hsilent : v.link.Silent { v.link with machine } := .of rfl rfl (.refl _)
  rcases hook_called h (serving_of hv.closed hv.queue hr hp) nofun with
    hbroke | ⟨keep, u, hcalls, hused, h⟩
  · exact .broke (hbroke.of_silent hsilent)
  rcases flush_called h hcalls hused with hbroke | ⟨hd, h⟩
  · exact .broke (hbroke.of_silent hsilent)
  have hd := hd.of_silent hsilent hv.closed
  rcases h with ⟨-, _, -, rfl, rfl⟩ | ⟨-, -, rfl, rfl⟩ | ⟨-, -, h⟩
  · exact .served hd nofun (.inl rfl)
  · exact .served hd nofun (.inl rfl)
  -- The stream goes on, and the lifecycle with it.
  rcases transition_cases h with ⟨ho, rfl⟩ | ⟨machine', t, rfl, rfl⟩
  · exact .served ⟨hd.calls, hd.stream⟩ nofun (.inl ho)
  · exact .served ⟨hd.calls, hd.stream⟩ nofun (.inr (.inr ⟨t, rfl⟩))

/-- **A step calls one hook at most**, and flushes what it wrote unless it is the start
hook. -/
theorem Ready.called {step : Step} (hv : Ready step v) (h : plan step v o w) : Called v o w := by
  cases step with
  | accept => exact accept_called hv h
  | resumeParked => exact .nothing (resumeParked_silent h)
  | dispatch =>
    rcases dispatch_called hv h with hbroke | ⟨hd, ho⟩
    · exact .broke hbroke
    · exact .served hd nofun (.inr (.inl ho))
  | after keep => exact .nothing (after_silent h)
  | rest killed => exact .nothing (rest_silent h)
  | await => exact .nothing (await_silent h)
  | block => exact .nothing (wait_silent h)
  | suspend => exact .nothing (suspend_silent h)
  | resume timedOut => exact resume_called hv h
  | upgrade => exact .nothing (upgrade_silent h)
  | listen deadline => exact .nothing (wait_silent h)
  | service => exact service_called hv h

end Stand

/-- One connection with this handler, whose task takes this many steps. -/
def Engine.serving (handler : Handler) (steps : Nat) : List Engine.Move :=
  [.build {} none, .accept 0 { socket := {}, handler }, .begin 0] ++
    List.replicate steps (.advance 0)

end LinkEngine

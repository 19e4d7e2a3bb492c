import LinkEngine.Proofs.Accounts
import LinkEngine.Proofs.Flow

/-!
# What each move counts

Of the counters of a listener some are moved by what happens to its connections while they
live: that one is accepted or turned away, that a request is served, suspended or taken up
again (`Counter.isEvent`). Nothing that others do to an engine moves these, takes buffers from
the pool or makes more connections alive (`Course.gains`). A step of a task counts one of
them at most, for its own listener, and which one is its own as well (`Records`).
-/

namespace LinkEngine

open Connection (CloseReason Counter Stats)
open Link (Outcome Step Upgrades)

/-- The counter is moved by what happens to a connection while it lives, once each time. -/
def Connection.Counter.isEvent : Counter → Bool
  | .accepted | .rejected | .requests | .suspends | .wakes => true
  | _ => false

theorem Connection.Stats.get_recordClose_of_isEvent (x : Stats) (reason : CloseReason) {c : Counter}
    (hc : c.isEvent = true) : (x.recordClose reason).get c = x.get c := by
  cases c <;> first | (cases hc; done) | cases reason <;> rfl

theorem Connection.Stats.get_recordBytes_of_isEvent (x : Stats) (read written : Nat) {c : Counter}
    (hc : c.isEvent = true) : (x.recordBytes read written).get c = x.get c := by
  cases c <;> first | rfl | cases hc

/-- What a listener has to show for a time in which these events were counted: each is in its
counter, each connection that was accepted took a pair of buffers, and no more connections are
alive than may be. -/
structure Listener.Gains (events : List Counter) (x y : Listener) : Prop where
  limit : x.tracker.active ≤ x.settings.maxConnections →
    y.tracker.active ≤ y.settings.maxConnections
  taken : y.buffers.hits + y.buffers.misses =
    x.buffers.hits + x.buffers.misses + events.count .accepted
  stats : ∀ c : Counter, c.isEvent = true →
    y.stats.get c = x.stats.get c + UInt64.ofNat (events.count c)

namespace Listener

variable {x y z : Listener} {events more : List Counter}

theorem Gains.trans (h₁ : x.Gains events y) (h₂ : y.Gains more z) : x.Gains (events ++ more) z where
  limit h := h₂.limit (h₁.limit h)
  taken := by rw [h₂.taken, h₁.taken, List.count_append, Nat.add_assoc]
  stats c hc := by
    rw [h₂.stats c hc, h₁.stats c hc, List.count_append, UInt64.ofNat_add, UInt64.add_assoc]

/-- Nothing was counted. -/
theorem gains_nil (hs : y.settings = x.settings) (ha : y.tracker.active ≤ x.tracker.active)
    (hh : y.buffers.hits = x.buffers.hits) (hm : y.buffers.misses = x.buffers.misses)
    (hc : ∀ c : Counter, c.isEvent = true → y.stats.get c = x.stats.get c) : x.Gains [] y :=
  ⟨fun h => hs ▸ Nat.le_trans ha h, by rw [hh, hm]; rfl,
    fun c h => (hc c h).trans (UInt64.add_zero _).symm⟩

theorem Gains.refl (x : Listener) : x.Gains [] x :=
  gains_nil rfl (Nat.le_refl _) rfl rfl fun _ _ => rfl

theorem Tended.gains {f : Listener → Listener} (h : Tended f) (x : Listener) :
    x.Gains [] (f x) := by
  cases h with
  | trim | watch => exact gains_nil rfl (Nat.le_refl _) rfl rfl fun _ _ => rfl
  | extend more =>
    dsimp only
    split <;> exact gains_nil rfl (Nat.le_refl _) rfl rfl fun _ _ => rfl

theorem gains_released (x : Listener) (l : Nat) (buffers : Stream.Buffers) (reason : CloseReason) :
    x.Gains [] (x.released l buffers reason) := by
  have hrelease : (x.buffers.release buffers).2.hits = x.buffers.hits ∧
      (x.buffers.release buffers).2.misses = x.buffers.misses := by
    unfold Stream.BufferPool.release
    split <;> exact ⟨rfl, rfl⟩
  exact gains_nil rfl (Nat.sub_le ..) hrelease.1 hrelease.2 fun c hc =>
    x.stats.get_recordClose_of_isEvent reason hc

theorem get_record (x : Stats) (c d : Counter) :
    (x.record c).get d = x.get d + UInt64.ofNat ([c].count d) := by
  show (x.add c 1).get d = _
  rw [Stats.get_add]
  by_cases h : c = d
  · subst h
    rw [if_pos rfl, List.count_singleton_self]
    rfl
  · rw [if_neg h, List.count_singleton, if_neg (by simpa using h)]
    exact (UInt64.add_zero _).symm

/-- One event is counted. -/
theorem gains_record (x : Listener) {c : Counter} (hc : c ≠ .accepted) :
    x.Gains [c] { x with stats := x.stats.record c } := by
  refine ⟨id, ?_, fun d _ => get_record x.stats c d⟩
  rw [List.count_singleton, if_neg (by simpa using hc)]
  rfl

/-- What is counted is no event. -/
theorem gains_record_of_not_isEvent (x : Listener) {c : Counter} (hc : c.isEvent = false) :
    x.Gains [] { x with stats := x.stats.record c } := by
  refine gains_nil rfl (Nat.le_refl _) rfl rfl fun d hd => ?_
  show (x.stats.add c 1).get d = _
  rw [Stats.get_add, if_neg]
  rintro rfl
  exact nomatch hc.symm.trans hd

end Listener

namespace Engine

variable {s t u : Engine} {i j l : Nat} {k : Link} {events more : List Counter}

/-- What an engine has to show for a time in which these events were counted for listener `i`, and
none for others. -/
structure Gains (i : Nat) (events : List Counter) (s t : Engine) : Prop where
  length : t.listeners.length = s.listeners.length
  listeners : ∀ j, (s.listener j).Gains (if j = i then events else []) (t.listener j)

namespace Gains

theorem self (h : Gains i events s t) : (s.listener i).Gains events (t.listener i) := by
  have hself := h.listeners i
  rw [if_pos rfl] at hself
  exact hself

theorem other (h : Gains i events s t) (hj : j ≠ i) : (s.listener j).Gains [] (t.listener j) := by
  have hother := h.listeners j
  rw [if_neg hj] at hother
  exact hother

theorem same (h : t.listeners = s.listeners) : Gains i [] s t := by
  refine ⟨congrArg _ h, fun j => ?_⟩
  unfold Engine.listener
  rw [h, ite_self]
  exact .refl _

theorem refl (s : Engine) : Gains i [] s s := same rfl

theorem trans (h₁ : Gains i events s t) (h₂ : Gains i more t u) :
    Gains i (events ++ more) s u := by
  refine ⟨h₂.length.trans h₁.length, fun j => ?_⟩
  have h := (h₁.listeners j).trans (h₂.listeners j)
  split
  · next hj =>
    rw [if_pos hj, if_pos hj] at h
    exact h
  · next hj =>
    rw [if_neg hj, if_neg hj] at h
    exact h

/-- Nothing is counted at first. -/
theorem after (h₁ : Gains i [] s t) (h₂ : Gains i events t u) : Gains i events s u := h₁.trans h₂

/-- What is no listener does not matter. -/
theorem aside (h : Gains i events t u) (hs : t.listeners = s.listeners) : Gains i events s u :=
  (same hs).after h

/-- Nothing is counted any more. -/
theorem before (h₁ : Gains i events s t) (h₂ : Gains i [] t u) : Gains i events s u :=
  List.append_nil events ▸ h₁.trans h₂

theorem listener (j : Nat) {f : Listener → Listener} (h : ∀ x : Listener, x.Gains [] (f x)) :
    Gains i [] s (s.modifyListener j f) := by
  refine ⟨List.length_modify .., fun m => ?_⟩
  rw [ite_self]
  rcases listener_modifyListener_cases s j m f with hm | ⟨-, -, hm⟩
  · rw [hm]
    exact .refl _
  · rw [hm]
    exact h _

theorem count (hi : i < s.listeners.length) {c : Counter} (hc : c ≠ .accepted)
    (hs : t.listeners = s.listeners) : Gains i [c] s (t.count i c) := by
  suffices h : Gains i [c] t (t.count i c) from h.aside hs
  have hi : i < t.listeners.length := hs ▸ hi
  refine ⟨List.length_modify .., fun m => ?_⟩
  unfold Engine.count
  by_cases hm : m = i
  · subst hm
    rw [listener_modifyListener_self hi, if_pos rfl]
    exact Listener.gains_record _ hc
  · rw [listener_modifyListener_ne hm, if_neg hm]
    exact .refl _

theorem count_of_not_isEvent (j : Nat) {c : Counter} (hc : c.isEvent = false) :
    Gains i [] s (s.count j c) :=
  listener j fun x => x.gains_record_of_not_isEvent hc

end Gains

/-! ## Others -/

private theorem Change.gains (h : Change s t) : Gains i [] s t := by
  cases h with
  | listener j h => exact .listener j h.gains
  | _ => exact .same rfl

private theorem Halt.gains {done : Engine → Prop} (h : Halt s t done) : Gains i [] s t := by
  cases h with
  | listener j =>
    exact .trans (.listener j (f := Listener.halted) fun x =>
      Listener.gains_nil rfl (Nat.le_refl _) rfl rfl fun _ _ => rfl) (.same rfl)
  | all => exact .same rfl

theorem giveBack_gains (l : Nat) (reason : CloseReason) (s : Engine) :
    Gains i [] s (giveBack l reason s) := by
  cases hk : s.link? l with
  | none =>
    rw [giveBack_of_none hk]
    exact .refl s
  | some k =>
    rw [giveBack_eq hk]
    have hset : Gains i [] s (s.setLink l k.gone) := .same rfl
    exact hset.trans (.listener _ fun x =>
      x.gains_released l k.stream.close.2.takeBuffers.1 reason)

/-- **Others count no event.** -/
theorem Course.gains (h : Course s t) : Gains i [] s t := by
  induction h with
  | refl => exact .refl _
  | change h _ ih => exact h.gains.trans ih
  | halt h _ _ _ ihinner ihrest => exact (h.gains.trans ihinner).trans ihrest
  | @teardown s t u l k k' reason hk h hook _ ihhook ihrest =>
    have hbegun : Gains i [] s (beginTearDown l reason (s.setLink l k')) :=
      .same (listeners_beginTearDown l reason _)
    exact (hbegun.trans ihhook).trans ((giveBack_gains l reason _).trans ihrest)

theorem TornDown.gains {reason : CloseReason} (h : TornDown l reason s t) : Gains i [] s t := by
  cases h with
  | absent | before => exact .refl s
  | now hk hc hook =>
    have hbegun : Gains i [] s (beginTearDown l reason s) :=
      .same (listeners_beginTearDown l reason s)
    exact (hbegun.trans hook.gains).trans (giveBack_gains l reason _)

/-! ## Hooks -/

private theorem act_gains (l : Nat) (upgrades : Upgrades) (a : Action.Kind) (s : Engine) :
    Gains i [] s (act l upgrades a s).2 := by
  unfold act
  split
  · exact .refl s
  next k hk =>
  cases a with
  | wait =>
    have hwaited : Gains i [] s (s.setLink l { k with stream := k.stream.wait.2 }) := .same rfl
    exact hwaited.trans (awaitReadable_course hk).gains
  | operate op => exact (perform_course l op s).gains
  | comet name timeout =>
    dsimp only
    split
    · exact .refl s
    · cases name <;> exact .same rfl
  | duplex =>
    dsimp only
    split
    · exact .refl s
    · exact .same rfl
  | duplexClose =>
    dsimp only
    split <;> exact .same rfl
  | duplexInfo =>
    dsimp only
    split <;> exact .refl s
  | closeSelf reason => exact (closeWith_course (tears_tearDown _) (Nat.le_refl _) l _).gains
  | _ => exact .same rfl

private theorem note_gains (l : Nat) (n : Link.Note) (s : Engine) : Gains i [] s (s.note l n) :=
  .same rfl

private theorem actAll_gains (l : Nat) (upgrades : Upgrades) :
    ∀ (actions : List Action) (s : Engine), Gains i [] s (actAll l upgrades actions s).2
  | [], s => .refl s
  | a :: rest, s => by
    have hact := act_gains (i := i) l upgrades a.kind s
    unfold actAll
    split
    · next h =>
      rw [h] at hact
      exact hact
    · next h =>
      rw [h] at hact
      exact (hact.trans (note_gains l _ _)).trans (actAll_gains l upgrades rest _)
    · next h =>
      rw [h] at hact
      exact hact.trans (note_gains l _ _)
    · next f _ h =>
      rw [h] at hact
      have hnoted := hact.trans (note_gains l (.did a.label (.failed f)) _)
      dsimp only
      split
      · exact hnoted.trans (actAll_gains l upgrades rest _)
      · exact hnoted

/-- A call of a hook counts no event. -/
theorem callHook_gains (l : Nat) (hook : Hook) (upgrades : Upgrades) (s : Engine) :
    Gains i [] s (callHook l hook upgrades s).2 := by
  unfold callHook
  split
  · exact .refl s
  next k _ =>
  have hruns : Gains i [] s (runHook l k hook upgrades (s.note l (.began hook))).2 := by
    refine (note_gains l (.began hook) s).trans ?_
    unfold runHook
    split
    · exact .refl _
    · exact actAll_gains l upgrades _ _
  have hended := hruns.trans (note_gains l (.ended hook
    (runHook l k hook upgrades (s.note l (.began hook))).1) _)
  dsimp only
  split
  · exact hended
  · exact hended
  · refine hended.trans (.listener _ fun x => ?_)
    exact Listener.gains_nil rfl (Nat.le_refl _) rfl rfl fun c hc =>
      x.stats.get_recordBytes_of_isEvent _ _ hc

/-! ## Parts of a step -/

private theorem gains_withTransition {e : Connection.Event} {go : Link → Engine → Outcome × Engine}
    (hgo : ∀ k t, Gains i [] t (go k t).2) : Gains i [] s (withTransition l e s go).2 := by
  unfold withTransition
  split
  · exact .refl s
  · split
    · exact .refl s
    · exact (hgo _ _).aside rfl

private theorem gains_of_callHook {hook : Hook} {upgrades : Upgrades} {ending : Link.Ending}
    (h : callHook l hook upgrades s = (ending, t)) : Gains i [] s t := by
  have hcalled := callHook_gains (i := i) l hook upgrades s
  rw [h] at hcalled
  exact hcalled

private theorem gains_withHook {hook : Hook} {upgrades : Upgrades}
    {go : Bool → Engine → Outcome × Engine} (hgo : ∀ keep t, Gains i [] t (go keep t).2) :
    Gains i [] s (withHook l hook upgrades s go).2 := by
  unfold withHook
  split
  · next h => exact (gains_of_callHook h).after (hgo _ _)
  · next h => exact gains_of_callHook h
  · next h => exact gains_of_callHook h

private theorem gains_withFlush {go : Link → Engine → Outcome × Engine}
    (hgo : ∀ k t, Gains i [] t (go k t).2) : Gains i [] s (withFlush l s go).2 := by
  unfold withFlush
  split
  · exact .refl s
  · dsimp only
    split
    · exact .same rfl
    · exact (hgo _ _).aside rfl

private theorem gains_awaitReadable (l : Nat) (s : Engine) :
    Gains i [] s (awaitReadable l s).2 := by
  cases hk : s.link? l with
  | none =>
    unfold awaitReadable
    rw [hk]
    exact .refl s
  | some k => exact (awaitReadable_course hk).gains.aside rfl

private theorem gains_waitOnce (deadline : Nat) (ready idle : Step) (late : CloseReason) :
    Gains i [] s (waitOnce l deadline ready idle late s).2 := by
  unfold waitOnce
  split
  · exact .refl s
  split
  · exact .refl s
  split
  · exact .refl s
  have hwaited := gains_awaitReadable (i := i) l s
  split <;>
  · next h =>
    rw [h] at hwaited
    exact hwaited

private theorem gains_of_arm {delay : Time.Duration} {r : Except Failure Unit}
    (h : s.arm l delay = (r, t)) : Gains i [] s t :=
  .same ((congrArg (·.2.listeners) h).symm.trans (listeners_arm l delay s))

private theorem gains_of_register {m : Multiplexer} {r : Option Bool}
    (h : register l k m s = (r, t)) : Gains i [] s t := by
  have hregistered := (register_course l k m s).gains (i := i)
  rw [h] at hregistered
  exact hregistered

/-! ## Steps that count nothing -/

private theorem gains_stepAccept : Gains i [] s (stepAccept l s).2 := by
  refine gains_withTransition fun k t => ?_
  dsimp only
  split
  · exact .same rfl
  · exact (gains_withHook fun _ u => .refl u).aside rfl

private theorem gains_stepResumeParked : Gains i [] s (stepResumeParked l s).2 := by
  have hdisarmed : Gains i [] s (s.disarm l) := .same (listeners_disarm l s)
  unfold stepResumeParked
  split
  · exact .refl s
  · dsimp only
    split
    · split <;> exact hdisarmed
    · exact hdisarmed
    · exact hdisarmed

private theorem gains_stepAfter (keep : Bool) : Gains i [] s (stepAfter l keep s).2 := by
  unfold stepAfter
  split
  · exact .refl s
  · split <;> exact .same rfl

private theorem gains_stepRest (killed : Bool) : Gains i [] s (stepRest l killed s).2 := by
  unfold stepRest
  split
  · exact .refl s
  · dsimp only
    split
    · exact .same rfl
    · split
      · exact .same rfl
      · exact (Gains.count_of_not_isEvent _ rfl).aside rfl

private theorem gains_declined : Gains i [] s (stepAwait.declined l s).2 := by
  unfold stepAwait.declined
  split
  · exact .refl s
  · split
    · exact .same (listeners_disarm l _)
    · exact .refl s

private theorem gains_stepAwait : Gains i [] s (stepAwait l s).2 := by
  unfold stepAwait
  split
  · exact .refl s
  dsimp only
  split
  · exact .same rfl
  · exact .same rfl
  · exact .same rfl
  split
  · exact .same rfl
  split
  · exact .same rfl
  split
  · exact .same rfl
  split
  · next h => exact (gains_of_arm h).aside rfl
  next h =>
  have harmed := gains_of_arm (i := i) h
  split
  · next h => exact (harmed.after (gains_of_register h)).aside rfl
  · next h => exact (harmed.after (gains_of_register h)).aside rfl
  · next h => exact ((harmed.after (gains_of_register h)).after gains_declined).aside rfl

private theorem gains_stepUpgrade : Gains i [] s (stepUpgrade l s).2 :=
  gains_withTransition fun _ _ => (Gains.count_of_not_isEvent _ rfl).aside rfl

private theorem gains_stepService : Gains i [] s (stepService l s).2 := by
  refine gains_withTransition fun k t => gains_withHook fun _ u => gains_withFlush fun k' w => ?_
  dsimp only
  split
  · exact .refl w
  · split
    · exact .refl w
    · exact (gains_withTransition fun _ x => .refl x).aside rfl

/-! ## Steps that count -/

/-- What a step counts: a request that is served, suspended or taken up again. Where it does not
count what it is for, its link closes. -/
inductive Records : Step → Outcome → List Counter → Prop where
  | request (o : Outcome) : Records .dispatch o [.requests]
  | suspend (o : Outcome) : Records .suspend o [.suspends]
  | wake (o : Outcome) : Records (.resume false) o [.wakes]
  | nothing {step : Step} (o : Outcome) (hd : step ≠ .dispatch) (hs : step ≠ .suspend)
      (hr : ∀ timedOut, step ≠ .resume timedOut) : Records step o []
  | closing {step : Step} {o : Outcome} (hd : step ≠ .dispatch) (ho : o.isEnd = true) :
      Records step o []

/-- A move of the lifecycle is refused, or the step goes on with the same link. -/
theorem withTransition_cases {e : Connection.Event} (hk : s.link? l = some k)
    (go : Link → Engine → Outcome × Engine) :
    (∃ f, withTransition l e s go = (.refused f, s)) ∨ ∃ machine, withTransition l e s go =
      go { k with machine } (s.setLink l { k with machine }) := by
  unfold withTransition Link.transition
  rw [hk]
  dsimp only
  cases k.machine.apply e with
  | error r => exact .inl ⟨_, rfl⟩
  | ok machine => exact .inr ⟨machine, rfl⟩

private theorem stepDispatch_gains (hk : s.link? l = some k) (hi : k.listener < s.listeners.length)
    {m : Connection.State} (hm : k.machine.state.next? .dispatch = some m) :
    Gains k.listener [.requests] s (stepDispatch l s).2 := by
  have ht : k.transition .dispatch = .ok { k with machine := k.machine.enter m } := by
    unfold Link.transition Connection.Machine.apply
    rw [hm]
  unfold stepDispatch withTransition
  rw [hk]
  dsimp only
  rw [ht]
  refine (Gains.count hi (c := .requests) nofun rfl).before ?_
  exact (gains_withHook fun _ _ => gains_withFlush fun _ u => .refl u).aside rfl

private theorem gains_park : Gains i [] s (stepSuspend.park l s).2 := by
  unfold stepSuspend.park
  split
  · exact .refl s
  · split
    · exact .refl s
    · exact .same rfl
    · exact .same (listeners_disarm l _)

private theorem stepSuspend_gains (hk : s.link? l = some k)
    (hi : k.listener < s.listeners.length) : ∃ events,
      Gains k.listener events s (stepSuspend l s).2 ∧
        Records .suspend (stepSuspend l s).1 events := by
  unfold stepSuspend
  rw [hk]
  dsimp only
  split
  · exact ⟨[], .refl s, .closing nofun rfl⟩
  generalize hgo : (fun (k : Link) (s : Engine) => _) = go
  rcases withTransition_cases hk go with ⟨f, h⟩ | ⟨machine, h⟩
  · rw [h]
    exact ⟨[], .refl s, .closing nofun rfl⟩
  · rw [h, ← hgo]
    dsimp only
    split
    · next h => exact ⟨[], (gains_of_arm h).aside rfl, .closing nofun rfl⟩
    next t h =>
    have harmed : Gains k.listener [] s t := (gains_of_arm h).aside rfl
    have hcounted : Gains k.listener [.suspends] t (t.count k.listener .suspends) :=
      .count (harmed.length ▸ hi) nofun rfl
    exact ⟨_, harmed.after (hcounted.before gains_park), .suspend _⟩

private theorem gains_flushAnyway : Gains i [] s (stepResume.flushAnyway l s) := .same rfl

private theorem stepResume_gains (hk : s.link? l = some k) (hi : k.listener < s.listeners.length)
    (timedOut : Bool) : ∃ events, Gains k.listener events s (stepResume l timedOut s).2 ∧
      Records (.resume timedOut) (stepResume l timedOut s).1 events := by
  unfold stepResume
  generalize hgo : (fun (k : Link) (s : Engine) => _) = go
  rcases withTransition_cases hk go with ⟨f, h⟩ | ⟨machine, h⟩
  · rw [h]
    exact ⟨[], .refl s, .closing nofun rfl⟩
  rw [h, ← hgo]
  dsimp only
  cases timedOut with
  | true =>
    rw [if_pos rfl]
    split
    · next h => exact ⟨[], (gains_of_callHook h).aside rfl, .closing nofun rfl⟩
    · next h =>
      exact ⟨[], ((gains_of_callHook h).before gains_flushAnyway).aside rfl, .closing nofun rfl⟩
  | false =>
    rw [if_neg Bool.false_ne_true]
    split
    · exact ⟨[], .same rfl, .closing nofun rfl⟩
    · refine ⟨[.wakes], .before ?_
        (gains_withHook fun _ _ => gains_withFlush fun _ u => .refl u), .wake _⟩
      exact Gains.count hi nofun rfl

/-- **A step of a task counts what it is for**, and for its own listener. -/
theorem stepLink_gains (hk : s.link? l = some k) (hi : k.listener < s.listeners.length)
    (step : Step) (hd : step = .dispatch → ∃ m, k.machine.state.next? .dispatch = some m) :
    ∃ events, Gains k.listener events s (stepLink l step s).2 ∧
      Records step (stepLink l step s).1 events := by
  have hquiet : ∀ r : Outcome × Engine, Gains k.listener [] s r.2 →
      step ≠ .dispatch → step ≠ .suspend → (∀ timedOut, step ≠ .resume timedOut) →
      ∃ events, Gains k.listener events s r.2 ∧ Records step r.1 events :=
    fun r h hd hs hr => ⟨[], h, .nothing _ hd hs hr⟩
  cases step with
  | accept => exact hquiet _ gains_stepAccept nofun nofun nofun
  | resumeParked => exact hquiet _ gains_stepResumeParked nofun nofun nofun
  | dispatch =>
    obtain ⟨m, hm⟩ := hd rfl
    exact ⟨[.requests], stepDispatch_gains hk hi hm, .request _⟩
  | after keep => exact hquiet _ (gains_stepAfter keep) nofun nofun nofun
  | rest killed => exact hquiet _ (gains_stepRest killed) nofun nofun nofun
  | await => exact hquiet _ gains_stepAwait nofun nofun nofun
  | block =>
    refine hquiet _ ?_ nofun nofun nofun
    unfold stepLink stepBlock
    rw [hk]
    exact gains_waitOnce _ _ _ _
  | suspend => exact stepSuspend_gains hk hi
  | resume timedOut => exact stepResume_gains hk hi timedOut
  | upgrade => exact hquiet _ gains_stepUpgrade nofun nofun nofun
  | listen deadline => exact hquiet _ (gains_waitOnce _ _ _ _) nofun nofun nofun
  | service => exact hquiet _ gains_stepService nofun nofun nofun

/-! ## Moves -/

private theorem gains_failureReason (f : Failure) : Gains i [] s (failureReason l f s).2 := by
  unfold failureReason
  split
  · exact .refl s
  · split
    · exact .refl s
    · split
      · exact (trigger_course (tears_tearDown _) (Nat.le_refl _) _).gains
      · exact .refl s

/-- Carrying out what a step decided counts no event. -/
theorem conclude_gains (o : Outcome) : Gains i [] s (conclude l o s) := by
  have htorn : ∀ (reason : CloseReason) (t : Engine), Gains i [] t
      ((tearDown l reason t).modifyLink l fun k => { k with step := none }) := fun reason t =>
    (tearDown_tornDown l reason t).gains.before (.same rfl)
  cases o with
  | next step => exact .same rfl
  | park => exact .same rfl
  | close reason => exact htorn reason s
  | fail f => exact (gains_failureReason f).after (htorn _ _)
  | refused f => exact (gains_failureReason f).after (htorn _ _)
  | panic => exact htorn .handlerError s

/-- The beginning of a task counts no event. -/
theorem begin_gains (place : Nat) : Gains i [] s (begin place s) := by
  unfold begin
  split
  · exact .refl s
  split
  · exact .refl s
  split
  · exact .refl s
  dsimp only
  split
  · exact .same rfl
  · split
    · exact (tearDown_tornDown _ _ _).gains.aside rfl
    · exact .same rfl

/-- A listener that is built counts nothing for those before it. -/
theorem Builds.gains (h : Builds s t) (hi : i < s.listeners.length) :
    (s.listener i).Gains [] (t.listener i) := by
  cases h with
  | refused => exact .refl _
  | unqueued => exact .refl _
  | @built delay x y t h hf hy hs h' ht =>
    have hgains := (h'.gains (i := i)).self
    have hx : Engine.listener { s.withHousekeeping x with listeners := s.listeners ++ [y] } i =
        s.listener i := listener_append_of_lt (s := s.withHousekeeping x) hi y
    exact hx ▸ hgains

/-- The listener that is built has counted nothing. -/
theorem Builds.gains_new (h : Builds s t) (hi : i < t.listeners.length)
    (hn : s.listeners.length ≤ i) : ∃ y : Listener, y.Fresh ∧ y.Gains [] (t.listener i) := by
  cases h with
  | refused => exact absurd hi (Nat.not_lt.2 hn)
  | unqueued => exact absurd hi (Nat.not_lt.2 hn)
  | @built delay x y t h hf hy hs h' ht =>
    have hgains := h'.gains (i := i)
    rw [hgains.length, List.length_append, List.length_singleton] at hi
    obtain rfl : i = s.listeners.length := Nat.le_antisymm (Nat.lt_succ_iff.1 hi) hn
    have hx : Engine.listener { s.withHousekeeping x with listeners := s.listeners ++ [y] }
        s.listeners.length = y := listener_append_self (s.withHousekeeping x) y
    exact ⟨y, hf, hx ▸ hgains.self⟩

private theorem gains_join {tracker : Shutdown.Tracker}
    (hj : (s.listener i).tracker.join? (s.listener i).settings.maxConnections = some tracker) :
    Gains i [] s (s.modifyListener i fun x => { x with tracker }) := by
  refine ⟨List.length_modify .., fun j => ?_⟩
  rw [ite_self]
  rcases listener_modifyListener_cases s i j fun x => { x with tracker } with h | ⟨rfl, -, h⟩
  · rw [h]
    exact .refl _
  · rw [h]
    exact ⟨fun _ => (Shutdown.Tracker.active_of_join? hj).2, rfl, fun c _ =>
      (UInt64.add_zero _).symm⟩

private theorem gains_installLink (hi : i < s.listeners.length) {e : Socket.Endpoint Operation}
    (he : s.slots[l]? = some (.turnedAway e)) (handler : Handler) (notes : List Link.Note) :
    Gains i [.accepted] s (installLink i l handler notes s) := by
  have htaken : ∀ p : Stream.BufferPool,
      p.acquire.2.hits + p.acquire.2.misses = p.hits + p.misses + 1 := by
    intro p
    unfold Stream.BufferPool.acquire
    split
    · exact Nat.add_right_comm ..
    · rfl
  rw [installLink_eq he]
  refine ⟨List.length_modify .., fun j => ?_⟩
  by_cases hj : j = i
  · subst hj
    rw [if_pos rfl]
    have hx := listener_modifyListener_self
      (s := { s with slots := s.slots.set l (.link (.new j handler e
        (s.listener j).buffers.acquire.1 notes)) }) hi fun x => { x with
          buffers := (s.listener j).buffers.acquire.2
          registry := x.listing.arrange (x.registry ++ [l])
          stats := x.stats.record .accepted }
    rw [hx]
    exact ⟨id, htaken _, fun c _ => Listener.get_record _ .accepted c⟩
  · rw [if_neg hj, listener_modifyListener_ne hj]
    exact .refl _

private theorem Starts.gains (h : Starts l s t) : Gains i [] s t := by
  cases h with
  | queued => exact .same rfl
  | @refused k t hk h =>
    have htorn : Gains i [] s t := h.gains.aside rfl
    exact htorn.before (.same rfl)

/-- **A connection that is brought is accepted and becomes a link, or is rejected.** -/
theorem Accepts.gains {arrival : Arrival} (h : Accepts i arrival s t)
    (hi : i < s.listeners.length) : ∃ c, Gains i [c] s t ∧
      (c = .rejected ∧ (t.link? s.slots.length).isSome = false ∨
        c = .accepted ∧ (t.link? s.slots.length).isSome = true) := by
  cases h with
  | turnedAway =>
    refine ⟨.rejected, .count hi nofun rfl, .inl ⟨rfl, ?_⟩⟩
    show ((s.addSlot arrival.socket).link? s.slots.length).isSome = false
    rw [link?_addSlot]
    unfold link?
    rw [List.getElem?_eq_none (Nat.le_refl _)]
    rfl
  | @started tracker t₁ t₂ _ notes hj make hn ask _ start =>
    obtain ⟨e, he, -⟩ := make.turnedAway (slots_addSlot s arrival.socket)
    have hslot : Gains i [] s (s.addSlot arrival.socket) := .same rfl
    have hmade := (hslot.after (gains_join hj)).after make.gains
    have hinstalled := gains_installLink (hmade.length ▸ hi) he arrival.handler notes
    refine ⟨.accepted, ((hmade.after hinstalled).before ask.gains).before start.gains,
      .inr ⟨rfl, ?_⟩⟩
    rw [(ask.peopled.trans start.peopled).links, link?_installLink he, if_pos rfl]
    rfl

end Engine

end LinkEngine

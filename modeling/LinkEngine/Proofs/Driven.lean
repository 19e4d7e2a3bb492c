import LinkEngine.Engine.Driving
import LinkEngine.Proofs.Serving

/-!
# Steps keep to their plans

`Drives` says of the result of a step, or of a part of one, that it was come to by
work of the link's task and, as far as the link shows, by a plan. There is one
lemma for each way in which steps are put together, and then one for each step;
`stepLink_drives` is about all of them.
-/

namespace LinkEngine.Engine

open Connection (CloseReason)
open Link (Outcome Step Upgrades)
open Stand (Plan)

variable {l : Nat} {s t : Engine} {k k' : Link} {p q : Plan} {r : Outcome × Engine}

/-- A result was come to by work and by a plan. That a timer is refused is only
known of a scheduler whose heap is the only one. -/
structure Drives (l : Nat) (s : Engine) (r : Outcome × Engine) (p : Plan) : Prop where
  work : Work l s r.2
  own : s.scheduler.Sole → ∀ v, s.stand? l = some v → ∃ w, r.2.stand? l = some w ∧ p v r.1 w

/-- Nobody asked for the close of a link that is not to close. -/
private theorem closing_of_not_isClosing (h : ¬ s.isClosing k = true) : k.closing = false :=
  (Bool.or_eq_false_iff.1 (Bool.not_eq_true _ ▸ h)).1

namespace Drives

/-! ## The parts of a step -/

theorem yield (outcome : Outcome) (s : Engine) : Drives l s (outcome, s) (Plan.yield outcome) :=
  ⟨.refl s, fun _ v hv => ⟨v, hv, rfl, rfl⟩⟩

/-- No link, no plan. -/
theorem absent (h : s.link? l = none) (outcome : Outcome) (p : Plan) :
    Drives l s (outcome, s) p := by
  refine ⟨.refl s, ?_⟩
  intro _ v hv
  rw [(stand?_eq_some.1 hv).1] at h
  cases h

theorem mono (h : Drives l s r p) (hpq : ∀ v o w, p v o w → q v o w) : Drives l s r q := by
  refine ⟨h.work, ?_⟩
  intro hs v hv
  obtain ⟨w, hw, hvw⟩ := h.own hs v hv
  exact ⟨w, hw, hpq v r.1 w hvw⟩

/-- The link that is there may be used to tell what a plan says. -/
theorem look (hk : s.link? l = some k) (h : Drives l s r p)
    (hpq : ∀ v o w, v.link = k → p v o w → q v o w) : Drives l s r q := by
  refine ⟨h.work, ?_⟩
  intro hs v hv
  have hvk : v.link = k := Option.some.inj ((stand?_eq_some.1 hv).1.symm.trans hk)
  obtain ⟨w, hw, hvw⟩ := h.own hs v hv
  exact ⟨w, hw, hpq v r.1 w hvk hvw⟩

/-- The link is written to first. -/
theorem write {x : Link} (hk : s.link? l = some k) (ho : k.Own x) (hx : x.wait = k.wait)
    (h : Drives l (s.setLink l x) r p) (hpq : ∀ v o w, v.link = k → p (v.put x) o w → q v o w) :
    Drives l s r q := by
  refine ⟨(Work.write hk ho hx).trans h.work, ?_⟩
  intro hs v hv
  have hvk : v.link = k := Option.some.inj ((stand?_eq_some.1 hv).1.symm.trans hk)
  obtain ⟨w, hw, hvw⟩ := h.own hs _ (stand?_setLink_self hv x)
  exact ⟨w, hw, hpq v r.1 w hvk hvw⟩

/-- Something is done first that the link does not show. -/
theorem aside (hw : Work l s t) (hst : t.stand? l = s.stand? l) (h : Drives l t r p) :
    Drives l s r p :=
  ⟨hw.trans h.work, fun hs v hv => h.own (hw.sole hs) v (hst.trans hv)⟩

theorem count (i : Nat) {c : Connection.Counter} (hc : c.isOfClose = false)
    (h : Drives l (s.count i c) r p) : Drives l s r p :=
  aside (.count s i hc) (stand?_congr rfl rfl) h

/-- Something is counted last. -/
theorem counted (i : Nat) {c : Connection.Counter} (hc : c.isOfClose = false)
    (h : Drives l s r p) : Drives l s (r.1, r.2.count i c) p := by
  refine ⟨h.work.trans (.count _ i hc), ?_⟩
  intro hs v hv
  obtain ⟨w, hw, hvw⟩ := h.own hs v hv
  exact ⟨w, (stand?_congr rfl rfl).trans hw, hvw⟩

/-- Others do something first. -/
theorem course (hc : Course s t) (h : Drives l t r p)
    (hpq : ∀ v u o w, Stand.Course v u → p u o w → q v o w) : Drives l s r q := by
  refine ⟨.course hc h.work, ?_⟩
  intro hs v hv
  obtain ⟨u, hu, hvu⟩ := hc.stand hv
  obtain ⟨w, hw, huw⟩ := h.own (hc.sole hs) u hu
  exact ⟨w, hw, hpq v u r.1 w hvu huw⟩

/-- The deadline is taken back first. -/
theorem disarm (hk : s.link? l = some k) (h : Drives l (s.disarm l) r p)
    (hpq : ∀ v o w, v.link = k → p (v.put k.disarmed) o w → q v o w) : Drives l s r q := by
  have hwork : Work l s (s.disarm l) := .disarmed (.refl _)
  refine ⟨hwork.trans h.work, ?_⟩
  intro hs v hv
  have hvk : v.link = k := Option.some.inj ((stand?_eq_some.1 hv).1.symm.trans hk)
  obtain ⟨w, hw, hvw⟩ := h.own (hwork.sole hs) _ (stand?_disarm hv)
  exact ⟨w, hw, hpq v r.1 w hvk (hvk ▸ hvw)⟩

theorem transition {e : Connection.Event} {go : Link → Engine → Outcome × Engine}
    (h : ∀ t k, t.link? l = some k → Drives l t (go k t) p) :
    Drives l s (withTransition l e s go) (Plan.transition e p) := by
  unfold withTransition
  split
  · next hk => exact absent hk _ _
  · next k hk =>
    split
    · next f hf =>
      refine look hk (yield _ s) ?_
      intro v o w hvk hvw
      unfold Plan.transition
      rw [hvk, hf]
      exact hvw
    · next k' hk' =>
      refine write hk (.transition hk') (Link.wait_transition hk') (h _ k' (link?_setLink_self hk k')) ?_
      intro v o w hvk hvw
      unfold Plan.transition
      rw [hvk, hk']
      exact hvw

theorem hook {hook : Hook} {upgrades : Upgrades} {go : Bool → Engine → Outcome × Engine}
    {p : Bool → Plan} (hk : s.link? l = some k)
    (h : ∀ keep t k, t.link? l = some k → Drives l t (go keep t) (p keep)) :
    Drives l s (withHook l hook upgrades s go) (Plan.hook hook upgrades p) := by
  obtain ⟨hwork, hown⟩ := callHook_hooked hk hook upgrades
  unfold withHook
  generalize callHook l hook upgrades s = call at hwork hown
  obtain ⟨ending, t⟩ := call
  obtain ⟨w₀, hw₀, -⟩ := hown _ (stand?_of_link? hk)
  have hk₀ := (stand?_eq_some.1 hw₀).1
  -- The step goes on only after a hook that returned.
  cases ending with
  | returned keep =>
    have hgo := h keep t _ hk₀
    refine ⟨hwork.trans hgo.work, ?_⟩
    intro hs v hv
    obtain ⟨u, hu, hvu⟩ := hown v hv
    obtain ⟨w, hw, huw⟩ := hgo.own (hwork.sole hs) u hu
    exact ⟨w, hw, .returned keep, u, hvu, huw⟩
  | failed f =>
    refine ⟨hwork, ?_⟩
    intro _ v hv
    obtain ⟨u, hu, hvu⟩ := hown v hv
    exact ⟨u, hu, .failed f, u, hvu, rfl, rfl⟩
  | panicked =>
    refine ⟨hwork, ?_⟩
    intro _ v hv
    obtain ⟨u, hu, hvu⟩ := hown v hv
    exact ⟨u, hu, .panicked, u, hvu, rfl, rfl⟩

theorem flush {go : Link → Engine → Outcome × Engine} (hk : s.link? l = some k)
    (h : ∀ t k, t.link? l = some k → Drives l t (go k t) p) :
    Drives l s (withFlush l s go) (Plan.flush p) := by
  have hcloses := k.stream.closes_flush
  have hk' := link?_setLink_self hk { k with stream := k.stream.flush.2 }
  unfold withFlush
  rw [hk]
  simp only
  cases hf : k.stream.flush.1 with
  | error kind =>
    refine write hk (.stream hcloses) rfl (p := fun v o w =>
      o = .fail (.ofKind kind) ∧ w = v.put (v.link.note (.unflushed kind))) ?_ ?_
    · simp only
      rw [note_eq_setLink hk']
      refine write hk' (.note _ rfl) rfl (yield _ _) ?_
      intro v o w hvk hvw
      rw [hvk]
      exact hvw
    · intro v o w hvk hvw
      unfold Plan.flush
      rw [hvk, hf, Link.flushed_of_error hf]
      exact hvw
  | ok _ =>
    refine write hk (.stream hcloses) rfl (h _ _ hk') ?_
    intro v o w hvk hvw
    unfold Plan.flush
    rw [hvk, hf, Link.flushed_of_ok hf]
    exact hvw

/-- Setting a deadline gives the wait a number, and fails only for a scheduler that
was shut down. -/
private theorem arm_arms (hk : s.link? l = some k) (delay : Time.Duration) :
    match (s.arm l delay).1 with
    | .error f => (s.scheduler.Sole → f = .schedulerShutdown) ∧
        ∀ v, s.stand? l = some v → (s.arm l delay).2.stand? l =
          some (v.put ({ k with waitGeneration := k.waitGeneration + 1 }.note (.unarmed f)))
    | .ok () => ∃ t, ∀ v, s.stand? l = some v → (s.arm l delay).2.stand? l =
          some (v.put { k with waitGeneration := k.waitGeneration + 1, deadline := some t }) := by
  -- There is one heap only, so no other holds the timer.
  have hf : ∀ f, (s.scheduler.queue s.alarms.length s.now delay).1 = .error f →
      s.scheduler.Sole → f = .schedulerShutdown :=
    fun f hf hs => Timer.Scheduler.queue_error hs hf
  rw [arm_eq hk]
  generalize s.scheduler.queue s.alarms.length s.now delay = queued at hf ⊢
  obtain ⟨r, x⟩ := queued
  cases r with
  | error f =>
    exact ⟨hf f rfl, fun v hv => (stand?_congr rfl rfl).trans (stand?_setLink_self hv _)⟩
  | ok _ => exact ⟨_, fun v hv => (stand?_congr rfl rfl).trans (stand?_setLink_self hv _)⟩

theorem arm {delay : Time.Duration} {go : Engine → Outcome × Engine} (hk : s.link? l = some k)
    (h : ∀ t k, t.link? l = some k → Drives l t (go t) p) :
    Drives l s (match s.arm l delay with
      | (.error f, s) => (.fail f, s)
      | (.ok (), s) => go s) (Plan.arm p) := by
  have hown := arm_arms hk delay
  have hwork : Work l s (s.arm l delay).2 := .armed delay (.refl _)
  generalize s.arm l delay = armed at hwork hown
  obtain ⟨r, t⟩ := armed
  cases r with
  | error f =>
    refine ⟨hwork, ?_⟩
    intro hs v hv
    obtain rfl : v.link = k := Option.some.inj ((stand?_eq_some.1 hv).1.symm.trans hk)
    obtain rfl := hown.1 hs
    exact ⟨_, hown.2 v hv, .inl ⟨rfl, rfl⟩⟩
  | ok _ =>
    obtain ⟨timer, hown⟩ := hown
    have hgo := h t _ (stand?_eq_some.1 (hown _ (stand?_of_link? hk))).1
    refine ⟨hwork.trans hgo.work, ?_⟩
    intro hs v hv
    obtain rfl : v.link = k := Option.some.inj ((stand?_eq_some.1 hv).1.symm.trans hk)
    obtain ⟨w, hw, hvw⟩ := hgo.own (hwork.sole hs) _ (hown v hv)
    exact ⟨w, hw, .inr ⟨timer, hvw⟩⟩

/-- The link closes for its own reason, or for the one that was asked for. -/
theorem closes (hk : s.link? l = some k) (own : CloseReason) :
    Drives l s (.close (s.closeReasonOr k own), s) (Plan.close own) := by
  refine look hk (yield _ s) ?_
  intro v o w hvk hvw
  refine ⟨_, ?_, hvw⟩
  unfold closeReasonOr
  rw [hvk]
  split
  · exact .inr rfl
  · next hc => exact .inl ⟨rfl, closing_of_not_isClosing hc⟩

end Drives

/-! ## The steps -/

private theorem stepAccept_drives (l : Nat) (s : Engine) :
    Drives l s (stepAccept l s) Plan.accept := by
  unfold stepAccept Plan.accept
  refine .transition ?_
  intro t k hk
  have hcloses := k.stream.socket.closes_setReadTimeout
    (t.listener k.listener).settings.readTimeout.millis
  have hsent := k.stream.socket.sent_setReadTimeout
    (t.listener k.listener).settings.readTimeout.millis
  generalize k.stream.socket.setReadTimeout
    (t.listener k.listener).settings.readTimeout.millis = set at hcloses hsent
  obtain ⟨r, socket⟩ := set
  have hquiet : k.stream.Quiet { k.stream with socket } := ⟨hsent, rfl, rfl⟩
  have hk' := link?_setLink_self hk { k with stream := { k.stream with socket } }
  cases r with
  | error kind =>
    refine .write hk (.stream (x := { k.stream with socket }) hcloses) rfl (.yield _ _) ?_
    intro v o w hvk hvw
    exact ⟨_, hvk ▸ hquiet, .inl ⟨kind, hvk ▸ hvw⟩⟩
  | ok _ =>
    refine .write hk (.stream (x := { k.stream with socket }) hcloses) rfl
      (.hook hk' fun _ t _ _ => .yield _ t) ?_
    intro v o w hvk hvw
    exact ⟨_, hvk ▸ hquiet, .inr (hvk ▸ hvw)⟩

private theorem stepResumeParked_drives (l : Nat) (s : Engine) :
    Drives l s (stepResumeParked l s) Plan.resumeParked := by
  unfold stepResumeParked
  split
  · next hk => exact .absent hk _ _
  · next k hk =>
    -- Whatever the task decides, the deadline of the wait is taken back first.
    have hgo : ∀ o, (∀ v : Stand, v.link = k →
        Plan.resumeParked v o (v.put v.link.disarmed)) →
        Drives l s (o, s.disarm l) Plan.resumeParked := by
      intro o ho
      refine .disarm hk (.yield o _) ?_
      intro v o' w hvk hvw
      obtain ⟨rfl, rfl⟩ := hvw
      exact hvk ▸ ho v hvk
    simp only
    split
    · next hm =>
      split
      · next ht =>
        refine hgo _ fun v hv => ⟨rfl, ?_⟩
        rw [hv, hm]
        exact (if_pos ht).symm
      · next ht =>
        refine hgo _ fun v hv => ⟨rfl, ?_⟩
        rw [hv, hm]
        exact (if_neg ht).symm
    · next hm =>
      refine hgo _ fun v hv => ⟨rfl, ?_⟩
      rw [hv, hm]
    · next hm hm' =>
      refine hgo _ fun v hv => ⟨rfl, ?_⟩
      rw [hv]
      split
      · next h => exact absurd h hm
      · next h => exact absurd h hm'
      · rfl

private theorem stepDispatch_drives (l : Nat) (s : Engine) :
    Drives l s (stepDispatch l s) Plan.dispatch := by
  unfold stepDispatch Plan.dispatch
  refine .transition ?_
  intro t k hk
  refine .count k.listener (c := .requests) (by decide) ?_
  have hk' : (t.count k.listener .requests).link? l = some k := hk
  refine .write hk' (x := { k with pending := .none }) ⟨rfl, .inl rfl, .inl rfl, Nat.le_refl _⟩ rfl
    (.hook (link?_setLink_self hk' _) fun keep u k hk => .flush hk fun u _ _ => .yield _ u) ?_
  intro v o w hvk hvw
  unfold Plan.write
  rw [hvk]
  exact hvw

private theorem stepAfter_drives (l : Nat) (keep : Bool) (s : Engine) :
    Drives l s (stepAfter l keep s) (Plan.after keep) := by
  unfold stepAfter
  split
  · next hk => exact .absent hk _ _
  · next k hk =>
    have hown : ∀ c, k.Own { k with pending := .none, comet := c } := fun c =>
      ⟨rfl, .inl rfl, .inl rfl, Nat.le_refl _⟩
    split
    · next hp =>
      refine .write hk (hown k.comet) rfl (.yield _ _) ?_
      intro v o w hvk hvw
      unfold Plan.after
      rw [hvk, hp]
      exact hvw
    · next c hp =>
      refine .write hk (hown (some c)) rfl (.yield _ _) ?_
      intro v o w hvk hvw
      unfold Plan.after
      rw [hvk, hp]
      exact hvw
    · next hp =>
      refine .look hk (.yield _ s) ?_
      intro v o w hvk hvw
      unfold Plan.after
      rw [hvk, hp]
      refine ⟨⟨_, ?_, hvw.1⟩, hvw.2⟩
      rintro (hc | rfl)
      · rw [show s.isClosing k = true from by rw [isClosing, hc, Bool.true_or], Bool.or_true]
      · rfl

private theorem stepRest_drives (l : Nat) (killed : Bool) (s : Engine) :
    Drives l s (stepRest l killed s) (Plan.rest killed) := by
  unfold stepRest
  split
  · next hk => exact .absent hk _ _
  · next k hk =>
    have hown : ∀ m t, k.Own { k with comet := none, machine := m, restUntil := t } :=
      fun m t => ⟨rfl, .inl rfl, .inl rfl, Nat.le_refl _⟩
    simp only
    split
    · next r hr =>
      refine .write hk (hown k.machine k.restUntil) rfl (.yield _ _) ?_
      intro v o w hvk hvw
      unfold Plan.rest Plan.write
      simp only [hvk, Stand.link_put, hr]
      exact hvw
    · next m hm =>
      split
      · next hc =>
        have hk' := link?_setLink_self hk { k with comet := none, machine := m }
        refine .write hk (hown m k.restUntil) rfl (.closes hk' .normal) ?_
        intro v o w hvk hvw
        unfold Plan.rest Plan.write
        simp only [hvk, Stand.link_put, hm, if_pos hc, Stand.put_put]
        exact hvw
      · next hc =>
        refine .counted (r := (.next .await, s.setLink l _)) k.listener (c := .keepalives)
          (by decide) ?_
        refine .write hk (hown m _) rfl (.yield _ _) ?_
        intro v o w hvk hvw
        unfold Plan.rest Plan.write
        simp only [hvk, Stand.link_put, hm, if_neg hc, Stand.put_put]
        exact ⟨_, hvw⟩

theorem register_course (l : Nat) (k : Link) (m : Multiplexer) (s : Engine) :
    Course s (register l k m s).2 := by
  have hput : ∀ m,
      Course s (s.modifyListener k.listener fun x => { x with multiplexer := some m }) :=
    fun m => .single (.listener _ (.watch m))
  have hgo : ∀ (takes : Bool) (events : List Multiplexer.Event) (s : Engine),
      Course s (register.go l takes events s).2 := by
    intro takes events
    induction events with
    | nil => exact .refl
    | cons e rest ih =>
      intro s
      have hnotify := notify_course (tears_tearDown s.openLinks) (Nat.le_refl _) l
      have helapse := elapse_course (deadlineWhile + elapseSlack) s
      cases e with
      | notice => exact hnotify.trans (ih _)
      | deadlines => exact helapse.trans ((runTimers_course _).trans (ih _))
      | deadlinesAfterShutdown =>
        exact helapse.trans
          (.change (.scheduler (.shutdown _)) ((runTimers_course _).trans (ih _)))
      | panic => exact .refl s
  unfold register
  cases m with
  | polling w => exact hput _
  | scripted script => exact (hput _).trans (hgo _ _ _)

/-- A link the multiplexer did not take is waited for by its task, or a waker has
it. -/
private theorem declined_drives (hk : s.link? l = some k) :
    Drives l s (stepAwait.declined l s) Plan.declined := by
  unfold stepAwait.declined
  rw [hk]
  simp only
  split
  · next r hr =>
    have hk' := link?_setLink_self hk { k with request := r }
    refine .write hk (x := { k with request := r }) ⟨rfl, .inl rfl, .inl rfl, Nat.le_refl _⟩ rfl
      (.disarm hk' (.yield _ _) fun v o w _ hvw => hvw) ?_
    intro v o w hvk hvw
    unfold Plan.declined
    rw [hvk, hr]
    exact hvw
  · next hr =>
    -- A waker was faster, and the link is its own.
    refine .look hk (.yield _ s) ?_
    intro v o w hvk hvw
    unfold Plan.declined
    split
    · next r hr' => exact absurd (hvk ▸ hr') (hr r)
    · exact hvw

/-- Handing a link to the multiplexer keeps to its plan. -/
private theorem register_drives (hk : s.link? l = some k) (k₀ : Link) (m : Multiplexer) :
    Drives l s (match register l k₀ m s with
      | (none, s) => (.panic, s)
      | (some true, s) => (.park, s)
      | (some false, s) => stepAwait.declined l s) Plan.register := by
  have hcourse := register_course l k₀ m s
  generalize register l k₀ m s = registered at hcourse
  obtain ⟨r, t⟩ := registered
  obtain ⟨w, hw, -⟩ := hcourse.stand (stand?_of_link? hk)
  have hk' := (stand?_eq_some.1 hw).1
  -- While it registers, others may have taken the link over already.
  match r with
  | none => exact .course hcourse (.yield _ t) fun v u o w hvu hvw => ⟨u, hvu, .inl hvw⟩
  | some true =>
    exact .course hcourse (.yield _ t) fun v u o w hvu hvw => ⟨u, hvu, .inr (.inl hvw)⟩
  | some false =>
    exact .course hcourse (declined_drives hk') fun v u o w hvu hvw => ⟨u, hvu, .inr (.inr hvw)⟩

private theorem stepAwait_drives (l : Nat) (s : Engine) :
    Drives l s (stepAwait l s) Plan.await := by
  unfold stepAwait
  split
  · next hk => exact .absent hk _ _
  · next k hk =>
    simp only
    generalize hr : k.stream.poll.1 = r
    generalize hstream : k.stream.poll.2 = stream
    have hk' := link?_setLink_self hk { k with stream }
    refine .write hk (x := { k with stream }) (.stream (hstream ▸ k.stream.closes_poll)) rfl (p := Plan.polled) ?_ ?_
    · match r with
      | .error kind => exact .mono (.yield _ _) fun v o w hvw => .inl ⟨kind, hvw⟩
      | .ok .ready => exact .mono (.yield _ _) fun v o w hvw => .inr (.inl hvw)
      | .ok .closed =>
        exact .mono (.closes hk' .peerClosed) fun v o w hvw => .inr (.inr (.inl hvw))
      | .ok .pending =>
        simp only
        split
        · exact .mono (.yield _ _) fun v o w hvw => .inr (.inr (.inr (.inl hvw)))
        · split
          · exact .mono (.yield _ _) fun v o w hvw => .inr (.inr (.inr (.inr (.inl hvw))))
          · next m _ =>
            -- There is a multiplexer, and the link is handed to it.
            split
            · next r hr =>
              refine .look hk' (.yield _ _) ?_
              intro v o w hvk hvw
              refine .inr (.inr (.inr (.inr (.inr ?_))))
              rw [hvk]
              simp only [hr]
              exact hvw
            · next r hr =>
              refine .write hk' (x := { k with stream, request := r }) ⟨rfl, .inl rfl, .inl rfl, Nat.le_refl _⟩ rfl
                (.arm (link?_setLink_self hk' _) fun t k hk => register_drives hk _ m) ?_
              intro v o w hvk hvw
              refine .inr (.inr (.inr (.inr (.inr ?_))))
              rw [hvk]
              simp only [hr]
              exact hvw
    · intro v o w hvk hvw
      unfold Plan.await
      rw [hvk, hstream]
      exact hvw

/-- Waiting once keeps to its plan. -/
private theorem waitOnce_drives (hk : s.link? l = some k) (deadline : Nat) (ready idle : Step)
    (late : CloseReason) :
    Drives l s (waitOnce l deadline ready idle late s) (Plan.wait ready idle late) := by
  unfold waitOnce
  rw [hk]
  simp only
  split
  · exact .mono (.closes hk .peerClosed) fun v o w hvw => .inl hvw
  · next hclosing =>
    have hc := closing_of_not_isClosing hclosing
    split
    · exact .look hk (.yield _ s) fun v o w hvk hvw => .inr ⟨hvk ▸ hc, .inl hvw⟩
    · -- The wait lets others in, so what follows is about where they left the link.
      have hcourse := awaitReadable_course hk
      generalize awaitReadable l s = waited at hcourse
      obtain ⟨r, t⟩ := waited
      have hset := link?_setLink_self hk { k with stream := k.stream.wait.2 }
      obtain ⟨w, hw, -⟩ := hcourse.stand (stand?_of_link? hset)
      have hk' := (stand?_eq_some.1 hw).1
      refine .write hk (.stream k.stream.closes_wait) rfl
        (.course hcourse (p := fun v o w => (∃ kind, Plan.yield (.fail (.ofKind kind)) v o w) ∨
          Plan.yield (.next ready) v o w ∨ Plan.yield (.next idle) v o w ∨
          Plan.close .peerClosed v o w)
          (q := fun v o w => ∃ u, Stand.Course v u ∧
            ((∃ kind, Plan.yield (.fail (.ofKind kind)) u o w) ∨
              Plan.yield (.next ready) u o w ∨ Plan.yield (.next idle) u o w ∨
              Plan.close .peerClosed u o w)) ?_ fun v u o w hvu hvw => ⟨u, hvu, hvw⟩) ?_
      · match r with
        | .error kind => exact .mono (.yield _ t) fun v o w hvw => .inl ⟨kind, hvw⟩
        | .ok .ready => exact .mono (.yield _ t) fun v o w hvw => .inr (.inl hvw)
        | .ok .pending => exact .mono (.yield _ t) fun v o w hvw => .inr (.inr (.inl hvw))
        | .ok .closed =>
          simp only [hk', Option.elim_some]
          exact .mono (.closes hk' .peerClosed) fun v o w hvw => .inr (.inr (.inr hvw))
      · intro v o w hvk hvw
        obtain ⟨u, hvu, huw⟩ := hvw
        refine .inr ⟨hvk ▸ hc, .inr ⟨u, ?_, huw⟩⟩
        unfold Stand.Waited
        rw [hvk]
        exact hvu

private theorem stepBlock_drives (l : Nat) (s : Engine) :
    Drives l s (stepBlock l s) (Plan.wait .dispatch .block .keepaliveTimeout) := by
  unfold stepBlock
  split
  · next hk => exact .absent hk _ _
  · next k hk => exact waitOnce_drives hk _ _ _ _

/-- Giving a link away keeps to its plan. -/
private theorem park_drives (hk : s.link? l = some k) :
    Drives l s (stepSuspend.park l s) Plan.park := by
  unfold stepSuspend.park
  rw [hk]
  simp only
  split
  · next r hr =>
    refine .look hk (.yield _ s) ?_
    intro v o w hvk hvw
    unfold Plan.park
    rw [hvk, hr]
    exact hvw
  · next r hr =>
    refine .write hk (x := { k with request := r }) ⟨rfl, .inl rfl, .inl rfl, Nat.le_refl _⟩ rfl (.yield _ _) ?_
    intro v o w hvk hvw
    unfold Plan.park
    rw [hvk, hr]
    exact hvw
  · next r hr =>
    -- The wake came first: the deadline is taken back, and the task goes on.
    have hk' := link?_setLink_self hk { k with request := r }
    refine .write hk (x := { k with request := r }) ⟨rfl, .inl rfl, .inl rfl, Nat.le_refl _⟩ rfl
      (.disarm hk' (.yield _ _) fun v o w _ hvw => hvw) ?_
    intro v o w hvk hvw
    unfold Plan.park
    rw [hvk, hr]
    exact hvw

private theorem stepSuspend_drives (l : Nat) (s : Engine) :
    Drives l s (stepSuspend l s) Plan.suspend := by
  unfold stepSuspend
  split
  · next hk => exact .absent hk _ _
  · next k hk =>
    split
    · next hc =>
      refine .look hk (.yield _ s) ?_
      intro v o w hvk hvw
      unfold Plan.suspend
      rw [hvk, if_pos hc]
      exact hvw
    · next hc =>
      refine .look hk (.transition (p := Plan.arm Plan.park) ?_) ?_
      · intro t k hk
        exact .arm hk fun u k' hk' =>
          .count k.listener (c := .suspends) (by decide) (park_drives hk')
      · intro v o w hvk hvw
        unfold Plan.suspend
        rw [hvk, if_neg hc]
        exact hvw

/-- A flush that may fail is a write to the stream, and a note where it did. -/
private theorem flushAnyway_drives (hk : s.link? l = some k) (outcome : Outcome) :
    Drives l s (outcome, stepResume.flushAnyway l s) fun v o w =>
      o = outcome ∧ w = v.put v.link.flushed := by
  have hcloses := k.stream.closes_flush
  have hflush : stepResume.flushAnyway l s = s.setLink l k.flushed := modifyLink_eq_setLink hk _
  rw [hflush]
  have hown : k.Own k.flushed := by
    cases hf : k.stream.flush.1 with
    | ok _ =>
      rw [Link.flushed_of_ok hf]
      exact .stream hcloses
    | error kind =>
      rw [Link.flushed_of_error hf]
      exact ⟨rfl, .inl hcloses, .inr ⟨_, rfl, rfl⟩, Nat.le_refl _⟩
  refine .write hk hown (Link.wait_flushed k) (.yield _ _) ?_
  intro v o w hvk hvw
  exact ⟨hvw.1, hvk ▸ hvw.2⟩

/-- A request whose deadline passed is ended as planned. -/
private theorem expire_drives (hk : s.link? l = some k) :
    Drives l s (match callHook l .suspendTimeout .none s with
      | (.panicked, s) => (.panic, s)
      | (_, s) => (.close .suspendTimeout, stepResume.flushAnyway l s)) Plan.expire := by
  obtain ⟨hwork, hown⟩ := callHook_hooked hk .suspendTimeout .none
  generalize callHook l .suspendTimeout .none s = call at hwork hown
  obtain ⟨ending, t⟩ := call
  obtain ⟨w₀, hw₀, -⟩ := hown _ (stand?_of_link? hk)
  have hflush := flushAnyway_drives (stand?_eq_some.1 hw₀).1 (.close .suspendTimeout)
  have hclose : ending ≠ .panicked →
      Drives l s (.close .suspendTimeout, stepResume.flushAnyway l t) Plan.expire := by
    intro hne
    refine ⟨hwork.trans hflush.work, ?_⟩
    intro hs v hv
    obtain ⟨u, hu, hvu⟩ := hown v hv
    obtain ⟨w, hw, ho, huw⟩ := hflush.own (hwork.sole hs) u hu
    exact ⟨w, hw, ending, u, hvu, by rw [if_neg hne]; exact ⟨rfl, huw⟩⟩
  cases ending with
  | panicked =>
    refine ⟨hwork, ?_⟩
    intro _ v hv
    obtain ⟨u, hu, hvu⟩ := hown v hv
    exact ⟨u, hu, .panicked, u, hvu, rfl, rfl⟩
  | returned keep => exact hclose (by simp)
  | failed f => exact hclose (by simp)

private theorem stepResume_drives (l : Nat) (timedOut : Bool) (s : Engine) :
    Drives l s (stepResume l timedOut s) (Plan.resume timedOut) := by
  unfold stepResume Plan.resume
  refine .transition ?_
  intro t k hk
  simp only
  have hk' := link?_setLink_self hk { k with comet := none }
  -- A deadline that passed goes before a reason to close, and that before the hook.
  refine .write hk (x := { k with comet := none }) ⟨rfl, .inl rfl, .inl rfl, Nat.le_refl _⟩ rfl
    (p := fun v o w => if timedOut then Plan.expire v o w
      else if v.link.closing then o = .close v.link.requestedClose ∧ w = v
      else Plan.hook .resume .comet
        (fun keep => .flush <| .yield (.next (.after keep))) v o w) ?_ ?_
  · split
    · exact expire_drives hk'
    · split
      · next hc =>
        refine .look hk' (.yield _ _) ?_
        intro v o w hvk hvw
        rw [hvk]
        simp only [if_pos hc]
        exact hvw
      · next hc =>
        refine .count k.listener (c := .wakes) (by decide) ?_
        refine .look hk' (.hook hk' fun keep u k hk => .flush hk fun u _ _ => .yield _ u) ?_
        intro v o w hvk hvw
        rw [hvk]
        simp only [if_neg hc]
        exact hvw
  · intro v o w hvk hvw
    unfold Plan.write
    rw [hvk]
    exact hvw

private theorem stepUpgrade_drives (l : Nat) (s : Engine) :
    Drives l s (stepUpgrade l s) Plan.upgrade := by
  unfold stepUpgrade Plan.upgrade
  refine .transition ?_
  intro t k hk
  refine .counted (r := (.next (.listen (idleUntil t k)), t.setLink l { k with duplex := some {} }))
    k.listener (c := .duplexUpgrades) (by decide) ?_
  refine .write hk (x := { k with duplex := some {} }) ⟨rfl, .inl rfl, .inl rfl, Nat.le_refl _⟩ rfl
    (.yield _ _) ?_
  intro v o w hvk hvw
  exact ⟨_, hvk ▸ hvw⟩

private theorem stepService_drives (l : Nat) (s : Engine) :
    Drives l s (stepService l s) Plan.service := by
  unfold stepService Plan.service
  refine .transition fun t before hk => ?_
  -- How much was read before the hook was called is told by the link it is called on.
  refine .look hk (.hook hk fun _ t k hk => .flush hk (p := Plan.serviced ⟨before, []⟩) ?_)
    fun v o w hvk hvw => by subst hvk; exact hvw
  intro t k hk
  simp only
  split
  · next hended =>
    exact .look hk (.closes hk .normal) fun v o w hvk hvw => .inl ⟨hvk ▸ hended, hvw⟩
  · next hended =>
    have hended := Bool.not_eq_true _ ▸ hended
    split
    · next hconsumed =>
      exact .look hk (.yield _ t) fun v o w hvk hvw =>
        .inr (.inl ⟨hvk ▸ hended, hvk ▸ hconsumed, hvw⟩)
    · next hconsumed =>
      refine .write hk (x := { k with duplex := some _ }) ⟨rfl, .inl rfl, .inl rfl, Nat.le_refl _⟩ rfl
        (.transition (p := fun v o w => ∃ t, Plan.yield (.next (.listen t)) v o w)
          fun u k' hk' => .mono (.yield _ u) fun v o w hvw => ⟨_, hvw⟩) ?_
      intro v o w hvk hvw
      subst hvk
      exact .inr (.inr ⟨Nat.pos_of_ne_zero hconsumed, hended, hvw⟩)

/-- **Each step keeps to its plan.** -/
theorem stepLink_drives (hk : s.link? l = some k) (step : Step) :
    Drives l s (stepLink l step s) (Stand.plan step) := by
  cases step with
  | accept => exact stepAccept_drives l s
  | resumeParked => exact stepResumeParked_drives l s
  | dispatch => exact stepDispatch_drives l s
  | after keep => exact stepAfter_drives l keep s
  | rest killed => exact stepRest_drives l killed s
  | await => exact stepAwait_drives l s
  | block => exact stepBlock_drives l s
  | suspend => exact stepSuspend_drives l s
  | resume timedOut => exact stepResume_drives l timedOut s
  | upgrade => exact stepUpgrade_drives l s
  | listen deadline => exact waitOnce_drives hk _ _ _ _
  | service => exact stepService_drives l s

end LinkEngine.Engine

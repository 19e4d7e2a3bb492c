import LinkEngine.Proofs.Hooks
import LinkEngine.Proofs.Teardown
import LinkEngine.Proofs.Whole

/-!
# When memory runs out

A hook that fails for lack of memory, or whose output cannot be flushed for it, ends more than
its own link: the task of the link raises the signal, so that every listener shuts down, and
only then tears its link down, for lack of memory whatever else was asked for
(`conclude_outOfMemory`). The shutdown finds the links of all listeners wherever they are.
Where tasks run one after the other it finds none of them about to be parked
(`heedful_of_runsWhole`), so they all leave (`leaves_of_heedful`), and when their tasks have run
they are closed (`out_of_memory_closes_all`).
-/

namespace LinkEngine

open Connection (CloseReason)
open Link (Failed Outcome Step)

/-- A hook was called that ran out of memory, or what it wrote could not be flushed for that.
That a request is told of its deadline does not count: it is over anyway. -/
def Link.RanOut (k k' : Link) : Prop :=
  ∃ hook ending more f, hook ∈ ([.start, .request, .resume, .service] : List Hook) ∧
    Failed ending more f ∧ f.isOutOfMemory = true ∧
    k'.calls = k.calls ++ .began hook :: .ended hook ending :: more

namespace Stand

variable {v w u : Stand} {o : Outcome} {step : Step} {reason : CloseReason}

/-- **A step whose hook ran out of memory fails for that**, and leaves its link open and with
its task. -/
theorem Ready.ranOut (hv : Ready step v) (hp : plan step v o w) (hc : Concluded w o u)
    (hr : v.link.RanOut u.link) :
    ∃ f, o = .fail f ∧ f.isOutOfMemory = true ∧ w.link.closed = false ∧
      w.link.request.isParked = false := by
  obtain ⟨hook, ending, more, f, hh, hfailed, hf, hcalls⟩ := hr
  rw [hc.silent.calls] at hcalls
  rcases hv.invokes hp with ⟨hs, -⟩ | ⟨hook', -, hi⟩
  · rw [hs.calls, List.self_eq_append_right] at hcalls
    cases hcalls
  · obtain ⟨ending', more', hcalls', -⟩ := hi.calls
    have hsame := hcalls'.symm.trans hcalls
    rw [List.append_cancel_left_eq] at hsame
    cases hsame
    obtain ⟨ho, hparked⟩ := hi.reports _ _ hcalls' f hfailed
      (by rintro rfl; exact absurd hh (by decide))
    exact ⟨f, ho, hf, hi.closed, hparked⟩

/-- Who is torn down is closed for the reason that was given. -/
theorem TornDown.closeReason (h : TornDown reason v w) (hc : v.link.closed = false) :
    w.link.closeReason = some reason := by
  cases h with
  | before hc' => exact nomatch hc'.symm.trans hc
  | now _ hook =>
    have hsettled := hook.settled (Link.closed_marked v.link reason)
    exact hsettled.closeReason.trans (Link.marked_fields v.link reason).1

end Stand

namespace Engine

variable {s : Engine} {i l : Nat} {k k' : Link} {v : Stand} {m : Move} {f : Failure}

/-! ## The step that fails -/

/-- A signal has its reason from whoever raised it first. -/
theorem signal_trigger (reason : Shutdown.Reason) (s : Engine) :
    (trigger tearDown reason s).2.signal = some (s.signal.getD reason) := by
  unfold trigger
  split
  · next h => exact h.trans (congrArg some (h ▸ rfl))
  · next h =>
    have hall : Course { s with signal := some reason }
        ((List.range s.listeners.length).foldl (fun s i => shutdownListener tearDown i s)
          { s with signal := some reason }) :=
      foldl_course (Nat.le_refl _)
        (fun s i hs => shutdownListener_course (tears_tearDown _) (Nat.le_refl _) i) _
    rw [h]
    exact hall.shuts.signal reason rfl

/-- Who lacks memory does not ask what the link was to close for. -/
private theorem failureReason_outOfMemory (hk : s.link? l = some k)
    (hf : f.isOutOfMemory = true) :
    failureReason l f s = (.outOfMemory, (trigger tearDown .outOfMemory s).2) := by
  unfold failureReason
  rw [hk]
  simp only [hf, Failure.closeReason_eq_outOfMemory.2 hf, Bool.not_true, Bool.false_eq_true,
    and_false, if_false, if_true]

/-- **A task that ends for lack of memory raises the signal, and closes its link for that**, also
where somebody asked for the close. -/
theorem conclude_outOfMemory (hv : s.stand? l = some v) (hc : v.link.closed = false)
    (hp : v.link.request.isParked = false) (hf : f.isOutOfMemory = true) :
    (conclude l (.fail f) s).signal = some (s.signal.getD .outOfMemory) ∧
      ∃ k, (conclude l (.fail f) s).link? l = some k ∧ k.closed = true ∧
        k.closeReason = some .outOfMemory ∧ k.step = none := by
  have hconclude : conclude l (.fail f) s =
      (tearDown l .outOfMemory (trigger tearDown .outOfMemory s).2).modifyLink l
        fun k => { k with step := none } := by
    unfold conclude
    dsimp only
    rw [failureReason_outOfMemory (stand?_eq_some.1 hv).1 hf]
  rw [hconclude]
  -- The shutdown asks the link to close, too, but leaves it to its task.
  obtain ⟨w, hw, hcourse⟩ := (trigger_course (tears_tearDown _) (Nat.le_refl _) .outOfMemory).stand hv
  have hopen := (hcourse.held hp).closed.trans hc
  have htorn := tearDown_tornDown l .outOfMemory (trigger tearDown .outOfMemory s).2
  obtain ⟨x, hx, htorn'⟩ := htorn.stand_self hw
  refine ⟨htorn.shuts.signal _ (signal_trigger .outOfMemory s), { x.link with step := none }, ?_,
    htorn'.closed, htorn'.closeReason hopen, rfl⟩
  rw [modifyLink_eq_setLink (stand?_eq_some.1 hx).1]
  exact link?_setLink_self (stand?_eq_some.1 hx).1 _

variable {settings : Settings.Scheduler} {now : Nat}

/-- The step of a run in which a hook runs out of memory. -/
private theorem advance_ranOut {moves : List Move}
    (hk : (after settings now moves).link? l = some k)
    (hk' : (after settings now (moves ++ [.advance l])).link? l = some k') (hr : k.RanOut k') :
    k'.closed = true ∧ k'.closeReason = some .outOfMemory ∧ k'.step = none ∧
      ∃ step, k.step = some step ∧ (after settings now (moves ++ [.advance l])).signal =
        some ((stepLink l step (after settings now moves)).2.signal.getD .outOfMemory) := by
  have hv := stand?_of_link? hk
  have hadvance : after settings now (moves ++ [.advance l]) =
      advance l (after settings now moves) := after_concat ..
  cases hstep : k.step with
  | none =>
    rw [hadvance, advance_of_none hv hstep, hk] at hk'
    cases hk'
    obtain ⟨_, _, _, _, -, -, -, hcalls⟩ := hr
    rw [List.self_eq_append_right] at hcalls
    cases hcalls
  | some step =>
    have hsole := after_sole settings now moves
    have hready := (Stand.standing_some hstep).1 (standing settings now moves hv)
    obtain ⟨w, hw, hplan⟩ := (stepLink_drives hk step).own hsole _ hv
    obtain ⟨-, x, hx, hconcluded⟩ :=
      conclude_concluded hw (stepLink l step (after settings now moves)).1
    have heq : after settings now (moves ++ [.advance l]) =
        conclude l (stepLink l step (after settings now moves)).1
          (stepLink l step (after settings now moves)).2 := by
      rw [hadvance]
      unfold advance
      rw [hk, Option.bind_some, hstep]
    rw [← heq] at hx
    obtain rfl : x.link = k' := Option.some.inj ((stand?_eq_some.1 hx).1.symm.trans hk')
    obtain ⟨f, ho, hf, hc, hp⟩ := hready.ranOut hplan hconcluded hr
    obtain ⟨hsignal, y, hy, hclosed, hreason, hnone⟩ := conclude_outOfMemory hw hc hp hf
    rw [← ho, ← heq] at hsignal hy
    obtain rfl : y = x.link := Option.some.inj (hy.symm.trans hk')
    exact ⟨hclosed, hreason, hnone, step, rfl, hsignal⟩

/-! ## Shutdowns that find every link -/

/-- Whenever a listener begins to shut down in this run, no task of a link of it is about to
park it. -/
def Heedful (settings : Settings.Scheduler) (now : Nat) (moves : List Move) : Prop :=
  ∀ before m later i, moves = before ++ m :: later →
    (after settings now before).isShuttingDown i = false →
    (after settings now (before ++ [m])).isShuttingDown i = true →
    (after settings now before).Undecided i m

theorem Heedful.of_append {first rest : List Move} (h : Heedful settings now (first ++ rest)) :
    Heedful settings now first := by
  rintro before m later i rfl
  exact h before m (later ++ rest) i (by simp)

/-- **Tasks that run one after the other are never taken by surprise.** -/
theorem heedful_of_runsWhole {moves : List Move}
    (h : runsWhole moves (create settings now) = true) : Heedful settings now moves := by
  rintro before m later i rfl - -
  rw [← List.singleton_append, ← List.append_assoc, runsWhole_append, Bool.and_eq_true] at h
  exact undecided_of_runsWhole h.1 i

/-- **All links of a listener that shuts down leave**, whichever move of the run it was. -/
theorem leaves_of_heedful {moves : List Move} (h : Heedful settings now moves)
    (hdown : (after settings now moves).isShuttingDown i = true) :
    (after settings now moves).Leaves i := by
  induction moves using List.reverseRecOn with
  | nil => exact fun l k hk => nomatch hk
  | append_singleton moves m ih =>
    cases hrun : (after settings now moves).isShuttingDown i with
    | true => exact leaves_follow hrun (ih h.of_append hrun) [m]
    | false =>
      by_cases hi : i < (after settings now moves).listeners.length
      · exact leaves_of_shutdown hi hrun hdown (h moves m [] i rfl hrun hdown)
      · exact fun l k hk hlistener => absurd hlistener
          (listener_ne_of_unbuilt settings now m (Nat.le_of_not_lt hi) (after_concat .. ▸ hk))

variable (settings now)

/-- **Lack of memory closes everything.** Let a hook that starts a link, serves a request, takes
one up again or serves a two-way stream run out of memory, or the flush of what it wrote. Then

* the link closes for lack of memory, now and for ever, whatever close was asked for before;
* the signal is raised for that, unless somebody raised it before the step was over, and it
  keeps its reason;
* from then on each connection that is brought to any listener is turned away;
* where tasks run one after the other, or at least no shutdown of a listener finds a task about
  to park a link of it, once all tasks of the links of a listener have run, in whatever order
  and whatever else happens, all links it ever had are torn down, once each, and nothing of
  them is left. -/
theorem out_of_memory_closes_all (before later : List Move) (l : Nat)
    (hk : (after settings now before).link? l = some k)
    (hk' : (after settings now (before ++ [.advance l])).link? l = some k')
    (hr : k.RanOut k') :
    (∃ x, (after settings now (before ++ .advance l :: later)).link? l = some x ∧
      x.closed = true ∧ x.closeReason = some .outOfMemory) ∧
    (∃ step, k.step = some step ∧ (after settings now (before ++ .advance l :: later)).signal =
      some ((stepLink l step (after settings now before)).2.signal.getD .outOfMemory)) ∧
    (∀ i arrival, accept i arrival (after settings now (before ++ .advance l :: later)) =
      (.refused .shuttingDown, ((after settings now (before ++ .advance l :: later)).addSlot
        arrival.socket).count i .rejected)) ∧
    (runsWhole (before ++ .advance l :: later) (create settings now) = true ∨
        Heedful settings now (before ++ .advance l :: later) →
      ∀ i, (after settings now (before ++ .advance l :: later)).Finished i → ∀ more,
        (i < (after settings now (before ++ .advance l :: later)).listeners.length →
          (after settings now (before ++ .advance l :: later ++ more)).Emptied i) ∧
        ∀ n x, (after settings now (before ++ .advance l :: later ++ more)).link? n = some x →
          x.listener = i → x.closed = true ∧
          Buried (after settings now (before ++ .advance l :: later ++ more)) n x) := by
  obtain ⟨hclosed, hreason, hnone, step, hstep, hsignal⟩ := advance_ranOut hk hk' hr
  have hsplit : before ++ .advance l :: later = before ++ [.advance l] ++ later := by
    rw [List.append_assoc, List.singleton_append]
  have hlater : (after settings now (before ++ .advance l :: later)).signal =
      some ((stepLink l step (after settings now before)).2.signal.getD .outOfMemory) := by
    rw [hsplit, after_append]
    exact (follow_shuts later _).signal _ hsignal
  have hdown : ∀ i, (after settings now (before ++ .advance l :: later)).isShuttingDown i = true :=
    fun i => Bool.or_eq_true_iff.2 (.inr (hlater ▸ rfl))
  refine ⟨?_, ⟨step, hstep, hlater⟩, fun i arrival => accept_of_shuttingDown (hdown i) arrival, ?_⟩
  · obtain ⟨x, hx, hsettled⟩ := follow_settled (after_sole settings now _) hk' hclosed hnone later
    rw [hsplit, after_append]
    exact ⟨x, hx, hsettled.closed.trans hclosed, hsettled.closeReason.trans hreason⟩
  · intro htasks i hf more
    have hleaves := leaves_of_heedful (htasks.elim heedful_of_runsWhole id) (hdown i)
    refine ⟨fun hi => emptied_of_finished hi (hdown i) hleaves hf more, ?_⟩
    rintro n x hx rfl
    have hxclosed := closed_of_emptying (hdown x.listener) hleaves hf more n x hx rfl
    exact ⟨hxclosed, (buried settings now hx hxclosed).1⟩

/-- The first of two connections is suspended when the request of the second asks for its own
close and then runs out of memory: this is what happened before that. -/
def beforeExhaustion : List Move :=
  suspending 4 ++ [.accept 0 {
      socket := {}
      handler := { requests := [[⟨"close", .closeSelf (some .ioError), false⟩,
        ⟨"fail", .fail (.ofKind .outOfMemory), false⟩]] } },
    .begin 0, .advance 1]

/-- The second connection closes for lack of memory although it was to close for another reason,
and takes the first with it. -/
theorem out_of_memory_closes_all_request :
    (∃ x, (after {} 0 (beforeExhaustion ++ [.advance 1])).link? 1 = some x ∧ x.closing = true ∧
      x.closed = true ∧ x.closeReason = some .outOfMemory) ∧
    (after {} 0 (beforeExhaustion ++ [.advance 1])).signal = some .outOfMemory ∧
    (∀ i arrival, (accept i arrival (after {} 0 (beforeExhaustion ++ [.advance 1]))).1 =
      .refused .shuttingDown) ∧
    ∃ x, (after {} 0 (beforeExhaustion ++ [.advance 1])).link? 0 = some x ∧ x.closed = true ∧
      Buried (after {} 0 (beforeExhaustion ++ [.advance 1])) 0 x := by
  have hbefore : ((after {} 0 beforeExhaustion).link? 1).map (fun k => (k.calls, k.step)) =
      some (Link.Note.served .start true, some .dispatch) := by decide
  have hafter : ((after {} 0 (beforeExhaustion ++ [.advance 1])).link? 1).map
      (fun k => (k.calls, k.closing)) = some (Link.Note.served .start true ++
        [.began .request, .ended .request (.failed (.ofKind .outOfMemory))], true) := by decide
  obtain ⟨k, hk, hcalls⟩ := Option.map_eq_some_iff.1 hbefore
  obtain ⟨k', hk', hcalls'⟩ := Option.map_eq_some_iff.1 hafter
  simp only [Prod.mk.injEq] at hcalls hcalls'
  have hr : k.RanOut k' :=
    ⟨.request, .failed (.ofKind .outOfMemory), [], .ofKind .outOfMemory, by decide, .hook _ _, rfl,
      by rw [hcalls.1, hcalls'.1]⟩
  obtain ⟨⟨x, hx, hclosed⟩, ⟨step, hstep, hsignal⟩, haccept, hall⟩ :=
    out_of_memory_closes_all {} 0 beforeExhaustion [] 1 hk hk' hr
  obtain rfl : x = k' := Option.some.inj (hx.symm.trans hk')
  have hdriven : (after {} 0 (beforeExhaustion ++ [.advance 1])).links.all (!·.isDriven) = true := by
    decide
  have htasks : (after {} 0 (beforeExhaustion ++ [.advance 1])).tasks = [] := by decide
  have hfinished : (after {} 0 (beforeExhaustion ++ [.advance 1])).Finished 0 :=
    finished_of_idle hdriven htasks 0
  have hfirst : ((after {} 0 (beforeExhaustion ++ [.advance 1])).link? 0).map (·.listener) =
      some 0 := by decide
  obtain ⟨y, hy, hlistener⟩ := Option.map_eq_some_iff.1 hfirst
  refine ⟨⟨x, hx, hcalls'.2, hclosed⟩, ?_, fun i arrival => congrArg Prod.fst (haccept i arrival),
    y, hy, (hall (.inl (by decide)) 0 hfinished []).2 0 y hy hlistener⟩
  obtain rfl : step = .dispatch := Option.some.inj (hstep.symm.trans hcalls.2)
  exact hsignal.trans (by decide)

end Engine

end LinkEngine

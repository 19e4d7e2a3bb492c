import LinkEngine.Proofs.Bytes
import LinkEngine.Proofs.Hooks
import LinkEngine.Proofs.Tallies
import Mathlib.Data.List.Chain

/-!
# Suspends and wakes take turns

A request counts as suspended when its lifecycle enters the suspended state, and as woken when
it leaves that state to be taken up again; where it leaves it otherwise, its link closes. So on
each link suspends and wakes are counted in turn, a suspend first, and while the link is open
the last that was counted says whether its request is suspended (`Dozes`).
-/

namespace LinkEngine

open Connection (Counter)
open Link (Outcome Step)

/-- The lifecycle of the link is where its request is suspended. -/
def Link.IsSuspended (k : Link) : Prop := k.machine.state = .cometSuspend

namespace Stand

variable {v w u : Stand} {o : Outcome} {step : Step} {events : List Counter}

/-! ## What a move is to a link -/

/-- A link that is open afterwards was open before, and its request is suspended if it was. -/
def Undisturbed (v w : Stand) : Prop :=
  w.link.closed = false → v.link.closed = false ∧ (w.link.IsSuspended ↔ v.link.IsSuspended)

theorem Course.undisturbed (h : Course v w) : Undisturbed v w := by
  intro hc
  refine ⟨h.silent.open hc, ?_⟩
  unfold Link.IsSuspended
  rw [(h.abides hc).2.1]

/-- What a step of its task that counts these events is to a link. -/
inductive Recorded (v w : Stand) : List Counter → Prop where
  | nothing (h : Undisturbed v w) : Recorded v w []
  | request (h : Undisturbed v w) : Recorded v w [.requests]
  | suspend (hc : v.link.closed = false) (hv : ¬ v.link.IsSuspended)
      (hw : w.link.closed = false → w.link.IsSuspended) : Recorded v w [.suspends]
  | wake (hc : v.link.closed = false) (hv : v.link.IsSuspended)
      (hw : w.link.closed = false → ¬ w.link.IsSuspended) : Recorded v w [.wakes]

/-! ## Steps -/

/-- Only a task that takes a request up finds it suspended. -/
theorem Ready.not_suspended (hv : Ready step v) (hp : step ≠ .resumeParked)
    (hr : ∀ timedOut, step ≠ .resume timedOut) : ¬ v.link.IsSuspended := by
  intro hm
  have hexpects := hv.expects
  rw [show v.link.machine.state = .cometSuspend from hm] at hexpects
  cases step with
  | resumeParked => exact hp rfl
  | resume timedOut => exact hr timedOut rfl
  | dispatch | rest | suspend => exact hexpects.1.elim nofun nofun
  | after => exact hexpects.elim (fun h => nomatch h.1) fun h => nomatch h.1
  | _ => exact nomatch hexpects.1

/-- **A step that neither suspends a request nor takes one up leaves it as it is.** -/
private theorem Ready.suspended_of_ne (hv : Ready step v) (h : plan step v o w)
    (hs : step ≠ .suspend) (hr : ∀ timedOut, step ≠ .resume timedOut) (ho : o.isEnd = false)
    (hc : w.link.closed = false) : w.link.IsSuspended ↔ v.link.IsSuspended := by
  have hleads := (plan_leads step v o w h).resolve_left (Bool.eq_false_iff.1 ho)
  have hdecided := hv.decided h
  have hawake : ∀ {step'}, o = .next step' → step ≠ .resumeParked → step' ≠ .resumeParked →
      (∀ timedOut, step' ≠ .resume timedOut) → (w.link.IsSuspended ↔ v.link.IsSuspended) := by
    rintro step' rfl hp hp' hr'
    have hw : Ready step' w := hdecided
    exact iff_of_false (hw.not_suspended hp' hr') (hv.not_suspended hp hr)
  cases hleads with
  | rests | resumes =>
    obtain ⟨rfl, -⟩ := h
    unfold Link.IsSuspended
    rw [link_put, (disarmed_same _).2.1]
  | parks =>
    refine iff_of_false ?_ (hv.not_suspended nofun nofun)
    unfold Link.IsSuspended
    rw [await_parks hv h hc]
    nofun
  | suspends | woken => exact absurd rfl hs
  | resumed timedOut => exact absurd rfl (hr timedOut)
  | _ => exact hawake rfl nofun nofun nofun

/-- A request that was taken up is suspended no more, unless its link closes. -/
private theorem Ready.not_suspended_of_resume {timedOut : Bool} (hv : Ready (.resume timedOut) v)
    (h : plan (.resume timedOut) v o w) (ho : o.isEnd = false) : ¬ w.link.IsSuspended := by
  have hleads := (plan_leads _ v o w h).resolve_left (Bool.eq_false_iff.1 ho)
  have hdecided := hv.decided h
  cases hleads with
  | resumed _ keep =>
    have hw : Ready (.after keep) w := hdecided
    exact hw.not_suspended nofun nofun

/-- **What a step counts is what it does to the request of its link.** -/
theorem Ready.recorded (hv : Ready step v) (h : plan step v o w) (hu : Concluded w o u)
    (hr : Engine.Records step o events) : Recorded v u events := by
  -- Where the link is open afterwards, the step went on or gave it away.
  have hopen : u.link.closed = false → o.isEnd = false ∧ w.link.closed = false ∧
      (u.link.IsSuspended ↔ w.link.IsSuspended) := by
    intro hc
    have ho : o.isEnd = false := Bool.eq_false_iff.2 fun ho =>
      nomatch (hu.closed ho).1.symm.trans hc
    obtain rfl := hu.eq_next ho
    exact ⟨ho, hc, Iff.rfl⟩
  cases hr with
  | request =>
    refine .request fun hc => ⟨hv.closed, ?_⟩
    obtain ⟨ho, hw, hs⟩ := hopen hc
    exact hs.trans (hv.suspended_of_ne h nofun nofun ho hw)
  | suspend =>
    refine .suspend hv.closed (hv.not_suspended nofun nofun) fun hc => ?_
    obtain ⟨ho, -, hs⟩ := hopen hc
    exact hs.2 (suspend_moves hv h ho)
  | wake =>
    refine .wake hv.closed hv.expects.1 fun hc => ?_
    obtain ⟨ho, -, hs⟩ := hopen hc
    exact fun hsuspended => hv.not_suspended_of_resume h ho (hs.1 hsuspended)
  | nothing _ _ hs hr =>
    refine .nothing fun hc => ⟨hv.closed, ?_⟩
    obtain ⟨ho, hw, hs'⟩ := hopen hc
    exact hs'.trans (hv.suspended_of_ne h hs hr ho hw)
  | closing _ ho => exact .nothing fun hc => nomatch ho.symm.trans (hopen hc).1

end Stand

/-! ## What was counted for a link -/

/-- Suspends and wakes in turn, a suspend first. -/
structure Alternates (counted : List Counter) : Prop where
  only : ∀ c ∈ counted, c = .suspends ∨ c = .wakes
  first : ∀ c ∈ counted.head?, c = .suspends
  next : counted.IsChain (· ≠ ·)

theorem alternates_nil : Alternates [] := ⟨nofun, nofun, .nil⟩

/-- What was counted last says what may be counted next. -/
theorem Alternates.concat {counted : List Counter} {c : Counter} (h : Alternates counted)
    (hc : c = if counted.getLast? = some .suspends then .wakes else .suspends) :
    Alternates (counted ++ [c]) := by
  have honly : c = .suspends ∨ c = .wakes := by
    rw [hc]
    split
    · exact .inr rfl
    · exact .inl rfl
  refine ⟨?_, ?_, List.isChain_append.2 ⟨h.next, .singleton c, ?_⟩⟩
  · intro d hd
    rcases List.mem_append.1 hd with hd | hd
    · exact h.only d hd
    · rw [List.mem_singleton.1 hd]
      exact honly
  · cases counted with
    | nil =>
      rintro d ⟨⟩
      exact hc
    | cons d rest => exact h.first
  · intro d hd e he
    cases he
    rw [Option.mem_def.1 hd] at hc
    rintro rfl
    rcases honly with rfl | rfl <;> cases hc

/-- What was counted for a link, as far as it has come. -/
structure Stand.Dozes (counted : List Counter) (v : Stand) : Prop where
  alternates : Alternates counted
  count : counted.count .suspends =
    counted.count .wakes + if counted.getLast? = some .suspends then 1 else 0
  suspended : v.link.closed = false → (counted.getLast? = some .suspends ↔ v.link.IsSuspended)

namespace Stand.Dozes

variable {v w : Stand} {counted events : List Counter}

theorem undisturbed (h : Dozes counted v) (hw : Undisturbed v w) : Dozes counted w := by
  refine ⟨h.alternates, h.count, fun hc => ?_⟩
  obtain ⟨hv, hs⟩ := hw hc
  exact (h.suspended hv).trans hs.symm

/-- What is counted when it is the turn of it, and leaves the request as it should be. -/
theorem concat {c : Counter} (h : Dozes counted v)
    (hc : c = if counted.getLast? = some .suspends then .wakes else .suspends)
    (hw : w.link.closed = false → (c = .suspends ↔ w.link.IsSuspended)) :
    Dozes (counted ++ [c]) w := by
  have hcount := h.count
  refine ⟨h.alternates.concat hc, ?_, fun hopen => ?_⟩
  · rw [List.count_append, List.count_append, List.getLast?_concat, hcount]
    split at hc
    · next hlast =>
      rw [if_pos hlast, hc]
      rfl
    · next hlast =>
      rw [if_neg hlast, hc]
      rfl
  · rw [List.getLast?_concat, Option.some_inj]
    exact hw hopen

/-- **A step counts a suspend or a wake when it is the turn of it.** -/
theorem recorded (h : Dozes counted v) (hr : Recorded v w events) :
    Dozes (counted ++ events.filter fun c => c == .suspends || c == .wakes) w := by
  cases hr with
  | nothing hw | request hw =>
    show Dozes (counted ++ []) w
    rw [List.append_nil]
    exact h.undisturbed hw
  | suspend hc hv hw =>
    refine h.concat (c := .suspends) (if_neg fun hl => hv ((h.suspended hc).1 hl)).symm ?_
    exact fun hopen => iff_of_true rfl (hw hopen)
  | wake hc hv hw =>
    refine h.concat (c := .wakes) (if_pos ((h.suspended hc).2 hv)).symm ?_
    exact fun hopen => iff_of_false nofun (hw hopen)

end Stand.Dozes

/-! ## Moves -/

namespace Stand

/-- What a move is to a link whose task takes no step by it: it calls no hook, moves no bytes,
and leaves the request as it is. -/
structure Rests (v w : Stand) : Prop where
  silent : v.link.Silent w.link
  undisturbed : Undisturbed v w
  unmoved : v.link.Unmoved w.link

variable {v w : Stand}

theorem Course.rests (h : Course v w) : Rests v w := ⟨h.silent, h.undisturbed, h.unmoved⟩

theorem Aside.rests (h : Aside v w) : Rests v w := by
  obtain h | ⟨hs, h⟩ := h
  · exact h.rests
  -- No turn of a link that nobody drives is a step.
  cases h with
  | course h => exact h.rests
  | begin => exact ⟨.of rfl rfl (.refl _), fun hc => ⟨hc, Iff.rfl⟩, .of rfl rfl⟩
  | idle => exact ⟨.refl _, fun hc => ⟨hc, Iff.rfl⟩, .refl _⟩
  | doomed _ _ _ _ h => exact ⟨h.silent, fun hc => (nomatch h.closed.symm.trans hc), h.unmoved⟩
  | step hs' => exact nomatch hs.symm.trans hs'

/-- The request of a new link is not suspended. -/
theorem Started.not_suspended {i : Nat} {arrival : Engine.Arrival} (h : Started i arrival v)
    (hc : v.link.closed = false) : ¬ v.link.IsSuspended := by
  cases h with
  | queued hs hn h =>
    obtain ⟨-, hm, -⟩ := h.abides hc
    intro hsuspended
    exact nomatch hm.symm.trans hsuspended
  | refused hs hn h ht => exact nomatch ht.closed.symm.trans hc

end Stand

namespace Engine

open Stand (Dozes Recorded Rests Undisturbed)

variable {s t : Engine} {l : Nat} {k : Link} {v : Stand} {m : Move} {events : List Counter}

/-- **A link rests through every move that is no step of its own task.** -/
theorem move_rests (hm : m ≠ .advance l) (hv : s.stand? l = some v) :
    ∃ w, (move m s).stand? l = some w ∧ Rests v w := by
  obtain ⟨w, hw, haside⟩ := move_aside hm hv
  exact ⟨w, hw, haside.rests⟩

/-- **A step of a task counts for its listener what it is to the link**, and counts each request
for which it calls the request hook. -/
theorem advance_records (hs : s.scheduler.Sole) (hv : s.stand? l = some v)
    (hstanding : v.Standing) (hi : v.link.listener < s.listeners.length) :
    ∃ w events, (advance l s).stand? l = some w ∧
      Gains v.link.listener events s (advance l s) ∧ Recorded v w events ∧
      w.link.hooks.count .request = v.link.hooks.count .request + events.count .requests := by
  cases hstep : v.link.step with
  | none =>
    rw [advance_of_none hv hstep]
    exact ⟨v, [], hv, .refl s, .nothing (Stand.Course.refl v).undisturbed, rfl⟩
  | some step =>
    obtain ⟨w, x, hx, hplan, -, hconcluded⟩ := advance_step hs hv hstep
    have hready := (Stand.standing_some hstep).1 hstanding
    obtain ⟨hk, -⟩ := stand?_eq_some.1 hv
    obtain ⟨events, hgains, hrecords⟩ := stepLink_gains hk hi step fun hd => by
      subst hd
      rcases hready.expects.1 with hm | hm <;> exact ⟨.active, by rw [hm]; rfl⟩
    have hadvance : advance l s = conclude l (stepLink l step s).1 (stepLink l step s).2 := by
      unfold advance
      rw [hk, Option.bind_some, hstep]
    refine ⟨x, events, hx, hadvance ▸ hgains.before (conclude_gains _),
      hready.recorded hplan hconcluded hrecords, ?_⟩
    rw [hconcluded.silent.hooks, hready.served hplan]
    generalize (stepLink l step s).1 = o at hrecords
    cases hrecords with
    | request => rfl
    | suspend | wake => rfl
    | nothing _ hd | closing hd =>
      rw [if_neg hd]
      rfl

/-! ## Runs -/

/-- Which of the two the listener of a link counted when the task of the link took a step, where
the move is one. -/
def countedBy (l : Nat) (m : Move) (s : Engine) : List Counter :=
  match m, s.link? l with
  | .advance l', some k =>
    if l' = l then
      [.suspends, .wakes].filter fun c =>
        ((move m s).listener k.listener).stats.get c ≠ (s.listener k.listener).stats.get c
    else []
  | _, _ => []

/-- The suspends and wakes that were counted for a link, move by move. -/
def countedIn (l : Nat) : List Move → Engine → List Counter := along (countedBy l)

theorem countedBy_of_ne (hm : m ≠ .advance l) (s : Engine) : countedBy l m s = [] := by
  unfold countedBy
  split
  · next l' k _ => exact if_neg fun (h : l' = l) => hm (h ▸ rfl)
  · rfl

theorem countedBy_of_none (m : Move) (hk : s.link? l = none) : countedBy l m s = [] := by
  unfold countedBy
  rw [hk]
  cases m <;> rfl

/-- What a step counted is seen in the counters. -/
theorem countedBy_advance {w : Stand} (hv : s.stand? l = some v)
    (hg : Gains v.link.listener events s (advance l s)) (hr : Recorded v w events) :
    countedBy l (.advance l) s = events.filter fun c => c == .suspends || c == .wakes := by
  have hmoved : ∀ c : Counter, c.isEvent = true →
      (((advance l s).listener v.link.listener).stats.get c ≠
        (s.listener v.link.listener).stats.get c ↔ UInt64.ofNat (events.count c) ≠ 0) := by
    intro c hc
    rw [hg.self.stats c hc, Ne, UInt64.add_eq_left]
  unfold countedBy
  rw [(stand?_eq_some.1 hv).1]
  show (if l = l then List.filter (fun c => decide
    (((advance l s).listener v.link.listener).stats.get c ≠ _)) _ else []) = _
  rw [if_pos rfl]
  simp only [List.filter_cons, List.filter_nil, hmoved .suspends rfl, hmoved .wakes rfl]
  cases hr <;> decide

variable (settings : Settings.Scheduler) (now : Nat)

/-- **On each link suspends and wakes are counted in turn**, and nothing is counted before the
link is made. -/
theorem dozes (moves : List Move) :
    (∀ v, (after settings now moves).stand? l = some v →
      Dozes (countedIn l moves (create settings now)) v) ∧
    ((after settings now moves).link? l = none → countedIn l moves (create settings now) = []) := by
  refine after_along settings now ?_ ?_ ?_ moves
  · intro m s hn _
    exact countedBy_of_none m hn
  · intro moves m i arrival w hn _ hstarted
    rw [countedBy_of_none m hn]
    exact ⟨alternates_nil, rfl, fun hc => iff_of_false nofun (hstarted.not_suspended hc)⟩
  · intro moves counted m v w hv hw _ h
    by_cases hm : m = .advance l
    · subst hm
      obtain ⟨x, events, hx, hgains, hrecorded, -⟩ :=
        advance_records (after_sole settings now moves) hv (standing settings now moves hv)
          ((audited settings now moves).housed l _ (stand?_eq_some.1 hv).1)
      obtain rfl := Option.some.inj (hx.symm.trans hw)
      rw [countedBy_advance hv hgains hrecorded]
      exact h.recorded hrecorded
    · obtain ⟨x, hx, hrests⟩ := move_rests hm hv
      obtain rfl := Option.some.inj (hx.symm.trans hw)
      rw [countedBy_of_ne hm, List.append_nil]
      exact h.undisturbed hrests.undisturbed

end Engine

end LinkEngine

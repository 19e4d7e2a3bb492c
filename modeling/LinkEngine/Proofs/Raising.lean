import LinkEngine.Proofs.Nesting

/-!
# Hooks run exactly once

A sequence of calls on a new signal first registers hooks, which wait, and then there is a
first trigger or none. The first trigger calls the hooks that wait, and all later calls find
the signal raised; what was logged then consists of two brackets (`Story`). The machine comes
to an end for every sequence of calls, and what hooks note and triggers answer is what the
signal says (`hooks_run_once`).
-/

namespace LinkEngine.Shutdown

/-! ## A sequence of calls -/

namespace Signal

/-- The answer to a trigger. -/
def Answer.won? : Answer → Option Bool
  | .won b => some b
  | _ => none

/-- What hooks note in the course of calls. -/
def notes (s : Signal) (calls : List Call) : List Note :=
  (s.answers (calls.map Call.request)).flatMap (·.2.2)

/-- What triggers are answered. -/
def wins (s : Signal) (calls : List Call) : List Bool :=
  (s.answers (calls.map Call.request)).filterMap (·.1.won?)

/-- The signal that calls leave. -/
def after (s : Signal) (calls : List Call) : Signal :=
  calls.foldl (fun s c => (s.answer c.request).2.1) s

variable {s s' : Signal} {calls : List Call} {r : Reason}

theorem notes_cons {call : Call} {a : Answer} {made : List Note}
    (h : s.answer call.request = (a, s', made)) :
    s.notes (call :: calls) = made ++ s'.notes calls := by
  simp [notes, answers, h]

theorem wins_cons {call : Call} {a : Answer} {made : List Note}
    (h : s.answer call.request = (a, s', made)) :
    s.wins (call :: calls) = a.won?.toList ++ s'.wins calls := by
  cases hwon : a.won? <;> simp [wins, answers, h, hwon]

theorem after_cons {call : Call} {a : Answer} {made : List Note}
    (h : s.answer call.request = (a, s', made)) : s.after (call :: calls) = s'.after calls := by
  simp [after, h]

/-- A raised signal stays as it is. -/
theorem after_raised (hs : s.reason = some r) : s.after calls = s := by
  induction calls with
  | nil => rfl
  | cons call calls ih =>
    have hsame : (s.answer call.request).2.1 = s := by
      cases call <;> simp [Call.request, answer, trigger, register, hs]
    rw [after, List.foldl_cons, hsame]
    exact ih

/-- Hooks that are registered before the signal is raised wait. -/
theorem early (hooks : List Hook) (hs : s.reason = none) (rest : List Call) :
    s.notes (hooks.map Call.register ++ rest) =
        notes { s with waiting := s.waiting ++ hooks } rest ∧
      s.wins (hooks.map Call.register ++ rest) =
        wins { s with waiting := s.waiting ++ hooks } rest ∧
      s.after (hooks.map Call.register ++ rest) =
        after { s with waiting := s.waiting ++ hooks } rest := by
  induction hooks generalizing s with
  | nil => simp
  | cons hook hooks ih =>
    have hanswer : s.answer (Call.register hook).request =
        (.registered, { s with waiting := s.waiting ++ [hook] }, []) := by
      simp [Call.request, answer, register, hs]
    have hlater := ih (s := { s with waiting := s.waiting ++ [hook] }) hs
    simp only [List.append_assoc, List.singleton_append] at hlater
    rw [List.map_cons, List.cons_append, notes_cons hanswer, wins_cons hanswer, after_cons hanswer]
    exact hlater

end Signal

namespace Machine

variable {m : Machine} {r : Reason}

/-- A machine on which these calls are made of a new signal. -/
def start (calls : List Call) : Machine := { calls }

/-- Registrations that return before anything else happens. -/
def registrations (h n : Nat) : List Event :=
  (List.range' h n).flatMap fun i => [.registered i, .accepted i]

theorem early_leads (hooks : List Hook) {rest : List Call}
    (hc : m.calls = hooks.map Call.register ++ rest) (hs : m.stack = []) (hr : m.reason = none) :
    Leads m { m with
      calls := rest
      waiting := m.waiting ++ hooks.zipIdx m.hooks
      hooks := m.hooks + hooks.length
      log := m.log ++ registrations m.hooks hooks.length } := by
  induction hooks generalizing m with
  | nil =>
    obtain rfl : rest = m.calls := hc.symm
    simpa [registrations] using Leads.refl m
  | cons hook hooks ih =>
    have hstep : m.step = { m with
        calls := hooks.map Call.register ++ rest
        waiting := m.waiting ++ [(hook, m.hooks)]
        hooks := m.hooks + 1
        log := m.log ++ [.registered m.hooks, .accepted m.hooks] } := by
      rw [step, hs, hc]
      simp [perform, register, hr, say]
    have hlater := ih (m := m.step) (hstep ▸ rfl) (hstep ▸ hs) (hstep ▸ hr)
    refine Leads.step ?_
    rw [hstep] at hlater ⊢
    simpa [registrations, List.range'_succ, Nat.add_assoc, Nat.add_comm 1] using hlater

/-- Calls on a raised signal, one after the other. -/
theorem late_leads (calls : List Call) {s : Signal} (hsignal : s.reason = some r)
    (hc : m.calls = calls) (hs : m.stack = []) (hr : m.reason = some r) :
    ∃ n k es, Span r [] m.hooks n m.triggers k es ∧ es.filterMap Event.note? = s.notes calls ∧
      es.filterMap Event.answer? = s.wins calls ∧
      Leads m { m.onward [] n k es with calls := [] } := by
  induction calls generalizing m with
  | nil =>
    refine ⟨0, 0, [], .nil .., rfl, rfl, ?_⟩
    have hsame : { m.onward [] 0 0 [] with calls := [] } = m := by
      simp [onward, ← hc, ← hs]
    rw [hsame]
    exact Leads.refl m
  | cons call calls ih =>
    cases call with
    | trigger asked =>
      have hanswer : s.answer (Call.trigger asked).request = (.won false, s, []) := by
        simp [Call.request, Signal.answer, Signal.trigger, hsignal]
      have hstep : m.step = { m.onward [] 0 1
          [.asked m.triggers asked, .answered m.triggers false false] with calls := calls } := by
        rw [step, hs, hc]
        simp [perform, trigger, hr, say, onward]
      obtain ⟨n, k, es, hspan, hnotes, hanswers, hleads⟩ :=
        ih (m := m.step) (hstep ▸ rfl) (hstep ▸ rfl) (hstep ▸ hr)
      rw [hstep] at hspan hleads
      rw [Signal.notes_cons hanswer, Signal.wins_cons hanswer]
      refine ⟨n, 1 + k, _, .refused asked false hspan, hnotes, ?_, Leads.step ?_⟩
      · exact congrArg (false :: ·) hanswers
      · rw [hstep]
        simpa [onward, Nat.add_assoc] using hleads
    | register hook =>
      have hanswer : s.answer (Call.register hook).request = (.registered, s, hook.run r) := by
        simp [Call.request, Signal.answer, Signal.register, hsignal]
      have hstep : m.step = { m with calls }.register hook := by
        rw [step, hs, hc]
        rfl
      obtain ⟨n, k, body, hbody, hinner, hnone, hregister⟩ :=
        (returns r hook).register (m := { m with calls }) hr
      obtain ⟨n', k', es, hspan, hnotes, hanswers, hleads⟩ :=
        ih (m := { m with calls }.onward m.stack (1 + n) k (Event.registered m.hooks ::
          Event.began m.hooks r :: (body ++ [Event.ended m.hooks, Event.accepted m.hooks])))
          rfl hs hr
      rw [Signal.notes_cons hanswer, Signal.wins_cons hanswer]
      refine ⟨1 + n + n', k + k', _, .called hbody hspan, ?_, ?_, Leads.step ?_⟩
      · show (body ++ _ :: _ :: es).filterMap Event.note? = hook.run r ++ s.notes calls
        rw [List.filterMap_append, hinner, ← hnotes]
        rfl
      · show (body ++ _ :: _ :: es).filterMap Event.answer? = s.wins calls
        rw [List.filterMap_append, hnone]
        exact hanswers
      · rw [hstep]
        refine hregister.trans ?_
        simpa [onward, Nat.add_assoc] using hleads

/-- The first trigger: the hooks that wait are called, and then it returns. -/
theorem trigger_leads {late : List Call} (hc : m.calls = .trigger r :: late) (hs : m.stack = [])
    (hr : m.reason = none) :
    ∃ n k es, Span r (m.waiting.map (·.2)) m.hooks n (m.triggers + 1) k es ∧
      es.filterMap Event.note? = (m.waiting.map fun w => w.1.run r).flatten ∧
      es.filterMap Event.answer? = [] ∧
      Leads m { m.onward [] n (1 + k)
          (.asked m.triggers r :: (es ++ [.answered m.triggers false true])) with
        calls := late, reason := some r, waiting := [] } := by
  have hstep : m.step = { m.onward [.firing m.triggers r m.waiting] 0 1 [.asked m.triggers r] with
      calls := late, reason := some r, waiting := [] } := by
    rw [step, hs, hc]
    simp [perform, trigger, hr, say, onward]
  have hstack : m.step.stack = [.firing m.triggers r m.waiting] := hstep ▸ rfl
  have hraised : m.step.reason = some r := hstep ▸ rfl
  obtain ⟨n, k, es, hspan, hnotes, hanswers, hleads⟩ := firing_leads hraised hstack
  rw [hstep] at hspan hleads
  refine ⟨n, k, es, hspan, hnotes, hanswers, Leads.step ?_⟩
  rw [hstep]
  simpa [onward, Nat.add_assoc] using hleads

/-! ## What comes of a sequence of calls -/

/-- Triggers and hooks have numbers in the order of their calls; every trigger returns, and
only the first one wins. -/
structure Numbered (m : Machine) : Prop where
  asked : m.log.filterMap Event.asked? = List.range m.triggers
  answered : (m.log.filterMap Event.answered?).Perm (List.range m.triggers)
  registered : m.log.filterMap Event.registered? = List.range m.hooks
  won : ∀ trigger nested won, .answered trigger nested won ∈ m.log → won = (trigger == 0)

/-- Nobody raised the signal, and no hook was called. -/
structure Unraised (m : Machine) : Prop where
  reason : m.reason = none
  began : m.log.filterMap Event.began? = []

/-- The signal was raised for `r` when `early` hooks were registered. -/
structure Raised (r : Reason) (early : Nat) (m : Machine) : Prop where
  reason : m.reason = some r
  /-- Until then no hook was called. -/
  before : ∃ quiet later, m.log = quiet ++ .asked 0 r :: later ∧
    quiet.filterMap Event.registered? = List.range early ∧ quiet.filterMap Event.began? = []
  /-- Every hook was called once, returned, and was given the reason. -/
  began : (m.log.filterMap Event.began?).Perm (List.range m.hooks)
  ended : (m.log.filterMap Event.ended?).Perm (List.range m.hooks)
  reasons : ∀ e ∈ m.log, ∀ given, e.reason? = some given → given = r
  /-- Those registered before had their turns in the order of registration. -/
  inTurn : m.log.filter (Event.isTurnBelow early) =
    (List.range early).flatMap fun i => [.began i r, .ended i]
  /-- Those registered later were called within their registration. -/
  calledWithin : ∀ i, early ≤ i → i < m.hooks → CalledWithin r i m.log
  /-- No later trigger did anything. -/
  refused : ∀ trigger, 0 < trigger → trigger < m.triggers → RefusedAtOnce trigger m.log

end Machine

theorem Event.Proper.given {r given : Reason} {e : Event} (h : e.Proper r)
    (hg : e.reason? = some given) : given = r := by
  cases e with
  | began hook reason | ran hook name reason =>
    cases hg
    exact h
  | _ => cases hg

namespace Machine

variable {m : Machine} {r : Reason}

/-- Of what happens then, only registrations are of a kind that `f` counts. -/
theorem filterMap_registrations {β : Type} {f : Event → Option β}
    (hr : ∀ i, f (.registered i) = none) (ha : ∀ i, f (.accepted i) = none) (h n : Nat) :
    (registrations h n).filterMap f = [] := by
  refine List.filterMap_eq_nil_iff.2 fun e he => ?_
  obtain ⟨i, -, he⟩ := List.mem_flatMap.1 he
  simp only [List.mem_cons, List.not_mem_nil, or_false] at he
  rcases he with rfl | rfl
  · exact hr i
  · exact ha i

theorem registered_registrations (h n : Nat) :
    (registrations h n).filterMap Event.registered? = List.range' h n := by
  unfold registrations
  rw [List.filterMap_flatMap]
  exact List.flatMap_singleton' _

theorem mem_registrations {e : Event} {h n : Nat} (he : e ∈ registrations h n) :
    ∃ i, e = .registered i ∨ e = .accepted i := by
  obtain ⟨i, -, he⟩ := List.mem_flatMap.1 he
  exact ⟨i, by simpa using he⟩

/-- A trigger that is refused does not win, and is not the first. -/
theorem won_of_span {turns : List Nat} {h n t k trigger : Nat} {es : List Event} {nested won : Bool}
    (hs : Span r turns h n t k es) (ht : 1 ≤ t) (he : .answered trigger nested won ∈ es) :
    won = (trigger == 0) := by
  have hlost : won = false := hs.proper _ he
  have hmem : trigger ∈ List.range' t k :=
    hs.answered ▸ List.mem_filterMap.2 ⟨_, he, rfl⟩
  have hlow := (List.mem_range'_1.1 hmem).1
  rw [hlost, beq_eq_false_iff_ne.2 (by omega)]

/-- The log of a raised signal: hooks are registered, the first trigger calls them, and then
come later calls. -/
structure Story (m : Machine) (r : Reason) (early : Nat) : Prop where
  reason : m.reason = some r
  log : ∃ n n' k k' fired es, Span r (List.range early) early n 1 k fired ∧
    Span r [] (early + n) n' (1 + k) k' es ∧ m.hooks = early + n + n' ∧
    m.triggers = 1 + k + k' ∧
    m.log = registrations 0 early ++ .asked 0 r :: (fired ++ .answered 0 false true :: es)

variable {early : Nat}

theorem Story.numbered (h : m.Story r early) : m.Numbered := by
  obtain ⟨n, n', k, k', fired, es, hfired, hlate, hhooks, htriggers, hlog⟩ := h.log
  have hrange : List.range m.triggers = 0 :: (List.range' 1 k ++ List.range' (1 + k) k') := by
    rw [htriggers, List.range'_append_1, List.range_eq_range', Nat.add_assoc, Nat.add_comm 1,
      List.range'_succ]
  refine ⟨?_, ?_, ?_, ?_⟩
  · rw [hlog, hrange, ← hfired.asked, ← hlate.asked]
    simp only [List.filterMap_append, List.filterMap_cons, Event.asked?,
      filterMap_registrations (f := Event.asked?) (fun _ => rfl) (fun _ => rfl), List.nil_append]
  · rw [hlog, hrange, ← hfired.answered, ← hlate.answered]
    simp only [List.filterMap_append, List.filterMap_cons, Event.answered?,
      filterMap_registrations (f := Event.answered?) (fun _ => rfl) (fun _ => rfl), List.nil_append]
    exact List.perm_middle
  · rw [hlog]
    simp only [List.filterMap_append, List.filterMap_cons, Event.registered?,
      registered_registrations, hfired.registered, hlate.registered]
    rw [hhooks, List.range_eq_range', ← List.range'_append_1, ← List.range'_append_1,
      List.append_assoc, Nat.zero_add, Nat.zero_add]
  · intro trigger nested won he
    simp only [hlog, List.mem_append, List.mem_cons] at he
    rcases he with he | he | he | he | he
    · obtain ⟨i, he | he⟩ := mem_registrations he <;> cases he
    · cases he
    · exact won_of_span hfired (Nat.le_refl 1) he
    · cases he
      rfl
    · exact won_of_span hlate (Nat.le_add_right 1 k) he

theorem Story.raised (h : m.Story r early) : m.Raised r early := by
  obtain ⟨n, n', k, k', fired, es, hfired, hlate, hhooks, htriggers, hlog⟩ := h.log
  have hrange : List.range m.hooks =
      List.range early ++ List.range' early n ++ List.range' (early + n) n' := by
    rw [hhooks, List.range_eq_range', List.range_eq_range', ← List.range'_append_1,
      ← List.range'_append_1, Nat.zero_add, Nat.zero_add]
  have hfiredIn : fired <:+: m.log := by
    rw [hlog]
    exact ⟨registrations 0 early ++ [.asked 0 r], .answered 0 false true :: es, by simp⟩
  have hlateIn : es <:+: m.log := by
    rw [hlog]
    exact ⟨registrations 0 early ++ .asked 0 r :: (fired ++ [.answered 0 false true]), [], by simp⟩
  refine ⟨h.reason, ?_, ?_, ?_, ?_, ?_, ?_, ?_⟩
  · refine ⟨_, _, hlog, ?_, filterMap_registrations (fun _ => rfl) (fun _ => rfl) 0 early⟩
    rw [registered_registrations, List.range_eq_range']
  · rw [hlog, hrange]
    simp only [List.filterMap_append, List.filterMap_cons, Event.began?,
      filterMap_registrations (f := Event.began?) (fun _ => rfl) (fun _ => rfl), List.nil_append]
    exact hfired.began.append hlate.began
  · rw [hlog, hrange]
    simp only [List.filterMap_append, List.filterMap_cons, Event.ended?,
      filterMap_registrations (f := Event.ended?) (fun _ => rfl) (fun _ => rfl), List.nil_append]
    exact hfired.ended.append hlate.ended
  · intro e he given hgiven
    simp only [hlog, List.mem_append, List.mem_cons] at he
    rcases he with he | rfl | he | rfl | he
    · obtain ⟨i, rfl | rfl⟩ := mem_registrations he <;> cases hgiven
    · cases hgiven
    · exact (hfired.proper e he).given hgiven
    · cases hgiven
    · exact (hlate.proper e he).given hgiven
  · have hquiet : (registrations 0 early).filter (Event.isTurnBelow early) = [] := by
      refine List.filter_eq_nil_iff.2 fun e he => ?_
      obtain ⟨i, rfl | rfl⟩ := mem_registrations he <;> exact Bool.false_ne_true
    have hturns := hfired.inTurn (fun i hi => List.mem_range.1 hi) (Nat.le_refl early)
    have hlater := hlate.inTurn (b := early) (fun _ hi => absurd hi List.not_mem_nil)
      (Nat.le_add_right early n)
    have hasked : Event.isTurnBelow early (.asked 0 r) = false := rfl
    have hanswered : Event.isTurnBelow early (.answered 0 false true) = false := rfl
    simp [hlog, hquiet, hasked, hanswered, hturns, hlater]
  · intro i hlow hhigh
    by_cases hi : i < early + n
    · exact (hfired.calledWithin hlow hi).mono hfiredIn
    · exact (hlate.calledWithin (by omega) (by omega)).mono hlateIn
  · intro trigger hlow hhigh
    by_cases ht : trigger < 1 + k
    · exact (hfired.refusedAtOnce hlow ht).mono hfiredIn
    · exact (hlate.refusedAtOnce (by omega) (by omega)).mono hlateIn

/-- A sequence of calls registers hooks, and then there is a first trigger or none. -/
theorem exists_early (calls : List Call) :
    ∃ hooks : List Hook, (calls.takeWhile fun c => c.reason?.isNone) = hooks.map Call.register ∧
      ((calls = hooks.map Call.register ∧ calls.findSome? Call.reason? = none) ∨
        ∃ r late, calls = hooks.map Call.register ++ .trigger r :: late ∧
          calls.findSome? Call.reason? = some r) := by
  induction calls with
  | nil => exact ⟨[], rfl, .inl ⟨rfl, rfl⟩⟩
  | cons call calls ih =>
    cases call with
    | trigger r => exact ⟨[], rfl, .inr ⟨r, calls, rfl, rfl⟩⟩
    | register hook =>
      obtain ⟨hooks, hearly, ⟨hcalls, hnone⟩ | ⟨r, late, hcalls, hfirst⟩⟩ := ih
      · exact ⟨hook :: hooks, congrArg (Call.register hook :: ·) hearly,
          .inl ⟨congrArg (Call.register hook :: ·) hcalls, hnone⟩⟩
      · exact ⟨hook :: hooks, congrArg (Call.register hook :: ·) hearly,
          .inr ⟨r, late, congrArg (Call.register hook :: ·) hcalls, hfirst⟩⟩

/-- Hooks wait for a signal that nobody raised, and these calls are to come. -/
def assembled (hooks : List Hook) (calls : List Call) : Machine :=
  { calls, waiting := hooks.zipIdx, hooks := hooks.length, log := registrations 0 hooks.length }

theorem start_assembled (hooks : List Hook) (calls : List Call) :
    (start (hooks.map Call.register ++ calls)).Leads (assembled hooks calls) := by
  have hleads := early_leads (m := start (hooks.map Call.register ++ calls)) hooks rfl rfl rfl
  simpa [assembled, start] using hleads

theorem signal_assembled (hooks : List Hook) (calls : List Call) :
    (assembled hooks calls).signal = { waiting := hooks } := by
  simp [signal, assembled]

theorem unraised_numbered (hlog : m.log = registrations 0 m.hooks) (ht : m.triggers = 0) :
    m.Numbered := by
  refine ⟨?_, ?_, ?_, ?_⟩
  · rw [hlog, filterMap_registrations (fun _ => rfl) (fun _ => rfl), ht]
    rfl
  · rw [hlog, filterMap_registrations (fun _ => rfl) (fun _ => rfl), ht]
    exact .refl _
  · rw [hlog, registered_registrations, List.range_eq_range']
  · intro trigger nested won he
    rw [hlog] at he
    obtain ⟨i, he | he⟩ := mem_registrations he <;> cases he

/-- The first trigger calls the hooks that were registered before it, and the calls that
follow it find the signal raised. -/
theorem start_raised (hooks : List Hook) (r : Reason) (late : List Call) :
    ∃ m, (start (hooks.map Call.register ++ .trigger r :: late)).Leads m ∧ m.isDone = true ∧
      m.Story r hooks.length ∧ m.signal = { reason := some r } ∧
      m.log.filterMap Event.note? = (hooks.map (Hook.run r)).flatten ++
        ({ reason := some r } : Signal).notes late ∧
      m.log.filterMap Event.answer? = true :: ({ reason := some r } : Signal).wins late := by
  obtain ⟨n, k, fired, hfired, hran, hnone, hfirst⟩ :=
    trigger_leads (m := assembled hooks (.trigger r :: late)) rfl rfl rfl
  obtain ⟨n', k', es, hspan, hnotes, hanswers, hlater⟩ :=
    late_leads (m := { (assembled hooks (.trigger r :: late)).onward [] n (1 + k)
      (.asked 0 r :: (fired ++ [.answered 0 false true])) with
        calls := late, reason := some r, waiting := [] }) late (s := { reason := some r })
      rfl rfl rfl rfl
  have hspan : Span r [] (hooks.length + n) n' (0 + (1 + k)) k' es := hspan
  rw [Nat.zero_add] at hspan
  have hlog : ∀ {log : List Event}, log = registrations 0 hooks.length ++
      (.asked 0 r :: (fired ++ [.answered 0 false true])) ++ es →
      log = registrations 0 hooks.length ++ .asked 0 r :: (fired ++ .answered 0 false true :: es) :=
    fun h => h.trans (by simp)
  have hhooks : (hooks.zipIdx.map fun w => w.1.run r) = hooks.map (Hook.run r) :=
    calc (hooks.zipIdx.map fun w => w.1.run r)
        = (hooks.zipIdx.map Prod.fst).map (Hook.run r) := List.map_map.symm
      _ = hooks.map (Hook.run r) := by rw [List.zipIdx_map_fst]
  refine ⟨_, (start_assembled hooks _).trans (hfirst.trans hlater), rfl,
    ⟨rfl, n, n', k, k', fired, es, ?_, hspan, rfl, ?_, hlog rfl⟩, rfl, ?_, ?_⟩
  · rw [List.range_eq_range', ← List.zipIdx_map_snd 0 hooks]
    exact hfired
  · exact congrArg (· + k') (Nat.zero_add (1 + k))
  · refine (congrArg (List.filterMap Event.note?) (hlog rfl)).trans ?_
    simp only [List.filterMap_append, List.filterMap_cons, Event.note?,
      filterMap_registrations (f := Event.note?) (fun _ => rfl) (fun _ => rfl), hran, hnotes]
    rw [← hhooks]
    rfl
  · refine (congrArg (List.filterMap Event.answer?) (hlog rfl)).trans ?_
    simp only [List.filterMap_append, List.filterMap_cons, Event.answer?,
      filterMap_registrations (f := Event.answer?) (fun _ => rfl) (fun _ => rfl), hnone, hanswers]
    rfl

end Machine

/-- **Hooks run exactly once.** Whatever calls are made on a new signal, with whatever hooks:
every call returns, what hooks note and triggers answer is what the signal says, and of all
triggers, nested ones included, only the first wins. Without a trigger no hook is called. With
one, every hook that was registered is called once and returns, with the reason of the first
trigger: those that waited for it one after the other, in the order of registration, and each
of the others within its own registration, before any hook that still waits. -/
theorem hooks_run_once (calls : List Call) :
    ∃ m, (Machine.start calls).Leads m ∧ m.isDone = true ∧
      m.log.filterMap Event.note? = ({} : Signal).notes calls ∧
      m.log.filterMap Event.answer? = ({} : Signal).wins calls ∧
      m.signal = ({} : Signal).after calls ∧ m.Numbered ∧
      (calls.findSome? Call.reason? = none → m.Unraised) ∧
      ∀ r, calls.findSome? Call.reason? = some r →
        m.Raised r (calls.takeWhile fun c => c.reason?.isNone).length := by
  obtain ⟨hooks, hearly, ⟨hcalls, hnone⟩ | ⟨r, late, hcalls, hfirst⟩⟩ := Machine.exists_early calls
  · have hleads := Machine.start_assembled hooks []
    obtain ⟨hnotes, hwins, hafter⟩ := Signal.early (s := {}) hooks rfl []
    rw [List.append_nil, ← hcalls] at hnotes hwins hafter hleads
    have hnothing : ∀ {β : Type} {f : Event → Option β}, (∀ i, f (.registered i) = none) →
        (∀ i, f (.accepted i) = none) →
        (Machine.assembled hooks []).log.filterMap f = [] := fun hr ha =>
      Machine.filterMap_registrations hr ha 0 hooks.length
    refine ⟨_, hleads, rfl, ?_, ?_, ?_, Machine.unraised_numbered rfl rfl, ?_, ?_⟩
    · exact (hnothing (fun _ => rfl) fun _ => rfl).trans hnotes.symm
    · exact (hnothing (fun _ => rfl) fun _ => rfl).trans hwins.symm
    · exact (Machine.signal_assembled hooks []).trans hafter.symm
    · exact fun _ => ⟨rfl, hnothing (fun _ => rfl) fun _ => rfl⟩
    · intro r hr
      rw [hnone] at hr
      cases hr
  · obtain ⟨m, hleads, hdone, hstory, hsignal, hnotes, hwins⟩ := Machine.start_raised hooks r late
    obtain ⟨htold, hwon, hafter⟩ := Signal.early (s := {}) hooks rfl (.trigger r :: late)
    have hanswer : ({ waiting := [] ++ hooks } : Signal).answer (Call.trigger r).request =
        (.won true, { reason := some r }, (hooks.map (Hook.run r)).flatten) := rfl
    rw [Signal.notes_cons hanswer, ← hcalls] at htold
    rw [Signal.wins_cons hanswer, ← hcalls] at hwon
    rw [Signal.after_cons hanswer, Signal.after_raised (s := { reason := some r }) rfl,
      ← hcalls] at hafter
    refine ⟨m, hcalls ▸ hleads, hdone, hnotes.trans htold.symm, hwins.trans hwon.symm,
      hsignal.trans hafter.symm, hstory.numbered, fun hr => ?_, fun r' hr => ?_⟩
    · rw [hfirst] at hr
      cases hr
    · obtain rfl : r = r' := Option.some.inj (hfirst.symm.trans hr)
      rw [hearly, List.length_map]
      exact hstory.raised

end LinkEngine.Shutdown

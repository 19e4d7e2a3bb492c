import LinkEngine.Proofs.Closing
import LinkEngine.Proofs.Deadlines
import LinkEngine.Proofs.Leaving

/-!
# The links of a listener that shuts down

When a listener begins to shut down, each of its links is closed or leaves
(`leaves_of_shutdown`), and no other link of it comes to be (`accept_of_shuttingDown`). So
when all its tasks have run, all its links are closed, and nothing of them is left
(`emptied_of_finished`).
-/

namespace LinkEngine

open Connection (CloseReason)
open Link (Outcome Step)

/-! ## New links -/

namespace Stand.Started

variable {i : Nat} {arrival : Engine.Arrival} {v : Stand}

/-- Nobody drives a new link yet. -/
theorem step (h : Started i arrival v) : v.link.step = none := by
  cases h with
  | queued _ _ h => exact h.step
  | refused _ _ h ht => exact ht.step.trans h.step

end Stand.Started

namespace Engine

variable {s t : Engine} {i l : Nat} {k k' : Link} {v : Stand} {m : Move}

/-! ## Connections -/

/-- **A listener that shuts down turns a connection away, and counts that.** -/
theorem accept_of_shuttingDown (h : s.isShuttingDown i = true) (arrival : Arrival) :
    accept i arrival s =
      (.refused .shuttingDown, (s.addSlot arrival.socket).count i .rejected) := by
  unfold accept
  exact if_pos h

/-- A listener that shuts down gets no more links. -/
private theorem listener_ne_of_new (hm : s.Manned) (h : s.isShuttingDown i = true) (m : Move)
    (hn : s.link? l = none) (hv : (move m s).stand? l = some v) : v.link.listener ≠ i := by
  obtain ⟨j, arrival, rfl, hj, -, hstarted⟩ := move_started hm m hn hv
  rintro rfl
  obtain rfl := hstarted.listener
  have hmove : move (.accept v.link.listener arrival) s =
      (s.addSlot arrival.socket).count v.link.listener .rejected := by
    show (if _ then _ else _) = _
    rw [if_pos hj, accept_of_shuttingDown h]
  have hk := (stand?_eq_some.1 hv).1
  rw [hmove, show ((s.addSlot arrival.socket).count v.link.listener .rejected).link? l =
    s.link? l from link?_addSlot s arrival.socket l, hn] at hk
  cases hk

/-! ## Moves of others -/

/-- A link whose task does not move is left to others, or nobody drives it. -/
theorem move_turn_of_others (hs : s.scheduler.Sole) (hm : m.advances l = false)
    (hv : s.stand? l = some v) :
    ∃ w, (move m s).stand? l = some w ∧ Stand.Turn v w ∧
      (v.link.step = none ∨ Stand.Course v w) := by
  have hcourse : ∀ t : Engine, (∃ w, t.stand? l = some w ∧ Stand.Course v w) →
      ∃ w, t.stand? l = some w ∧ Stand.Turn v w ∧ (v.link.step = none ∨ Stand.Course v w) := by
    rintro t ⟨w, hw, h⟩
    exact ⟨w, hw, .course h, .inr h⟩
  cases hstep : v.link.step with
  | none =>
    obtain ⟨w, hw, h⟩ := move_turn hs m hv
    exact ⟨w, hw, h, .inl rfl⟩
  | some step =>
    rw [← hstep]
    cases m with
    | build settings multiplexer platform =>
      exact hcourse _ ((build_builds settings multiplexer platform s).stand hv)
    | accept j arrival =>
      refine hcourse (if j < s.listeners.length then (s.accept j arrival).2 else s) ?_
      split
      · exact (accept_accepts j arrival s).stand hv
      · exact ⟨v, hv, .refl v⟩
    | begin place =>
      refine hcourse (begin place s) ?_
      have hbegun := begin_begun place s
      generalize begin place s = t at hbegun ⊢
      cases hbegun with
      | nothing => exact ⟨v, hv, .refl v⟩
      | @taken task k _ ht hk hd h =>
        -- A task that begins is one of a link that nobody drives.
        have hne : l ≠ task.link := by
          rintro rfl
          obtain rfl : v.link = k := Option.some.inj ((stand?_eq_some.1 hv).1.symm.trans hk)
          exact nomatch hstep.symm.trans (Stand.step_eq_none hd)
        exact h.stand hne ((stand?_dequeue_ne ht hne).trans hv)
    | advance n =>
      have hne : l ≠ n := fun h => absurd (h ▸ hm) (by simp [Move.advances])
      exact hcourse (advance n s) ((advance_drove n s).stand hne hv)
    | _ => exact hcourse _ ((move_course rfl s).stand hv)

variable (settings : Settings.Scheduler) (now : Nat)

theorem matched (moves : List Move) (hv : (after settings now moves).stand? l = some v) :
    v.link.Matched :=
  after_stand settings now (P := fun v => v.link.Matched) (fun _ _ _ h => h.matched)
    (fun _ _ hv h => h.matched hv) moves l v hv

/-- A listener that shuts down was shut down, be it because the signal was raised. -/
theorem stopped_of_shuttingDown (moves : List Move)
    (hi : i < (after settings now moves).listeners.length)
    (h : (after settings now moves).isShuttingDown i = true) :
    ((after settings now moves).listener i).stopped = true :=
  (Bool.or_eq_true_iff.1 h).elim id fun hsignal => heard settings now moves hsignal i hi

/-! ## The links of a listener that shuts down -/

/-- The links of the listener are closed, or leave. -/
def Leaves (s : Engine) (i : Nat) : Prop :=
  ∀ l k, s.link? l = some k → k.listener = i → k.Leaving

/-- No task of a link of the listener is about to park it, but perhaps the one that takes a
step in this move, if its link is not to close. Between such steps of other tasks somebody
could ask for the close of a link that is parked all the same. -/
def Undecided (s : Engine) (i : Nat) (m : Move) : Prop :=
  ∀ l k, s.link? l = some k → k.listener = i → k.closed = false → k.mayRest = true →
    m = .advance l ∧ k.closing = false

variable {settings now}

private theorem driven?_ne (h : m.advances l = false) : some l ≠ m.driven? := by
  cases m with
  | advance n =>
    rintro ⟨⟩
    rw [Move.advances_self] at h
    cases h
  | _ => exact nofun

/-- **When a listener begins to shut down, its links leave.** -/
theorem leaves_of_shutdown {moves : List Move}
    (hi : i < (after settings now moves).listeners.length)
    (hrun : (after settings now moves).isShuttingDown i = false)
    (hdown : (after settings now (moves ++ [m])).isShuttingDown i = true)
    (hm : (after settings now moves).Undecided i m) :
    (after settings now (moves ++ [m])).Leaves i := by
  have hrunning := (Bool.or_eq_false_iff.1 hrun).1
  have hsummons := move_summons (audited settings now moves) hi hrunning m
  have hstopped := stopped_of_shuttingDown settings now (moves ++ [m])
    (after_concat settings now moves m ▸ Nat.lt_of_lt_of_le hi (move_shuts m _).length) hdown
  rw [after_concat] at hdown hstopped ⊢
  intro l k hk hlistener
  obtain ⟨hsummoned, hheeding⟩ := hsummons hstopped l k hk hlistener
  cases hold : (after settings now moves).link? l with
  | none =>
    -- A new link has no task yet.
    obtain ⟨j, arrival, rfl, -, -, hstarted⟩ :=
      move_started (after_manned settings now moves) m hold (stand?_of_link? hk)
    exact ⟨hheeding nofun, fun _ => Link.mayRest_of_none hstarted.step⟩
  | some old =>
    have hv := stand?_of_link? hold
    have hstanding := standing settings now moves hv
    have hmatched := matched settings now moves hv
    have hsole := after_sole settings now moves
    cases hadvances : m.advances l with
    | false =>
      obtain ⟨w, hw, hturn, -⟩ := move_turn_of_others hsole hadvances hv
      obtain rfl : w.link = k := Option.some.inj ((stand?_eq_some.1 hw).1.symm.trans hk)
      have howner : old.listener = i := (congrArg Prod.fst hturn.owner).symm.trans hlistener
      refine hturn.leaving_of hstanding hmatched (fun hopen => ?_) hsummoned fun _ => ?_
      · refine Bool.eq_false_iff.2 fun hrest => ?_
        rw [(hm l old hold howner hopen hrest).1, Move.advances_self] at hadvances
        cases hadvances
      · exact hheeding (driven?_ne hadvances)
    | true =>
      obtain rfl := Move.eq_of_advances hadvances
      cases hstep : old.step with
      | none =>
        rw [show move (.advance l) _ = _ from advance_of_none hv hstep, hrun] at hdown
        cases hdown
      | some step =>
        obtain ⟨w, x, hx, hplan, hworked, hconcluded⟩ := advance_step hsole hv hstep
        obtain rfl : x.link = k := Option.some.inj ((stand?_eq_some.1 hx).1.symm.trans hk)
        have howner : old.listener = i :=
          (congrArg Prod.fst (Stand.Turn.step hstep hplan hworked hconcluded).owner).symm.trans
            hlistener
        refine Stand.step_leaving hstanding hstep hplan hworked hconcluded hmatched
          (fun hrest => ?_) hsummoned
        exact (hm l old hold howner ((Stand.standing_some hstep).1 hstanding).closed
          ((Link.mayRest_of_some hstep).trans hrest)).2

/-- **What turns keep of links holds of all links of a listener that shuts down** from then
on, since there are no new ones. -/
private theorem links_follow {P : Link → Prop}
    (hturn : ∀ v w : Stand, v.Standing → v.link.Matched → P v.link → v.Turn w → P w.link)
    {moves : List Move} (hdown : (after settings now moves).isShuttingDown i = true)
    (h : ∀ l k, (after settings now moves).link? l = some k → k.listener = i → P k)
    (later : List Move) :
    ∀ l k, (after settings now (moves ++ later)).link? l = some k → k.listener = i → P k := by
  induction later using List.reverseRecOn with
  | nil => rwa [List.append_nil]
  | append_singleton later m ih =>
    rw [← List.append_assoc, after_concat]
    have hdown : (after settings now (moves ++ later)).isShuttingDown i = true :=
      after_append settings now moves later ▸ (follow_shuts later _).isShuttingDown hdown
    intro l k hk hlistener
    cases hold : (after settings now (moves ++ later)).link? l with
    | none =>
      exact absurd hlistener (listener_ne_of_new (after_manned settings now _) hdown m hold
        (stand?_of_link? hk))
    | some old =>
      have hv := stand?_of_link? hold
      obtain ⟨w, hw, hw'⟩ := move_turn (after_sole settings now _) m hv
      obtain rfl : w.link = k := Option.some.inj ((stand?_eq_some.1 hw).1.symm.trans hk)
      exact hturn _ _ (standing settings now _ hv) (matched settings now _ hv)
        (ih l old hold ((congrArg Prod.fst hw'.owner).symm.trans hlistener)) hw'

/-- **Links that leave go on to.** -/
theorem leaves_follow {moves : List Move}
    (hdown : (after settings now moves).isShuttingDown i = true)
    (h : (after settings now moves).Leaves i) (later : List Move) :
    (after settings now (moves ++ later)).Leaves i :=
  links_follow (fun _ _ hv ha hl h => h.leaving hv ha hl) hdown h later

/-! ## When all tasks have run -/

/-- No task of a link of the listener runs, and none is queued. -/
def Finished (s : Engine) (i : Nat) : Prop :=
  ∀ l k, s.link? l = some k → k.listener = i → k.isDriven = false ∧ s.entries l = []

/-- Where no task runs and none is queued, those of each listener have run. -/
theorem finished_of_idle (hdriven : s.links.all (!·.isDriven) = true) (htasks : s.tasks = [])
    (i : Nat) : s.Finished i := by
  intro l k hk _
  refine ⟨?_, ?_⟩
  · simpa using List.all_eq_true.1 hdriven k (mem_links.2 ⟨l, hk⟩)
  · unfold entries
    rw [htasks]
    rfl

/-- All links of the listener are closed, and nothing of them is left. -/
structure Emptied (s : Engine) (i : Nat) : Prop where
  closed : ∀ l k, s.link? l = some k → k.listener = i → k.closed = true
  active : (s.listener i).tracker.active = 0
  registry : (s.listener i).registry = []
  /-- No deadline of a link of it is queued. -/
  deadlines : ∀ t ∈ s.scheduler.heap.items, ∀ l g, s.alarms[t]? = some (.deadline l g) →
    ∀ k, s.link? l = some k → k.listener ≠ i
  /-- Nor is the timer of its housekeeping. -/
  housekeeping : ∀ t ∈ s.scheduler.heap.items, s.alarms[t]? ≠ some (.housekeeping i)

/-- A link that leaves and has no task is closed. -/
theorem closed_of_finished (hv : v.Standing) (hl : v.link.Leaving)
    (hd : v.link.isDriven = false) (hq : v.queue = []) : v.link.closed = true := by
  cases (Stand.standing_none (Stand.step_eq_none hd)).1 hv with
  | gone hg => exact hg.closed
  | idle hc _ hi =>
    -- It would be parked, or have a task.
    have hunparked := (hl.heeding hc).2.2
    rw [hq] at hi
    generalize v.link.machine.state = m at hi
    generalize v.link.request = r at hi hunparked
    cases hi <;> cases hunparked

/-- Where all links of a listener that shuts down are closed, nothing of them is left. -/
private theorem emptied_of_closed {moves : List Move}
    (hi : i < (after settings now moves).listeners.length)
    (hdown : (after settings now moves).isShuttingDown i = true)
    (hclosed : ∀ l k, (after settings now moves).link? l = some k → k.listener = i →
      k.closed = true) : (after settings now moves).Emptied i := by
  have hbooks := (audited settings now moves).books i hi
  have htimed := (timed settings now moves).1
  have hgone : ∀ l k, (after settings now moves).link? l = some k → k.listener = i →
      Stand.Gone ⟨k, (after settings now moves).entries l⟩ := fun l k hk hlistener =>
    ((standing settings now moves (stand?_of_link? hk)).gone (hclosed l k hk hlistener)).1
  refine ⟨hclosed, ?_, ?_, ?_, ?_⟩
  · rw [hbooks.active]
    exact countOf_eq_zero fun l k hk hlistener => (hgone l k hk hlistener).counted
  · refine List.eq_nil_iff_forall_not_mem.2 fun l hl => ?_
    obtain ⟨k, hk, hlistener, hcounted⟩ := (hbooks.registered l).1 hl
    exact nomatch (hgone l k hk hlistener).counted.symm.trans hcounted
  · intro t ht l g ha k hk hlistener
    -- It would be the deadline of the present wait, and a closed link has none.
    obtain ⟨k', hk', rfl⟩ := htimed.queued t l g ht ha
    obtain rfl : k = k' := Option.some.inj (hk.symm.trans hk')
    have hdeadline := htimed.owned t l k (.inl ht) hk ha
    exact nomatch (hgone l k hk hlistener).deadline.symm.trans hdeadline
  · intro t ht ha
    exact nomatch (htimed.awake t i ht ha).symm.trans
      (stopped_of_shuttingDown settings now moves hi hdown)

/-- **When all tasks of a listener that shuts down have run, its links are closed**, now and
later. -/
theorem closed_of_emptying {moves : List Move}
    (hdown : (after settings now moves).isShuttingDown i = true)
    (hl : (after settings now moves).Leaves i) (hf : (after settings now moves).Finished i)
    (more : List Move) :
    ∀ l k, (after settings now (moves ++ more)).link? l = some k → k.listener = i →
      k.closed = true := by
  refine links_follow (P := fun k => k.closed = true) (fun v w hv _ hc h => ?_) hdown ?_ more
  · exact (h.settled hc (hv.gone hc).2).1.closed.trans hc
  · intro l k hk hlistener
    obtain ⟨hd, hq⟩ := hf l k hk hlistener
    exact closed_of_finished (standing settings now moves (stand?_of_link? hk))
      (hl l k hk hlistener) hd hq

/-- **When all tasks of a listener that shuts down have run, nothing of its links is left**,
now and later. -/
theorem emptied_of_finished {moves : List Move}
    (hi : i < (after settings now moves).listeners.length)
    (hdown : (after settings now moves).isShuttingDown i = true)
    (hl : (after settings now moves).Leaves i) (hf : (after settings now moves).Finished i)
    (more : List Move) : (after settings now (moves ++ more)).Emptied i := by
  have hmore := follow_shuts more (after settings now moves)
  rw [← after_append] at hmore
  exact emptied_of_closed (Nat.lt_of_lt_of_le hi hmore.length) (hmore.isShuttingDown hdown)
    (closed_of_emptying hdown hl hf more)

end Engine

end LinkEngine

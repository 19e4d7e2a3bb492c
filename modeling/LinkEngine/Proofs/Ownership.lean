import Mathlib.Logic.ExistsUnique
import LinkEngine.Proofs.Readiness
import LinkEngine.Proofs.Runs

/-!
# Who owns a link

Between the moves of a run a link that nobody drives is loose, and one that is
driven is ready for the next step of its task (`standing`). From this follows who
owns a link: while nobody drives it, its lifecycle, its ownership state and the
pool agree in exactly one of few ways (`exists_unique_way`), so that it never
lacks somebody who goes on with it, and while a task drives it, nobody else can
take it over.
-/

namespace LinkEngine

open Connection (CloseReason State Request)
open Link (Entry Outcome Step)

namespace Stand

variable {v w u : Stand} {o : Outcome}

/-! ## Between two moves -/

/-- How a link stands between two moves: ready for its next step, or loose. -/
def Standing (v : Stand) : Prop :=
  match v.link.step with
  | none => Loose v
  | some step => Ready step v

theorem standing_none (hs : v.link.step = none) : Standing v ↔ Loose v := by
  unfold Standing
  rw [hs]

theorem standing_some {step : Step} (hs : v.link.step = some step) :
    Standing v ↔ Ready step v := by
  unfold Standing
  rw [hs]

private theorem Loose.standing (h : Loose v) (hs : v.link.step = none) : Standing v :=
  (standing_none hs).2 h

theorem step_eq_none {k : Link} (hd : k.isDriven = false) : k.step = none :=
  Option.not_isSome_iff_eq_none.1 (Bool.eq_false_iff.1 hd)

private theorem step_shut (k : Link) (reason : CloseReason) : (k.shut reason).step = k.step := by
  unfold Link.shut Link.disarmed
  cases k.deadline <;> rfl

/-- Others neither begin a task nor end one. -/
theorem Course.step (h : Course v w) : w.link.step = v.link.step := by
  refine h.induction (P := fun k => k.step = v.link.step) ?_ ?_ ?_ (fun _ hk => hk) rfl
  · intro k k' h hk
    rw [← hk]
    cases h with
    | asked hc hp reason =>
      unfold Link.interrupt
      split <;> rfl
    | _ => rfl
  · intro k k' h hk
    rw [← hk]
    cases h <;> rfl
  · intro k reason k' h hk
    rw [← hk]
    refine (step_shut _ _).trans ?_
    cases h <;> rfl

theorem TornDown.step {reason : CloseReason} (h : TornDown reason v w) :
    w.link.step = v.link.step := by
  cases h with
  | before => rfl
  | now hc hook => exact hook.step.trans (step_shut _ _)

/-- A link that is torn down is gone, if it is gone where it is closed. -/
theorem TornDown.gone {reason : CloseReason} (h : TornDown reason v w)
    (hv : v.link.closed = true → Gone v) : Gone w := by
  cases h with
  | before hc => exact hv hc
  | now hc hook => exact gone_of_hooked hook

/-- Whoever is loose and closed is gone. -/
theorem Loose.gone_of_closed (h : Loose v) (hc : v.link.closed = true) : Gone v := by
  cases h with
  | gone hg => exact hg
  | idle hc' => rw [hc] at hc'; cases hc'

/-- **A closed link is gone between two moves**, and no task drives it. -/
theorem Standing.gone (h : Standing v) (hc : v.link.closed = true) :
    Gone v ∧ v.link.step = none := by
  cases hs : v.link.step with
  | none => exact ⟨((standing_none hs).1 h).gone_of_closed hc, rfl⟩
  | some step =>
    exact absurd (hc.symm.trans ((standing_some hs).1 h).closed).symm Bool.false_ne_true

/-- Whoever stands loose or gone does so whatever its next step is said to be. -/
private theorem Gone.next (h : Gone v) (step : Option Step) : Gone (v.next step) :=
  ⟨h.closed, h.machine, h.request, h.counted, h.deadline⟩

private theorem Loose.next (h : Loose v) (step : Option Step) : Loose (v.next step) := by
  cases h with
  | gone hg => exact .gone (hg.next step)
  | idle hc hp hi => exact .idle hc hp hi

/-- The task in the queue of an idle link is the one its next step is for. -/
private theorem Idle.ready {k : Link} {q : List Entry} {i : Nat} {e : Entry}
    (hc : k.closed = false) (hp : k.pending = .none) (hi : Idle k.machine.state k.request q)
    (he : q[i]? = some e) : Ready e.step ⟨{ k with step := some e.step }, q.eraseIdx i⟩ := by
  -- There is one task at most, so it stands in the first place.
  have hone : ∀ e', q = [e'] → i = 0 ∧ e = e' := by
    rintro e' rfl
    cases i with
    | zero => exact ⟨rfl, (Option.some.inj he).symm⟩
    | succ i => cases he
  -- The way to be idle says which task it is.
  generalize hm : k.machine.state = m at hi
  generalize hr : k.request = r at hi
  cases hi with
  | starting =>
    obtain ⟨rfl, rfl⟩ := hone _ rfl
    exact ⟨hc, rfl, hm, rfl, hp⟩
  | taken hm' =>
    obtain ⟨rfl, rfl⟩ := hone _ rfl
    exact ⟨hc, rfl, by rwa [← hm] at hm', rfl, hp⟩
  | resting | suspended => cases he

/-- What a step decided leaves the link standing when it is carried out. -/
private theorem Decided.concluded (hd : Decided o v) (h : Concluded v o w) : Standing w := by
  have hgone : ∀ {u x reason}, TornDown reason u x → (u.link.closed = true → Gone u) →
      Standing (x.next none) := fun ht hu => Loose.standing (.gone ((ht.gone hu).next none)) rfl
  have hopen : v.link.closed = false → v.link.closed = true → Gone v :=
    fun hc h => absurd h (Bool.eq_false_iff.1 hc)
  cases h with
  | next step => exact (standing_some rfl).2 ⟨hd.closed, hd.queue, hd.expects⟩
  | park => exact (Loose.next hd none).standing rfl
  | close h => exact hgone h (hopen hd)
  | fail ho hr h _ ht =>
    rcases ho with rfl | rfl
    · exact hgone ht (h.gone (hopen hd))
    · exact hd.elim
  | panic h => exact hgone h hd

/-- **A turn leaves a link standing.** -/
theorem Standing.turn (hv : Standing v) (h : Turn v w) : Standing w := by
  cases h with
  | course h =>
    have hstep := h.step
    cases hs : v.link.step with
    | none => exact (((standing_none hs).1 hv).course h).standing (hstep.trans hs)
    | some step => exact (standing_some (hstep.trans hs)).2 (((standing_some hs).1 hv).course h)
  | begin hd he hc hc' =>
    cases (standing_none (step_eq_none hd)).1 hv with
    | idle _ hp hi => exact (standing_some rfl).2 (hi.ready hc hp he)
    | gone hg => rw [hg.closed] at hc; cases hc
  | @idle k q hd i e he hc =>
    have hs : k.step = none := step_eq_none hd
    have hg := ((standing_none hs).1 hv).gone_of_closed hc
    exact Loose.standing (.gone ⟨hg.closed, hg.machine, hg.request, hg.counted, hg.deadline⟩) hs
  | @doomed k q hd i e he hc hc' w h =>
    have hs : k.step = none := step_eq_none hd
    refine Loose.standing (.gone (h.gone ?_)) (h.step.trans hs)
    intro hclosed
    rw [hc] at hclosed
    cases hclosed
  | step hs h hw hc => exact (((standing_some hs).1 hv).decided h).concluded hc

/-- A new link stands. -/
theorem Started.standing {i : Nat} {arrival : Engine.Arrival} (h : Started i arrival v) :
    Standing v := by
  cases h with
  | @queued _ _ _ w hs hn h =>
    have hheld := h.held rfl
    have hm : w.link.machine.state = .init := congrArg (·.state) hheld.machine
    refine Loose.standing (.idle hheld.closed hheld.pending ?_) hheld.step
    show Idle w.link.machine.state .request [.accept]
    rw [hm]
    exact .starting
  | @refused _ _ _ w u hs hn h ht =>
    have hheld := h.held rfl
    have hg := ht.gone fun hc => nomatch hheld.closed.symm.trans hc
    exact Loose.standing (.gone ⟨hg.closed, hg.machine, hg.request, hg.counted, hg.deadline⟩)
      (ht.step.trans hheld.step)

/-! ## Ways to be owned -/

/-- Who goes on with a link that nobody drives. -/
inductive Way where
  /-- The task that starts it. -/
  | starting
  /-- Whoever wakes it. -/
  | parked
  /-- The task that takes it up again. -/
  | taken
  /-- Nobody: it was torn down. -/
  | gone

/-- What a way demands of the link and of the pool. -/
def Way.Fits (v : Stand) : Way → Prop
  | .starting => v.link.closed = false ∧ v.link.machine.state = .init ∧
      v.link.request = .request ∧ v.queue = [.accept]
  | .parked => v.link.closed = false ∧ (v.link.machine.state = .keepalive ∧
      v.link.request = .keepalive ∨ v.link.machine.state = .cometSuspend ∧
      v.link.request = .suspend) ∧ v.queue = []
  | .taken => v.link.closed = false ∧ (v.link.machine.state = .keepalive ∨
      v.link.machine.state = .cometSuspend) ∧ v.link.request = .request ∧ v.queue = [.resume]
  | .gone => v.link.closed = true ∧ v.link.machine.state = .destroyed ∧
      v.link.request = .destroy

/-- There are no two ways for a link to be owned. -/
theorem Way.Fits.unique {way way' : Way} (h : way.Fits v) (h' : way'.Fits v) : way = way' := by
  cases way <;> cases way' <;> simp only [Fits] at h h' <;> grind

/-- What is loose is owned in some way. -/
theorem Loose.fits (h : Loose v) : ∃ way : Way, way.Fits v := by
  cases h with
  | gone hg => exact ⟨.gone, hg.closed, hg.machine, hg.request⟩
  | idle hc hp hi =>
    generalize hm : v.link.machine.state = m at hi
    generalize hr : v.link.request = r at hi
    generalize hq : v.queue = q at hi
    cases hi with
    | starting => exact ⟨.starting, hc, hm, hr, hq⟩
    | resting => exact ⟨.parked, hc, .inl ⟨hm, hr⟩, hq⟩
    | suspended => exact ⟨.parked, hc, .inr ⟨hm, hr⟩, hq⟩
    | taken hm' => exact ⟨.taken, hc, hm ▸ hm', hr, hq⟩

end Stand

namespace Engine

open Stand (Way)

variable {s : Engine} {l place : Nat} {k : Link} {v : Stand} {entry : Entry}

/-- A task that is queued for a closed link that nobody drives does nothing. -/
theorem run_of_closed (ht : s.tasks[place]? = some ⟨l, entry⟩) (hk : s.link? l = some k)
    (hd : k.isDriven = false) (hc : k.closed = true) (fuel : Nat) :
    run place s fuel = s.dequeue place := by
  have hbegin : begin place s = s.dequeue place := by
    unfold begin
    rw [ht]
    simp only [hk, hd, hc, Bool.false_eq_true, if_false, if_true]
    rfl
  have hstep : ((s.dequeue place).link? l).bind (·.step) = none := by
    rw [show (s.dequeue place).link? l = some k from hk]
    exact Stand.step_eq_none hd
  unfold run
  rw [ht]
  simp only [hbegin]
  cases fuel with
  | zero => rfl
  | succ fuel =>
    unfold drive
    rw [hstep]

variable (settings : Settings.Scheduler) (now : Nat)

/-- **Every link of every run stands.** -/
theorem standing (moves : List Move) (hv : (after settings now moves).stand? l = some v) :
    v.Standing :=
  after_stand settings now (fun _ _ _ h => h.standing) (fun _ _ hv h => hv.turn h) moves l v hv

/-- **Who owns a link.** In whatever order things happened, a link that nobody
drives is owned in exactly one way: a task is queued to start it, or it is parked
and waits for a waker, or a task is queued to take it up again, or it was torn
down, and then what is still queued for it does nothing. A link that is driven is
open, not parked, and no task is queued for it: nobody else owns it. -/
theorem exists_unique_way (moves : List Move)
    (hv : (after settings now moves).stand? l = some v) :
    (v.link.isDriven = false →
      (∃! way : Way, way.Fits v) ∧
      (Way.gone.Fits v → ∀ place entry, (after settings now moves).tasks[place]? = some ⟨l, entry⟩ →
        ∀ fuel, run place (after settings now moves) fuel =
          (after settings now moves).dequeue place)) ∧
    (v.link.isDriven = true →
      v.link.closed = false ∧ v.link.request.isParked = false ∧ v.queue = []) := by
  have hstanding := standing settings now moves hv
  -- Undriven the link is loose, which fits one way; driven it is ready for a step.
  refine ⟨fun hd => ⟨?_, ?_⟩, ?_⟩
  · obtain ⟨way, hway⟩ := ((Stand.standing_none (Stand.step_eq_none hd)).1 hstanding).fits
    exact ⟨way, hway, fun way' h => h.unique hway⟩
  · intro hg place entry ht fuel
    exact run_of_closed ht (stand?_eq_some.1 hv).1 hd hg.1 fuel
  · intro hd
    obtain ⟨step, hs⟩ := Option.isSome_iff_exists.1 hd
    have hready := (Stand.standing_some hs).1 hstanding
    exact ⟨hready.closed, hready.expects.isParked, hready.queue⟩

/-- One connection whose first request is suspended: its task takes this many
steps. -/
def suspending (steps : Nat) : List Move :=
  [.build {} none,
    .accept 0 { socket := {}, handler := { requests := [[⟨"comet", .comet none none, false⟩]] } },
    .begin 0] ++ List.replicate steps (.advance 0)

/-- After its second step the task still drives the link, and after its fourth
the link is parked. -/
theorem exists_unique_way_suspending :
    (∃ v, (after {} 0 (suspending 2)).stand? 0 = some v ∧ v.link.isDriven = true ∧
      v.link.closed = false ∧ v.link.request.isParked = false ∧ v.queue = []) ∧
    ∃ v, (after {} 0 (suspending 4)).stand? 0 = some v ∧ v.link.isDriven = false ∧
      ∃! way : Way, way.Fits v := by
  have hdriven : ((after {} 0 (suspending 2)).stand? 0).map (·.link.isDriven) = some true := by
    decide
  have hparked : ((after {} 0 (suspending 4)).stand? 0).map (·.link.isDriven) = some false := by
    decide
  obtain ⟨v, hv, hd⟩ := Option.map_eq_some_iff.1 hdriven
  obtain ⟨w, hw, hd'⟩ := Option.map_eq_some_iff.1 hparked
  exact ⟨⟨v, hv, hd, (exists_unique_way {} 0 (suspending 2) hv).2 hd⟩,
    w, hw, hd', ((exists_unique_way {} 0 (suspending 4) hw).1 hd').1⟩

end Engine

end LinkEngine

import LinkEngine.Proofs.Firing
import LinkEngine.Proofs.Urgency
import Mathlib.Data.List.Induction
import Mathlib.Order.Bounds.Basic

/-!
# What becomes of permits

A permit is taken before an ordinary callback is handed to the pool, travels with it, and
comes back when the pool refuses the callback, throws it away, or has run it, whether it
returned or panicked. What happens at the throttle is put down in passages: somebody found
it full, took a permit, went without, gave one back. The throttle is what the passages
make of it, each of them could happen when it did (`Throttle.Legal`), and at any moment
the permits that were taken and not given back are those in the pool (`Settles`).

The steps are finer here than those of the coordinator and of the shutdown: between
raising the flag and the blocked coordinator taking note of it, and between taking a timer
out and asking for its permit, anything else can happen (`Deed`).
-/

namespace LinkEngine.Timer

open Time (Duration)

variable {th : Throttle} {t n : Nat} {p : Nat → Bool}

/-- What is put down at the throttle. -/
inductive Passage.Kind where
  /-- A taker found no permit left. -/
  | full
  /-- A permit was taken. -/
  | taken
  /-- A taker that had found none left went without, as the process shuts down. -/
  | declined
  /-- A permit came back. -/
  | returned
  deriving DecidableEq, Repr

/-- Something put down at the throttle, and the timer it was for. -/
structure Passage where
  kind : Passage.Kind
  timer : Nat
  deriving DecidableEq, Repr

variable {x : Passage} {xs ys : List Passage}

/-- It is of that kind, for a timer with a property. -/
def Passage.Is (kind : Passage.Kind) (p : Nat → Bool) (x : Passage) : Bool :=
  x.kind = kind && p x.timer

/-! ## The throttle along its passages -/

namespace Throttle

/-- The throttle after one passage. -/
def pass (th : Throttle) (x : Passage) : Throttle :=
  match x.kind with
  | .full => th.noteWait
  | .taken => th.take
  | .declined => th
  | .returned => th.release

/-- The throttle after some passages. -/
def along (th : Throttle) (xs : List Passage) : Throttle := xs.foldl pass th

@[simp] theorem along_nil : th.along [] = th := rfl

@[simp] theorem along_cons : th.along (x :: xs) = (th.pass x).along xs := rfl

@[simp] theorem along_append : th.along (xs ++ ys) = (th.along xs).along ys := List.foldl_append

/-- The passage can happen: only a full throttle is found full or gone without, only a
permit that is left is taken, and only one that is out comes back. -/
def Admits (th : Throttle) (x : Passage) : Prop :=
  match x.kind with
  | .full | .declined => th.isFull = true
  | .taken => th.isFull = false
  | .returned => 0 < th.inFlight

/-- Each of the passages can happen when it does. -/
def Legal : Throttle → List Passage → Prop
  | _, [] => True
  | th, x :: xs => th.Admits x ∧ Legal (th.pass x) xs

theorem legal_append : Legal th (xs ++ ys) ↔ Legal th xs ∧ Legal (th.along xs) ys := by
  induction xs generalizing th with
  | nil => simp only [List.nil_append, Legal, true_and, along_nil]
  | cons x xs ih => rw [List.cons_append, Legal, Legal, ih, and_assoc, along_cons]

/-- What could happen could happen up to any moment. -/
theorem Legal.of_prefix (hl : Legal th xs) (hp : ys <+: xs) : Legal th ys := by
  obtain ⟨zs, rfl⟩ := hp
  exact (legal_append.1 hl).1

theorem Legal.admits {past : List Passage} (hl : th.Legal xs) (hp : past ++ [x] <+: xs) :
    (th.along past).Admits x := (legal_append.1 (hl.of_prefix hp)).2.1

@[simp] theorem limit_pass (th : Throttle) (x : Passage) : (th.pass x).limit = th.limit := by
  unfold pass
  split <;> rfl

/-- The waits that were counted are those of takers that found the throttle full. -/
theorem waits_along (th : Throttle) (xs : List Passage) :
    (th.along xs).waits = th.waits + xs.countP (·.kind = .full) := by
  induction xs generalizing th with
  | nil => rfl
  | cons x xs ih =>
    rw [along_cons, ih, List.countP_cons]
    unfold pass
    cases x.kind with
    | full =>
      simp [noteWait]
      omega
    | taken => simp [take]
    | declined => simp
    | returned => simp [release]

/-- No permit is given out beyond the limit. -/
theorem Legal.inFlight_le (hl : Legal th xs) (hle : th.inFlight ≤ th.limit) :
    (th.along xs).inFlight ≤ th.limit := by
  induction xs generalizing th with
  | nil => exact hle
  | cons x xs ih =>
    obtain ⟨hx, hxs⟩ := hl
    have hnext : (th.pass x).inFlight ≤ (th.pass x).limit := by
      unfold Admits at hx
      unfold pass
      cases hkind : x.kind with
      | full => exact hle
      | taken =>
        simp only [hkind, isFull, decide_eq_false_iff_not] at hx
        simp only [take]
        omega
      | declined => exact hle
      | returned =>
        simp only [release]
        omega
    rw [along_cons, ← limit_pass th x]
    exact ih hxs hnext

/-- The permits that are out were taken and did not come back. -/
theorem Legal.inFlight (hl : Legal th xs) :
    (th.along xs).inFlight + xs.countP (·.kind = .returned) =
      th.inFlight + xs.countP (·.kind = .taken) := by
  induction xs generalizing th with
  | nil => rfl
  | cons x xs ih =>
    obtain ⟨hx, hxs⟩ := hl
    have hrest := ih hxs
    rw [along_cons, List.countP_cons, List.countP_cons]
    unfold Admits at hx
    unfold pass at hrest ⊢
    cases hkind : x.kind with
    | full =>
      simp [hkind, noteWait] at hrest ⊢
      omega
    | taken =>
      simp [hkind, take] at hrest ⊢
      omega
    | declined =>
      simp [hkind] at hrest ⊢
      omega
    | returned =>
      simp [hkind, release] at hx hrest ⊢
      omega

/-- The peak is the most permits that were out at any moment. -/
theorem peak_along (h : th.peak = th.inFlight) (xs : List Passage) :
    IsGreatest {n | ∃ past, past <+: xs ∧ (th.along past).inFlight = n} (th.along xs).peak := by
  induction xs using List.reverseRecOn with
  | nil =>
    refine ⟨⟨[], List.prefix_rfl, h.symm⟩, ?_⟩
    rintro n ⟨past, hpast, rfl⟩
    rw [List.prefix_nil.1 hpast]
    exact h.ge
  | append_singleton xs x ih =>
    -- The moments until then, and the one after the last passage.
    have hmoments : {n | ∃ past, past <+: xs ++ [x] ∧ (th.along past).inFlight = n} =
        insert ((th.along xs).pass x).inFlight
          {n | ∃ past, past <+: xs ∧ (th.along past).inFlight = n} := by
      ext n
      simp only [List.prefix_concat_iff, or_and_right, exists_or, exists_eq_left, Set.mem_ofPred_eq,
        Set.mem_insert_iff, along_append, along_cons, along_nil, eq_comm]
    have hlast : (th.along xs).inFlight ≤ (th.along xs).peak := ih.2 ⟨xs, List.prefix_rfl, rfl⟩
    rw [hmoments, along_append, along_cons, along_nil]
    have hpeak : ((th.along xs).pass x).peak =
        max ((th.along xs).pass x).inFlight (th.along xs).peak := by
      unfold pass
      cases x.kind with
      | full => simp only [noteWait]; omega
      | taken => simp only [take]; omega
      | declined => simp only; omega
      | returned => simp only [release]; omega
    rw [hpeak]
    exact ih.insert _

end Throttle

namespace Scheduler

variable {s s' s'' : Scheduler} {e : Event} {task : Task} {now k : Nat}

/-! ## Steps, and what they put down -/

/-- The shutdown raises its flag and tells the coordinator. -/
def alert (s : Scheduler) : Scheduler := { s with stopped := true, notified := true }

/-- A coordinator that waits for a permit looks again: it takes one that is left, and goes
without when none is and the process shuts down. -/
def heed (s : Scheduler) : Scheduler :=
  match s.waiting with
  | none => s
  | some t =>
    if s.throttle.isFull then
      if s.stopped then { s with waiting := none }.drop else s
    else
      { s with waiting := none, throttle := s.throttle.take }.submit { timer := t, permit := true }

/-- The shutdown throws out what is queued. -/
def throwOut (s : Scheduler) : Scheduler :=
  { s with heap := (s.heap.drain s.table).2.1, table := (s.heap.drain s.table).2.2 }

/-- The coordinator takes out a timer that is due, and has not handed it on yet. -/
def takeOut (s : Scheduler) (now : Nat) : Scheduler :=
  match s.heap.popDue s.table now with
  | none => s
  | some (_, heap, table) => { s with heap, table }

/-- A shutdown raises its flag, the coordinator takes note, and what is queued is thrown
out. -/
theorem shutdown_parts (hs : s.stopped = false) : s.shutdown = s.alert.heed.throwOut := by
  have halted : s.halt = s.alert.heed := by
    unfold halt heed alert
    cases s.waiting with
    | none => rfl
    | some t => rfl
  rw [shutdown_eq hs, halted]
  rfl

/-- The coordinator, when it waits, looks again. -/
theorem coordinate_waiting (hs : s.stopped = false) (hw : s.waiting = some t) (now : Nat) :
    (s.coordinate now).getD s = s.heed := by
  rw [coordinate_of_waiting hs hw, heed, hw, hs]
  simp only [Bool.false_eq_true, if_false]
  split <;> rfl

/-- When it does not, it takes out what is due and hands it on. -/
theorem coordinate_parts {heap : Heap} {table : Table} (hs : s.stopped = false)
    (hw : s.waiting = none) (hp : s.heap.popDue s.table now = some (t, heap, table)) :
    s.coordinate now = some ((s.takeOut now).dispatch t) := by
  rw [coordinate_of_free hs hw, takeOut, hp]
  rfl

/-- What can be done with a scheduler and its pool. -/
inductive Deed where
  | event (e : Event)
  /-- The pool throws a callback away. -/
  | discard (place : Nat)
  | takeOut (now : Nat)
  /-- The coordinator hands on a timer that it took out. -/
  | dispatch (timer : Nat)
  | alert
  | heed
  | throwOut
  deriving DecidableEq, Repr

/-- The scheduler after a deed. -/
def after (s : Scheduler) : Deed → Scheduler
  | .event e => s.next e
  | .discard k => s.discard k
  | .takeOut now => s.takeOut now
  | .dispatch t => s.dispatch t
  | .alert => s.alert
  | .heed => s.heed
  | .throwOut => s.throwOut

/-- A coordinator that waits for a permit hands on no other timer, and which timers are
urgent is settled once and for all. -/
def Can (s : Scheduler) : Deed → Prop
  | .dispatch _ => s.waiting = none
  | .event (.others n table) => s.Allows (.others n table) ∧ table.urgency = s.table.urgency
  | .event e => s.Allows e
  | _ => True

/-- What is put down when timer `t` takes a permit and is handed to the pool, which gives
it back when it refuses. -/
def boarding (s : Scheduler) (t : Nat) : List Passage :=
  if s.refusing then [⟨.taken, t⟩, ⟨.returned, t⟩] else [⟨.taken, t⟩]

/-- What is put down when timer `t` is handed on. -/
def dispatching (s : Scheduler) (t : Nat) : List Passage :=
  if (s.table.get t).urgent then []
  else if s.throttle.isFull then [⟨.full, t⟩]
  else s.boarding t

/-- What is put down when a coordinator that waits looks again. -/
def heeding (s : Scheduler) : List Passage :=
  match s.waiting with
  | none => []
  | some t =>
    if s.throttle.isFull then
      if s.stopped then [⟨.declined, t⟩] else []
    else s.boarding t

/-- What is put down when a callback leaves the pool. -/
def parting : Option Task → List Passage
  | some ⟨t, true⟩ => [⟨.returned, t⟩]
  | _ => []

/-- What is put down at a step of the coordinator. -/
def coordinating (s : Scheduler) (now : Nat) : List Passage :=
  if s.stopped then []
  else
    match s.waiting, s.heap.popDue s.table now with
    | some _, _ => s.heeding
    | none, some (t, _, _) => (s.takeOut now).dispatching t
    | none, none => []

/-- What is put down at the throttle when something is done. -/
def passages (s : Scheduler) : Deed → List Passage
  | .event (.coordinate now) => s.coordinating now
  | .event (.finish k _) => parting s.running[k]?
  | .event .shutdown => if s.stopped then [] else s.alert.heeding
  | .event _ => []
  | .discard k => parting s.ready[k]?
  | .dispatch t => s.dispatching t
  | .heed => s.heeding
  | .takeOut _ | .alert | .throwOut => []

/-- What can come of a scheduler, with what is put down at its throttle. -/
inductive Serves (s : Scheduler) : List Passage → Scheduler → Prop
  | refl : Serves s [] s
  | step {xs : List Passage} {s' : Scheduler} (hr : Serves s xs s') (d : Deed) (hd : s'.Can d) :
    Serves s (xs ++ s'.passages d) (s'.after d)

/-! ## What one step settles -/

/-- The callbacks in the pool's hands. -/
def pool (s : Scheduler) : List Task := s.ready ++ s.running

/-- How many of them hold a permit, of timers with a property. -/
def held (s : Scheduler) (p : Nat → Bool) : Nat := s.pool.countP fun task => task.permit && p task.timer

/-- Permits are out for the callbacks in the pool that hold one, those are the ordinary
ones, and only for an ordinary timer does the coordinator wait. -/
structure Fair (s : Scheduler) : Prop where
  inFlight : s.throttle.inFlight = s.held anyTimer
  permit : ∀ task ∈ s.pool, task.permit = !s.table.urgency task.timer
  waiting : ∀ t, s.waiting = some t → s.table.urgency t = false

/-- What passages settle between two states. -/
structure Settles (s : Scheduler) (xs : List Passage) (s' : Scheduler) : Prop where
  throttle : s'.throttle = s.throttle.along xs
  legal : s.throttle.Legal xs
  /-- A permit that was taken came back, or is held. -/
  held : ∀ p, s.held p + xs.countP (·.Is .taken p) = xs.countP (·.Is .returned p) + s'.held p
  urgency : s'.table.urgency = s.table.urgency
  ordinary : ∀ x ∈ xs, s.table.urgency x.timer = false
  permit : ∀ task ∈ s'.pool, task ∈ s.pool ∨ task.permit = !s.table.urgency task.timer
  /-- Who waits for a permit found the throttle full. -/
  waiting : ∀ t, s'.waiting = some t → s.waiting = some t ∨ ⟨.full, t⟩ ∈ xs

namespace Settles

theorem trans (h₁ : Settles s xs s') (h₂ : Settles s' ys s'') : Settles s (xs ++ ys) s'' where
  throttle := by rw [h₂.throttle, h₁.throttle, Throttle.along_append]
  legal := Throttle.legal_append.2 ⟨h₁.legal, h₁.throttle ▸ h₂.legal⟩
  held p := by
    have := h₁.held p
    have := h₂.held p
    rw [List.countP_append, List.countP_append]
    omega
  urgency := h₂.urgency.trans h₁.urgency
  ordinary x hx := by
    rcases List.mem_append.1 hx with hx | hx
    · exact h₁.ordinary x hx
    · rw [← h₁.urgency]
      exact h₂.ordinary x hx
  permit task ht := by
    rcases h₂.permit task ht with ht | ht
    · exact h₁.permit task ht
    · rw [← h₁.urgency]
      exact .inr ht
  waiting t ht := by
    rcases h₂.waiting t ht with ht | ht
    · exact (h₁.waiting t ht).imp_right fun h => List.mem_append_left _ h
    · exact .inr (List.mem_append_right _ ht)

/-- Nothing is put down where throttle and pool stay as they are. -/
theorem quiet (hthrottle : s'.throttle = s.throttle) (hready : s'.ready = s.ready)
    (hrunning : s'.running = s.running) (hwaiting : s'.waiting = s.waiting)
    (hurgency : s'.table.urgency = s.table.urgency) : Settles s [] s' where
  throttle := hthrottle
  legal := trivial
  held p := by simp only [Scheduler.held, pool, hready, hrunning, List.countP_nil, Nat.add_zero, Nat.zero_add]
  urgency := hurgency
  ordinary _ hx := absurd hx List.not_mem_nil
  permit task ht := .inl (by rwa [pool, hready, hrunning] at ht)
  waiting t ht := .inl (hwaiting ▸ ht)

theorem refl : Settles s [] s := quiet rfl rfl rfl rfl rfl

/-- What a step settles leaves the accounts fair. -/
theorem fair (h : Settles s xs s') (hf : s.Fair) : s'.Fair where
  inFlight := by
    have hall (kind : Passage.Kind) :
        xs.countP (·.Is kind anyTimer) = xs.countP (·.kind = kind) :=
      List.countP_congr fun x _ => by simp [Passage.Is, anyTimer]
    have hheld := h.held anyTimer
    have hflight := h.legal.inFlight
    rw [hall, hall, ← hf.inFlight] at hheld
    rw [h.throttle]
    omega
  permit task ht := by
    rw [h.urgency]
    exact (h.permit task ht).elim (hf.permit task) id
  waiting t ht := by
    rw [h.urgency]
    exact (h.waiting t ht).elim (hf.waiting t) (h.ordinary _)

end Settles

/-- A timer that takes a permit is handed to the pool with it, or gives it back at once. -/
theorem boarding_settles {r : Scheduler} (hroom : s.throttle.isFull = false)
    (ht : s.table.urgency t = false) (hthrottle : r.throttle = s.throttle.take)
    (hready : r.ready = s.ready) (hrunning : r.running = s.running) (hrefusing : r.refusing = s.refusing)
    (htable : r.table = s.table) (hwaiting : ∀ u, r.waiting = some u → s.waiting = some u) :
    Settles s (s.boarding t) (r.submit { timer := t, permit := true }) := by
  unfold boarding submit
  rw [hrefusing]
  split
  · exact {
      throttle := congrArg Throttle.release hthrottle
      legal := ⟨hroom, Nat.succ_pos _, trivial⟩
      held := fun p => by
        have hheld : held ((r.giveBack true).drop) p = s.held p := by
          simp only [held, pool, drop, giveBack, if_true, hready, hrunning]
        rw [hheld]
        simp [Passage.Is, List.countP_cons]
        omega
      urgency := congrArg Table.urgency htable
      ordinary := by simp [ht]
      permit := fun task htask => .inl (by
        rw [pool, ← hready, ← hrunning]
        exact htask)
      waiting := fun u hu => .inl (hwaiting u hu) }
  · exact {
      throttle := hthrottle
      legal := ⟨hroom, trivial⟩
      held := fun p => by
        simp [held, pool, Passage.Is, List.countP_cons, hready, hrunning]
        omega
      urgency := congrArg Table.urgency htable
      ordinary := by simp [ht]
      permit := fun task htask => by
        simp only [pool, hready, hrunning, List.mem_append, List.mem_singleton] at htask ⊢
        obtain (hold | rfl) | hold := htask
        · exact .inl (.inl hold)
        · exact .inr (by rw [ht]; rfl)
        · exact .inl (.inr hold)
      waiting := fun u hu => .inl (hwaiting u hu) }

/-- An urgent timer is handed to the pool without a permit. -/
theorem urgent_settles {r : Scheduler} (ht : s.table.urgency t = true)
    (hthrottle : r.throttle = s.throttle) (hready : r.ready = s.ready) (hrunning : r.running = s.running)
    (htable : r.table = s.table) (hwaiting : r.waiting = s.waiting) :
    Settles s [] (r.submit { timer := t, permit := false }) := by
  unfold submit
  split
  · exact .quiet hthrottle hready hrunning hwaiting (congrArg Table.urgency htable)
  · exact {
      throttle := hthrottle
      legal := trivial
      held := fun p => by simp [held, pool, hready, hrunning]
      urgency := congrArg Table.urgency htable
      ordinary := fun _ hx => absurd hx List.not_mem_nil
      permit := fun task htask => by
        simp only [pool, hready, hrunning, List.mem_append, List.mem_singleton] at htask ⊢
        obtain (hold | rfl) | hold := htask
        · exact .inl (.inl hold)
        · exact .inr (by rw [ht]; rfl)
        · exact .inl (.inr hold)
      waiting := fun u hu => .inl (hwaiting ▸ hu) }

/-- Handing on a timer: an urgent one at once, another with a permit, or the coordinator
waits for one. -/
theorem dispatch_settles (s : Scheduler) (t : Nat) :
    Settles s (s.dispatching t) (s.dispatch t) := by
  unfold dispatching dispatch
  simp only
  split
  next hurgent => exact urgent_settles hurgent rfl rfl rfl rfl rfl
  next hordinary =>
    rw [Bool.not_eq_true] at hordinary
    split
    next hfull =>
      exact {
        throttle := rfl
        legal := ⟨hfull, trivial⟩
        held := fun p => by simp [held, pool, Passage.Is]
        urgency := rfl
        ordinary := by simpa [Table.urgency] using hordinary
        permit := fun _ htask => .inl htask
        waiting := by simp }
    next hroom =>
      exact boarding_settles (Bool.eq_false_iff.2 hroom) hordinary rfl rfl rfl rfl rfl fun _ hu => hu

/-- Looking again: a permit is taken, or the coordinator goes without or waits on. -/
theorem heed_settles (hf : s.Fair) : Settles s s.heeding s.heed := by
  unfold heeding heed
  cases hwaiting : s.waiting with
  | none => exact .refl
  | some t =>
    simp only
    split
    next hfull =>
      split
      next =>
        exact {
          throttle := rfl
          legal := ⟨hfull, trivial⟩
          held := fun p => by simp [held, pool, drop, Passage.Is]
          urgency := rfl
          ordinary := by simpa using hf.waiting t hwaiting
          permit := fun _ htask => .inl htask
          waiting := by simp [drop] }
      next => exact .refl
    next hroom =>
      exact boarding_settles (Bool.eq_false_iff.2 hroom) (hf.waiting t hwaiting) rfl rfl rfl rfl rfl
        fun _ hu => by cases hu

/-- A callback that leaves the pool gives back the permit it has. -/
theorem parting_settles {r : Scheduler} (hf : s.Fair) (hperm : s.pool.Perm (task :: r.pool))
    (hthrottle : r.throttle = s.throttle) (htable : r.table = s.table) (hwaiting : r.waiting = s.waiting) :
    Settles s (parting (some task)) (r.giveBack task.permit) := by
  have hmem : task ∈ s.pool := hperm.mem_iff.2 List.mem_cons_self
  have hkind := hf.permit task hmem
  have hpool (b : Bool) : (r.giveBack b).pool = r.pool := by cases b <;> rfl
  have hkept (b : Bool) : ∀ u ∈ (r.giveBack b).pool, u ∈ s.pool := by
    rw [hpool]
    exact fun u hu => hperm.mem_iff.2 (List.mem_cons_of_mem _ hu)
  obtain ⟨t, permit⟩ := task
  cases permit with
  | false =>
    exact {
      throttle := hthrottle
      legal := trivial
      held := fun p => by
        rw [held, held, hpool, hperm.countP_eq]
        simp [parting]
      urgency := congrArg Table.urgency htable
      ordinary := fun _ hx => absurd hx List.not_mem_nil
      permit := fun u hu => .inl (hkept false u hu)
      waiting := fun u hu => .inl (hwaiting ▸ hu) }
  | true =>
    have hout : 0 < s.throttle.inFlight := by
      rw [hf.inFlight]
      exact List.countP_pos_iff.2 ⟨_, hmem, rfl⟩
    exact {
      throttle := congrArg Throttle.release hthrottle
      legal := ⟨hout, trivial⟩
      held := fun p => by
        rw [held, held, hpool, hperm.countP_eq]
        simp [parting, Passage.Is, List.countP_cons]
        omega
      urgency := congrArg Table.urgency htable
      ordinary := by simpa [parting] using hkind
      permit := fun u hu => .inl (hkept true u hu)
      waiting := fun u hu => .inl (hwaiting ▸ hu) }

theorem finish_settles (hf : s.Fair) (k : Nat) (panicked : Bool) :
    Settles s (parting s.running[k]?) (s.finish k panicked) := by
  unfold finish
  split
  next hnone =>
    rw [hnone]
    exact .refl
  next task htask =>
    rw [htask]
    obtain ⟨hlt, rfl⟩ := List.getElem?_eq_some_iff.1 htask
    have hperm : s.pool.Perm (s.running[k] :: (s.ready ++ s.running.eraseIdx k)) :=
      ((List.getElem_cons_eraseIdx_perm hlt).symm.append_left s.ready).trans List.perm_middle
    simp only
    split
    · exact parting_settles hf hperm rfl rfl rfl
    · exact parting_settles hf hperm rfl rfl rfl

theorem discard_settles (hf : s.Fair) (k : Nat) : Settles s (parting s.ready[k]?) (s.discard k) := by
  unfold discard
  split
  next hnone =>
    rw [hnone]
    exact .refl
  next task htask =>
    rw [htask]
    obtain ⟨hlt, rfl⟩ := List.getElem?_eq_some_iff.1 htask
    have hperm : s.pool.Perm (s.ready[k] :: (s.ready.eraseIdx k ++ s.running)) :=
      (List.getElem_cons_eraseIdx_perm hlt).symm.append_right s.running
    exact parting_settles hf hperm rfl rfl rfl

/-- Starting a callback moves it within the pool. -/
theorem start_settles (s : Scheduler) (k : Nat) : Settles s [] (s.next (.start k)) := by
  rw [next, start]
  split
  next => exact .refl
  next task htask =>
    obtain ⟨hlt, rfl⟩ := List.getElem?_eq_some_iff.1 htask
    have hperm : (s.ready.eraseIdx k ++ s.ready[k] :: s.running).Perm s.pool :=
      List.perm_middle.trans ((List.getElem_cons_eraseIdx_perm hlt).append_right s.running)
    exact {
      throttle := rfl
      legal := trivial
      held := fun p => by simpa [held, pool] using (hperm.countP_eq _).symm
      urgency := rfl
      ordinary := fun _ hx => absurd hx List.not_mem_nil
      permit := fun u hu => .inl (hperm.mem_iff.1 hu)
      waiting := fun _ hu => .inl hu }

theorem takeOut_settles (s : Scheduler) (now : Nat) : Settles s [] (s.takeOut now) := by
  unfold takeOut
  split
  next => exact .refl
  next hp => exact .quiet rfl rfl rfl rfl (Heap.urgency_popDue hp)

theorem throwOut_settles (s : Scheduler) : Settles s [] s.throwOut :=
  .quiet rfl rfl rfl rfl (Heap.urgency_drain ..)

theorem queueAt_settles (s : Scheduler) (t wake : Nat) : Settles s [] (s.queueAt t wake).2 := by
  unfold queueAt
  split
  next => exact .refl
  next =>
    split
    next => exact .refl
    next hinsert => exact .quiet rfl rfl rfl rfl (Heap.urgency_insert hinsert)

theorem queue_settles (s : Scheduler) (t now : Nat) (delay : Duration) :
    Settles s [] (s.queue t now delay).2 := by
  rw [queue_eq]
  obtain ⟨clock, hclock⟩ := s.readClock_eq delay
  have hread : Settles s [] (s.readClock delay) := by
    rw [hclock]
    exact .quiet rfl rfl rfl rfl rfl
  exact hread.trans (queueAt_settles ..)

theorem cancel_settles (s : Scheduler) (t : Nat) : Settles s [] (s.cancel t).2 := by
  unfold cancel
  simp only
  split
  · exact .quiet rfl rfl rfl rfl (Heap.urgency_remove ..)
  · exact .refl

theorem coordinate_settles (hf : s.Fair) (now : Nat) :
    Settles s (s.coordinating now) ((s.coordinate now).getD s) := by
  unfold coordinating
  split
  next hs =>
    rw [coordinate, if_pos hs]
    exact .refl
  next hs =>
    rw [Bool.not_eq_true] at hs
    cases hwaiting : s.waiting with
    | some t =>
      rw [coordinate_waiting hs hwaiting]
      exact heed_settles hf
    | none =>
      cases hp : s.heap.popDue s.table now with
      | none =>
        rw [coordinate, hs, hwaiting, hp]
        exact .refl
      | some x =>
        obtain ⟨t, heap, table⟩ := x
        rw [coordinate_parts hs hwaiting hp]
        exact (s.takeOut_settles now).trans (dispatch_settles _ t)

theorem alert_settles (s : Scheduler) : Settles s [] s.alert := .quiet rfl rfl rfl rfl rfl

theorem shutdown_settles (hf : s.Fair) :
    Settles s (if s.stopped then [] else s.alert.heeding) s.shutdown := by
  split
  next hs =>
    rw [shutdown, if_pos hs]
    exact .refl
  next hs =>
    rw [shutdown_parts (Bool.eq_false_iff.2 hs)]
    have htaken := s.alert_settles.trans (heed_settles (s.alert_settles.fair hf))
    have hthrown := htaken.trans (throwOut_settles s.alert.heed)
    rwa [List.append_nil] at hthrown

/-- **One step settles** what it puts down. -/
theorem after_settles (hf : s.Fair) (d : Deed) (hd : s.Can d) :
    Settles s (s.passages d) (s.after d) := by
  cases d with
  | event e =>
    cases e with
    | queueAt t wake => exact queueAt_settles s t wake
    | queue t now delay => exact queue_settles s t now delay
    | cancel t => exact cancel_settles s t
    | coordinate now => exact coordinate_settles hf now
    | rest now => exact .quiet rfl rfl rfl rfl rfl
    | sample now => exact .quiet rfl rfl rfl rfl rfl
    | start k => exact start_settles s k
    | finish k panicked => exact finish_settles hf k panicked
    | refuse on => exact .quiet rfl rfl rfl rfl rfl
    | shutdown => exact shutdown_settles hf
    | others n table => exact .quiet rfl rfl rfl rfl hd.2
  | discard k => exact discard_settles hf k
  | takeOut now => exact takeOut_settles s now
  | dispatch t => exact dispatch_settles s t
  | alert => exact s.alert_settles
  | heed => exact heed_settles hf
  | throwOut => exact throwOut_settles s

/-- **Any run settles** what it puts down: so does each of its steps. -/
theorem Serves.settles (hr : s.Serves xs s') (hf : s.Fair) : Settles s xs s' := by
  induction hr with
  | refl => exact .refl
  | step _ d hd ih => exact ih.trans (after_settles (ih.fair hf) d hd)

theorem made_fair (settings : Settings.Scheduler) (now n : Nat) (table : Table) :
    (made settings now n table).Fair where
  inFlight := rfl
  permit _ ht := absurd ht List.not_mem_nil
  waiting _ ht := by cases ht

/-! ## The accounts -/

/-- The accounts of a throttle that was made with a limit, and of the pool behind it. -/
structure Audited (limit : Nat) (s : Scheduler) (xs : List Passage) : Prop where
  throttle : s.throttle = (Throttle.create limit).along xs
  /-- Each passage could happen when it did: permits were taken when one was left, came back
  when one was out, and who is said to have found the throttle full did. -/
  admitted : ∀ past x, past ++ [x] <+: xs → ((Throttle.create limit).along past).Admits x
  /-- As many permits are out as there are ordinary callbacks in the pool. -/
  inFlight : s.throttle.inFlight = s.pool.countP fun task => !s.table.urgency task.timer
  /-- At no moment were there more than the limit allows. -/
  bounded : ∀ past, past <+: xs → ((Throttle.create limit).along past).inFlight ≤ max limit 1
  /-- Whatever timers it was for, each permit that was taken came back once, or is held. -/
  returned : ∀ p, xs.countP (·.Is .taken p) = xs.countP (·.Is .returned p) + s.held p
  peak : IsGreatest {n | ∃ past, past <+: xs ∧ ((Throttle.create limit).along past).inFlight = n}
    s.throttle.peak
  peak_le : s.throttle.peak ≤ max limit 1
  waits : s.throttle.waits = xs.countP (·.kind = .full)
  /-- Nothing was put down for an urgent timer. -/
  ordinary : ∀ x ∈ xs, s.table.urgency x.timer = false
  /-- A timer that waits for a permit found the throttle full. -/
  asked : ∀ t, s.waiting = some t → ⟨.full, t⟩ ∈ xs

theorem Settles.audited {settings : Settings.Scheduler} {table : Table}
    (h : Settles (made settings now n table) xs s) (hf : s.Fair) :
    Audited settings.dispatchLimit s xs := by
  have hbounded {past : List Passage} (hp : past <+: xs) :
      ((Throttle.create settings.dispatchLimit).along past).inFlight ≤ max settings.dispatchLimit 1 :=
    (h.legal.of_prefix hp).inFlight_le (Nat.zero_le _)
  have hpeak : IsGreatest
      {n | ∃ past, past <+: xs ∧ ((Throttle.create settings.dispatchLimit).along past).inFlight = n}
      ((Throttle.create settings.dispatchLimit).along xs).peak :=
    Throttle.peak_along rfl xs
  have hthrottle : s.throttle = (Throttle.create settings.dispatchLimit).along xs := h.throttle
  rw [← hthrottle] at hpeak
  exact {
    throttle := hthrottle
    admitted := fun past x hp => h.legal.admits hp
    inFlight := by
      rw [hf.inFlight, Scheduler.held]
      exact List.countP_congr fun task ht => by simp [hf.permit task ht, anyTimer]
    bounded := fun past hp => hbounded hp
    returned := fun p => by
      have hheld : 0 + _ = _ := h.held p
      rwa [Nat.zero_add] at hheld
    peak := hpeak
    peak_le := by
      obtain ⟨past, hpast, hmost⟩ := hpeak.1
      rw [← hmost]
      exact hbounded hpast
    waits := by
      rw [hthrottle, Throttle.waits_along]
      exact Nat.zero_add _
    ordinary := fun x hx => by
      rw [h.urgency]
      exact h.ordinary x hx
    asked := fun t ht => (h.waiting t ht).resolve_left (by simp [made, create]) }

/-! ## What the next step does -/

/-- What comes next at the throttle. -/
structure Honours (s : Scheduler) : Prop where
  /-- Who waits for a permit gets one that is left, or goes without one: the latter only
  when none is left and the process shuts down, and then the throttle stays as it is. -/
  answered : ∀ d t, s.Can d → s.waiting = some t → (s.after d).waiting = none →
    s.throttle.isFull = false ∧ s.passages d = s.boarding t ∨
      s.throttle.isFull = true ∧ s.passages d = [⟨.declined, t⟩] ∧ (s.after d).stopped = true ∧
        (s.after d).throttle = s.throttle ∧ (s.after d).pool = s.pool
  /-- A callback that returns or panics gives its permit back, if it was an ordinary one. -/
  finished : ∀ k panicked task, s.running[k]? = some task → (s.finish k panicked).throttle =
    if s.table.urgency task.timer then s.throttle else s.throttle.release
  /-- So does one that the pool throws away. -/
  discarded : ∀ k task, s.ready[k]? = some task → (s.discard k).throttle =
    if s.table.urgency task.timer then s.throttle else s.throttle.release
  /-- Handing on an urgent timer leaves the throttle alone. -/
  urgent : ∀ t, s.table.urgency t = true → (s.dispatch t).throttle = s.throttle

theorem along_parting (hp : task.permit = !s.table.urgency task.timer) (th : Throttle) :
    th.along (parting (some task)) = if s.table.urgency task.timer then th else th.release := by
  obtain ⟨t, permit⟩ := task
  obtain rfl : permit = !s.table.urgency t := hp
  dsimp only
  cases s.table.urgency t <;> rfl

/-- What a coordinator that waits comes to when it looks again. -/
theorem heed_cases (hw : s.waiting = some t) (hnext : s.heed.waiting = none) :
    s.throttle.isFull = false ∧ s.heeding = s.boarding t ∨
      s.throttle.isFull = true ∧ s.heeding = [⟨.declined, t⟩] ∧ s.stopped = true ∧
        s.heed = { s with waiting := none }.drop := by
  unfold heed at hnext ⊢
  unfold heeding
  rw [hw] at hnext ⊢
  simp only at hnext ⊢
  by_cases hfull : s.throttle.isFull = true
  · rw [if_pos hfull] at hnext ⊢
    rw [if_pos hfull]
    by_cases hs : s.stopped = true
    · rw [if_pos hs, if_pos hs]
      exact .inr ⟨hfull, rfl, hs, rfl⟩
    · -- It would wait on.
      rw [if_neg hs, hw] at hnext
      cases hnext
  · rw [if_neg hfull]
    exact .inl ⟨Bool.eq_false_iff.2 hfull, rfl⟩

theorem waiting_queueAt (s : Scheduler) (t wake : Nat) : (s.queueAt t wake).2.waiting = s.waiting := by
  unfold queueAt
  split
  · rfl
  · split <;> rfl

theorem waiting_giveBack (s : Scheduler) (b : Bool) : (s.giveBack b).waiting = s.waiting := by
  cases b <;> rfl

/-- A coordinator that waits does so after any deed but those by which it looks again. -/
theorem waiting_after {d : Deed} (hd : s.Can d) (hw : s.waiting = some t) :
    (s.after d).waiting = s.waiting ∨ ∃ r, (r = s ∨ r = s.alert) ∧ s.passages d = r.heeding ∧
      (s.after d = r.heed ∨ s.after d = r.heed.throwOut) := by
  cases d with
  | event e =>
    cases e with
    | queueAt u wake => exact .inl (waiting_queueAt s u wake)
    | queue u now delay =>
      obtain ⟨clock, hclock⟩ := s.readClock_eq delay
      refine .inl ((waiting_queueAt (s.readClock delay) u _).trans ?_)
      rw [hclock]
    | cancel u =>
      refine .inl ?_
      simp only [after, next, cancel]
      split <;> rfl
    | coordinate now =>
      simp only [after, next, passages, coordinating]
      by_cases hs : s.stopped = true
      · rw [coordinate, if_pos hs]
        exact .inl rfl
      · rw [if_neg hs, coordinate_waiting (Bool.eq_false_iff.2 hs) hw, hw]
        exact .inr ⟨s, .inl rfl, rfl, .inl rfl⟩
    | rest now => exact .inl rfl
    | sample now => exact .inl rfl
    | start k =>
      refine .inl ?_
      simp only [after, next, start]
      split <;> rfl
    | finish k panicked =>
      refine .inl ?_
      simp only [after, next, finish]
      split
      · rfl
      · rw [waiting_giveBack]
        split <;> rfl
    | refuse on => exact .inl rfl
    | shutdown =>
      simp only [after, next, passages]
      by_cases hs : s.stopped = true
      · rw [shutdown, if_pos hs]
        exact .inl rfl
      · rw [if_neg hs, shutdown_parts (Bool.eq_false_iff.2 hs)]
        exact .inr ⟨s.alert, .inr rfl, rfl, .inr rfl⟩
    | others n table => exact .inl rfl
  | discard k =>
    refine .inl ?_
    simp only [after, discard]
    split
    · rfl
    · exact waiting_giveBack _ _
  | takeOut now =>
    refine .inl ?_
    simp only [after, takeOut]
    split <;> rfl
  | dispatch u => cases hw.symm.trans hd
  | alert => exact .inl rfl
  | heed => exact .inr ⟨s, .inl rfl, rfl, .inl rfl⟩
  | throwOut => exact .inl rfl

theorem Fair.honours (hf : s.Fair) : s.Honours := by
  refine ⟨fun d t hd hw hnext => ?_, fun k panicked task htask => ?_, fun k task htask => ?_, fun t ht => ?_⟩
  · obtain hsame | ⟨r, hr, hpassages, hafter⟩ := waiting_after hd hw
    · rw [hsame, hw] at hnext
      cases hnext
    have hwr : r.waiting = some t := by
      obtain rfl | rfl := hr <;> exact hw
    have hnone : r.heed.waiting = none := by
      obtain h | h := hafter <;> rwa [h] at hnext
    obtain ⟨hroom, hheeding⟩ | ⟨hfull, hheeding, hs, hheed⟩ := heed_cases hwr hnone
    · rw [hpassages, hheeding]
      obtain rfl | rfl := hr <;> exact .inl ⟨hroom, rfl⟩
    · rw [hpassages, hheeding]
      have hlast : (s.after d).stopped = r.stopped ∧ (s.after d).throttle = r.throttle ∧
          (s.after d).pool = r.pool := by
        obtain h | h := hafter <;> rw [h, hheed] <;> exact ⟨rfl, rfl, rfl⟩
      rw [hlast.1, hlast.2.1, hlast.2.2, hs]
      obtain rfl | rfl := hr <;> exact .inr ⟨hfull, rfl, rfl, rfl, rfl⟩
  · rw [(finish_settles hf k panicked).throttle, htask]
    refine along_parting (hf.permit task ?_) _
    exact List.mem_append_right _ (List.mem_of_getElem? htask)
  · rw [(discard_settles hf k).throttle, htask]
    refine along_parting (hf.permit task ?_) _
    exact List.mem_append_left _ (List.mem_of_getElem? htask)
  · have hnone : s.dispatching t = [] := if_pos ht
    rw [(dispatch_settles s t).throttle, hnone, Throttle.along_nil]

/-- **The throttle's accounts are right**, whatever is done with a scheduler and its pool in
whatever order. -/
theorem permits_accounted {settings : Settings.Scheduler} {table : Table}
    (hr : (made settings now n table).Serves xs s) :
    Audited settings.dispatchLimit s xs ∧ s.Honours :=
  have hs := hr.settles (made_fair settings now n table)
  have hf := hs.fair (made_fair settings now n table)
  ⟨hs.audited hf, hf.honours⟩

/-- One callback at a time: the first of two timers panics, while the coordinator waits with
the second; the flag of the shutdown is raised before it takes note of either. -/
def oneAtATime : List Deed :=
  [.event (.queueAt 0 1), .event (.queueAt 1 2), .event (.coordinate 5), .takeOut 5, .dispatch 1,
    .event (.start 0), .alert, .event (.finish 0 true), .heed, .throwOut]

theorem permits_accounted_panicked :
    let s := oneAtATime.foldl after (made { dispatchLimit := 0 } 0 1 {})
    let xs : List Passage := [⟨.taken, 0⟩, ⟨.full, 1⟩, ⟨.returned, 0⟩, ⟨.taken, 1⟩]
    s.throttle = { limit := 1, inFlight := 1, peak := 1, waits := 1 } ∧ s.counts.panicked = 1 ∧
      Audited 0 s xs ∧ s.Honours := by
  have handedOn : (made { dispatchLimit := 0 } 0 1 {}).Serves [⟨.taken, 0⟩]
      ((oneAtATime.take 4).foldl after (made { dispatchLimit := 0 } 0 1 {})) :=
    (((Serves.refl.step (.event (.queueAt 0 1)) trivial).step (.event (.queueAt 1 2)) trivial).step
      (.event (.coordinate 5)) trivial).step (.takeOut 5) trivial
  have free : ((oneAtATime.take 4).foldl after (made { dispatchLimit := 0 } 0 1 {})).waiting = none := by
    decide
  have hr : (made { dispatchLimit := 0 } 0 1 {}).Serves
      [⟨.taken, 0⟩, ⟨.full, 1⟩, ⟨.returned, 0⟩, ⟨.taken, 1⟩]
      (oneAtATime.foldl after (made { dispatchLimit := 0 } 0 1 {})) :=
    (((((handedOn.step (.dispatch 1) free).step (.event (.start 0)) trivial).step .alert
      trivial).step (.event (.finish 0 true)) trivial).step .heed trivial).step .throwOut trivial
  exact ⟨by decide, by decide, permits_accounted hr⟩

end Scheduler

end LinkEngine.Timer

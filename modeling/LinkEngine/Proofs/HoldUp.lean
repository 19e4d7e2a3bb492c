import LinkEngine.Proofs.Bindings
import LinkEngine.Proofs.Firing
import LinkEngine.Proofs.Urgency

/-!
# What holds up an urgent timer

An urgent timer takes no permit. But one coordinator hands on all timers in the order of
the heap, and when it finds no permit left for an ordinary one it waits with that and takes
out no other, urgent ones included. So an urgent timer that is due gets through to the pool
by steps of the coordinator alone just when permits are left for all the ordinary timers
before it, and is held up with them otherwise (`GetsThrough`).
-/

namespace LinkEngine.Timer

variable {t u now : Nat}

namespace Throttle

variable {th : Throttle}

/-- How many permits are left. -/
def left (th : Throttle) : Nat := th.limit - th.inFlight

theorem isFull_iff : th.isFull = true ↔ th.left = 0 := by
  rw [isFull, decide_eq_true_eq, left, Nat.sub_eq_zero_iff_le]

theorem isFull_eq_false_iff : th.isFull = false ↔ 0 < th.left := by
  rw [← Bool.not_eq_true, isFull_iff, Nat.pos_iff_ne_zero]

theorem left_take (th : Throttle) : th.take.left = th.left - 1 := by
  simp only [left, take]
  omega

end Throttle

/-- Popping rewrites no wake time. -/
theorem Heap.wake_popDue {h h' : Heap} {table table' : Table} (hk : h.Kept table)
    (hp : h.popDue table now = some (u, h', table')) (t : Nat) :
    (table'.get t).wake = (table.get t).wake := by
  obtain ⟨hroot, -, hremoved⟩ := Heap.popDue_eq_some.1 hp
  have hwake := Heap.wake_removeAt hk (Heap.root?_eq_some.1 hroot).1 t
  rwa [hremoved] at hwake

namespace Scheduler

variable {s s' : Scheduler} {times : List Nat}

/-! ## What comes before a timer -/

/-- The timers that come out of the heap before timer `t`. -/
def ahead (s : Scheduler) (t : Nat) : List Nat :=
  (s.heap.popAll s.table (s.table.get t).wake s.heap.size).1.takeWhile (· != t)

/-- What the pool gets of a timer: an ordinary one comes with a permit. -/
def task (s : Scheduler) (u : Nat) : Task := { timer := u, permit := !s.table.urgency u }

/-- What the coordinator hands on before it hands on timer `t`: the timer it waits with, if
it does, and those that come out of the heap first. -/
def before (s : Scheduler) (t : Nat) : List Task :=
  s.waiting.toList.map (fun u => { timer := u, permit := true }) ++ (s.ahead t).map s.task

/-- How many permits that takes. -/
def needed (s : Scheduler) (t : Nat) : Nat := (s.before t).countP Task.permit

/-- The scheduler after steps of the coordinator at some times. -/
def coordinateAt (s : Scheduler) (times : List Nat) : Scheduler :=
  times.foldl (fun s now => s.next (.coordinate now)) s

/-- Nothing comes out before the root. -/
theorem ahead_root (hroot : s.heap.root? = some t) : s.ahead t = [] := by
  have hsize : s.heap.size = s.heap.size - 1 + 1 := by
    have := (Heap.root?_eq_some.1 hroot).1.le
    omega
  have hpop : s.heap.popDue s.table (s.table.get t).wake = some (t, s.heap.removeAt s.table 1) :=
    Heap.popDue_eq_some.2 ⟨hroot, Nat.le_refl _, rfl⟩
  rw [ahead, hsize, Heap.popAll, hpop]
  simp

/-- The root comes out before any other timer, and then what comes before that one from
there on. -/
theorem ahead_popDue {heap : Heap} {table : Table} (hk : s.heap.Kept s.table) (ht : t ∈ s.heap.items)
    (hp : s.heap.popDue s.table now = some (u, heap, table)) (hne : u ≠ t) :
    s.ahead t = u :: ahead { s with heap, table } t := by
  obtain ⟨hroot, -, hremoved⟩ := Heap.popDue_eq_some.1 hp
  have hpop : s.heap.popDue s.table (s.table.get t).wake = some (u, heap, table) :=
    Heap.popDue_eq_some.2 ⟨hroot, hk.root_le hroot ht, hremoved⟩
  rw [ahead, Heap.popDue_size hk hp, Heap.popAll, hpop]
  simp only [ahead, Heap.wake_popDue hk hp, List.takeWhile_cons, bne_iff_ne, ne_eq, hne, not_false_iff,
    if_true]

/-! ## One step of the coordinator -/

/-- An urgent timer is queued with a scheduler that was not shut down, and the pool takes
callbacks. -/
structure Expects (s : Scheduler) (t : Nat) : Prop where
  whole : s.Whole
  stopped : s.stopped = false
  refusing : s.refusing = false
  urgent : s.table.urgency t = true
  queued : t ∈ s.heap.items

/-- What a step of the coordinator is for timer `t`. -/
inductive Approaches (s : Scheduler) (t : Nat) (s' : Scheduler) : Prop
  /-- The first before it is handed on. -/
  | nearer (x : Task) (before : s.before t = x :: s'.before t) (ready : s'.ready = s.ready ++ [x])
    (room : x.permit = true → s.throttle.isFull = false)
    (throttle : s'.throttle = if x.permit then s.throttle.take else s.throttle)
    (expects : s'.Expects t) (wake : (s'.table.get t).wake = (s.table.get t).wake)
  /-- It is handed on itself. -/
  | there (before : s.before t = []) (ready : s'.ready = s.ready ++ [{ timer := t, permit := false }])
  /-- The coordinator finds no permit left for the first before it. -/
  | waits (before : s'.before t = s.before t) (waiting : s'.waiting.isSome = true)
    (full : s.throttle.isFull = true) (full' : s'.throttle.isFull = true) (expects : s'.Expects t)

theorem submit_accepted (hr : s.refusing = false) (x : Task) :
    s.submit x = { s with ready := s.ready ++ [x] } := by
  rw [submit, hr]
  rfl

theorem task_congr (h : s'.table.urgency = s.table.urgency) : s'.task = s.task := by
  funext u
  rw [task, task, h]

/-- A timer that was taken out is handed on, or the coordinator waits with it. -/
theorem dispatch_cases (hr : s.refusing = false) (u : Nat) :
    (((s.task u).permit = true → s.throttle.isFull = false) ∧
      s.dispatch u = { s with
        counts := { s.counts with fired := s.counts.fired + 1 }
        throttle := if (s.task u).permit then s.throttle.take else s.throttle
        ready := s.ready ++ [s.task u] }) ∨
    ((s.task u).permit = true ∧ s.throttle.isFull = true ∧
      s.dispatch u = { s with
        counts := { s.counts with fired := s.counts.fired + 1 }
        throttle := s.throttle.noteWait
        waiting := some u }) := by
  unfold dispatch task Table.urgency
  by_cases hurgent : (s.table.get u).urgent = true
  · simp only [hurgent, if_true]
    rw [submit_accepted (by exact hr)]
    exact .inl ⟨fun h => absurd h Bool.false_ne_true, rfl⟩
  · rw [Bool.not_eq_true] at hurgent
    simp only [hurgent, Bool.false_eq_true, if_false]
    by_cases hfull : s.throttle.isFull = true
    · rw [if_pos hfull]
      exact .inr ⟨rfl, hfull, rfl⟩
    · rw [if_neg hfull, submit_accepted (by exact hr)]
      exact .inl ⟨fun _ => Bool.eq_false_iff.2 hfull, rfl⟩

/-- A step that takes up the permit the coordinator waited for. -/
theorem Expects.takesUp {v : Nat} (he : s.Expects t) (hv : s.waiting = some v)
    (hc : s.coordinate now = some s') : s.Approaches t s' := by
  have hwhole := he.whole.coordinate hc
  rw [coordinate_of_waiting he.stopped hv] at hc
  split at hc
  next => cases hc
  next hroom =>
    cases hc
    rw [submit_accepted (by exact he.refusing)] at hwhole ⊢
    refine .nearer ⟨v, true⟩ ?_ rfl (fun _ => Bool.eq_false_iff.2 hroom) rfl
      ⟨hwhole, he.stopped, he.refusing, he.urgent, he.queued⟩ rfl
    rw [before, hv]
    rfl

/-- A step that takes a timer out of the heap. -/
theorem Expects.takesOut {heap : Heap} {table : Table} (he : s.Expects t) (hv : s.waiting = none)
    (hp : s.heap.popDue s.table now = some (u, heap, table)) (hc : s.coordinate now = some s') :
    s.Approaches t s' := by
  have hwhole := he.whole.coordinate hc
  rw [coordinate_of_free he.stopped hv, hp] at hc
  have hs' : dispatch { s with heap, table } u = s' := Option.some.inj hc
  have hurgency : table.urgency = s.table.urgency := Heap.urgency_popDue hp
  have htask : task { s with heap, table } = s.task := task_congr hurgency
  have hwake := Heap.wake_popDue he.whole.kept hp t
  have hcases := dispatch_cases (s := { s with heap, table }) he.refusing u
  rw [htask, hs'] at hcases
  by_cases hut : u = t
  · -- It is the timer's own turn, and it needs no permit.
    subst hut
    have hself : s.task u = { timer := u, permit := false } := by rw [task, he.urgent]; rfl
    obtain ⟨-, rfl⟩ | ⟨hpermit, -⟩ := hcases
    · refine .there ?_ (by rw [hself])
      rw [before, hv, ahead_root (Heap.popDue_eq_some.1 hp).1]
      rfl
    · rw [hself] at hpermit
      cases hpermit
  have hqueued : t ∈ heap.items :=
    (List.mem_cons.1 ((popDue_perm he.whole.kept hp).mem_iff.1 he.queued)).resolve_left (Ne.symm hut)
  have hurgent : table.urgency t = true := by rw [hurgency, he.urgent]
  have hbefore : s.before t = s.task u :: (ahead { s with heap, table } t).map s.task := by
    rw [before, hv, ahead_popDue he.whole.kept he.queued hp hut]
    rfl
  obtain ⟨hroom, rfl⟩ | ⟨hpermit, hfull, rfl⟩ := hcases
  · refine .nearer (s.task u) ?_ rfl hroom rfl
      ⟨hwhole, he.stopped, he.refusing, hurgent, hqueued⟩ hwake
    rw [hbefore, ← htask]
    simp only [before, hv]
    rfl
  · refine .waits ?_ rfl hfull hfull ⟨hwhole, he.stopped, he.refusing, hurgent, hqueued⟩
    have hself : s.task u = { timer := u, permit := true } := by rw [← hpermit]; rfl
    rw [hbefore, hself, ← htask]
    rfl

/-- **One step of the coordinator** brings the timer nearer, hands it on, or finds no permit
left for the first before it. -/
theorem Expects.coordinate (he : s.Expects t) (hc : s.coordinate now = some s') :
    s.Approaches t s' := by
  cases hv : s.waiting with
  | some v => exact he.takesUp hv hc
  | none =>
    cases hp : s.heap.popDue s.table now with
    | none =>
      rw [coordinate_of_free he.stopped hv, hp] at hc
      cases hc
    | some x => exact he.takesOut hv hp hc

/-- The coordinator waits for a permit, and none is left. -/
def Blocked (s : Scheduler) : Prop := s.waiting.isSome = true ∧ s.throttle.isFull = true

/-- Then it has no step. -/
theorem Blocked.coordinate (hb : s.Blocked) (now : Nat) : s.coordinate now = none := by
  obtain ⟨v, hv⟩ := Option.isSome_iff_exists.1 hb.1
  unfold Scheduler.coordinate
  rw [hv]
  simp only [hb.2, if_true, ite_self]

theorem Blocked.coordinateAt (hb : s.Blocked) (times : List Nat) : s.coordinateAt times = s := by
  induction times with
  | nil => rfl
  | cons now times ih =>
    rw [Scheduler.coordinateAt, List.foldl_cons, next, hb.coordinate]
    exact ih

/-- While the timer is due and the coordinator is not blocked, it has a step. -/
theorem Expects.progress (he : s.Expects t) (hdue : (s.table.get t).wake ≤ now) (hb : ¬s.Blocked) :
    ∃ s', s.coordinate now = some s' := by
  cases hv : s.waiting with
  | some v =>
    have hroom : ¬s.throttle.isFull = true := fun hfull => hb ⟨by rw [hv]; rfl, hfull⟩
    rw [coordinate_of_waiting he.stopped hv, if_neg hroom]
    exact ⟨_, rfl⟩
  | none =>
    rw [coordinate_of_free he.stopped hv]
    cases hp : s.heap.popDue s.table now with
    | some x => exact ⟨_, rfl⟩
    | none =>
      have hbound : (s.heap.bindings s.table).lookup t = some (s.table.get t).wake :=
        Heap.lookup_bindings_eq_some.2 ⟨he.queued, rfl⟩
      exact absurd hdue (Nat.not_le_of_lt (Heap.popDue_eq_none he.whole.kept hp _ _ hbound))

/-! ## Any number of steps -/

theorem needed_of_cons {x : Task} (h : s.before t = x :: s'.before t) :
    s.needed t = s'.needed t + if x.permit then 1 else 0 := by
  rw [needed, h, List.countP_cons, needed]

/-- A blocked coordinator needs a permit that is not left. -/
theorem Blocked.lacks (hb : s.Blocked) : s.throttle.left < s.needed t := by
  obtain ⟨v, hv⟩ := Option.isSome_iff_exists.1 hb.1
  rw [Throttle.isFull_iff.1 hb.2, needed, before, hv, List.countP_append]
  exact Nat.lt_of_lt_of_le Nat.one_pos (Nat.le_add_right _ _)

/-- A step that brings the timer nearer leaves permits for the rest just when there were
permits for all. -/
theorem lacks_iff_of_nearer {x : Task} (hbefore : s.before t = x :: s'.before t)
    (hroom : x.permit = true → s.throttle.isFull = false)
    (hthrottle : s'.throttle = if x.permit then s.throttle.take else s.throttle) :
    s'.throttle.left < s'.needed t ↔ s.throttle.left < s.needed t := by
  rw [needed_of_cons hbefore, hthrottle]
  cases hx : x.permit with
  | false => rfl
  | true =>
    have hleft := Throttle.isFull_eq_false_iff.1 (hroom hx)
    rw [if_pos rfl, if_pos rfl, Throttle.left_take]
    omega

theorem coordinateAt_cons (hc : s.coordinate now = some s') (times : List Nat) :
    s.coordinateAt (now :: times) = s'.coordinateAt times := by
  rw [coordinateAt, List.foldl_cons, next, hc, Option.getD_some, coordinateAt]

/-- With permits left for all before it, the timer is handed on after those. -/
theorem Expects.through (he : s.Expects t) (hn : s.needed t ≤ s.throttle.left)
    (hdue : ∀ now ∈ times, (s.table.get t).wake ≤ now) (hlen : times.length = (s.before t).length + 1) :
    (s.coordinateAt times).ready = s.ready ++ s.before t ++ [{ timer := t, permit := false }] := by
  induction times generalizing s with
  | nil => cases hlen
  | cons now times ih =>
    have hfree : ¬s.Blocked := fun hb => absurd hb.lacks (Nat.not_lt_of_le hn)
    obtain ⟨s', hc⟩ := he.progress (hdue now List.mem_cons_self) hfree
    rw [coordinateAt_cons hc]
    cases he.coordinate hc with
    | nearer x hbefore hready hroom hthrottle he' hwake =>
      rw [ih he', hready, hbefore, List.append_assoc s.ready]
      · rfl
      · exact Nat.le_of_not_lt fun h =>
          absurd ((lacks_iff_of_nearer hbefore hroom hthrottle).1 h) (Nat.not_lt_of_le hn)
      · rw [hwake]
        exact fun n hmem => hdue n (List.mem_cons_of_mem _ hmem)
      · rw [hbefore] at hlen
        exact Nat.succ.inj hlen
    | there hbefore hready =>
      rw [hbefore] at hlen ⊢
      rw [List.eq_nil_of_length_eq_zero (Nat.succ.inj hlen), List.append_nil]
      exact hready
    | waits hbefore hwaiting hfull hfull' _ =>
      have hlacks : s'.throttle.left < s'.needed t := Blocked.lacks ⟨hwaiting, hfull'⟩
      rw [needed, hbefore, ← needed, Throttle.isFull_iff.1 hfull'] at hlacks
      rw [Throttle.isFull_iff.1 hfull] at hn
      exact absurd hlacks (Nat.not_lt_of_le hn)

/-- With too few permits left it stays in the heap, and permits stay too few. -/
theorem Expects.held_up (he : s.Expects t) (hn : s.throttle.left < s.needed t) (times : List Nat) :
    (s.coordinateAt times).Expects t := by
  induction times generalizing s with
  | nil => exact he
  | cons now times ih =>
    cases hc : s.coordinate now with
    | none =>
      have hsame : s.coordinateAt (now :: times) = s.coordinateAt times := by
        rw [coordinateAt, List.foldl_cons, next, hc, Option.getD_none, coordinateAt]
      rw [hsame]
      exact ih he hn
    | some s' =>
      rw [coordinateAt_cons hc]
      cases he.coordinate hc with
      | nearer x hbefore _ hroom hthrottle he' _ =>
        exact ih he' ((lacks_iff_of_nearer hbefore hroom hthrottle).2 hn)
      | there hbefore _ =>
        rw [needed, hbefore] at hn
        exact absurd hn (Nat.not_lt_zero _)
      | waits _ hwaiting _ hfull' he' => exact ih he' (Blocked.lacks ⟨hwaiting, hfull'⟩)

/-- Once the timer is due, the coordinator is blocked after as many steps as timers come
before it. -/
theorem Expects.ends_blocked (he : s.Expects t) (hn : s.throttle.left < s.needed t)
    (hdue : ∀ now ∈ times, (s.table.get t).wake ≤ now) (hlen : (s.before t).length ≤ times.length) :
    (s.coordinateAt times).Blocked := by
  induction times generalizing s with
  | nil =>
    rw [needed, List.eq_nil_of_length_eq_zero (Nat.le_zero.1 hlen)] at hn
    exact absurd hn (Nat.not_lt_zero _)
  | cons now times ih =>
    by_cases hb : s.Blocked
    · rw [hb.coordinateAt]
      exact hb
    obtain ⟨s', hc⟩ := he.progress (hdue now List.mem_cons_self) hb
    rw [coordinateAt_cons hc]
    cases he.coordinate hc with
    | nearer x hbefore _ hroom hthrottle he' hwake =>
      refine ih he' ((lacks_iff_of_nearer hbefore hroom hthrottle).2 hn) ?_ ?_
      · rw [hwake]
        exact fun n hmem => hdue n (List.mem_cons_of_mem _ hmem)
      · rw [hbefore] at hlen
        exact Nat.le_of_succ_le_succ hlen
    | there hbefore _ =>
      rw [needed, hbefore] at hn
      exact absurd hn (Nat.not_lt_zero _)
    | waits _ hwaiting _ hfull' _ =>
      have hb' : s'.Blocked := ⟨hwaiting, hfull'⟩
      rw [hb'.coordinateAt]
      exact hb'

/-- When an urgent timer gets through to the pool by steps of the coordinator alone. -/
structure GetsThrough (s : Scheduler) (t : Nat) : Prop where
  /-- With permits left for all ordinary timers before it, those steps hand it on, without a
  permit and right after them. -/
  through : s.needed t ≤ s.throttle.left → ∀ times, (∀ now ∈ times, (s.table.get t).wake ≤ now) →
    times.length = (s.before t).length + 1 →
      (s.coordinateAt times).ready = s.ready ++ s.before t ++ [{ timer := t, permit := false }]
  /-- With too few, no number of steps takes it out of the heap. -/
  heldUp : s.throttle.left < s.needed t → ∀ times, t ∈ (s.coordinateAt times).heap.items
  /-- And once it is due, they come to an end at an ordinary timer that waits for a permit. -/
  blocked : s.throttle.left < s.needed t → ∀ times, (∀ now ∈ times, (s.table.get t).wake ≤ now) →
    (s.before t).length ≤ times.length → (s.coordinateAt times).waiting.isSome = true ∧
      (s.coordinateAt times).throttle.isFull = true ∧ ∀ now, (s.coordinateAt times).coordinate now = none

/-- **An urgent timer gets through** just when permits are left for the ordinary timers
before it, in any scheduler that was not shut down and whose pool takes callbacks. -/
theorem urgent_gets_through {settings : Settings.Scheduler} {n : Nat} {table : Table} {marks : List Mark}
    (hn : n ≠ 0) (hi : table.Idle) (hfree : ∀ t, (table.get t).holder ≠ n)
    (hr : (made settings now n table).Runs marks s) (hs : s.stopped = false) (ha : s.refusing = false)
    (ht : t ∈ s.heap.items) (hu : (s.table.get t).urgent = true) : s.GetsThrough t := by
  have he : s.Expects t := ⟨hr.whole (made_whole hn hi hfree), hs, ha, hu, ht⟩
  refine ⟨fun hneeded times hdue hlen => he.through hneeded hdue hlen,
    fun hlacks times => (he.held_up hlacks times).queued, fun hlacks times hdue hlen => ?_⟩
  have hb := he.ends_blocked hlacks hdue hlen
  exact ⟨hb.1, hb.2, hb.coordinate⟩

/-- Two ordinary timers and an urgent one, which is due last. -/
def urgentLast (limit : Nat) : Scheduler :=
  [Event.queueAt 0 1, .queueAt 1 2, .queueAt 2 3].foldl next
    (made { dispatchLimit := limit } 0 1 { entries := [{}, {}, { urgent := true }] })

theorem urgentLast_runs (limit : Nat) : ∃ marks,
    (made { dispatchLimit := limit } 0 1 { entries := [{}, {}, { urgent := true }] }).Runs marks
      (urgentLast limit) :=
  ⟨_, ((Runs.refl.step (.queueAt 0 1) trivial).step (.queueAt 1 2) trivial).step (.queueAt 2 3) trivial⟩

theorem urgent_gets_through_last :
    (urgentLast 2).needed 2 = 2 ∧ (urgentLast 2).throttle.left = 2 ∧
      ((urgentLast 2).coordinateAt [3, 3, 3]).ready = [⟨0, true⟩, ⟨1, true⟩, ⟨2, false⟩] ∧
      (urgentLast 2).GetsThrough 2 := by
  have hfresh : ∀ t, (Table.get { entries := [{}, {}, { urgent := true }] } t).position = 0 ∧
      (Table.get { entries := [{}, {}, { urgent := true }] } t).holder = 0 := by
    rintro (_ | _ | _ | t) <;> exact ⟨rfl, rfl⟩
  obtain ⟨marks, hr⟩ := urgentLast_runs 2
  exact ⟨by decide, by decide, by decide, urgent_gets_through (by decide) (fun t _ => (hfresh t).1)
    (fun t => by rw [(hfresh t).2]; decide) hr rfl rfl (by decide) (by decide)⟩

/-- With one permit, the urgent timer is due and stays in the heap, whenever the coordinator
tries: it waits with an ordinary one. -/
theorem urgent_held_up :
    let s := (urgentLast 1).coordinateAt [3, 3]
    (∃ marks, (made { dispatchLimit := 1 } 0 1 { entries := [{}, {}, { urgent := true }] }).Runs marks s) ∧
      s.stopped = false ∧ s.refusing = false ∧ (s.table.get 2).urgent = true ∧
      2 ∈ s.heap.items ∧ (s.table.get 2).wake ≤ 3 ∧ s.waiting = some 1 ∧
      ∀ times, 2 ∈ (s.coordinateAt times).heap.items := by
  obtain ⟨marks, hr⟩ := urgentLast_runs 1
  have hb : ((urgentLast 1).coordinateAt [3, 3]).Blocked := ⟨by decide, by decide⟩
  refine ⟨⟨_, (hr.step (.coordinate 3) trivial).step (.coordinate 3) trivial⟩, by decide, by decide,
    by decide, by decide, by decide, by decide, fun times => ?_⟩
  rw [hb.coordinateAt]
  decide

end Scheduler

end LinkEngine.Timer

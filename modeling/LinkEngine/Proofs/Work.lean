import LinkEngine.Proofs.Closes
import LinkEngine.Proofs.Outside
import LinkEngine.Proofs.Plan
import LinkEngine.Proofs.Sole

/-!
# What a task does to an engine

The task that drives a link writes to that link, counts, makes timers, keeps
handles, and sets off courses of the whole engine. `Work` is a sequence of such
things; to any other link it is a course (`Work.stand`), and no timer of the
engine gets into foreign hands by it (`Work.sole`), since nothing that lasts of a scheduler
changes (`Work.lasts`).
-/

namespace LinkEngine

open Connection (Counter Stats)

/-- The counter belongs to closed connections. -/
def Connection.Counter.isOfClose (c : Counter) : Bool :=
  c == .closed || Connection.CloseReason.all.any (Counter.ofReason? · == some c)

/-- What is counted of links that stay open. -/
inductive Connection.Stats.Noted : (Stats → Stats) → Prop where
  | record {c : Counter} (hc : c.isOfClose = false) : Noted (·.record c)
  | bytes (read written : Nat) : Noted (·.recordBytes read written)

/-- What holds of a scheduler is kept by everything that is done with one. -/
structure Timer.Scheduler.Lasts (P : Timer.Scheduler → Prop) : Prop where
  stirred : ∀ {now : Nat} {x y : Timer.Scheduler}, x.Stirred now y → P x → P y
  start : ∀ {x y : Timer.Scheduler} {place : Nat} {task : Timer.Task},
    x.start place = some (task, y) → P x → P y
  queue : ∀ {x : Timer.Scheduler} (t now : Nat) (delay : Time.Duration),
    P x → P (x.queue t now delay).2
  cancel : ∀ {x : Timer.Scheduler} (t : Nat), P x → P (x.cancel t).2

/-- Timers stay in one pair of hands. -/
theorem Timer.Scheduler.sole_lasts : Lasts Sole where
  stirred h hx := by
    cases h with
    | sample => exact hx
    | coordinate fuel => exact coordinateAll_sole fuel _ _ hx
    | finish place panicked => exact finish_sole hx place panicked
    | shutdown => exact shutdown_sole hx
  start h hx := start_sole hx h
  queue t now delay hx := queue_sole hx t now delay
  cancel t hx := cancel_sole hx t

namespace Engine

variable {l : Nat} {s t u : Engine} {k k' : Link}

/-! ## Deadlines -/

/-- What setting a deadline comes to: a timer is made and queued, and takes the place of the
one before; or it cannot be queued, and the history says so. -/
theorem arm_eq (hk : s.link? l = some k) (delay : Time.Duration) : s.arm l delay =
    match s.scheduler.queue s.alarms.length s.now delay with
    | (.error f, x) => (.error f, { s.setLink l
        ({ k with waitGeneration := k.waitGeneration + 1 }.note (.unarmed f)) with
          alarms := s.alarms ++ [.deadline l (k.waitGeneration + 1)]
          scheduler := x })
    | (.ok (), x) => (.ok (), { s.setLink l
        { k with
          waitGeneration := k.waitGeneration + 1
          deadline := some s.alarms.length } with
          alarms := s.alarms ++ [.deadline l (k.waitGeneration + 1)]
          scheduler := k.deadline.elim x fun t => (x.cancel t).2 }) := by
  unfold arm queueTimer newTimer
  rw [hk]
  dsimp only [setLink, modifyLink]
  generalize s.scheduler.queue s.alarms.length s.now delay = queued
  obtain ⟨r, x⟩ := queued
  -- Writing to the link twice is writing once.
  cases r with
  | error f =>
    simp only [note, modifyLink, List.modify_modify_eq]
    congr 3
    funext slot
    cases slot <;> rfl
  | ok _ =>
    cases k.deadline <;>
    · simp only [cancelTimer, List.modify_modify_eq, Option.elim]
      congr 3
      funext slot
      cases slot <;> rfl

theorem arm_of_none (hk : s.link? l = none) {delay : Time.Duration} :
    (s.arm l delay).2 = s := by
  unfold arm
  rw [hk]

/-- Of the stands, only that of the link shows that its deadline was set. -/
theorem stand?_arm_self {v : Stand} (hv : s.stand? l = some v) (delay : Time.Duration) :
    ∃ k, (s.arm l delay).2.stand? l = some ⟨k, v.queue⟩ ∧ v.link.Own k := by
  rw [arm_eq (stand?_eq_some.1 hv).1]
  split
  · exact ⟨_, (stand?_congr rfl rfl).trans (stand?_setLink_self hv _),
      rfl, .inl rfl, .inr ⟨_, rfl, rfl⟩, Nat.le_succ _⟩
  · exact ⟨_, (stand?_congr rfl rfl).trans (stand?_setLink_self hv _),
      rfl, .inl rfl, .inl rfl, Nat.le_succ _⟩

theorem stand?_arm_ne {m : Nat} (hm : m ≠ l) (s : Engine) (delay : Time.Duration) :
    (s.arm l delay).2.stand? m = s.stand? m := by
  cases hk : s.link? l with
  | none =>
    rw [arm_of_none hk]
  | some k =>
    rw [arm_eq hk]
    split <;> exact (stand?_congr rfl rfl).trans (stand?_setLink_ne hm s _)

theorem stand?_disarm {v : Stand} (hv : s.stand? l = some v) :
    (s.disarm l).stand? l = some ⟨v.link.disarmed, v.queue⟩ := by
  rw [disarm_eq (stand?_eq_some.1 hv).1]
  exact (stand?_congr rfl rfl).trans (stand?_setLink_self hv _)

theorem stand?_disarm_ne {m : Nat} (hm : m ≠ l) (s : Engine) :
    (s.disarm l).stand? m = s.stand? m := by
  cases hk : s.link? l with
  | none =>
    rw [disarm_of_none hk]
  | some k =>
    rw [disarm_eq hk]
    exact (stand?_congr rfl rfl).trans (stand?_setLink_ne hm s _)

theorem listeners_arm (l : Nat) (delay : Time.Duration) (s : Engine) :
    (s.arm l delay).2.listeners = s.listeners := by
  cases hk : s.link? l with
  | none =>
    rw [arm_of_none hk]
  | some k =>
    rw [arm_eq hk]
    split <;> rfl

theorem listeners_disarm (l : Nat) (s : Engine) : (s.disarm l).listeners = s.listeners := by
  cases hk : s.link? l with
  | none =>
    rw [disarm_of_none hk]
  | some k =>
    rw [disarm_eq hk]
    rfl

theorem calm_arm (l : Nat) (delay : Time.Duration) (s : Engine) : Calm s (s.arm l delay).2 := by
  refine .of (listeners_arm l delay s) ?_
  cases hk : s.link? l with
  | none =>
    rw [arm_of_none hk]
  | some k =>
    rw [arm_eq hk]
    split <;> rfl

theorem calm_disarm (l : Nat) (s : Engine) : Calm s (s.disarm l) := by
  refine .of (listeners_disarm l s) ?_
  cases hk : s.link? l with
  | none =>
    rw [disarm_of_none hk]
  | some k =>
    rw [disarm_eq hk]
    rfl

/-! ## Work -/

/-- What the task of a link does to an engine. -/
inductive Work (l : Nat) : Engine → Engine → Prop where
  | refl (s : Engine) : Work l s s
  | course {s t u : Engine} (h : Course s t) (rest : Work l t u) : Work l s u
  /-- It writes to the link, but leaves the deadline and the number of its wait. -/
  | own {s u : Engine} {k k' : Link} (hk : s.link? l = some k) (h : k.Own k')
      (hw : k'.wait = k.wait) (rest : Work l (s.setLink l k') u) : Work l s u
  /-- It sets the deadline of a wait. -/
  | armed {s u : Engine} (delay : Time.Duration) (rest : Work l (s.arm l delay).2 u) : Work l s u
  /-- It takes the deadline of a wait back. -/
  | disarmed {s u : Engine} (rest : Work l (s.disarm l) u) : Work l s u
  | stats {s u : Engine} (i : Nat) {f : Stats → Stats} (h : Stats.Noted f)
      (rest : Work l (s.modifyListener i fun x => { x with stats := f x.stats }) u) : Work l s u
  | handle {s u : Engine} (name : String) (h : Handle)
      (rest : Work l { s with handles := (name, h) :: s.handles } u) : Work l s u

namespace Work

theorem trans (h₁ : Work l s t) (h₂ : Work l t u) : Work l s u := by
  induction h₁ with
  | refl => exact h₂
  | course h _ ih => exact .course h (ih h₂)
  | own hk h hw _ ih => exact .own hk h hw (ih h₂)
  | armed delay _ ih => exact .armed delay (ih h₂)
  | disarmed _ ih => exact .disarmed (ih h₂)
  | stats i h _ ih => exact .stats i h (ih h₂)
  | handle n h _ ih => exact .handle n h (ih h₂)

theorem ofCourse (h : Course s t) : Work l s t := .course h (.refl t)

theorem write (hk : s.link? l = some k) (h : k.Own k') (hw : k'.wait = k.wait) :
    Work l s (s.setLink l k') :=
  .own hk h hw (.refl _)

theorem count (s : Engine) (i : Nat) {c : Counter} (hc : c.isOfClose = false) :
    Work l s (s.count i c) :=
  .stats i (.record hc) (.refl _)

/-- **To any other link, work is a course.** -/
theorem stand {m : Nat} (hm : m ≠ l) (h : Work l s t) {v : Stand} (hv : s.stand? m = some v) :
    ∃ w, t.stand? m = some w ∧ Stand.Course v w := by
  induction h generalizing v with
  | refl => exact ⟨v, hv, .refl v⟩
  | course h _ ih =>
    obtain ⟨w, hw, hvw⟩ := h.stand hv
    obtain ⟨u, hu, hwu⟩ := ih hw
    exact ⟨u, hu, hvw.trans hwu⟩
  | own _ _ _ _ ih => exact ih ((stand?_setLink_ne hm _ _).trans hv)
  | armed delay _ ih => exact ih ((stand?_arm_ne hm _ delay).trans hv)
  | disarmed _ ih => exact ih ((stand?_disarm_ne hm _).trans hv)
  | stats _ _ _ ih => exact ih ((stand?_congr rfl rfl).trans hv)
  | handle _ _ _ ih => exact ih ((stand?_congr rfl rfl).trans hv)

/-- **To its own link, work is what its task wrote, and courses.** -/
theorem worked (h : Work l s t) {v : Stand} (hv : s.stand? l = some v) :
    ∃ w, t.stand? l = some w ∧ Stand.Worked v w := by
  induction h generalizing v with
  | refl => exact ⟨v, hv, .refl v⟩
  | course h _ ih =>
    obtain ⟨w, hw, hvw⟩ := h.stand hv
    obtain ⟨u, hu, hwu⟩ := ih hw
    exact ⟨u, hu, .course hvw hwu⟩
  | own hk h _ _ ih =>
    obtain rfl : v.link = _ := Option.some.inj ((stand?_eq_some.1 hv).1.symm.trans hk)
    obtain ⟨u, hu, hwu⟩ := ih (stand?_setLink_self hv _)
    exact ⟨u, hu, .own h hwu⟩
  | armed delay _ ih =>
    obtain ⟨k, hk, hown⟩ := stand?_arm_self hv delay
    obtain ⟨u, hu, hwu⟩ := ih hk
    exact ⟨u, hu, .own hown hwu⟩
  | disarmed _ ih =>
    obtain ⟨u, hu, hwu⟩ := ih (stand?_disarm hv)
    exact ⟨u, hu, .own (.disarmed _) hwu⟩
  | stats _ _ _ ih => exact ih ((stand?_congr rfl rfl).trans hv)
  | handle _ _ _ ih => exact ih ((stand?_congr rfl rfl).trans hv)

end Work

/-! ## What lasts of a scheduler -/

variable {P : Timer.Scheduler → Prop} (hP : Timer.Scheduler.Lasts P)
include hP

private theorem elim_cancel_lasts {x : Timer.Scheduler} (hx : P x) (t : Option Nat) :
    P (t.elim x fun t => (x.cancel t).2) := by
  cases t with
  | none => exact hx
  | some t => exact hP.cancel t hx

theorem Change.lasts (h : Change s t) (hs : P s.scheduler) : P t.scheduler := by
  cases h with
  | scheduler hx => exact hP.stirred hx hs
  | rang h => exact hP.start h hs
  | again h _ delay => exact hP.queue _ _ delay (hP.start h hs)
  | _ => exact hs

private theorem Halt.lasts {done : Engine → Prop} (h : Halt s t done) (hs : P s.scheduler) :
    P t.scheduler := by
  cases h with
  | listener i => exact elim_cancel_lasts hP hs _
  | all => exact hs

theorem beginTearDown_lasts (l : Nat) (reason : Connection.CloseReason) (hs : P s.scheduler) :
    P (beginTearDown l reason s).scheduler := by
  cases hk : s.link? l with
  | none =>
    rw [beginTearDown_of_none hk]
    exact hs
  | some k =>
    rw [beginTearDown_eq hk]
    exact elim_cancel_lasts hP hs _

omit hP in
theorem giveBack_scheduler (l : Nat) (reason : Connection.CloseReason) (s : Engine) :
    (giveBack l reason s).scheduler = s.scheduler := by
  unfold giveBack
  split <;> rfl

/-- **Whatever others do, what lasts of a scheduler stays.** -/
theorem Course.lasts (h : Course s t) (hs : P s.scheduler) : P t.scheduler := by
  induction h with
  | refl => exact hs
  | change h _ ih => exact ih (h.lasts hP hs)
  | halt h _ _ _ ihinner ihrest => exact ihrest (ihinner (h.lasts hP hs))
  | teardown _ _ _ _ ihhook ihrest =>
    refine ihrest ?_
    rw [giveBack_scheduler]
    exact ihhook (beginTearDown_lasts hP _ _ hs)

private theorem arm_lasts (l : Nat) (delay : Time.Duration) (hs : P s.scheduler) :
    P (s.arm l delay).2.scheduler := by
  cases hk : s.link? l with
  | none =>
    rw [arm_of_none hk]
    exact hs
  | some k =>
    have hqueue := hP.queue s.alarms.length s.now delay hs
    rw [arm_eq hk]
    generalize s.scheduler.queue s.alarms.length s.now delay = queued at hqueue ⊢
    obtain ⟨r, x⟩ := queued
    cases r with
    | error f => exact hqueue
    | ok _ => exact elim_cancel_lasts hP hqueue _

private theorem disarm_lasts (l : Nat) (hs : P s.scheduler) : P (s.disarm l).scheduler := by
  cases hk : s.link? l with
  | none =>
    rw [disarm_of_none hk]
    exact hs
  | some k =>
    rw [disarm_eq hk]
    exact elim_cancel_lasts hP hs _

/-- **Whatever a task does, what lasts of a scheduler stays.** -/
theorem Work.lasts (h : Work l s t) (hs : P s.scheduler) : P t.scheduler := by
  induction h with
  | refl => exact hs
  | course h _ ih => exact ih (h.lasts hP hs)
  | own _ _ _ _ ih => exact ih hs
  | armed delay _ ih => exact ih (arm_lasts hP _ delay hs)
  | disarmed _ ih => exact ih (disarm_lasts hP _ hs)
  | stats _ _ _ ih => exact ih hs
  | handle _ _ _ ih => exact ih hs

omit hP

theorem Course.sole (h : Course s t) (hs : s.scheduler.Sole) : t.scheduler.Sole :=
  h.lasts Timer.Scheduler.sole_lasts hs

theorem Work.sole (h : Work l s t) (hs : s.scheduler.Sole) : t.scheduler.Sole :=
  h.lasts Timer.Scheduler.sole_lasts hs

end Engine

end LinkEngine

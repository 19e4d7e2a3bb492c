import LinkEngine.Engine.Running
import LinkEngine.Proofs.Driven

/-!
# What a move does

A task begins (`begin_turn`), takes its steps one by one (`advance_step`), and in the
end parks its link or tears it down (`conclude_concluded`). Each of these is a turn
of the link that the task drives, and a course to every other link (`Drove.stand`).
-/

namespace LinkEngine.Engine

open Connection (CloseReason)
open Link (Entry Outcome Step)

variable {s t u : Engine} {l m : Nat} {k k' : Link} {reason : CloseReason} {v : Stand}

/-! ## Teardowns -/

theorem TornDown.stand_self (h : TornDown l reason s t) (hv : s.stand? l = some v) :
    ∃ w, t.stand? l = some w ∧ Stand.TornDown reason v w := by
  obtain ⟨hk, -⟩ := stand?_eq_some.1 hv
  cases h with
  | absent hn => rw [hk] at hn; cases hn
  | before hk' hc =>
    obtain rfl : v.link = _ := Option.some.inj (hk.symm.trans hk')
    exact ⟨v, hv, .before hc⟩
  | now hk' hc hook =>
    obtain rfl : v.link = _ := Option.some.inj (hk.symm.trans hk')
    obtain ⟨w, hw, hvw⟩ := hook.stand (stand?_beginTearDown_self hv reason)
    exact ⟨_, stand?_giveBack_self hw reason, .now hc hvw⟩

theorem TornDown.stand_ne (hm : m ≠ l) (h : TornDown l reason s t) (hv : s.stand? m = some v) :
    ∃ w, t.stand? m = some w ∧ Stand.Course v w := by
  cases h with
  | absent | before => exact ⟨v, hv, .refl v⟩
  | now hk hc hook =>
    obtain ⟨w, hw, hvw⟩ := hook.stand ((stand?_beginTearDown_ne hm reason s).trans hv)
    exact ⟨w, (stand?_giveBack_ne hm reason _).trans hw, hvw⟩

theorem TornDown.lasts {P : Timer.Scheduler → Prop} (hP : Timer.Scheduler.Lasts P)
    (h : TornDown l reason s t) (hs : P s.scheduler) : P t.scheduler := by
  cases h with
  | absent | before => exact hs
  | now hk hc hook =>
    rw [giveBack_scheduler]
    exact hook.lasts hP (beginTearDown_lasts hP l reason hs)

/-! ## Steps of a task -/

/-- What a move of the task of a link does to an engine: it works, and in the end
it may tear the link down. -/
inductive Drove (l : Nat) (s : Engine) : Engine → Prop where
  | work {t : Engine} (h : Work l s t) : Drove l s t
  | torn {t u w : Engine} {reason : CloseReason} (h : Work l s t) (ht : TornDown l reason t u)
      (h' : Work l u w) : Drove l s w

theorem Drove.stand (hm : m ≠ l) (h : Drove l s t) (hv : s.stand? m = some v) :
    ∃ w, t.stand? m = some w ∧ Stand.Course v w := by
  cases h with
  | work h => exact h.stand hm hv
  | torn h ht h' =>
    obtain ⟨w, hw, hvw⟩ := h.stand hm hv
    obtain ⟨x, hx, hwx⟩ := ht.stand_ne hm hw
    obtain ⟨y, hy, hxy⟩ := h'.stand hm hx
    exact ⟨y, hy, hvw.trans (hwx.trans hxy)⟩

theorem Drove.lasts {P : Timer.Scheduler → Prop} (hP : Timer.Scheduler.Lasts P)
    (h : Drove l s t) (hs : P s.scheduler) : P t.scheduler := by
  cases h with
  | work h => exact h.lasts hP hs
  | torn h ht h' => exact h'.lasts hP (ht.lasts hP (h.lasts hP hs))

/-- The task goes on with this step, or is over. -/
private theorem to_work (l : Nat) (step : Option Step) (s : Engine) :
    Work l s (s.modifyLink l fun k => { k with step }) := by
  cases hk : s.link? l with
  | none =>
    rw [modifyLink_of_none hk]
    exact .refl s
  | some k =>
    rw [modifyLink_eq_setLink hk]
    exact .write hk ⟨rfl, .inl rfl, .inl rfl, Nat.le_refl _⟩ rfl

private theorem stand?_to (hv : s.stand? l = some v) (step : Option Step) :
    (s.modifyLink l fun k => { k with step }).stand? l = some (v.next step) := by
  rw [modifyLink_eq_setLink (stand?_eq_some.1 hv).1]
  exact stand?_setLink_self hv _

/-- Finding the reason for which a failure closes a link may shut the process
down, where it is for lack of memory. -/
theorem failureReason_course (hk : s.link? l = some k) (f : Failure) :
    k.FailsAs f (failureReason l f s).1 ∧ Course s (failureReason l f s).2 ∧
      (f.isOutOfMemory = false → (failureReason l f s).2 = s) := by
  unfold failureReason
  rw [hk]
  simp only
  split
  · exact ⟨.inr rfl, .refl s, fun _ => rfl⟩
  next hasked =>
  have hown : k.closing = false ∨ f.isOutOfMemory = true := by
    cases hc : k.closing with
    | false => exact .inl rfl
    | true => exact .inr (by simpa [hc] using hasked)
  split
  · next hf =>
    refine ⟨.inl ⟨hf.symm, hown⟩, trigger_course (tears_tearDown _) (Nat.le_refl _) _, ?_⟩
    exact fun hm => absurd ((Failure.closeReason_eq_outOfMemory.1 hf).symm.trans hm).symm
      Bool.false_ne_true
  · exact ⟨.inl ⟨rfl, hown⟩, .refl s, fun _ => rfl⟩

private theorem conclude_fail (hv : s.stand? l = some v) {f : Failure} {outcome : Outcome}
    (ho : outcome = .fail f ∨ outcome = .refused f) :
    Drove l s (conclude l outcome s) ∧
      ∃ w, (conclude l outcome s).stand? l = some w ∧ Stand.Concluded v outcome w := by
  have hc : conclude l outcome s = (tearDown l (failureReason l f s).1
      (failureReason l f s).2).modifyLink l fun k => { k with step := none } := by
    rcases ho with rfl | rfl <;> rfl
  rw [hc]
  obtain ⟨hr, hcourse, hsame⟩ := failureReason_course (stand?_eq_some.1 hv).1 f
  have ht := tearDown_tornDown l (failureReason l f s).1 (failureReason l f s).2
  obtain ⟨w, hw, hvw⟩ := hcourse.stand hv
  obtain ⟨x, hx, hwx⟩ := ht.stand_self hw
  refine ⟨.torn (.ofCourse hcourse) ht (to_work l none _),
    _, stand?_to hx none, .fail ho hr hvw (fun hm => ?_) hwx⟩
  rw [hsame hm, hv] at hw
  exact (Option.some.inj hw).symm

/-- What a step decided is carried out by work and, where the link closes, a
teardown. -/
theorem conclude_concluded (hv : s.stand? l = some v) (outcome : Outcome) :
    Drove l s (conclude l outcome s) ∧
      ∃ w, (conclude l outcome s).stand? l = some w ∧ Stand.Concluded v outcome w := by
  have htorn : ∀ reason, ∃ w, (tearDown l reason s).stand? l = some w ∧
      Stand.TornDown reason v w := fun reason => (tearDown_tornDown l reason s).stand_self hv
  cases outcome with
  | next step => exact ⟨.work (to_work l _ s), _, stand?_to hv _, .next step⟩
  | park => exact ⟨.work (to_work l _ s), _, stand?_to hv _, .park⟩
  | close reason =>
    obtain ⟨w, hw, hvw⟩ := htorn reason
    exact ⟨.torn (.refl s) (tearDown_tornDown l reason s) (to_work l none _), _,
      stand?_to hw none, .close hvw⟩
  | fail f => exact conclude_fail hv (.inl rfl)
  | refused f => exact conclude_fail hv (.inr rfl)
  | panic =>
    obtain ⟨w, hw, hvw⟩ := htorn .handlerError
    exact ⟨.torn (.refl s) (tearDown_tornDown l .handlerError s) (to_work l none _), _,
      stand?_to hw none, .panic hvw⟩

/-- A link that is there stays, whatever its task does. -/
private theorem Work.link (h : Work l s t) (hk : s.link? l = some k) :
    ∃ k', t.link? l = some k' := by
  -- Neither what others do nor a write to a link takes it away.
  induction h generalizing k with
  | refl => exact ⟨k, hk⟩
  | course h _ ih =>
    obtain ⟨w, hw, -⟩ := h.stand (stand?_of_link? hk)
    exact ih (stand?_eq_some.1 hw).1
  | own _ _ _ _ ih => exact ih (link?_setLink_self hk _)
  | armed delay _ ih =>
    obtain ⟨k', hk', -⟩ := stand?_arm_self (stand?_of_link? hk) delay
    exact ih (stand?_eq_some.1 hk').1
  | disarmed _ ih => exact ih (stand?_eq_some.1 (stand?_disarm (stand?_of_link? hk))).1
  | stats _ _ _ ih => exact ih hk
  | handle _ _ _ ih => exact ih hk

/-- A step of a task is work, and perhaps a teardown in the end. -/
theorem advance_drove (l : Nat) (s : Engine) : Drove l s (advance l s) := by
  unfold advance
  cases hk : s.link? l with
  | none => exact .work (.refl s)
  | some k =>
    rw [Option.bind_some]
    cases k.step with
    | none => exact .work (.refl s)
    | some step =>
      have hwork := (stepLink_drives hk step).work
      obtain ⟨k', hk'⟩ := hwork.link hk
      obtain ⟨hdrove, -⟩ := conclude_concluded (stand?_of_link? hk') (stepLink l step s).1
      cases hdrove with
      | work h => exact .work (hwork.trans h)
      | torn h ht h' => exact .torn (hwork.trans h) ht h'

/-- What a step decided is carried out. -/
theorem advance_eq (hv : s.stand? l = some v) {step : Step} (hst : v.link.step = some step) :
    advance l s = conclude l (stepLink l step s).1 (stepLink l step s).2 := by
  unfold advance
  rw [(stand?_eq_some.1 hv).1, Option.bind_some, hst]

/-- A step keeps to its plan, and what it decided is carried out on the link it left. -/
theorem advance_stepped (hs : s.scheduler.Sole) (hv : s.stand? l = some v) {step : Step}
    (hst : v.link.step = some step) :
    ∃ w x, (stepLink l step s).2.stand? l = some w ∧ (advance l s).stand? l = some x ∧
      Stand.plan step v (stepLink l step s).1 w ∧ Stand.Worked v w ∧
      Stand.Concluded w (stepLink l step s).1 x := by
  obtain ⟨hk, -⟩ := stand?_eq_some.1 hv
  obtain ⟨w, hw, hvw⟩ := (stepLink_drives hk step).own hs v hv
  -- The plan and the work are about one stand, the one the step left.
  obtain ⟨w', hw', hworked⟩ := (stepLink_drives hk step).work.worked hv
  obtain rfl : w' = w := Option.some.inj (hw'.symm.trans hw)
  obtain ⟨-, x, hx, hwx⟩ := conclude_concluded hw (stepLink l step s).1
  rw [advance_eq hv hst]
  exact ⟨w', x, hw, hx, hvw, hworked, hwx⟩

/-- **A step of the task that drives a link keeps to its plan and is carried
out.** -/
theorem advance_step (hs : s.scheduler.Sole) (hv : s.stand? l = some v) {step : Step}
    (hst : v.link.step = some step) :
    ∃ w x, (advance l s).stand? l = some x ∧ Stand.plan step v (stepLink l step s).1 w ∧
      Stand.Worked v w ∧ Stand.Concluded w (stepLink l step s).1 x := by
  obtain ⟨w, x, -, h⟩ := advance_stepped hs hv hst
  exact ⟨w, x, h⟩

/-- Nothing comes of a step of a task that is over. -/
theorem advance_of_none (hv : s.stand? l = some v) (hst : v.link.step = none) :
    advance l s = s := by
  unfold advance
  rw [(stand?_eq_some.1 hv).1, Option.bind_some, hst]

/-- There is no task that drives a link that is not there. -/
theorem advance_of_absent (hk : s.link? l = none) : advance l s = s := by
  unfold advance
  rw [hk]
  rfl

theorem advance_turn (hs : s.scheduler.Sole) (hv : s.stand? l = some v) :
    ∃ w, (advance l s).stand? l = some w ∧ Stand.Turn v w := by
  cases hst : v.link.step with
  | none =>
    rw [advance_of_none hv hst]
    exact ⟨v, hv, .course (.refl v)⟩
  | some step =>
    obtain ⟨_, x, hx, hplan, hworked, hconcluded⟩ := advance_step hs hv hst
    exact ⟨x, hx, .step hst hplan hworked hconcluded⟩

/-! ## A task begins -/

/-- The task at this place of the queue is taken out of it. -/
def dequeue (s : Engine) (place : Nat) : Engine := { s with tasks := s.tasks.eraseIdx place }

/-- The queue of a link loses the task that is taken out, if it is one of the
link, and no other. -/
private theorem filter_eraseIdx (l : Nat) :
    ∀ (tasks : List Task) (place : Nat) (task : Task), tasks[place]? = some task →
      if task.link = l then
        ∃ i : Nat, ((tasks.filter (·.link == l)).map (·.entry))[i]? = some task.entry ∧
          ((tasks.eraseIdx place).filter (·.link == l)).map (·.entry) =
            ((tasks.filter (·.link == l)).map (·.entry)).eraseIdx i
      else ((tasks.eraseIdx place).filter (·.link == l)).map (·.entry) =
        (tasks.filter (·.link == l)).map (·.entry)
  | [], place, task, h => by simp at h
  | first :: rest, 0, task, h => by
    obtain rfl : first = task := by simpa using h
    rw [List.eraseIdx_cons_zero, List.filter_cons]
    split
    · next hl =>
      rw [if_pos (beq_iff_eq.2 hl)]
      exact ⟨0, rfl, rfl⟩
    · next hl =>
      rw [if_neg (by simpa using hl)]
  | first :: rest, place + 1, task, h => by
    have ih := filter_eraseIdx l rest place task (by simpa using h)
    rw [List.eraseIdx_cons_succ, List.filter_cons, List.filter_cons]
    split at ih
    · next hl =>
      obtain ⟨i, hi, he⟩ := ih
      rw [if_pos hl]
      split
      · refine ⟨i + 1, ?_, ?_⟩
        · rw [List.map_cons, List.getElem?_cons_succ]
          exact hi
        · rw [List.map_cons, List.map_cons, List.eraseIdx_cons_succ, he]
      · exact ⟨i, hi, he⟩
    · next hl =>
      rw [if_neg hl]
      split
      · rw [List.map_cons, List.map_cons, ih]
      · exact ih

theorem stand?_dequeue_self {place : Nat} {task : Task} (ht : s.tasks[place]? = some task)
    (hv : s.stand? task.link = some v) :
    ∃ i : Nat, v.queue[i]? = some task.entry ∧
      (s.dequeue place).stand? task.link = some ⟨v.link, v.queue.eraseIdx i⟩ := by
  obtain ⟨hk, hq⟩ := stand?_eq_some.1 hv
  have h := filter_eraseIdx task.link s.tasks place task ht
  rw [if_pos rfl] at h
  obtain ⟨i, hi, he⟩ := h
  rw [← hq]
  exact ⟨i, hi, stand?_eq_some.2 ⟨hk, he⟩⟩

theorem stand?_dequeue_ne {place : Nat} {task : Task} (ht : s.tasks[place]? = some task)
    (hl : l ≠ task.link) : (s.dequeue place).stand? l = s.stand? l := by
  have h := filter_eraseIdx l s.tasks place task ht
  rw [if_neg fun e => hl e.symm] at h
  unfold stand?
  rw [show (s.dequeue place).entries l = s.entries l from h]
  rfl

/-- What the beginning of a task does to an engine: nothing, or the task is taken
out of the queue, and its link goes on or is torn down. -/
inductive Begun (place : Nat) (s : Engine) : Engine → Prop where
  | nothing : Begun place s s
  | taken {task : Task} {k : Link} {t : Engine} (ht : s.tasks[place]? = some task)
      (hk : s.link? task.link = some k) (hd : k.isDriven = false)
      (h : Drove task.link (s.dequeue place) t) : Begun place s t

theorem Begun.lasts {P : Timer.Scheduler → Prop} (hP : Timer.Scheduler.Lasts P) {place : Nat}
    (h : Begun place s t) (hs : P s.scheduler) : P t.scheduler := by
  cases h with
  | nothing => exact hs
  | taken ht hk hd h => exact h.lasts hP hs

theorem begin_begun (place : Nat) (s : Engine) : Begun place s (begin place s) := by
  unfold begin
  split
  · exact .nothing
  · next task ht =>
    split
    · exact .nothing
    · next k hk =>
      split
      · exact .nothing
      · next hd =>
        have hd : k.isDriven = false := Bool.not_eq_true _ ▸ hd
        have hk' : (s.dequeue place).link? task.link = some k := hk
        simp only
        split
        · exact .taken ht hk hd (.work (.refl _))
        · split
          · exact .taken ht hk hd (.torn (.refl _) (tearDown_tornDown _ _ _) (.refl _))
          · exact .taken ht hk hd (.work (.write hk' ⟨rfl, .inl rfl, .inl rfl, Nat.le_refl _⟩ rfl))

/-- **The beginning of a task is a turn of every link.** -/
theorem begin_turn (place : Nat) (hv : s.stand? l = some v) :
    ∃ w, (begin place s).stand? l = some w ∧ Stand.Turn v w := by
  obtain ⟨hkv, -⟩ := stand?_eq_some.1 hv
  unfold begin
  split
  · exact ⟨v, hv, .course (.refl v)⟩
  · next task ht =>
    split
    · exact ⟨v, hv, .course (.refl v)⟩
    · next k hk =>
      split
      · exact ⟨v, hv, .course (.refl v)⟩
      · next hd =>
        have hd : k.isDriven = false := Bool.not_eq_true _ ▸ hd
        have hk' : (s.dequeue place).link? task.link = some k := hk
        simp only
        -- The task is a turn of its own link; to another link nothing happens but a teardown.
        by_cases hl : l = task.link
        · subst hl
          obtain rfl : v.link = k := Option.some.inj (hkv.symm.trans hk)
          obtain ⟨i, hi, hq⟩ := stand?_dequeue_self ht hv
          split
          · next hc => exact ⟨_, hq, .idle hd hi hc⟩
          · next hc =>
            have hc : v.link.closed = false := Bool.not_eq_true _ ▸ hc
            split
            · next hc' =>
              obtain ⟨w, hw, hvw⟩ := (tearDown_tornDown _ v.link.requestedClose _).stand_self hq
              exact ⟨w, hw, .doomed hd hi hc hc' hvw⟩
            · next hc' =>
              have hc' : v.link.closing = false := Bool.not_eq_true _ ▸ hc'
              refine ⟨_, stand?_setLink_self hq _, ?_⟩
              have := Stand.Turn.begin hd hi hc hc'
              cases he : task.entry <;> rw [he] at this <;> exact this
        · have hq := (stand?_dequeue_ne ht hl).trans hv
          split
          · exact ⟨v, hq, .course (.refl v)⟩
          · split
            · obtain ⟨w, hw, hvw⟩ := (tearDown_tornDown _ k.requestedClose _).stand_ne hl hq
              exact ⟨w, hw, .course hvw⟩
            · exact ⟨v, (stand?_setLink_ne hl _ _).trans hq, .course (.refl v)⟩

end LinkEngine.Engine

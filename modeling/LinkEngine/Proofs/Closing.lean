import LinkEngine.Proofs.Calls
import LinkEngine.Proofs.Growth

/-!
# Links that are to close

Who asks for a driven link to be closed only leaves word of it: the task that drives it
sees to the rest when the hook it is in returns. It gets there in few steps, whatever
others do meanwhile, and none of them calls a hook (`closes_step`, `follow_winding`). The
exception is the start hook: the step after it serves the first request without a look at
what was asked for, so that one more hook is called (`closes_after_hook`).
-/

namespace LinkEngine

open Connection (CloseReason)
open Link (Outcome Step)

namespace Link.Step

/-- A task whose next step this is closes a link that is to close within so many steps,
and calls no hook on the way. -/
inductive Closes : Step → Nat → Prop where
  | rest : Closes (.rest true) 1
  | suspend : Closes .suspend 1
  | listen (deadline : Nat) : Closes (.listen deadline) 1
  | upgrade : Closes .upgrade 2
  | after (keep : Bool) : Closes (.after keep) 3

theorem Closes.pos {step : Step} {n : Nat} (h : step.Closes n) : 0 < n := by
  cases h <;> decide

end Link.Step

namespace Stand

variable {v w u : Stand} {o : Outcome} {step : Step} {n n' : Nat} {hooks : List Hook}

/-! ## Steps -/

/-- **On a link that is to close, each of these steps ends the task or comes closer to
that**, and calls no hook. -/
theorem closes_step (h : step.Closes n) (hc : v.link.closing = true) (hp : plan step v o w) :
    v.link.Silent w.link ∧
      (o.isEnd = true ∨ ∃ next m, o = .next next ∧ next.Closes m ∧ m < n) := by
  cases h with
  | rest => exact ⟨rest_silent hp, .inl (rest_isEnd hp)⟩
  | suspend =>
    refine ⟨suspend_silent hp, .inl ?_⟩
    have hp : Plan.suspend v o w := hp
    unfold Plan.suspend at hp
    rw [if_pos hc] at hp
    obtain ⟨rfl, -⟩ := hp
    rfl
  | listen deadline =>
    refine ⟨wait_silent hp, .inl ?_⟩
    -- It would only wait if it were not to close.
    rcases hp with ⟨_, -, rfl, -⟩ | ⟨hc', -⟩
    · rfl
    · exact nomatch hc.symm.trans hc'
  | upgrade =>
    have hp : Plan.upgrade v o w := hp
    refine ⟨upgrade_silent hp, ?_⟩
    rcases transition_cases hp with ⟨ho, -⟩ | ⟨machine, t, rfl, -⟩
    · exact .inl ho
    · exact .inr ⟨_, 1, rfl, .listen t, by decide⟩
  | after keep =>
    have hp : Plan.after keep v o w := hp
    refine ⟨after_silent hp, .inr ?_⟩
    unfold Plan.after at hp
    split at hp
    · obtain ⟨rfl, -⟩ := hp
      exact ⟨_, 2, rfl, .upgrade, by decide⟩
    · obtain ⟨rfl, -⟩ := hp
      exact ⟨_, 1, rfl, .suspend, by decide⟩
    · obtain ⟨⟨killed, hkilled, rfl⟩, -⟩ := hp
      obtain rfl : killed = true := hkilled (.inl hc)
      exact ⟨_, 1, rfl, .rest, by decide⟩

theorem Concluded.next_step (h : Concluded v (.next step) w) : w.link.step = some step := by
  cases h with
  | next => rfl
  | fail ho => rcases ho with ho | ho <;> cases ho

/-! ## Tasks that wind up -/

/-- These hooks were called on a link, and no other is: it is closed, or it is to close
and its task gets there within so many steps. -/
structure Winding (n : Nat) (hooks : List Hook) (v : Stand) : Prop where
  standing : Standing v
  hooks : v.link.hooks = hooks
  task : v.link.closed = true ∧ v.link.step = none ∨
    v.link.closing = true ∧ ∃ step m, v.link.step = some step ∧ step.Closes m ∧ m ≤ n

theorem Winding.mono (h : Winding n hooks v) (hn : n ≤ n') : Winding n' hooks v := by
  refine ⟨h.standing, h.hooks, ?_⟩
  rcases h.task with hclosed | ⟨hc, step, m, hs, hm, hle⟩
  · exact .inl hclosed
  · exact .inr ⟨hc, step, m, hs, hm, Nat.le_trans hle hn⟩

/-- When it took all the steps that were left, it is closed. -/
theorem Winding.closed (h : Winding (n - n') hooks v) (hn : n ≤ n') : v.link.closed = true := by
  rcases h.task with ⟨hc, -⟩ | ⟨-, step, m, -, hm, hle⟩
  · exact hc
  · rw [Nat.sub_eq_zero_of_le hn] at hle
    exact absurd hle (Nat.not_le_of_lt hm.pos)

/-- A step of the task brings it closer to its end. -/
theorem Winding.advance (h : Winding n hooks v) (hs : v.link.step = some step)
    (hp : plan step v o w) (hw : Worked v w) (hc : Concluded w o u) :
    Winding (n - 1) hooks u := by
  have hstanding := h.standing.turn (.step hs hp hw hc)
  rcases h.task with ⟨-, hnone⟩ | ⟨hclosing, step', m, hs', hm, hle⟩
  · exact nomatch hnone.symm.trans hs
  obtain rfl : step' = step := Option.some.inj (hs'.symm.trans hs)
  obtain ⟨hsilent, hnext⟩ := closes_step hm hclosing hp
  refine ⟨hstanding, (hsilent.trans hc.silent).hooks.trans h.hooks, ?_⟩
  rcases hnext with ho | ⟨next, m', rfl, hm', hlt⟩
  · exact .inl (hc.closed ho)
  · exact .inr ⟨(hw.grown.trans hc.grown).closing hclosing, next, m', hc.next_step, hm', by omega⟩

/-- **Whatever happens to it, a link that winds up goes on to.** -/
theorem Winding.turn (h : Winding n hooks v) (ht : Turn v w) : Winding n hooks w := by
  rcases h.task with ⟨hclosed, hnone⟩ | ⟨hclosing, step, m, hs, hm, hle⟩
  · obtain ⟨hsettled, hstep⟩ := ht.settled hclosed hnone
    exact ⟨h.standing.turn ht, hsettled.hooks.trans h.hooks,
      .inl ⟨hsettled.closed.trans hclosed, hstep⟩⟩
  cases ht with
  | course hcourse =>
    exact ⟨h.standing.turn (.course hcourse), hcourse.silent.hooks.trans h.hooks,
      .inr ⟨hcourse.grown.closing hclosing, step, m, hcourse.step.trans hs, hm, hle⟩⟩
  -- A task drives the link, so no other begins.
  | begin hd | idle hd | doomed hd => exact nomatch hs.symm.trans (step_eq_none hd)
  | step hs hp hw hc => exact (h.advance hs hp hw hc).mono (Nat.sub_le n 1)

/-! ## Before the first request -/

/-- The start hook returned, these hooks were called on a link, and it is to close; but
the first request is next. -/
structure Postponed (hooks : List Hook) (v : Stand) : Prop where
  standing : Standing v
  hooks : v.link.hooks = hooks
  closing : v.link.closing = true
  step : v.link.step = some .dispatch

/-- **The request is served although the link is to close**, and only then does its task
wind up. -/
theorem Postponed.advance (h : Postponed hooks v) (hp : plan .dispatch v o w) (hw : Worked v w)
    (hc : Concluded w o u) : Winding 3 (hooks ++ [.request]) u := by
  have hstanding := h.standing.turn (.step h.step hp hw hc)
  have hcalled := dispatch_called ((standing_some h.step).1 h.standing) hp
  have hhooks : w.link.hooks = v.link.hooks ++ [.request] := by
    rcases hcalled with hbroke | ⟨hd, -⟩
    · exact hbroke.hooks
    · exact hd.hooks
  refine ⟨hstanding, ?_, ?_⟩
  · rw [hc.silent.hooks, hhooks, h.hooks]
  · rcases hcalled with hbroke | ⟨-, keep, rfl⟩
    · exact .inl (hc.closed hbroke.isEnd)
    · exact .inr ⟨(hw.grown.trans hc.grown).closing h.closing, _, 3, hc.next_step, .after keep,
        Nat.le_refl 3⟩

/-- Others leave it at that. -/
theorem Postponed.turn (h : Postponed hooks v) (ht : Turn v w) :
    Postponed hooks w ∨ Winding 3 (hooks ++ [.request]) w := by
  cases ht with
  | course hcourse =>
    exact .inl ⟨h.standing.turn (.course hcourse), hcourse.silent.hooks.trans h.hooks,
      hcourse.grown.closing h.closing, hcourse.step.trans h.step⟩
  | begin hd | idle hd | doomed hd => exact nomatch h.step.symm.trans (step_eq_none hd)
  | step hs hp hw hc =>
    obtain rfl := Option.some.inj (hs.symm.trans h.step)
    exact .inr (h.advance hp hw hc)

/-! ## After a hook -/

/-- After a step that called a hook, a link that is to close winds up, unless it was the
start hook and the first request is next. -/
theorem Called.winding {hook : Hook} (h : Called v o w) (hc : Concluded w o u)
    (hstanding : Standing u) (hclosing : u.link.closing = true)
    (hhooks : u.link.hooks = v.link.hooks ++ [hook]) :
    (hook = .start → u.link.closed = true) ∧ Winding 3 u.link.hooks u ∨
      hook = .start ∧ Postponed u.link.hooks u := by
  have hconcluded := hhooks.symm.trans hc.silent.hooks
  cases h with
  | nothing hsilent =>
    rw [hsilent.hooks, List.append_right_eq_self] at hconcluded
    cases hconcluded
  | broke h =>
    have hclosed := hc.closed h.isEnd
    exact .inl ⟨fun _ => hclosed.1, hstanding, rfl, .inl hclosed⟩
  | started hcalls =>
    rw [Link.hooks_of_served hcalls, List.append_cancel_left_eq] at hconcluded
    cases hconcluded
    exact .inr ⟨rfl, hstanding, rfl, hclosing, hc.next_step⟩
  | served hd hh ho =>
    rw [hd.hooks, List.append_cancel_left_eq] at hconcluded
    cases hconcluded
    refine .inl ⟨fun h => absurd h hh, hstanding, rfl, ?_⟩
    rcases ho with ho | ⟨keep, rfl⟩ | ⟨t, rfl⟩
    · exact .inl (hc.closed ho)
    · exact .inr ⟨hclosing, _, 3, hc.next_step, .after keep, Nat.le_refl 3⟩
    · exact .inr ⟨hclosing, _, 1, hc.next_step, .listen t, by decide⟩

end Stand

namespace Engine

open Stand (Postponed Winding)

variable {s : Engine} {l n : Nat} {k k' : Link} {v : Stand} {hook : Hook} {hooks : List Hook}

/-- **Who asks for an open link to be closed leaves word of it**, or closes it himself. His
reason counts unless somebody asked before. -/
theorem closeWith_closing {d : Nat} {tear : Teardown} (hT : Tears d tear) (hs : s.openLinks ≤ d)
    (reason : CloseReason) (hk : s.link? l = some k) (hc : k.closed = false) :
    ∃ k', (closeWith tear l reason s).link? l = some k' ∧ k'.closing = true ∧
      k'.closeRequest = some (k.closeRequest.getD reason) := by
  unfold closeWith
  rw [hk]
  simp only [hc, Bool.false_eq_true, if_false]
  split
  · next r _ =>
    have hset := link?_setLink_self hk { k.ask reason with request := r }
    have hdepth : (s.setLink l { k.ask reason with request := r }).openLinks ≤ d :=
      Nat.le_trans (Nat.le_of_eq (openLinks_setLink hk rfl)) hs
    obtain ⟨w, hw, htorn⟩ :=
      (hT l (k.ask reason).requestedClose _ hdepth).stand_self (stand?_of_link? hset)
    exact ⟨w.link, (stand?_eq_some.1 hw).1, htorn.grown.closing rfl,
      htorn.grown.closeRequest _ rfl⟩
  · next r _ _ =>
    refine ⟨_, link?_setLink_self hk _, ?_⟩
    unfold Link.interrupt
    split <;> exact ⟨rfl, rfl⟩

/-- The move is a step of the task that drives this link. -/
def Move.advances (l : Nat) : Move → Bool
  | .advance m => m == l
  | _ => false

theorem Move.eq_of_advances {m : Move} (h : m.advances l = true) : m = .advance l := by
  cases m with
  | advance n => exact congrArg Move.advance (beq_iff_eq.1 h)
  | _ => cases h

theorem Move.advances_self (l : Nat) : (Move.advance l).advances l = true := beq_self_eq_true l

/-- The task of a link that winds up is closer to its end by as many steps as it took. -/
theorem follow_winding (hs : s.scheduler.Sole) (hv : s.stand? l = some v)
    (h : Winding n hooks v) (moves : List Move) :
    ∃ w, (follow moves s).stand? l = some w ∧
      Winding (n - moves.countP (Move.advances l)) hooks w := by
  induction moves generalizing s v n with
  | nil => exact ⟨v, hv, h⟩
  | cons m moves ih =>
    rw [follow_cons, List.countP_cons]
    cases hm : m.advances l with
    | false =>
      obtain ⟨w, hw, hvw⟩ := move_turn hs m hv
      exact ih (move_sole hs m) hw (h.turn hvw)
    | true =>
      obtain rfl := Move.eq_of_advances hm
      have hrest : ∃ w, (move (.advance l) s).stand? l = some w ∧ Winding (n - 1) hooks w := by
        rcases h.task with ⟨hclosed, hnone⟩ | ⟨-, step, m, hstep, -⟩
        · rw [show move (.advance l) s = s from advance_of_none hv hnone]
          exact ⟨v, hv, h.standing, h.hooks, .inl ⟨hclosed, hnone⟩⟩
        · obtain ⟨_, w, hw, hp, hworked, hc⟩ := advance_step hs hv hstep
          exact ⟨w, hw, h.advance hstep hp hworked hc⟩
      obtain ⟨w, hw, hwinding⟩ := hrest
      obtain ⟨u, hu, hwinding⟩ := ih (move_sole hs _) hw hwinding
      refine ⟨u, hu, ?_⟩
      rwa [if_pos rfl, Nat.add_comm, ← Nat.sub_sub]

/-- After the first step of its task a link whose first request was put before its close
winds up. -/
theorem follow_postponed (hs : s.scheduler.Sole) (hv : s.stand? l = some v)
    (h : Postponed hooks v) (moves : List Move) :
    ∃ w, (follow moves s).stand? l = some w ∧
      (moves.countP (Move.advances l) = 0 ∧ Postponed hooks w ∨
        Winding (4 - moves.countP (Move.advances l)) (hooks ++ [.request]) w) := by
  induction moves generalizing s v with
  | nil => exact ⟨v, hv, .inl ⟨rfl, h⟩⟩
  | cons m moves ih =>
    rw [follow_cons, List.countP_cons]
    cases hm : m.advances l with
    | false =>
      obtain ⟨w, hw, hvw⟩ := move_turn hs m hv
      rcases h.turn hvw with h | h
      · exact ih (move_sole hs m) hw h
      · obtain ⟨u, hu, h⟩ := follow_winding (move_sole hs m) hw h moves
        exact ⟨u, hu, .inr (h.mono (Nat.sub_le_sub_right (by decide) _))⟩
    | true =>
      obtain rfl := Move.eq_of_advances hm
      obtain ⟨_, w, hw, hp, hworked, hc⟩ := advance_step hs hv h.step
      obtain ⟨u, hu, h⟩ := follow_winding (move_sole hs (.advance l)) hw
        (h.advance hp hworked hc) moves
      refine ⟨u, hu, .inr (h.mono ?_)⟩
      rw [if_pos rfl]
      omega

variable (settings : Settings.Scheduler) (now : Nat)

/-- A hook is called in a step of the task, after which a link that is to close winds up
or serves its first request first. -/
theorem hook_winding (moves : List Move) (hk : (after settings now moves).link? l = some k)
    (hk' : (after settings now (moves ++ [.advance l])).link? l = some k')
    (hhook : k'.hooks = k.hooks ++ [hook]) (hclosing : k'.closing = true) :
    ∃ w, (after settings now (moves ++ [.advance l])).stand? l = some w ∧ w.link = k' ∧
      ((hook = .start → k'.closed = true) ∧ Winding 3 k'.hooks w ∨
        hook = .start ∧ Postponed k'.hooks w) := by
  have hv := stand?_of_link? hk
  have hadvance : after settings now (moves ++ [.advance l]) =
      advance l (after settings now moves) := after_concat ..
  cases hstep : k.step with
  | none =>
    rw [hadvance, advance_of_none hv hstep, hk] at hk'
    cases hk'
    rw [List.self_eq_append_right] at hhook
    cases hhook
  | some step =>
    obtain ⟨w, x, hx, hp, -, hc⟩ := advance_step (after_sole settings now moves) hv hstep
    rw [← hadvance] at hx
    obtain rfl : x.link = k' := Option.some.inj ((stand?_eq_some.1 hx).1.symm.trans hk')
    have hready := (Stand.standing_some hstep).1 (standing settings now moves hv)
    exact ⟨x, hx, rfl, (hready.called hp).winding hc
      (standing settings now (moves ++ [.advance l]) hx) hclosing hhook⟩

/-- **A link that is asked to close while one of its hooks runs closes when the hook
returns.** Who asks, wherever that is, leaves word of it, which nobody takes back. If
there is word of it at the end of a step that called a hook, then whatever the hook
returned and whatever happens from then on, no hook but the close hook is called, and
after three steps of its task the link is closed. The start hook is the exception: after
it the request hook is called, and only then is it so. -/
theorem closes_after_hook (moves more : List Move) (l : Nat) :
    (∀ (s : Engine) (k : Link) (reason : CloseReason), s.link? l = some k → k.closed = false →
      ∃ k', (closeWith tearDown l reason s).link? l = some k' ∧ k'.closing = true) ∧
    ∀ (k k' : Link) (hook : Hook), (after settings now moves).link? l = some k →
      (after settings now (moves ++ [.advance l])).link? l = some k' →
      k'.hooks = k.hooks ++ [hook] → k'.closing = true →
      ∃ k'', (after settings now (moves ++ .advance l :: more)).link? l = some k'' ∧ k''.Told ∧
        (hook ≠ .start → k''.hooks = k'.hooks ∧
          (3 ≤ more.countP (Move.advances l) → k''.closed = true)) ∧
        (hook = .start → (k''.hooks = k'.hooks ∨ k''.hooks = k'.hooks ++ [.request]) ∧
          (k'.closed = false → 0 < more.countP (Move.advances l) →
            k''.hooks = k'.hooks ++ [.request]) ∧
          (4 ≤ more.countP (Move.advances l) → k''.closed = true)) := by
  refine ⟨fun s k reason hk hc => ?_, ?_⟩
  · obtain ⟨k', hk', hclosing, -⟩ :=
      closeWith_closing (tears_tearDown _) (Nat.le_refl _) reason hk hc
    exact ⟨k', hk', hclosing⟩
  intro k k' hook hk hk' hhook hclosing
  have hafter : after settings now (moves ++ .advance l :: more) =
      follow more (after settings now (moves ++ [.advance l])) := by
    rw [after_append, after_append]
    rfl
  have htold : ∀ w, (follow more (after settings now (moves ++ [.advance l]))).stand? l = some w →
      w.link.Told := fun w hw => told settings now _ (hafter ▸ hw)
  have hsole := after_sole settings now (moves ++ [.advance l])
  obtain ⟨w, hw, rfl, ⟨hstart, hwinding⟩ | ⟨rfl, hpostponed⟩⟩ :=
    hook_winding settings now moves hk hk' hhook hclosing
  · obtain ⟨u, hu, hwinding⟩ := follow_winding hsole hw hwinding more
    refine ⟨u.link, hafter ▸ (stand?_eq_some.1 hu).1, htold u hu, ?_, ?_⟩
    · exact fun _ => ⟨hwinding.hooks, fun hn => hwinding.closed hn⟩
    · intro h
      refine ⟨.inl hwinding.hooks, ?_, fun hn => hwinding.closed (Nat.le_trans (by decide) hn)⟩
      intro hc
      rw [hstart h] at hc
      cases hc
  · obtain ⟨u, hu, h⟩ := follow_postponed hsole hw hpostponed more
    refine ⟨u.link, hafter ▸ (stand?_eq_some.1 hu).1, htold u hu, fun h => absurd rfl h, ?_⟩
    intro _
    rcases h with ⟨hzero, hpostponed⟩ | hwinding
    · exact ⟨.inl hpostponed.hooks, fun _ hpos => by omega, fun hn => by omega⟩
    · exact ⟨.inr hwinding.hooks, fun _ _ => hwinding.hooks, fun hn => hwinding.closed hn⟩

/-- What a hook does that asks for its own link to be closed. -/
def closesSelf : List Action := [⟨"close", .closeSelf none, false⟩]

/-- A request hook that asks for the close is the last hook. -/
theorem closes_after_hook_request :
    ∃ k, (after {} 0 (serving { requests := [closesSelf] } 5)).link? 0 = some k ∧
      k.hooks = [.start, .request] ∧ k.closed = true ∧ ∃ reason, k.closings = [reason] := by
  have hbefore : ((after {} 0 (serving { requests := [closesSelf] } 1)).link? 0).map
      (·.hooks) = some [.start] := by
    decide
  have hafter : ((after {} 0 (serving { requests := [closesSelf] } 1 ++ [.advance 0])).link? 0).map
      (fun k => (k.hooks, k.closing)) = some ([.start, .request], true) := by
    decide
  obtain ⟨k, hk, hhooks⟩ := Option.map_eq_some_iff.1 hbefore
  obtain ⟨k', hk', he⟩ := Option.map_eq_some_iff.1 hafter
  obtain ⟨hhooks', hclosing⟩ := Prod.mk.inj he
  have hhook : k'.hooks = k.hooks ++ [.request] := by
    rw [hhooks, hhooks']
    rfl
  obtain ⟨k'', hk'', htold, hother, -⟩ := (closes_after_hook {} 0
    (serving { requests := [closesSelf] } 1) (List.replicate 3 (.advance 0)) 0).2
    k k' .request hk hk' hhook hclosing
  obtain ⟨hsame, hclosed⟩ := hother nofun
  have hclosed := hclosed (by decide)
  refine ⟨k'', hk'', hsame.trans hhooks', hclosed, ?_⟩
  obtain ⟨reason, hreason⟩ := Option.isSome_iff_exists.1 (htold.closed.symm.trans hclosed)
  exact ⟨reason, htold.closings.trans (congrArg _ hreason)⟩

/-- A start hook that asks for the close is followed by a request. -/
theorem start_hook_not_last :
    ((after {} 0 (serving { start := closesSelf } 1)).link? 0).map
      (fun k => (k.hooks, k.closing, k.closed)) = some ([.start], true, false) ∧
    ((after {} 0 (serving { start := closesSelf } 2)).link? 0).map (·.hooks) =
      some [.start, .request] := by
  decide

end Engine

end LinkEngine

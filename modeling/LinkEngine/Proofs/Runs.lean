import LinkEngine.Engine.Running
import LinkEngine.Proofs.Arrivals
import Mathlib.Data.List.Induction

/-!
# Links through a run

Every move of a run is a turn of each link that is there, and makes at most one
new link (`move_turn`, `move_started`). So what holds where links start and is
kept by turns holds of every link throughout every run (`after_stand`): the
properties of links need no more of the engine than this.
-/

namespace LinkEngine

/-- A listener as it is built. -/
structure Listener.Fresh (x : Listener) : Prop where
  tracker : x.tracker = {}
  stats : x.stats = {}
  registry : x.registry = []
  pool : x.buffers.returns = 0 ∧ x.buffers.discards = 0
  taken : x.buffers.hits = 0 ∧ x.buffers.misses = 0

/-- What a move is to a link whose task takes no step by it: others move, or it is a turn of a
link that nobody drives. -/
def Stand.Aside (v w : Stand) : Prop := Course v w ∨ v.link.step = none ∧ Turn v w

namespace Engine

open Connection (CloseReason)

variable {s t : Engine} {l i : Nat} {v : Stand}

/-! ## Moves of others -/

/-- The engine after a timer was made for the housekeeping of one more listener, and was to
be queued. -/
def withHousekeeping (s : Engine) (x : Timer.Scheduler) : Engine :=
  { s with
    alarms := s.alarms ++ [.housekeeping s.listeners.length]
    scheduler := x }

/-- What building a listener does to an engine. -/
inductive Builds (s : Engine) : Engine → Prop where
  | refused : Builds s s
  | unqueued (delay : Time.Duration) {f : Failure} {x : Timer.Scheduler}
      (h : s.scheduler.queue s.alarms.length s.now delay = (.error f, x)) :
      Builds s (s.withHousekeeping x)
  | built (delay : Time.Duration) {x : Timer.Scheduler} {y : Listener} {t : Engine}
      (h : s.scheduler.queue s.alarms.length s.now delay = (.ok (), x)) (hf : y.Fresh)
      (hy : y.housekeeping = some s.alarms.length) (hs : y.stopped = false)
      (h' : Course { s.withHousekeeping x with listeners := s.listeners ++ [y] } t)
      (ht : s.signal.isSome = true → (t.listener s.listeners.length).stopped = true) : Builds s t

private theorem fresh (settings : Settings.Listener) (t : Nat) (multiplexer : Option Multiplexer)
    (platform : Platform) :
    Listener.Fresh
      { settings
        buffers :=
          .create settings.maxIdleBuffers settings.readBufferSize settings.writeBufferSize
            platform.storage
        listing := platform.listing
        housekeeping := some t
        multiplexer } :=
  ⟨rfl, rfl, rfl, ⟨rfl, rfl⟩, ⟨rfl, rfl⟩⟩

theorem build_builds (settings : Settings.Listener) (multiplexer : Option Multiplexer)
    (platform : Platform) (s : Engine) : Builds s (build settings multiplexer platform s).2 := by
  unfold build
  split
  · exact .refused
  · generalize hq : s.scheduler.queue s.alarms.length s.now settings.housekeepingInterval = queued
    have hqueue : (s.newTimer (.housekeeping s.listeners.length)).2.queueTimer
        (s.newTimer (.housekeeping s.listeners.length)).1 settings.housekeepingInterval =
        (queued.1, s.withHousekeeping queued.2) := hq ▸ rfl
    dsimp only
    rw [hqueue]
    obtain ⟨r, x⟩ := queued
    cases r with
    | error f => exact .unqueued _ hq
    | ok _ =>
      refine .built _ hq
        (fresh settings s.alarms.length multiplexer platform) rfl rfl ?_ fun hsignal => ?_
      · dsimp only
        split
        · exact shutdownListener_course (tears_tearDown _) (Nat.le_refl _) _
        · exact .refl _
      · dsimp only
        rw [if_pos (show (s.withHousekeeping x).signal.isSome = true from hsignal)]
        refine shutdownListener_stopped (tears_tearDown _) (Nat.le_refl _) ?_
        rw [List.length_append]
        exact Nat.lt_succ_self _

private theorem notifyWatched_course (i : Nat) (ls : List Nat) (s : Engine) :
    Course s (notifyWatched i ls s) := by
  refine foldl_course (Nat.le_refl _) ?_ ls
  intro t l _
  have hnotify := notify_course (tears_tearDown t.openLinks) (Nat.le_refl _) l
  simp only
  split
  · cases (notify tearDown l t).2.watcher? i with
    | none => exact hnotify
    | some w => exact hnotify.trans (.single (.listener i (.watch _)))
  · exact hnotify

private theorem pollRound_course (i : Nat) (s : Engine) : Course s (pollRound i s) := by
  unfold pollRound pollRoundWith
  split
  · exact .refl s
  · split
    · exact .refl s
    · exact .change (.listener i (.watch _)) (notifyWatched_course i _ _)

private theorem stopWatcher_course (i : Nat) (s : Engine) : Course s (stopWatcher i s) := by
  unfold stopWatcher
  split
  · exact .refl s
  · exact .change (.listener i (.watch _)) (foldl_course (Nat.le_refl _)
      (fun t l _ => notify_course (tears_tearDown _) (Nat.le_refl _) l) _)

/-- The move makes no listener and no link, and is no step of a task. -/
def Move.isPlain : Move → Bool
  | .build .. | .accept .. | .begin _ | .advance _ => false
  | _ => true

/-- **A move that is no arrival and no step of a task is a course.** -/
theorem move_course {m : Move} (hm : m.isPlain = true) (s : Engine) : Course s (move m s) := by
  cases m with
  | build | accept | begin | advance => cases hm
  | perform self op => exact perform_course self op s
  | wake h => exact wakeComet_course (tears_tearDown _) (Nat.le_refl _) h
  | pass millis => exact .single (.pass millis)
  | coordinate => exact .single (.scheduler (.coordinate _ _))
  | fire place =>
    show Course s ((runTimer tearDown place s).getD s)
    cases h : runTimer tearDown place s with
    | none => exact .refl s
    | some t => exact runTimer_course (tears_tearDown _) (Nat.le_refl _) h
  | poll i => exact pollRound_course i s
  | stopWatcher i => exact stopWatcher_course i s
  | forget l =>
    show Course s (s.modifyLink l fun k => { k with held := false })
    cases hk : s.link? l with
    | none =>
      rw [modifyLink_of_none hk]
      exact .refl s
    | some k =>
      rw [modifyLink_eq_setLink hk]
      exact .single (.touched hk (.forget k))

/-- What a move does to an engine. -/
inductive Moves (s : Engine) : Engine → Prop where
  | course {t : Engine} (h : Course s t) : Moves s t
  | built {t : Engine} (h : Builds s t) : Moves s t
  | accepted {i : Nat} {arrival : Arrival} {t : Engine} (hi : i < s.listeners.length)
      (h : Accepts i arrival s t) : Moves s t
  | begun {place : Nat} {t : Engine} (h : Begun place s t) : Moves s t
  | drove {l : Nat} {t : Engine} (h : Drove l s t) : Moves s t

theorem move_moves (m : Move) (s : Engine) : Moves s (move m s) := by
  cases m with
  | build settings multiplexer platform =>
    exact .built (build_builds settings multiplexer platform s)
  | accept i arrival =>
    show Moves s (if i < s.listeners.length then (s.accept i arrival).2 else s)
    split
    · next hi => exact .accepted hi (accept_accepts i arrival s)
    · exact .course (.refl s)
  | begin place => exact .begun (begin_begun place s)
  | advance l => exact .drove (advance_drove l s)
  | _ => exact .course (move_course rfl s)

/-! ## Turns -/

theorem Builds.stand (h : Builds s t) (hv : s.stand? l = some v) :
    ∃ w, t.stand? l = some w ∧ Stand.Course v w := by
  cases h with
  | refused => exact ⟨v, hv, .refl v⟩
  | unqueued => exact ⟨v, (stand?_congr rfl rfl).trans hv, .refl v⟩
  | built _ _ _ _ _ h' _ => exact h'.stand ((stand?_congr rfl rfl).trans hv)

private theorem Builds.lasts {P : Timer.Scheduler → Prop} (hP : Timer.Scheduler.Lasts P)
    (h : Builds s t) (hs : P s.scheduler) : P t.scheduler := by
  have hqueue : ∀ {delay r x}, s.scheduler.queue s.alarms.length s.now delay = (r, x) → P x :=
    fun {delay r x} h => by
      have hx : x = (s.scheduler.queue s.alarms.length s.now delay).2 :=
        (congrArg Prod.snd h).symm
      rw [hx]
      exact hP.queue _ _ _ hs
  cases h with
  | refused => exact hs
  | unqueued _ h => exact hqueue h
  | built _ h _ _ _ h' _ => exact h'.lasts hP (hqueue h)

private theorem Builds.peopled (h : Builds s t) : Peopled s t := by
  cases h with
  | refused => exact .refl s
  | unqueued => exact ⟨fun _ => rfl, fun _ h => .inl h⟩
  | built _ _ _ _ _ h' _ => exact ⟨h'.peopled.links, h'.peopled.tasks⟩

/-- **A move is a turn of each link that is there.** -/
theorem move_turn (hs : s.scheduler.Sole) (m : Move) (hv : s.stand? l = some v) :
    ∃ w, (move m s).stand? l = some w ∧ Stand.Turn v w := by
  have hcourse : ∀ t : Engine, (∃ w, t.stand? l = some w ∧ Stand.Course v w) →
      ∃ w, t.stand? l = some w ∧ Stand.Turn v w := by
    intro t h
    obtain ⟨w, hw, hvw⟩ := h
    exact ⟨w, hw, .course hvw⟩
  cases m with
  | build settings multiplexer platform =>
    exact hcourse _ ((build_builds settings multiplexer platform s).stand hv)
  | accept i arrival =>
    refine hcourse (if i < s.listeners.length then (s.accept i arrival).2 else s) ?_
    split
    · exact (accept_accepts i arrival s).stand hv
    · exact ⟨v, hv, .refl v⟩
  | begin place => exact begin_turn place hv
  | advance m =>
    show ∃ w, (advance m s).stand? l = some w ∧ Stand.Turn v w
    by_cases hm : l = m
    · subst hm
      exact advance_turn hs hv
    · exact hcourse _ ((advance_drove m s).stand hm hv)
  | _ => exact hcourse _ ((move_course rfl s).stand hv)

private theorem begin_aside (place : Nat) (hv : s.stand? l = some v) :
    ∃ w, (begin place s).stand? l = some w ∧ Stand.Aside v w := by
  obtain ⟨w, hw, hturn⟩ := begin_turn place hv
  have hbegun := begin_begun place s
  generalize begin place s = t at hw hbegun
  refine ⟨w, hw, ?_⟩
  cases hbegun with
  | nothing =>
    obtain rfl := Option.some.inj (hv.symm.trans hw)
    exact .inl (.refl v)
  | @taken task k _ ht hk hd h =>
    by_cases hl : l = task.link
    · subst hl
      obtain rfl : v.link = k := Option.some.inj ((stand?_eq_some.1 hv).1.symm.trans hk)
      exact .inr ⟨Option.not_isSome_iff_eq_none.1 (Bool.eq_false_iff.1 hd), hturn⟩
    · obtain ⟨w', hw', hcourse⟩ := h.stand hl ((stand?_dequeue_ne ht hl).trans hv)
      obtain rfl := Option.some.inj (hw'.symm.trans hw)
      exact .inl hcourse

/-- **A link is aside in every move that is no step of its own task.** -/
theorem move_aside {m : Move} (hm : m ≠ .advance l) (hv : s.stand? l = some v) :
    ∃ w, (move m s).stand? l = some w ∧ Stand.Aside v w := by
  have hcourse : ∀ t : Engine, (∃ w, t.stand? l = some w ∧ Stand.Course v w) →
      ∃ w, t.stand? l = some w ∧ Stand.Aside v w := by
    rintro t ⟨w, hw, hvw⟩
    exact ⟨w, hw, .inl hvw⟩
  cases m with
  | build settings multiplexer platform =>
    exact hcourse _ ((build_builds settings multiplexer platform s).stand hv)
  | accept i arrival =>
    refine hcourse (if i < s.listeners.length then (s.accept i arrival).2 else s) ?_
    split
    · exact (accept_accepts i arrival s).stand hv
    · exact ⟨v, hv, .refl v⟩
  | begin place => exact begin_aside place hv
  | advance l' =>
    have hl : l ≠ l' := fun h => hm (h ▸ rfl)
    exact hcourse _ ((advance_drove l' s).stand hl hv)
  | _ => exact hcourse _ ((move_course rfl s).stand hv)

/-- A link that a move makes has just started. -/
theorem move_started (hm : s.Manned) (m : Move) (hn : s.link? l = none)
    (hv : (move m s).stand? l = some v) :
    ∃ i arrival, m = .accept i arrival ∧ i < s.listeners.length ∧ l = s.slots.length ∧
      Stand.Started i arrival v := by
  have hsome : ((move m s).link? l).isSome := by
    rw [(stand?_eq_some.1 hv).1]
    rfl
  have hpeopled : ¬ ∃ t : Engine, Peopled s t ∧ t.link? l = (move m s).link? l := by
    rintro ⟨t, ht, htl⟩
    rw [← htl, ht.links, hn] at hsome
    cases hsome
  -- Of all moves only an arrival makes a link.
  cases m with
  | build settings multiplexer platform =>
    exact absurd ⟨_, (build_builds settings multiplexer platform s).peopled, rfl⟩ hpeopled
  | accept i arrival =>
    by_cases hi : i < s.listeners.length
    · have hmove : move (.accept i arrival) s = (s.accept i arrival).2 := if_pos hi
      rw [hmove] at hv hsome
      have haccepts := accept_accepts i arrival s
      by_cases hl : l = s.slots.length
      · subst hl
        refine ⟨i, arrival, rfl, hi, rfl, ?_⟩
        rcases haccepts.started_stand hm with hnone | ⟨w, hw, hstarted⟩
        · rw [hnone] at hsome
          cases hsome
        · rw [hw] at hv
          cases hv
          exact hstarted
      · rw [haccepts.links.1 l hl, hn] at hsome
        cases hsome
    · have hmove : move (.accept i arrival) s = s := if_neg hi
      rw [hmove, hn] at hsome
      cases hsome
  | begin place => exact absurd ⟨_, (begin_begun place s).peopled, rfl⟩ hpeopled
  | advance n => exact absurd ⟨_, (advance_drove n s).peopled, rfl⟩ hpeopled
  | _ => exact absurd ⟨_, (move_course rfl s).peopled, rfl⟩ hpeopled

/-- A link that is there stays there. -/
theorem isSome_link?_move (m : Move) (hl : (s.link? l).isSome = true) :
    ((move m s).link? l).isSome = true := by
  cases move_moves m s with
  | course h => exact (h.peopled.links l).trans hl
  | built h => exact (h.peopled.links l).trans hl
  | accepted _ h =>
    obtain ⟨k, hk⟩ := Option.isSome_iff_exists.1 hl
    exact (h.links.1 l (Nat.ne_of_lt (lt_length_of_link? hk))).trans hl
  | begun h => exact (h.peopled.links l).trans hl
  | drove h => exact (h.peopled.links l).trans hl

/-! ## Runs -/

theorem move_lasts {P : Timer.Scheduler → Prop} (hP : Timer.Scheduler.Lasts P)
    (hs : P s.scheduler) (m : Move) : P (move m s).scheduler := by
  cases move_moves m s with
  | course h => exact h.lasts hP hs
  | built h => exact h.lasts hP hs
  | accepted hi h => exact h.lasts hP hs
  | begun h => exact h.lasts hP hs
  | drove h => exact h.lasts hP hs

theorem move_sole (hs : s.scheduler.Sole) (m : Move) : (move m s).scheduler.Sole :=
  move_lasts Timer.Scheduler.sole_lasts hs m

private theorem move_manned (hm : s.Manned) (m : Move) : (move m s).Manned := by
  cases move_moves m s with
  | course h => exact h.peopled.manned hm
  | built h => exact h.peopled.manned hm
  | accepted hi h => exact h.links.2 hm
  | begun h => exact h.peopled.manned hm
  | drove h => exact h.peopled.manned hm

/-- What turns keep of a link is kept of it by moves. -/
theorem follow_stand {P : Stand → Prop} (hturn : ∀ v w, P v → Stand.Turn v w → P w)
    (hs : s.scheduler.Sole) (hv : s.stand? l = some v) (hP : P v) (moves : List Move) :
    ∃ w, (follow moves s).stand? l = some w ∧ P w := by
  -- Both the engine and the stand move on.
  induction moves generalizing s v with
  | nil => exact ⟨v, hv, hP⟩
  | cons m moves ih =>
    obtain ⟨w, hw, hvw⟩ := move_turn hs m hv
    exact ih (move_sole hs m) hw (hturn v w hP hvw)

variable (settings : Settings.Scheduler) (now : Nat)

/-- What lasts of a scheduler holds throughout a run, if it holds at the beginning. -/
theorem after_lasts {P : Timer.Scheduler → Prop} (hP : Timer.Scheduler.Lasts P)
    (h : P (.create settings now)) (moves : List Move) : P (after settings now moves).scheduler :=
  after_induction (P := fun s => P s.scheduler) h (fun m _ hs => move_lasts hP hs m) moves

theorem after_sole (moves : List Move) : (after settings now moves).scheduler.Sole :=
  after_lasts settings now Timer.Scheduler.sole_lasts (Timer.Scheduler.create_sole settings now)
    moves

theorem after_manned (moves : List Move) : (after settings now moves).Manned :=
  after_induction (P := Manned) (fun _ ht => nomatch ht) (fun m _ hm => move_manned hm m) moves

/-- **What holds where links start, and is kept by turns, holds of every link
throughout every run.** -/
theorem after_stand {P : Stand → Prop}
    (hstart : ∀ i arrival v, Stand.Started i arrival v → P v)
    (hturn : ∀ v w, P v → Stand.Turn v w → P w) (moves : List Move) (l : Nat) (v : Stand)
    (hv : (after settings now moves).stand? l = some v) : P v := by
  -- The invariant of the run: its timers are in one pair of hands, its pool is
  -- manned, and the property holds of each link.
  suffices h : (after settings now moves).scheduler.Sole ∧ (after settings now moves).Manned ∧
      ∀ l v, (after settings now moves).stand? l = some v → P v from h.2.2 l v hv
  refine after_induction (P := fun s => s.scheduler.Sole ∧ s.Manned ∧
    ∀ l v, s.stand? l = some v → P v) ?_ ?_ moves
  · refine ⟨Timer.Scheduler.create_sole settings now, ⟨?_, ?_⟩⟩
    · intro task ht
      cases ht
    · intro l v hv
      have hk := (stand?_eq_some.1 hv).1
      cases hk
  · intro m s hs
    obtain ⟨hs, hm, hP⟩ := hs
    refine ⟨move_sole hs m, move_manned hm m, ?_⟩
    intro l v hv
    cases hk : s.link? l with
    | none =>
      obtain ⟨i, arrival, -, -, -, hstarted⟩ := move_started hm m hk hv
      exact hstart i arrival v hstarted
    | some k =>
      obtain ⟨w, hw, hturned⟩ := move_turn hs m (stand?_of_link? hk)
      rw [hw] at hv
      cases hv
      exact hturn _ _ (hP l _ (stand?_of_link? hk)) hturned

/-! ## What a run shows -/

variable {α : Type} {f : Move → Engine → List α}

/-- What a run shows, move by move, where `f` is what one move shows. -/
def along (f : Move → Engine → List α) : List Move → Engine → List α
  | [], _ => []
  | m :: moves, s => f m s ++ along f moves (move m s)

theorem along_concat (moves : List Move) (m : Move) (s : Engine) :
    along f (moves ++ [m]) s = along f moves s ++ f m (follow moves s) := by
  induction moves generalizing s with
  | nil => exact List.append_nil _
  | cons m' moves ih =>
    rw [List.cons_append, along, ih, along, follow_cons, List.append_assoc]

/-- What a run shows of a link agrees with where the link stands, if it does so where the link
starts, and if every move keeps it so. Of a link that is not there a run shows nothing. -/
theorem after_along {P : List α → Stand → Prop}
    (hnone : ∀ m s, s.link? l = none → (move m s).link? l = none → f m s = [])
    (hstart : ∀ moves m i arrival w, (after settings now moves).link? l = none →
      (move m (after settings now moves)).stand? l = some w → Stand.Started i arrival w →
        P (f m (after settings now moves)) w)
    (hmove : ∀ moves shown m v w, (after settings now moves).stand? l = some v →
      (move m (after settings now moves)).stand? l = some w → Stand.Turn v w → P shown v →
        P (shown ++ f m (after settings now moves)) w) (moves : List Move) :
    (∀ v, (after settings now moves).stand? l = some v →
      P (along f moves (create settings now)) v) ∧
    ((after settings now moves).link? l = none → along f moves (create settings now) = []) := by
  induction moves using List.reverseRecOn with
  | nil => exact ⟨fun v hv => (nomatch (stand?_eq_some.1 hv).1), fun _ => rfl⟩
  | append_singleton moves m ih =>
    rw [after_concat, along_concat]
    cases hk : (after settings now moves).link? l with
    | none =>
      rw [ih.2 hk]
      refine ⟨fun w hw => ?_, hnone m _ hk⟩
      obtain ⟨i, arrival, -, -, -, hstarted⟩ :=
        move_started (after_manned settings now moves) m hk hw
      exact hstart moves m i arrival w hk hw hstarted
    | some k =>
      have hv := stand?_of_link? hk
      obtain ⟨x, hx, hturn⟩ := move_turn (after_sole settings now moves) m hv
      refine ⟨fun w hw => ?_, fun hgone => nomatch hgone.symm.trans (stand?_eq_some.1 hx).1⟩
      obtain rfl := Option.some.inj (hx.symm.trans hw)
      exact hmove moves _ m _ _ hv hx hturn (ih.1 _ hv)

end Engine

end LinkEngine

import LinkEngine.Engine.Session
import LinkEngine.Proofs.Heeding

/-!
# Whole operations are runs

The moves of a run are small: a task of the pool takes one step at a time. What is
done to an engine in one piece, a task that is run to its end (`run_follow`) or a
command of a session (`obey_follow`), is a sequence of such moves. So whatever holds
of every run holds between the commands of every session (`reports_follow`), and a
session begins with a run, too (`open_follow`).
-/

namespace LinkEngine.Engine

open Session (Setup obey open? patience reports runAllWithin settle)

variable {s t : Engine}

/-! ## Tasks -/

/-- Driving a link is taking one step after the other. -/
theorem drive_follow (l : Nat) (s : Engine) (fuel : Nat) :
    ∃ moves, drive l s fuel = follow moves s := by
  induction fuel generalizing s with
  | zero => exact ⟨[], rfl⟩
  | succ fuel ih =>
    unfold drive
    split
    · exact ⟨[], rfl⟩
    · obtain ⟨moves, hmoves⟩ := ih (advance l s)
      exact ⟨.advance l :: moves, hmoves⟩

/-- **A task that is run to its end is a sequence of moves.** -/
theorem run_follow (place : Nat) (s : Engine) (fuel : Nat) :
    ∃ moves, run place s fuel = follow moves s := by
  unfold run
  split
  · exact ⟨[], rfl⟩
  · next task _ =>
    obtain ⟨moves, hmoves⟩ := drive_follow task.link (begin place s) fuel
    exact ⟨.begin place :: moves, hmoves⟩

/-! ## Sessions -/

private theorem runAllWithin_follow (s : Engine) (fuel : Nat) :
    ∃ moves, (runAllWithin s fuel).2 = follow moves s := by
  induction fuel generalizing s with
  | zero => exact ⟨[], rfl⟩
  | succ fuel ih =>
    unfold runAllWithin
    split
    · exact ⟨[], rfl⟩
    · obtain ⟨first, hfirst⟩ := run_follow 0 s patience
      obtain ⟨rest, hrest⟩ := ih (s.run 0 patience)
      refine ⟨first ++ rest, ?_⟩
      rw [follow_append, ← hfirst]
      exact hrest

/-- **A command of a session is a sequence of moves**, if the session has its
listener. -/
theorem obey_follow (hs : 0 < s.listeners.length) (c : Session.Command) :
    ∃ moves, (obey s c).2 = follow moves s := by
  cases c with
  | accept arrival => exact ⟨[.accept 0 arrival], (if_pos hs).symm⟩
  | run =>
    unfold obey
    simp only
    split
    · exact ⟨[], rfl⟩
    · exact run_follow 0 s patience
  | runAll => exact runAllWithin_follow s patience
  | operate op => exact ⟨[.perform 0 op], rfl⟩
  | drain | registered | buffers => exact ⟨[], rfl⟩
  | forget l => exact ⟨[.forget l], rfl⟩
  | awaitWatcher => exact ⟨[.poll 0, .poll 0], rfl⟩
  | stopWatcher => exact ⟨[.stopWatcher 0], rfl⟩

/-- **Every session is a run**: what its commands leave is what some moves leave. -/
theorem reports_follow (hs : 0 < s.listeners.length) (commands : List (Session.Command × Bool)) :
    ∃ moves, (reports s commands).2 = follow moves s := by
  induction commands generalizing s with
  | nil => exact ⟨[], rfl⟩
  | cons c commands ih =>
    obtain ⟨c, waits⟩ := c
    obtain ⟨moves, hmoves⟩ := obey_follow hs c
    -- Some commands let the watcher settle before the next.
    have hwaits : ∃ moves, (if waits then settle (obey s c).2 else (obey s c).2) =
        follow moves s := by
      cases waits with
      | false => exact ⟨moves, hmoves⟩
      | true =>
        refine ⟨moves ++ [.poll 0, .poll 0], ?_⟩
        rw [follow_append, ← hmoves]
        rfl
    obtain ⟨first, hfirst⟩ := hwaits
    obtain ⟨rest, hrest⟩ := ih (s := follow first s)
      (Nat.lt_of_lt_of_le hs (follow_shuts first s).length)
    refine ⟨first ++ rest, ?_⟩
    rw [follow_append, ← hrest, ← hfirst]
    rfl

/-- A listener that was built is there. -/
private theorem build_length {settings : Settings.Listener} {multiplexer : Option Multiplexer}
    (h : s.build settings multiplexer = (.ok (), t)) : 0 < t.listeners.length := by
  unfold build at h
  split at h
  · cases h
  simp only at h
  split at h
  · cases h
  obtain ⟨-, rfl⟩ := Prod.mk.inj h
  have hpos : ∀ {xs : List Listener} {x : Listener}, 0 < (xs ++ [x]).length := by simp
  split
  · rw [(shutdownListener_course (tears_tearDown _) (Nat.le_refl _) _).length]
    exact hpos
  · exact hpos

/-- **A session begins with a run**: its engine is one that some moves leave, and it
has a listener. -/
theorem open_follow {x : Setup} (h : open? x = .ok s) :
    (∃ moves, s = after x.scheduler 0 moves) ∧ 0 < s.listeners.length := by
  -- Nobody listens yet, so triggering the signal does no more than to raise it.
  have htriggered : ∃ moves, { create x.scheduler 0 with signal := x.triggered } =
      after x.scheduler 0 moves := by
    cases x.triggered with
    | none => exact ⟨[], rfl⟩
    | some reason => exact ⟨[.perform 0 (.trigger reason)], rfl⟩
  have hready : ∃ moves,
      (if x.schedulerStopped then
        { create x.scheduler 0 with
          signal := x.triggered
          scheduler := (create x.scheduler 0).scheduler.shutdown }
      else { create x.scheduler 0 with signal := x.triggered }) = after x.scheduler 0 moves := by
    obtain ⟨moves, hmoves⟩ := htriggered
    split
    · refine ⟨moves ++ [.perform 0 .stopScheduler], ?_⟩
      rw [after_append, ← hmoves]
      rfl
    · exact ⟨moves, hmoves⟩
  obtain ⟨moves, hmoves⟩ := hready
  unfold open? at h
  simp only [hmoves] at h
  split at h
  · cases h
  · next t hbuild =>
    cases h
    refine ⟨⟨moves ++ [.build x.settings x.multiplexer], ?_⟩, build_length hbuild⟩
    rw [after_append]
    exact (congrArg Prod.snd hbuild).symm

end LinkEngine.Engine

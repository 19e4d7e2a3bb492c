import LinkEngine.Proofs.Suspension

/-!
# One wake or one deadline

A suspended request is waited for by a wake and by its deadline, and one of the two
has it: it is taken up once or the handler is told of the deadline once, and not the
latter where a wake counted (`one_winner`). A wake through a handle of an earlier
request does nothing. Every wake that counts stands in the history of its link, so
what is said of histories is said of the wakes, whoever made them and from where.
-/

namespace LinkEngine.Engine

open Connection (CloseReason)

variable {s : Engine} {l : Nat} {k : Link} {v : Stand} {h : Handle} {tear : Teardown}

/-- A task that the pool takes is queued, and nothing else happens. -/
private theorem schedule_eq_true {entry : Link.Entry} {t : Engine}
    (h : schedule tear l entry s = (true, t)) :
    t = { s with tasks := s.tasks ++ [{ link := l, entry }] } := by
  unfold schedule at h
  split at h <;> cases h
  rfl

/-- **A wake that counts is written into the history** of the link. -/
theorem history_wakeComet (hk : s.link? h.link = some k) (hw : (wakeComet tear h s).1 = true) :
    ∃ k', (wakeComet tear h s).2.link? h.link = some k' ∧
      k'.history = k.history ++ [.woke h.generation] := by
  have hnote : ∀ {t : Engine} {x : Link}, t.link? h.link = some x → x.history = k.history →
      ∃ k', (t.note h.link (.woke h.generation)).link? h.link = some k' ∧
        k'.history = k.history ++ [.woke h.generation] := by
    intro t x hx hh
    refine ⟨x.note (.woke h.generation), ?_, congrArg (· ++ _) hh⟩
    rw [note_eq_setLink hx]
    exact link?_setLink_self hx _
  unfold wakeComet at hw ⊢
  rw [hk] at hw ⊢
  simp only at hw ⊢
  split at hw
  · cases hw
  next hcurrent =>
  rw [if_neg hcurrent]
  -- It counts where it was deferred, or where the pool took the task.
  cases hwake : k.request.wakeAsync with
  | mk waking r =>
    simp only [hwake] at hw ⊢
    cases waking with
    | ignored => cases hw
    | deferred => exact hnote (link?_setLink_self hk _) rfl
    | resume =>
      cases hschedule : schedule tear h.link .resume (s.setLink h.link { k with request := r }) with
      | mk taken t =>
        simp only [hschedule] at hw ⊢
        cases taken with
        | false => cases hw
        | true =>
          refine hnote (x := { k with request := r }) ?_ rfl
          rw [schedule_eq_true hschedule]
          exact link?_setLink_self hk _

/-- A wake through a handle of another request than the latest does nothing. -/
theorem wakeComet_of_ne (hk : s.link? h.link = some k) (hg : h.generation ≠ k.cometGeneration) :
    wakeComet tear h s = (false, s) := by
  unfold wakeComet
  rw [hk]
  exact if_pos (.inl fun h => hg h.symm)

variable (settings : Settings.Scheduler) (now : Nat)

/-- **The suspended requests of all links of all runs are as they should be.** -/
theorem standing_cycles (moves : List Move) (hv : (after settings now moves).stand? l = some v) :
    v.Standing ∧ v.link.Cycles :=
  after_stand settings now (P := fun v => v.Standing ∧ v.link.Cycles)
    (fun _ _ _ h => ⟨h.standing, h.cycles⟩)
    (fun _ _ hv h => ⟨hv.1.turn h, h.cycles hv.1 hv.2⟩) moves l v hv

/-- Where nobody drives a link and no task is queued for it, each of its suspended
requests that was woken was taken up, unless there was a reason not to. -/
private theorem answered_of_idle (hv : v.Standing) (hk : v.link.Cycles)
    (hd : v.link.isDriven = false) (hq : v.queue = []) (g : Nat) : v.link.Answered g := by
  -- It is one of the past, the latest, or one that was never begun.
  rcases Nat.lt_trichotomy g v.link.cometGeneration with hlt | rfl | hgt
  · exact hk.past g hlt
  · cases (Stand.standing_none (Stand.step_eq_none hd)).1 hv with
    | gone hg => exact hk.stage.answered_of_closed hg.closed
    | idle hc hp hi =>
      refine hk.stage.answered_of_parked ?_
      rw [hq] at hi
      generalize v.link.machine.state = m, v.link.request = r at hi ⊢
      cases hi <;> rfl
  · exact Link.answered_of_wakes (hk.future g hgt).1

/-- **One wake or one deadline.** A wake that counts is written into the history, and
one through a handle of another request than the latest does nothing. The suspended
requests of a link are numbered one after the other, and what its history tells of
them it tells for ever. However things went, each of them was woken once at most, it
was taken up or the handler was told of its deadline, once at most, and it was not
told where a wake counted. And if a wake counted, nobody asked for the link to be
closed, and there was no mishap before, then the request was taken up once by the
time that nobody drives the link and no task is queued for it. -/
theorem one_winner (moves : List Move) :
    (∀ (s : Engine) (h : Handle) (k : Link), s.link? h.link = some k →
      ((wakeComet tearDown h s).1 = true → ∃ k', (wakeComet tearDown h s).2.link? h.link = some k' ∧
        k'.history = k.history ++ [.woke h.generation]) ∧
      (h.generation ≠ k.cometGeneration → wakeComet tearDown h s = (false, s))) ∧
    ∀ l k, (after settings now moves).link? l = some k →
      k.Numbered ∧
      (∀ more, ∃ k', (follow more (after settings now moves)).link? l = some k' ∧
        k.history <+: k'.history) ∧
      ∀ g, k.wakes g ≤ 1 ∧ k.resumes g + k.timeouts g ≤ 1 ∧ (1 ≤ k.timeouts g → k.wakes g = 0) ∧
        (k.isDriven = false → (after settings now moves).entries l = [] → 1 ≤ k.wakes g →
          k.closing = false → (∀ n ∈ k.waiting g, n.isMishap = false) → k.resumes g = 1) := by
  refine ⟨fun s h k hk => ⟨history_wakeComet hk, wakeComet_of_ne hk⟩, ?_⟩
  intro l k hk
  obtain ⟨hstanding, hcycles⟩ := standing_cycles settings now moves (stand?_of_link? hk)
  refine ⟨hcycles.numbered, ?_, ?_⟩
  · intro more
    obtain ⟨k', hk', hgrown⟩ := follow_grown (after_sole settings now moves) hk more
    exact ⟨k', hk', hgrown.history⟩
  · intro g
    obtain ⟨hwoken, hended, hlate⟩ := hcycles.fair g
    refine ⟨hwoken, hended, hlate, ?_⟩
    intro hd hq hw hc hn
    rcases answered_of_idle hstanding hcycles hd hq g hw with hone | hclosing | ⟨n, hmem, hmishap⟩
    · exact hone
    · exact nomatch hc.symm.trans hclosing
    · exact nomatch (hn n hmem).symm.trans hmishap

/-- One connection whose first request is suspended, and what happens from then on. -/
def suspendedThen (more : List Move) : List Move :=
  [.build {} none,
    .accept 0
      { socket := {}
        handler :=
          { requests := [[⟨"comet", .comet none none, false⟩]]
            resumes := [[⟨"return", .return false, false⟩]] } },
    .begin 0] ++ List.replicate 4 (.advance 0) ++ more

/-- A wake of the suspended request counts, one of an earlier request does not, and
after four steps of the task that takes it up, the link is closed. -/
theorem one_winner_woken :
    (∃ k, (wakeComet tearDown ⟨0, 1⟩ (after {} 0 (suspendedThen []))).2.link? 0 = some k ∧
      .woke 1 ∈ k.history) ∧
    wakeComet tearDown ⟨0, 0⟩ (after {} 0 (suspendedThen [])) =
      (false, after {} 0 (suspendedThen [])) ∧
    ∃ k, (after {} 0 (suspendedThen
      ([.wake ⟨0, 1⟩, .begin 0] ++ List.replicate 4 (.advance 0)))).link? 0 = some k ∧
      k.wakes 1 = 1 ∧ k.resumes 1 = 1 ∧ k.timeouts 1 = 0 := by
  have hparked : ((after {} 0 (suspendedThen [])).link? 0).map (·.cometGeneration) = some 1 := by
    decide
  have hcounts : (wakeComet tearDown ⟨0, 1⟩ (after {} 0 (suspendedThen []))).1 = true := by decide
  have hwoken : ((after {} 0 (suspendedThen
      ([.wake ⟨0, 1⟩, .begin 0] ++ List.replicate 4 (.advance 0)))).link? 0).map
      (fun k => (k.isDriven, k.wakes 1, k.closing, (k.waiting 1).all (!·.isMishap))) =
      some (false, 1, false, true) := by decide
  obtain ⟨k, hk, hgen⟩ := Option.map_eq_some_iff.1 hparked
  obtain ⟨k', hk', hkey⟩ := Option.map_eq_some_iff.1 hwoken
  obtain ⟨hd, hw, hc, hn⟩ : k'.isDriven = false ∧ k'.wakes 1 = 1 ∧ k'.closing = false ∧
      (k'.waiting 1).all (!·.isMishap) = true := by
    simpa using hkey
  obtain ⟨hcounted, -⟩ := (one_winner {} 0 (suspendedThen [])).1 _ ⟨0, 1⟩ k hk
  obtain ⟨-, hearlier⟩ := (one_winner {} 0 (suspendedThen [])).1 _ ⟨0, 0⟩ k hk
  obtain ⟨x, hx, hh⟩ := hcounted hcounts
  refine ⟨⟨x, hx, ?_⟩, hearlier ?_, k', hk', hw, ?_⟩
  · rw [hh]
    exact List.mem_append_right _ (List.mem_singleton.2 rfl)
  · rw [hgen]
    exact Nat.zero_ne_one
  · obtain ⟨-, -, hrequests⟩ := (one_winner {} 0 _).2 0 k' hk'
    obtain ⟨-, hended, -, hresumed⟩ := hrequests 1
    have hone := hresumed hd (by decide) (by omega) hc fun n hmem => by
      simpa using List.all_eq_true.1 hn n hmem
    exact ⟨hone, by omega⟩

end LinkEngine.Engine

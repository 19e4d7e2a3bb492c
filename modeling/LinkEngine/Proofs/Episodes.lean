import LinkEngine.Proofs.Plan
import Mathlib.Data.List.TakeWhile

/-!
# Suspended requests in a history

Each time a hook begins a suspended request, the history of the link gets its
number, and what is noted from then on belongs to it, until the next one begins
(`Link.during`). This module says what is counted of one such episode, how often it
was woken, resumed or told of its deadline, and what a note adds to the counts
(`Link.Logged`): it counts for the latest episode and for no other.
-/

namespace LinkEngine

open Link (Ending Note)

namespace Link

/-! ## Episodes -/

/-- The number of the suspended request that the note says was begun. -/
def Note.cycle? : Note → Option Nat
  | .cycle g => some g
  | _ => none

/-- The number of the latest suspended request. -/
def latest (now : Nat) : List Note → Nat
  | [] => now
  | n :: rest => latest (n.cycle?.getD now) rest

/-- The notes that belong to suspended request `g`: the others begin where the
number is another. -/
def episode (g now : Nat) : List Note → List Note
  | [] => []
  | n :: rest =>
    match n.cycle? with
    | some g' => episode g g' rest
    | none => if now = g then n :: episode g now rest else episode g now rest

/-- What happened from the beginning of suspended request `g` to the beginning of
the next. Before the first one, the number is zero. -/
def during (k : Link) (g : Nat) : List Note := episode g 0 k.history

/-- How often a wake through a handle of suspended request `g` counted. -/
def wakes (k : Link) (g : Nat) : Nat := k.history.count (.woke g)

/-- How often the handler took up suspended request `g`. -/
def resumes (k : Link) (g : Nat) : Nat := (k.during g).count (.began .resume)

/-- How often the handler was told that suspended request `g` met its deadline. -/
def timeouts (k : Link) (g : Nat) : Nat := (k.during g).count (.began .suspendTimeout)

/-- What happened in suspended request `g` until the handler took it up. -/
def waiting (k : Link) (g : Nat) : List Note := (k.during g).takeWhile (· ≠ .began .resume)

/-- The hook returned. -/
def Ending.isReturned : Ending → Bool
  | .returned _ => true
  | _ => false

/-- The note tells of something that keeps a request from being taken up: the hook
that began it did not return, its output could not be flushed, or its deadline
could not be set. -/
def Note.isMishap : Note → Bool
  | .ended .request ending | .ended .resume ending => !ending.isReturned
  | .unflushed _ | .unarmed _ => true
  | _ => false

/-- There is a reason not to take up suspended request `g`: somebody asked for the
link to be closed, or there was a mishap before. -/
def Excused (k : Link) (g : Nat) : Prop :=
  k.closing = true ∨ ∃ n ∈ k.waiting g, n.isMishap = true

/-- If suspended request `g` was woken, it was taken up, unless there was a reason
not to. -/
def Answered (k : Link) (g : Nat) : Prop := 1 ≤ k.wakes g → k.resumes g = 1 ∨ k.Excused g

/-- The suspended requests of the link were numbered one after the other, and the
number it has is that of the latest. -/
def Numbered (k : Link) : Prop :=
  k.history.filterMap Note.cycle? = List.range' 1 k.cometGeneration

/-! ## What a note adds -/

variable {k k' k'' : Link} {n : Note} {g : Nat}

/-- What a history numbered last is the latest. -/
private theorem latest_eq (now : Nat) (ns : List Note) :
    latest now ns = (ns.filterMap Note.cycle?).getLastD now := by
  induction ns generalizing now with
  | nil => rfl
  | cons n ns ih =>
    rw [latest, ih, List.filterMap_cons]
    cases n.cycle? with
    | none => rfl
    | some g => rw [List.getLastD_cons]; rfl

theorem Numbered.latest_eq (hk : k.Numbered) : latest 0 k.history = k.cometGeneration := by
  rw [Link.latest_eq, hk]
  cases k.cometGeneration with
  | zero => rfl
  | succ g =>
    rw [List.range'_1_concat, List.getLastD_concat]
    exact Nat.add_comm 1 g

private theorem episode_of_cycle {g' : Nat} (h : n.cycle? = some g') (g now : Nat)
    (rest : List Note) : episode g now (n :: rest) = episode g g' rest := by
  rw [episode, h]

private theorem episode_of_none (h : n.cycle? = none) (g now : Nat) (rest : List Note) :
    episode g now (n :: rest) = (if now = g then [n] else []) ++ episode g now rest := by
  rw [episode, h]
  simp only
  split <;> rfl

theorem episode_append (g now : Nat) (xs ys : List Note) :
    episode g now (xs ++ ys) = episode g now xs ++ episode g (latest now xs) ys := by
  induction xs generalizing now with
  | nil => rfl
  | cons n xs ih =>
    rw [List.cons_append, latest]
    cases h : n.cycle? with
    | some g' => rw [episode_of_cycle h, episode_of_cycle h, ih, Option.getD_some]
    | none => rw [episode_of_none h, episode_of_none h, ih, List.append_assoc, Option.getD_none]

/-- A note belongs to the latest suspended request. -/
theorem during_note (hk : k.Numbered) (hn : n.cycle? = none) (g : Nat) :
    (k.note n).during g = k.during g ++ if k.cometGeneration = g then [n] else [] := by
  show episode g 0 (k.history ++ [n]) = _
  rw [episode_append, hk.latest_eq, episode_of_none hn]
  show _ ++ (_ ++ []) = _
  rw [List.append_nil]
  rfl

theorem Numbered.note (hk : k.Numbered) (hn : n.cycle? = none) : (k.note n).Numbered := by
  show (k.history ++ [n]).filterMap Note.cycle? = _
  rw [List.filterMap_append, List.filterMap_cons_none hn, List.filterMap_nil, List.append_nil]
  exact hk

/-- What happened in a request until it was taken up only grows. -/
theorem waiting_subset (h : k.during g <+: k'.during g) : k.waiting g ⊆ k'.waiting g := by
  obtain ⟨more, h⟩ := h
  unfold waiting
  rw [← h, List.takeWhile_append]
  -- Once it was taken up, nothing is added any more.
  split
  · exact fun n hn => List.mem_append_left _ ((List.takeWhile_prefix _).subset hn)
  · exact fun _ h => h

/-- Until it was taken up, everything that happens in a request happens while it
waits. -/
theorem waiting_eq_during (h : k.resumes g = 0) : k.waiting g = k.during g := by
  refine List.takeWhile_eq_self_iff.2 ?_
  intro n hn
  have hne : n ≠ .began .resume := by
    rintro rfl
    exact List.count_eq_zero.1 h hn
  simpa using hne

/-- What one write or several add to the counts of the latest suspended request; those
of the others stay. -/
structure Logged (k k' : Link) (resumes timeouts wakes : Nat) : Prop where
  generation : k'.cometGeneration = k.cometGeneration
  numbered : k'.Numbered
  resumes (g : Nat) : k'.resumes g = k.resumes g + if k.cometGeneration = g then resumes else 0
  timeouts (g : Nat) : k'.timeouts g = k.timeouts g + if k.cometGeneration = g then timeouts else 0
  wakes (g : Nat) : k'.wakes g = k.wakes g + if k.cometGeneration = g then wakes else 0
  excused (g : Nat) : k.Excused g → k'.Excused g

/-- A note counts as what it tells of, for the latest request. -/
theorem Logged.note (hk : k.Numbered) (hn : n.cycle? = none)
    (hw : ∀ g, n = .woke g → g = k.cometGeneration) :
    Logged k (k.note n) ([n].count (.began .resume)) ([n].count (.began .suspendTimeout))
      ([n].count (.woke k.cometGeneration)) := by
  have hduring : ∀ g x, ((k.note n).during g).count x =
      (k.during g).count x + if k.cometGeneration = g then [n].count x else 0 := by
    intro g x
    rw [during_note hk hn, List.count_append]
    split
    · rfl
    · rw [List.count_nil]
  refine ⟨rfl, hk.note hn, fun g => hduring g _, fun g => hduring g _, ?_, ?_⟩
  · intro g
    show (k.history ++ [n]).count (.woke g) = k.history.count (.woke g) + _
    rw [List.count_append]
    split
    · next h => rw [h]
    · next h =>
      -- A wake is noted for the latest request only.
      have hzero : [n].count (.woke g) = 0 := List.count_eq_zero.2 fun hmem =>
        h (hw g (List.mem_singleton.1 hmem).symm).symm
      rw [hzero]
  · intro g h
    rcases h with h | ⟨m, hm, hmishap⟩
    · exact .inl h
    · refine .inr ⟨m, waiting_subset ?_ hm, hmishap⟩
      rw [during_note hk hn]
      exact List.prefix_append _ _

/-- What writes no note adds nothing. -/
theorem Logged.same (hk : k.Numbered) (hh : k'.history = k.history)
    (hg : k'.cometGeneration = k.cometGeneration) (hc : k.closing = true → k'.closing = true) :
    Logged k k' 0 0 0 := by
  have hduring : ∀ g, k'.during g = k.during g := fun g => congrArg (episode g 0) hh
  refine ⟨hg, ?_, ?_, ?_, ?_, ?_⟩
  · unfold Numbered
    rw [hh, hg]
    exact hk
  · intro g
    unfold Link.resumes
    rw [hduring, ite_self]
    rfl
  · intro g
    unfold Link.timeouts
    rw [hduring, ite_self]
    rfl
  · intro g
    unfold Link.wakes
    rw [hh, ite_self]
    rfl
  · intro g h
    rcases h with h | ⟨n, hn, hm⟩
    · exact .inl (hc h)
    · refine .inr ⟨n, ?_, hm⟩
      unfold waiting
      rw [hduring]
      exact hn

theorem Logged.trans {r t w r' t' w' : Nat} (h₁ : Logged k k' r t w) (h₂ : Logged k' k'' r' t' w') :
    Logged k k'' (r + r') (t + t') (w + w') := by
  have hadd : ∀ (g a b c : Nat), (a + if k.cometGeneration = g then b else 0) +
      (if k.cometGeneration = g then c else 0) =
        a + if k.cometGeneration = g then b + c else 0 := by
    intro g a b c
    split <;> omega
  refine ⟨h₂.generation.trans h₁.generation, h₂.numbered, ?_, ?_, ?_,
    fun g h => h₂.excused g (h₁.excused g h)⟩
  · intro g
    rw [h₂.resumes, h₁.generation, h₁.resumes, hadd]
  · intro g
    rw [h₂.timeouts, h₁.generation, h₁.timeouts, hadd]
  · intro g
    rw [h₂.wakes, h₁.generation, h₁.wakes, hadd]

/-- What the beginning of a suspended request leaves as it was: all that is counted
of the ones before. -/
structure Renumbered (k k' : Link) : Prop where
  generation : k'.cometGeneration = k.cometGeneration + 1
  numbered : k'.Numbered
  resumes (g : Nat) : k'.resumes g = k.resumes g
  timeouts (g : Nat) : k'.timeouts g = k.timeouts g
  wakes (g : Nat) : k'.wakes g = k.wakes g
  excused (g : Nat) : k.Excused g → k'.Excused g

theorem Renumbered.of (hk : k.Numbered)
    (hh : k'.history = k.history ++ [.cycle (k.cometGeneration + 1)])
    (hg : k'.cometGeneration = k.cometGeneration + 1)
    (hc : k.closing = true → k'.closing = true) : Renumbered k k' := by
  have hduring : ∀ g, k'.during g = k.during g := by
    intro g
    show episode g 0 k'.history = episode g 0 k.history
    -- The new number is where the last episode ends.
    rw [hh, episode_append, episode_of_cycle rfl]
    exact List.append_nil _
  refine ⟨hg, ?_, ?_, ?_, ?_, ?_⟩
  · show k'.history.filterMap Note.cycle? = _
    rw [hh, hg, List.filterMap_append, show k.history.filterMap _ = _ from hk,
      List.range'_1_concat, Nat.add_comm 1]
    rfl
  · intro g
    exact congrArg _ (hduring g)
  · intro g
    exact congrArg _ (hduring g)
  · intro g
    show k'.history.count _ = k.history.count _
    rw [hh, List.count_append]
    rfl
  · intro g h
    rcases h with h | ⟨n, hn, hm⟩
    · exact .inl (hc h)
    · refine .inr ⟨n, ?_, hm⟩
      unfold waiting
      rw [hduring]
      exact hn

end Link

end LinkEngine

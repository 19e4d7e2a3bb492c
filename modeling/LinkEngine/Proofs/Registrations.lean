import LinkEngine.Proofs.Watchers
import Mathlib.Data.List.Induction

/-!
# What becomes of registrations

A registration that a watcher took is in one of four places: it waits for the next round, it
is watched, it was let go of because its connection did not rest any more, or it was handed
back and its connection notified. A `Record` keeps the books of that beside the watcher, and
every operation keeps them balanced (`Record.enter_balanced`).

The marks of a poll stand in the order the watches had, and they are not moved along when a
watch is taken out. That does no harm, since the places are visited from the last to the
first: what takes the place of a watch comes from behind it, where all marks were looked at
already. So `extract_append` speaks of a list that still is as it was, with anything behind it.
-/

namespace LinkEngine.Multiplexer.Watcher

variable {w : Watcher} {l places : Nat}

/-! ## Taking watches out -/

/-- The elements of a list at the places that are chosen. -/
def picked (chosen : Nat → Bool) (ws : List Nat) : List Nat :=
  (ws.zipIdx.filter fun x => chosen x.2).map Prod.fst

/-- The place is marked. -/
def marked (marks : List Bool) (i : Nat) : Bool := marks.getD i false

/-- The place is not marked. -/
def unmarked (marks : List Bool) (i : Nat) : Bool := !marked marks i

theorem marked_iff {marks : List Bool} {i : Nat} :
    marked marks i = true ↔ marks[i]? = some true := by
  unfold marked
  rw [List.getD_eq_getElem?_getD]
  cases marks[i]? <;> simp

theorem picked_concat (chosen : Nat → Bool) (ws : List Nat) (l : Nat) :
    picked chosen (ws ++ [l]) = picked chosen ws ++ if chosen ws.length then [l] else [] := by
  unfold picked
  rw [List.zipIdx_append, List.filter_append, List.map_append]
  congr 1
  cases h : chosen ws.length <;> simp [h]

theorem picked_marked_nil (ws : List Nat) : picked (marked []) ws = [] := by
  have hnone : ws.zipIdx.filter (fun x => marked [] x.2) = [] :=
    List.filter_eq_nil_iff.2 fun _ _ => Bool.false_ne_true
  rw [picked, hnone, List.map_nil]

theorem picked_unmarked_nil (ws : List Nat) : picked (unmarked []) ws = ws := by
  have hall : ws.zipIdx.filter (fun x => unmarked [] x.2) = ws.zipIdx :=
    List.filter_eq_self.2 fun _ _ => rfl
  rw [picked, hall, List.zipIdx_map_fst]

/-- An element is at a marked place or at an unmarked one. -/
theorem picked_perm (marks : List Bool) (ws : List Nat) :
    (picked (marked marks) ws ++ picked (unmarked marks) ws).Perm ws := by
  have hsplit := (List.filter_append_perm (fun x => marked marks x.2) ws.zipIdx).map Prod.fst
  rw [List.map_append, List.zipIdx_map_fst] at hsplit
  exact hsplit

/-- The last element takes the place of the one that is removed; before it nothing moves. -/
theorem swapRemove_append (ws : List Nat) (l : Nat) (behind : List Nat) :
    ∃ behind', swapRemove (ws ++ l :: behind) ws.length = ws ++ behind' ∧ behind'.Perm behind := by
  unfold swapRemove
  rcases List.eq_nil_or_concat behind with rfl | ⟨between, last, rfl⟩
  · exact ⟨[], by simp, .nil⟩
  · rw [List.concat_eq_append]
    have hlast : (ws ++ l :: (between ++ [last])).getLast? = some last := by
      rw [← List.cons_append, ← List.append_assoc, List.getLast?_concat]
    have hset : (ws ++ l :: (between ++ [last])).set ws.length last =
        (ws ++ last :: between) ++ [last] := by simp
    refine ⟨last :: between, ?_, (List.perm_append_singleton last between).symm⟩
    simp only [hlast, hset, List.dropLast_concat]

/-- **The watches at the marked places come out, from the last to the first**, and the others
stay, whatever stands behind them. -/
theorem extract_append (marks : List Bool) (ws behind : List Nat) :
    (extract marks ws.length (ws ++ behind)).1 = (picked (marked marks) ws).reverse ∧
      (extract marks ws.length (ws ++ behind)).2.Perm (picked (unmarked marks) ws ++ behind) := by
  induction ws using List.reverseRecOn generalizing behind with
  | nil => exact ⟨rfl, .refl _⟩
  | append_singleton ws l ih =>
    have hl : (ws ++ l :: behind)[ws.length]? = some l := by simp
    rw [List.length_append, List.length_singleton, picked_concat, picked_concat, List.append_assoc,
      List.singleton_append]
    unfold extract
    rw [hl]
    split
    · next l' hm hl' =>
      cases hl'
      obtain ⟨behind', hswap, hperm⟩ := swapRemove_append ws l behind
      have hmarked : marked marks ws.length = true := marked_iff.2 hm
      obtain ⟨hout, hrest⟩ := ih behind'
      rw [hswap, unmarked, hmarked]
      refine ⟨?_, ?_⟩
      · simp [hout]
      · simpa using hrest.trans (hperm.append_left _)
    · next hno =>
      have hmarked : marked marks ws.length = false :=
        Bool.eq_false_iff.2 fun h => hno l (marked_iff.1 h) rfl
      obtain ⟨hout, hrest⟩ := ih (l :: behind)
      rw [unmarked, hmarked]
      refine ⟨?_, ?_⟩
      · simpa using hout
      · simpa using hrest

/-! ## What the operations do -/

/-- The watches that are not done with: those that are polled, and those that wait for the next
round. -/
def held (w : Watcher) : List Nat := w.watches ++ w.incoming

/-- The watches a round lets go of. -/
def loose (w : Watcher) (rests : Nat → Bool) : List Nat := w.held.filter (!rests ·)

/-- The watches a round polls. -/
def kept (w : Watcher) (rests : Nat → Bool) : List Nat := w.held.filter rests

/-- The marks of a round: those the poll answers, and none where it fails. -/
def marks (w : Watcher) (rests : Nat → Bool) (poll : Poll) : List Bool :=
  (poll (w.kept rests)).getD []

/-- The watches a round hands back, in the order in which they stand. -/
def reported (w : Watcher) (rests : Nat → Bool) (poll : Poll) : List Nat :=
  picked (marked (w.marks rests poll)) (w.kept rests)

/-- The watches a round leaves in the watch list, in the order in which they stand. -/
def silent (w : Watcher) (rests : Nat → Bool) (poll : Poll) : List Nat :=
  picked (unmarked (w.marks rests poll)) (w.kept rests)

theorem held_perm (w : Watcher) (rests : Nat → Bool) (poll : Poll) :
    (w.loose rests ++ (w.reported rests poll ++ w.silent rests poll)).Perm w.held :=
  ((picked_perm _ _).append_left _).trans
    (List.perm_append_comm.trans (List.filter_append_perm rests w.held))

theorem round_eq (w : Watcher) (rests : Nat → Bool) (poll : Poll) :
    ∃ watches, watches.Perm (w.silent rests poll) ∧
      w.round rests poll =
        ((w.reported rests poll).reverse,
          { w with
            watches
            incoming := []
            pruned := w.pruned + (w.loose rests).length
            watched := w.watched - (w.loose rests).length - (w.reported rests poll).length }) := by
  have hgone : w.held.length - (w.kept rests).length = (w.loose rests).length := by
    have hsplit := (List.filter_append_perm rests w.held).length_eq
    rw [List.length_append] at hsplit
    exact Nat.sub_eq_of_eq_add' hsplit.symm
  have hpruned : w.absorb.prune rests =
      { w with
        watches := w.kept rests
        incoming := []
        pruned := w.pruned + (w.loose rests).length
        watched := w.watched - (w.loose rests).length } := by
    rw [← hgone]
    rfl
  have hextract := extract_append (w.marks rests poll) (w.kept rests) []
  rw [List.append_nil, List.append_nil] at hextract
  unfold round
  rw [hpruned]
  dsimp only
  cases hpoll : poll (w.kept rests) with
  | none =>
    have hmarks : w.marks rests poll = [] := by rw [marks, hpoll, Option.getD_none]
    refine ⟨w.kept rests, ?_, ?_⟩
    · rw [silent, hmarks, picked_unmarked_nil]
    · rw [reported, hmarks, picked_marked_nil]
      rfl
  | some answer =>
    have hmarks : w.marks rests poll = answer := by rw [marks, hpoll, Option.getD_some]
    rw [hmarks] at hextract
    refine ⟨(extract answer (w.kept rests).length (w.kept rests)).2, ?_, ?_⟩
    · rw [silent, hmarks]
      exact hextract.2
    · dsimp only
      rw [hextract.1, List.length_reverse, reported, hmarks]

theorem register_iff (w : Watcher) (l : Nat) (hasDescriptor : Bool) :
    (w.register l hasDescriptor).1 = true ↔
      w.stopped = false ∧ hasDescriptor = true ∧ w.watched < w.places := by
  unfold register
  split
  · next h =>
    refine ⟨fun htakes => absurd htakes Bool.false_ne_true, ?_⟩
    rintro ⟨hs, hd, hlt⟩
    simp [hs, hd, Nat.not_le_of_lt hlt] at h
  · next h =>
    simp only [Bool.or_eq_true, Bool.not_eq_true', decide_eq_true_eq, not_or, Bool.not_eq_true,
      Bool.not_eq_false, Nat.not_le] at h
    exact ⟨fun _ => ⟨h.1.1, h.1.2, h.2⟩, fun _ => rfl⟩

theorem register_eq (w : Watcher) (l : Nat) (hasDescriptor : Bool) :
    (w.register l hasDescriptor).2 =
      if (w.register l hasDescriptor).1 then
        { w with incoming := w.incoming ++ [l], watched := w.watched + 1 }
      else w := by
  unfold register
  split <;> rfl

/-- A watcher that stops hands back all it holds; one that stopped before holds nothing. -/
theorem stop_eq (hs : w.stopped = true → w.held = []) (hc : w.watched = w.held.length) :
    w.stop =
      (w.held, { w with watches := [], incoming := [], watched := 0, stopped := true }) := by
  unfold stop
  split
  · next hstopped =>
    have hheld := hs hstopped
    obtain ⟨hwatches, hincoming⟩ := List.append_eq_nil_iff.1 hheld
    rw [hheld] at hc ⊢
    obtain ⟨places, incoming, watches, watched, woken, pruned, stopped⟩ := w
    cases hstopped
    cases hwatches
    cases hincoming
    cases hc
    rfl
  · rfl

/-! ## The books -/

/-- What is done with a watcher. -/
inductive Move where
  | register (l : Nat) (hasDescriptor : Bool)
  | round (rests : Nat → Bool) (poll : Poll)
  /-- A notice woke its connection. -/
  | woke
  | stop

/-- A watcher with the books of its registrations. -/
structure Record where
  watcher : Watcher
  /-- Those that were taken. -/
  taken : List Nat := []
  /-- Those that were let go of. -/
  dropped : List Nat := []
  /-- Those that were handed back, each for one notice. -/
  told : List Nat := []

namespace Record

/-- The record after a move. -/
def enter (x : Record) : Move → Record
  | .register l hasDescriptor =>
    let (takes, watcher) := x.watcher.register l hasDescriptor
    { x with watcher, taken := if takes then x.taken ++ [l] else x.taken }
  | .round rests poll =>
    let (out, watcher) := x.watcher.round rests poll
    { x with
      watcher
      dropped := x.dropped ++ x.watcher.loose rests
      told := x.told ++ out }
  | .woke => { x with watcher := x.watcher.noteWoken }
  | .stop =>
    let (held, watcher) := x.watcher.stop
    { x with watcher, told := x.told ++ held }

/-- The record of a new watcher after these moves. -/
def after (places : Nat) (moves : List Move) : Record :=
  moves.foldl enter { watcher := { places } }

/-- The books balance, and the watcher counts what it holds. -/
structure Balanced (places : Nat) (x : Record) : Prop where
  limit : x.watcher.places = places
  count : x.watcher.watched = x.watcher.incoming.length + x.watcher.watches.length
  bound : x.watcher.watched ≤ places
  entries : x.taken.Perm (x.told ++ x.dropped ++ x.watcher.held)
  pruned : x.watcher.pruned = x.dropped.length
  stopped : x.watcher.stopped = true → x.watcher.held = []

variable {x : Record}

theorem Balanced.watched (h : x.Balanced places) : x.watcher.watched = x.watcher.held.length := by
  rw [h.count, held, List.length_append, Nat.add_comm]

theorem Balanced.stop_eq (h : x.Balanced places) :
    x.watcher.stop =
      (x.watcher.held,
        { x.watcher with watches := [], incoming := [], watched := 0, stopped := true }) :=
  Watcher.stop_eq h.stopped h.watched

theorem new_balanced (places : Nat) : Balanced places { watcher := { places } } where
  limit := rfl
  count := rfl
  bound := Nat.zero_le places
  entries := .nil
  pruned := rfl
  stopped h := nomatch h

private theorem Balanced.register (h : x.Balanced places) (l : Nat) (hasDescriptor : Bool) :
    (x.enter (.register l hasDescriptor)).Balanced places := by
  have heq := register_eq x.watcher l hasDescriptor
  unfold enter
  dsimp only
  cases htakes : (x.watcher.register l hasDescriptor).1 with
  | false =>
    rw [htakes, if_neg Bool.false_ne_true] at heq
    rw [heq]
    exact h
  | true =>
    obtain ⟨hs, -, hlt⟩ := (register_iff _ _ _).1 htakes
    rw [htakes, if_pos rfl] at heq
    rw [heq]
    refine ⟨h.limit, ?_, h.limit ▸ hlt, ?_, h.pruned, fun hs' => nomatch hs.symm.trans hs'⟩
    · dsimp only
      rw [h.count, List.length_append, List.length_singleton, Nat.add_right_comm]
    · dsimp only [held]
      rw [if_pos rfl, ← List.append_assoc x.watcher.watches, ← List.append_assoc]
      exact h.entries.append_right [l]

private theorem Balanced.round (h : x.Balanced places) (rests : Nat → Bool) (poll : Poll) :
    (x.enter (.round rests poll)).Balanced places := by
  obtain ⟨watches, hwatches, hround⟩ := round_eq x.watcher rests poll
  have hheld := held_perm x.watcher rests poll
  have hlength := hheld.length_eq
  have hwatched := h.watched
  rw [List.length_append, List.length_append, ← hwatches.length_eq] at hlength
  unfold enter
  dsimp only
  rw [hround]
  refine ⟨h.limit, ?_, ?_, ?_, ?_, fun hs => ?_⟩ <;> dsimp only
  · rw [List.length_nil]
    omega
  · have := h.bound
    omega
  · refine List.perm_iff_count.2 fun l => ?_
    have hentries := h.entries.count_eq l
    have hsplit := hheld.count_eq l
    have hkept := hwatches.count_eq l
    simp only [held, List.count_append, List.count_reverse, List.append_nil] at hentries hsplit ⊢
    omega
  · rw [h.pruned, List.length_append]
  · rw [h.stopped hs, List.length_nil] at hlength
    show watches ++ [] = []
    rw [List.append_nil]
    exact List.length_eq_zero_iff.1 (by omega)

private theorem Balanced.stop (h : x.Balanced places) : (x.enter .stop).Balanced places := by
  unfold enter
  dsimp only
  rw [h.stop_eq]
  refine ⟨h.limit, rfl, Nat.zero_le _, ?_, h.pruned, fun _ => rfl⟩
  refine List.perm_iff_count.2 fun l => ?_
  have hentries := h.entries.count_eq l
  simp only [held, List.count_append, List.count_nil] at hentries ⊢
  omega

/-- **Every move keeps the books balanced.** -/
theorem enter_balanced (h : x.Balanced places) (m : Move) : (x.enter m).Balanced places := by
  cases m with
  | register l hasDescriptor => exact h.register l hasDescriptor
  | round rests poll => exact h.round rests poll
  | woke => exact ⟨h.limit, h.count, h.bound, h.entries, h.pruned, h.stopped⟩
  | stop => exact h.stop

theorem after_balanced (places : Nat) (moves : List Move) : (after places moves).Balanced places := by
  unfold after
  induction moves using List.reverseRecOn with
  | nil => exact new_balanced places
  | append_singleton moves m ih =>
    rw [List.foldl_append]
    exact enter_balanced ih m

/-- The notices that woke are counted, and that is all. -/
theorem foldl_woke (n : Nat) (x : Record) :
    ((List.replicate n .woke).foldl enter x).watcher =
      { x.watcher with woken := x.watcher.woken + n } := by
  induction n generalizing x with
  | zero => rfl
  | succ n ih =>
    rw [List.replicate_succ, List.foldl_cons, ih, Nat.add_comm n 1, ← Nat.add_assoc]
    rfl

theorem after_round (places : Nat) (moves : List Move) (m : Move) (n : Nat) :
    (after places (moves ++ m :: List.replicate n .woke)).watcher =
      { ((after places moves).enter m).watcher with
        woken := ((after places moves).enter m).watcher.woken + n } := by
  rw [after, List.foldl_append, List.foldl_cons, foldl_woke]
  rfl

/-- **Every registration is accounted for.** Whatever is done with a watcher, in whatever order,
whichever connections rest and whatever the polls answer at each round:

* it counts the watches it holds, and never more of them than it has places;
* of the registrations it took each is still held, was let go of or was handed back, once, and
  nothing is held once it stopped;
* it takes a registration if it runs, the connection has a descriptor and there is a place;
* a round lets go of the watches whose connections do not rest, hands back those of the others
  that the poll marks, and goes on to hold the rest;
* when it stops it hands back what it holds.

An engine with such a watcher does the same with it. It notifies each connection that is handed
back, once, and as long as the pool takes tasks each of them that rests is handed to the pool. -/
theorem registrations_accounted (places : Nat) (moves : List Move) :
    let x := after places moves
    let w := x.watcher
    (w.watched = w.incoming.length + w.watches.length ∧ w.watched ≤ places) ∧
    (x.taken.Perm (x.told ++ x.dropped ++ w.held) ∧ w.pruned = x.dropped.length ∧
      (w.stopped = true → w.held = [])) ∧
    (∀ l hasDescriptor,
      ((w.register l hasDescriptor).1 = true ↔
        w.stopped = false ∧ hasDescriptor = true ∧ w.watched < places) ∧
      (w.register l hasDescriptor).2 =
        if (w.register l hasDescriptor).1 then
          { w with incoming := w.incoming ++ [l], watched := w.watched + 1 }
        else w) ∧
    (∀ rests poll,
      (w.loose rests ++ (w.reported rests poll ++ w.silent rests poll)).Perm w.held ∧
      (w.round rests poll).1 = (w.reported rests poll).reverse ∧
      (w.round rests poll).2.watches.Perm (w.silent rests poll) ∧
      (w.round rests poll).2.incoming = [] ∧
      (w.round rests poll).2.pruned = w.pruned + (w.loose rests).length) ∧
    (w.stop.1 = w.held ∧ w.stop.2.held = [] ∧ w.stop.2.watched = 0 ∧ w.stop.2.stopped = true) ∧
    ∀ (s : Engine) (i : Nat), s.watcher? i = some w →
      (∀ l (k : Link), k.listener = i →
        let m := Move.register l k.stream.socket.hasDescriptor
        s.register l k (.polling w) =
          (some (w.register l k.stream.socket.hasDescriptor).1,
            s.setWatcher i (x.enter m).watcher)) ∧
      (∀ poll, w.stopped = false →
        let m := Move.round s.isResting poll
        s.pollRoundWith poll i =
          Engine.notifyWatched i (w.reported s.isResting poll).reverse
            (s.setWatcher i (x.enter m).watcher) ∧
        (∃ n, (s.pollRoundWith poll i).watcher? i =
          some (after places (moves ++ m :: List.replicate n .woke)).watcher) ∧
        (s.refusing = false →
          Engine.Roused (w.reported s.isResting poll).reverse s (s.pollRoundWith poll i))) ∧
      s.stopWatcher i =
        w.held.foldl (fun s l => (s.notify Engine.tearDown l).2)
          (s.setWatcher i (x.enter .stop).watcher) ∧
      (s.stopWatcher i).watcher? i = some (x.enter .stop).watcher ∧
      (s.refusing = false → Engine.Roused w.held s (s.stopWatcher i)) := by
  intro x w
  have hx : x.Balanced places := after_balanced places moves
  refine ⟨⟨hx.count, hx.bound⟩, ⟨hx.entries, hx.pruned, hx.stopped⟩,
    fun l hasDescriptor => ⟨?_, register_eq w l hasDescriptor⟩, fun rests poll => ?_, ?_,
    fun s i hw => ⟨fun l k hk => ?_, fun poll hs => ?_, ?_⟩⟩
  · rw [← hx.limit]
    exact register_iff w l hasDescriptor
  · obtain ⟨watches, hwatches, hround⟩ := round_eq w rests poll
    rw [hround]
    exact ⟨held_perm w rests poll, rfl, hwatches, rfl, rfl⟩
  · rw [hx.stop_eq]
    exact ⟨rfl, rfl, rfl, rfl⟩
  · subst hk
    exact Engine.register_polling k l w s
  · obtain ⟨watches, -, hround⟩ := round_eq w s.isResting poll
    have hout : (w.round s.isResting poll).1 = (w.reported s.isResting poll).reverse := by
      rw [hround]
    obtain ⟨n, hn⟩ := Engine.pollRoundWith_watcher? hw hs poll
    rw [← hout]
    refine ⟨Engine.pollRoundWith_eq hw hs poll, ⟨n, ?_⟩, Engine.pollRoundWith_roused hw hs poll⟩
    rw [hn, after_round]
    rfl
  · have hheld : w.stop.1 = w.held := by rw [hx.stop_eq]
    rw [← hheld]
    exact ⟨Engine.stopWatcher_eq hw, Engine.stopWatcher_watcher? hw, Engine.stopWatcher_roused hw⟩

/-- Two connections rest at a watcher with two places, and a third has no descriptor. Then the
first is closed. -/
def resting : List Engine.Move :=
  let arrival (hasDescriptor : Bool) : Engine.Arrival :=
    { socket := { hasDescriptor }
      handler := { requests := [[⟨"return", .return true, false⟩]] } }
  [.build {} (some (.polling { places := 2 })), .accept 0 (arrival true), .accept 0 (arrival true),
    .accept 0 (arrival false)] ++
  [0, 1, 2].flatMap (fun l => .begin 0 :: List.replicate 5 (.advance l)) ++
  [.perform 0 (.close (some 0) none)]

/-- A poll that marks all it is asked about hands the second back, and the first was let go
of. -/
theorem registrations_accounted_pair :
    let x := after 2 [.register 0 true, .register 1 true, .register 2 false]
    let s := Engine.after {} 0 resting
    let t := s.pollRoundWith (fun ls => some (ls.map fun _ => true)) 0
    s.watcher? 0 = some x.watcher ∧ x.watcher.stopped = false ∧ s.refusing = false ∧
      x.watcher.held = [0, 1] ∧ t.entries 0 = [] ∧ t.entries 1 = [.resume] := by
  intro x s t
  have hwatcher : s.watcher? 0 = some x.watcher := by decide
  have hruns : x.watcher.stopped = false := by decide
  have htakes : s.refusing = false := by decide
  have hround := ((registrations_accounted 2
    [.register 0 true, .register 1 true, .register 2 false]).2.2.2.2.2 s 0 hwatcher).2.1
      (fun ls => some (ls.map fun _ => true)) hruns
  have hroused := hround.2.2 htakes
  have hreported : (x.watcher.reported s.isResting fun ls => some (ls.map fun _ => true)) = [1] := by
    decide
  have hbefore : s.entries 0 = [] ∧ s.entries 1 = [] ∧ s.isResting 1 = true := by decide
  refine ⟨hwatcher, hruns, htakes, rfl, ?_, ?_⟩
  · refine (hroused.entries 0).trans ?_
    rw [hreported, hbefore.1]
    rfl
  · refine (hroused.entries 1).trans ?_
    rw [hreported, hbefore.2.1, hbefore.2.2]
    rfl

end Record

end LinkEngine.Multiplexer.Watcher

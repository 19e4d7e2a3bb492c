import LinkEngine.Proofs.Alternation
import LinkEngine.Proofs.Growth
import Mathlib.Algebra.BigOperators.Group.Finset.Piecewise

/-!
# What a listener counts in a run

The other counters of a listener, which are moved while its links live, and the tallies of the
buffers it handed out: each says how many links were made, how many connections were brought,
how often the request hook of a link was called, how often a request was suspended or woken
(`Ledger`). What one move counts, and what it is to the links, belong together (`Booked`); so
the ledger is right at every moment of every run (`ledger`).

A listener numbers its links (`linksOf`), and what is counted of all of them is a sum over
these numbers. A move adds to one summand at most (`sum_move`).
-/

namespace LinkEngine.Engine

open Connection (CloseReason Counter)
open Stand (Recorded)

variable {s t : Engine} {i l : Nat} {k : Link} {v : Stand} {m : Move} {events : List Counter}

/-! ## The links of a listener -/

/-- The numbers of the links of a listener. -/
def linksOf (s : Engine) (i : Nat) : Finset Nat :=
  (Finset.range s.slots.length).filter fun l => (s.link? l).any (·.listener == i)

theorem mem_linksOf : l ∈ s.linksOf i ↔ ∃ k, s.link? l = some k ∧ k.listener = i := by
  unfold linksOf
  rw [Finset.mem_filter, Finset.mem_range, Option.any_eq_true]
  constructor
  · rintro ⟨-, k, hk, hl⟩
    exact ⟨k, hk, beq_iff_eq.1 hl⟩
  · rintro ⟨k, hk, hl⟩
    refine ⟨?_, k, hk, beq_iff_eq.2 hl⟩
    unfold link? at hk
    obtain ⟨slot, hslot, -⟩ := Option.bind_eq_some_iff.1 hk
    exact (List.getElem?_eq_some_iff.1 hslot).1

theorem mem_linksOf_of_link? (hk : s.link? l = some k) : l ∈ s.linksOf i ↔ k.listener = i := by
  rw [mem_linksOf, hk]
  exact ⟨fun ⟨_, hx, hi⟩ => Option.some.inj hx ▸ hi, fun hi => ⟨k, rfl, hi⟩⟩

theorem not_mem_linksOf (hk : s.link? l = none) : l ∉ s.linksOf i := by
  rw [mem_linksOf, hk]
  exact fun ⟨_, hx, _⟩ => nomatch hx

private theorem countP_eq_card (p : Slot → Bool) (slots : List Slot) :
    slots.countP p = ((Finset.range slots.length).filter fun l => (slots[l]?).any p).card := by
  induction slots using List.reverseRecOn with
  | nil => rfl
  | append_singleton slots slot ih =>
    have hfilter : (Finset.range slots.length).filter (fun l => ((slots ++ [slot])[l]?).any p) =
        (Finset.range slots.length).filter fun l => (slots[l]?).any p := by
      refine Finset.filter_congr fun l hl => ?_
      rw [List.getElem?_append_left (Finset.mem_range.1 hl)]
    rw [List.countP_append, List.length_append, List.length_singleton, Finset.range_add_one,
      Finset.filter_insert, List.getElem?_concat_length, Option.any_some, hfilter, ih,
      List.countP_singleton]
    split
    · rw [Finset.card_insert_of_notMem]
      exact fun h => Finset.notMem_range_self (Finset.mem_filter.1 h).1
    · rfl

/-- Those of its links that have a property, counted by their numbers. -/
theorem countOf_eq_card (p : Link → Bool) :
    s.countOf i p = ((s.linksOf i).filter fun l => (s.link? l).any p).card := by
  unfold countOf links
  rw [List.countP_filterMap, countP_eq_card]
  unfold linksOf
  rw [Finset.filter_filter]
  congr 1
  refine Finset.filter_congr fun l _ => ?_
  unfold link?
  cases s.slots[l]? with
  | none => simp
  | some slot => cases slot <;> simp [Slot.link?]

/-- A move makes one new link at most, and leaves the others with their listeners. -/
private theorem mem_linksOf_move (hs : s.scheduler.Sole) (m : Move) :
    l ∈ (move m s).linksOf i ↔
      l ∈ s.linksOf i ∨ s.link? l = none ∧ l ∈ (move m s).linksOf i := by
  cases hk : s.link? l with
  | none =>
    exact ⟨fun h => .inr ⟨rfl, h⟩, fun h => (h.resolve_left (not_mem_linksOf hk)).2⟩
  | some k =>
    obtain ⟨w, hw, hturn⟩ := move_turn hs m (stand?_of_link? hk)
    have howner : w.link.listener = k.listener := congrArg Prod.fst hturn.owner
    rw [mem_linksOf_of_link? hk, mem_linksOf_of_link? (stand?_eq_some.1 hw).1, howner]
    exact (or_iff_left nofun).symm

private theorem linksOf_eq_of_no_new (hs : s.scheduler.Sole)
    (h : ∀ l, s.link? l = none → l ∉ (move m s).linksOf i) :
    (move m s).linksOf i = s.linksOf i := by
  ext l
  rw [mem_linksOf_move hs]
  exact or_iff_left fun ⟨hn, hl⟩ => h l hn hl

/-- A new link of a listener was brought to it. -/
private theorem started_of_new (hm : s.Manned) (hn : s.link? l = none)
    (hl : l ∈ (move m s).linksOf i) : l = s.slots.length ∧ ∃ arrival k,
      m = .accept i arrival ∧ (move m s).link? l = some k ∧ k.hooks = [] := by
  obtain ⟨k, hk, hi⟩ := mem_linksOf.1 hl
  obtain ⟨j, arrival, hmove, -, hslot, hstarted⟩ := move_started hm m hn (stand?_of_link? hk)
  obtain rfl : j = i := hstarted.listener.symm.trans hi
  exact ⟨hslot, arrival, k, hmove, hk, hstarted.hooks⟩

/-- What the moved links add up to: a new link has nothing yet, a link that rests has what it had,
and the step of a task adds to its link alone. -/
theorem sum_move {f g : Nat → Nat} {n : Nat} (hs : s.scheduler.Sole)
    (hnew : ∀ l ∈ (move m s).linksOf i, s.link? l = none → g l = 0)
    (hrest : ∀ l ∈ s.linksOf i, m ≠ .advance l → g l = f l)
    (hstep : ∀ l ∈ s.linksOf i, m = .advance l → g l = f l + n)
    (hn : (∀ l ∈ s.linksOf i, m ≠ .advance l) → n = 0) :
    ∑ l ∈ (move m s).linksOf i, g l = ∑ l ∈ s.linksOf i, f l + n := by
  have hold : ∑ l ∈ (move m s).linksOf i, g l = ∑ l ∈ s.linksOf i, g l := by
    refine (Finset.sum_subset (fun l hl => (mem_linksOf_move hs m).2 (.inl hl)) ?_).symm
    intro l hl hl'
    exact hnew l hl (((mem_linksOf_move hs m).1 hl).resolve_left hl').1
  rw [hold]
  by_cases h : ∃ l ∈ s.linksOf i, m = .advance l
  · obtain ⟨l, hl, rfl⟩ := h
    have hg : ∀ x ∈ s.linksOf i, g x = f x + if x = l then n else 0 := by
      intro x hx
      split
      · next h =>
        subst h
        exact hstep x hx rfl
      · next h => exact hrest x hx fun hm => h (Move.advance.inj hm).symm
    rw [Finset.sum_congr rfl hg, Finset.sum_add_distrib, Finset.sum_ite_eq', if_pos hl]
  · have hne : ∀ l ∈ s.linksOf i, m ≠ .advance l := fun l hl hm => h ⟨l, hl, hm⟩
    rw [hn hne, Nat.add_zero]
    exact Finset.sum_congr rfl fun l hl => hrest l hl (hne l hl)

/-! ## Moves -/

/-- The connection that a move brings to a listener. -/
def offeredBy (i : Nat) (m : Move) (s : Engine) : List Arrival :=
  match m with
  | .accept j arrival => if j = i ∧ i < s.listeners.length then [arrival] else []
  | _ => []

/-- The connections that were brought to a listener, move by move. -/
def offeredIn (i : Nat) : List Move → Engine → List Arrival := along (offeredBy i)

theorem offeredBy_of_ne (h : ∀ arrival, m ≠ .accept i arrival) (s : Engine) :
    offeredBy i m s = [] := by
  unfold offeredBy
  split
  · next j arrival => exact if_neg fun (hj : j = i ∧ _) => h arrival (hj.1 ▸ rfl)
  · rfl

theorem offeredBy_of_le (h : s.listeners.length ≤ i) (m : Move) : offeredBy i m s = [] := by
  unfold offeredBy
  split
  · exact if_neg fun hj => Nat.not_lt.2 h hj.2
  · rfl

/-- What a move counts for a listener, and what that is to its links. -/
structure Booked (i : Nat) (m : Move) (s : Engine) (events : List Counter) : Prop where
  gains : (s.listener i).Gains events ((move m s).listener i)
  /-- Each connection that is brought is accepted or rejected. -/
  offered : events.count .accepted + events.count .rejected = (offeredBy i m s).length
  /-- Each one that is accepted becomes a link. -/
  links : ((move m s).linksOf i).card = (s.linksOf i).card + events.count .accepted
  /-- What is counted of links is what their tasks did. -/
  step : ∀ l ∈ s.linksOf i, m = .advance l → ∀ v, s.stand? l = some v →
    ∃ w, (move m s).stand? l = some w ∧ Gains i events s (move m s) ∧ Recorded v w events ∧
      w.link.hooks.count .request = v.link.hooks.count .request + events.count .requests
  rest : (∀ l ∈ s.linksOf i, m ≠ .advance l) → events ⊆ [.accepted, .rejected]

section Moves

variable (hs : s.scheduler.Sole) (hm : s.Manned)

include hs hm

/-- Where no connection is brought to a listener, it has the links it had. -/
private theorem linksOf_move (h : ∀ arrival, m ≠ .accept i arrival) :
    (move m s).linksOf i = s.linksOf i := by
  refine linksOf_eq_of_no_new hs fun l hn hl => ?_
  obtain ⟨-, arrival, -, hmove, -⟩ := started_of_new hm hn hl
  exact h arrival hmove

/-- Nothing is counted for a listener to which nothing is brought, and of whose links no task
takes a step. -/
private theorem booked_nil (h : ∀ arrival, m ≠ .accept i arrival)
    (hl : ∀ l ∈ s.linksOf i, m ≠ .advance l)
    (hg : (s.listener i).Gains [] ((move m s).listener i)) : Booked i m s [] := by
  refine ⟨hg, ?_, ?_, fun l hl' hm => absurd hm (hl l hl'), fun _ => nofun⟩
  · rw [offeredBy_of_ne h]
    rfl
  · rw [linksOf_move hs hm h]
    rfl

private theorem accept_booked (hi : i < s.listeners.length) (arrival : Arrival) :
    ∃ events, Booked i (.accept i arrival) s events := by
  have hmove : move (.accept i arrival) s = (s.accept i arrival).2 := if_pos hi
  obtain ⟨c, hg, hc⟩ := (accept_accepts i arrival s).gains hi
  rw [← hmove] at hg hc
  have hn : s.link? s.slots.length = none := by
    unfold link?
    rw [List.getElem?_eq_none (Nat.le_refl _)]
    rfl
  have hoffered : offeredBy i (.accept i arrival) s = [arrival] := if_pos ⟨rfl, hi⟩
  have hbooked : ((move (.accept i arrival) s).linksOf i).card =
      (s.linksOf i).card + [c].count .accepted → (c = .rejected ∨ c = .accepted) →
      Booked i (.accept i arrival) s [c] := by
    intro hlinks hc
    refine ⟨hg.self, ?_, hlinks, fun l _ h => (nomatch h), fun _ d hd => ?_⟩
    · rw [hoffered]
      rcases hc with rfl | rfl <;> rfl
    · rw [List.mem_singleton.1 hd]
      rcases hc with rfl | rfl <;> simp
  rcases hc with ⟨rfl, hnone⟩ | ⟨rfl, hsome⟩
  · have hsame : (move (.accept i arrival) s).linksOf i = s.linksOf i := by
      refine linksOf_eq_of_no_new hs fun l hn hl => ?_
      obtain ⟨rfl, _, k, -, hk, -⟩ := started_of_new hm hn hl
      rw [hk] at hnone
      cases hnone
    exact ⟨_, hbooked (congrArg Finset.card hsame) (.inl rfl)⟩
  · have hinsert : (move (.accept i arrival) s).linksOf i =
        insert s.slots.length (s.linksOf i) := by
      ext l
      rw [mem_linksOf_move hs, Finset.mem_insert, or_comm]
      refine or_congr_left ⟨fun h => (started_of_new hm h.1 h.2).1, ?_⟩
      rintro rfl
      obtain ⟨k, hk⟩ := Option.isSome_iff_exists.1 hsome
      obtain ⟨j, arrival', hmove, -, -, hstarted⟩ := move_started hm _ hn (stand?_of_link? hk)
      cases hmove
      exact ⟨hn, mem_linksOf.2 ⟨k, hk, hstarted.listener⟩⟩
    refine ⟨_, hbooked ?_ (.inr rfl)⟩
    rw [hinsert, Finset.card_insert_of_notMem]
    · rfl
    · exact not_mem_linksOf hn

variable (ha : s.Audited fun _ => 0) (hst : ∀ l v, s.stand? l = some v → v.Standing)

include ha hst

private theorem advance_booked (l : Nat) :
    ∃ events, Booked i (.advance l) s events := by
  cases hk : s.link? l with
  | none =>
    have hmove : move (.advance l) s = s := advance_of_absent hk
    refine ⟨[], booked_nil hs hm (fun _ h => nomatch h) ?_ ?_⟩
    · rintro l' hl' ⟨⟩
      exact not_mem_linksOf hk hl'
    · rw [hmove]
      exact .refl _
  | some k =>
    have hv := stand?_of_link? hk
    obtain ⟨w, events, hw, hg, hr, hhooks⟩ :=
      advance_records hs hv (hst l _ hv) (ha.housed l k hk)
    by_cases hi : k.listener = i
    · subst hi
      have hlinks := linksOf_move (i := k.listener) (m := .advance l) hs hm fun _ h => nomatch h
      have hnone : events.count .accepted = 0 ∧ events.count .rejected = 0 := by
        cases hr <;> exact ⟨rfl, rfl⟩
      refine ⟨events, hg.self, ?_, ?_, ?_, fun h => ?_⟩
      · rw [hnone.1, hnone.2]
        rfl
      · rw [hlinks, hnone.1]
        rfl
      · rintro l' - ⟨⟩ v hv'
        obtain rfl := Option.some.inj (hv.symm.trans hv')
        exact ⟨w, hw, hg, hr, hhooks⟩
      · exact absurd rfl (h l ((mem_linksOf_of_link? hk).2 rfl))
    · refine ⟨[], booked_nil hs hm (fun _ h => nomatch h) ?_ ?_⟩
      · rintro l' hl' ⟨⟩
        exact hi ((mem_linksOf_of_link? hk).1 hl')
      · exact hg.other fun h => hi h.symm

/-- **Each move is booked.** -/
private theorem move_booked (hi : i < s.listeners.length) (m : Move) :
    ∃ events, Booked i m s events := by
  have hplain : ∀ m : Move, m.isPlain = true → ∃ events, Booked i m s events := by
    intro m hplain
    refine ⟨[], booked_nil hs hm ?_ ?_ (move_course hplain s).gains.self⟩
    · rintro arrival rfl
      cases hplain
    · rintro l - rfl
      cases hplain
  cases m with
  | build settings multiplexer platform =>
    exact ⟨[], booked_nil hs hm (fun _ h => nomatch h) (fun _ _ h => nomatch h)
      ((build_builds settings multiplexer platform s).gains hi)⟩
  | accept j arrival =>
    by_cases hj : j = i
    · subst hj
      exact accept_booked hs hm hi arrival
    · refine ⟨[], booked_nil hs hm ?_ (fun _ _ h => nomatch h) ?_⟩
      · rintro arrival' ⟨⟩
        exact hj rfl
      · show (s.listener i).Gains []
          ((if j < s.listeners.length then (s.accept j arrival).2 else s).listener i)
        split
        · next hlt =>
          obtain ⟨c, hg, -⟩ := (accept_accepts j arrival s).gains hlt
          exact hg.other fun h => hj h.symm
        · exact .refl _
  | begin place =>
    exact ⟨[], booked_nil hs hm (fun _ h => nomatch h) (fun _ _ h => nomatch h)
      (begin_gains place).self⟩
  | advance l => exact advance_booked hs hm ha hst l
  | _ => exact hplain _ rfl

omit hm in
/-- Only building makes a listener. -/
private theorem length_move (hm : ∀ settings x platform, m ≠ .build settings x platform) :
    (move m s).listeners.length = s.listeners.length := by
  cases m with
  | build settings x platform => exact absurd rfl (hm settings x platform)
  | accept j arrival =>
    show (if j < s.listeners.length then (s.accept j arrival).2 else s).listeners.length = _
    split
    · next hlt =>
      obtain ⟨c, hg, -⟩ := (accept_accepts j arrival s).gains hlt
      exact hg.length
    · rfl
  | begin place => exact (begin_gains (i := 0) place).length
  | advance l =>
    cases hk : s.link? l with
    | none => exact congrArg (·.listeners.length) (advance_of_absent hk)
    | some k =>
      have hv := stand?_of_link? hk
      obtain ⟨_, _, -, hg, -, -⟩ := advance_records hs hv (hst l _ hv) (ha.housed l k hk)
      exact hg.length
  | _ => exact (move_course rfl s).length

end Moves

private theorem Builds.length_le (h : Builds s t) : s.listeners.length ≤ t.listeners.length := by
  cases h with
  | refused | unqueued => exact Nat.le_refl _
  | built _ _ _ _ _ h' _ =>
    rw [h'.length, List.length_append]
    exact Nat.le_add_right ..

/-! ## Runs -/

/-- How often a hook of a link was called. -/
def callsOf (s : Engine) (l : Nat) (hook : Hook) : Nat := (s.link? l).elim 0 (·.callsOf hook)

theorem callsOf_of_stand? (hv : s.stand? l = some v) (hook : Hook) :
    s.callsOf l hook = v.link.hooks.count hook := by
  unfold callsOf
  rw [(stand?_eq_some.1 hv).1]
  exact v.link.callsOf_eq hook

variable (settings : Settings.Scheduler) (now : Nat)

/-- What a listener has counted in a run. -/
structure Ledger (i : Nat) (moves : List Move) (x : Listener) (links : Finset Nat) : Prop where
  limit : x.tracker.active ≤ x.settings.maxConnections
  accepted : x.stats.get .accepted = UInt64.ofNat links.card
  offered : x.stats.get .accepted + x.stats.get .rejected =
    UInt64.ofNat (offeredIn i moves (create settings now)).length
  taken : x.buffers.hits + x.buffers.misses = links.card
  requests : x.stats.get .requests =
    UInt64.ofNat (∑ l ∈ links, (after settings now moves).callsOf l .request)
  turns : ∀ c : Counter, c = .suspends ∨ c = .wakes → x.stats.get c =
    UInt64.ofNat (∑ l ∈ links, (countedIn l moves (create settings now)).count c)

private theorem count_eq_zero_of_rest (h : events ⊆ [.accepted, .rejected]) {c : Counter}
    (hc : c ≠ .accepted ∧ c ≠ .rejected) : events.count c = 0 := by
  refine List.count_eq_zero.2 fun hmem => ?_
  rcases List.mem_pair.1 (h hmem) with rfl | rfl
  · exact hc.1 rfl
  · exact hc.2 rfl

/-- The calls of the request hook, after one more move. -/
private theorem sum_callsOf_move (moves : List Move)
    (hb : Booked i m (after settings now moves) events) :
    ∑ l ∈ (move m (after settings now moves)).linksOf i,
        (move m (after settings now moves)).callsOf l .request =
      ∑ l ∈ (after settings now moves).linksOf i, (after settings now moves).callsOf l .request +
        events.count .requests := by
  refine sum_move (after_sole settings now moves) ?_ ?_ ?_ fun h =>
    count_eq_zero_of_rest (hb.rest h) ⟨nofun, nofun⟩
  · intro l hl hn
    obtain ⟨-, arrival, k, -, hk, hhooks⟩ := started_of_new (after_manned settings now moves) hn hl
    rw [callsOf_of_stand? (stand?_of_link? hk), hhooks]
    rfl
  · intro l hl hm
    obtain ⟨k, hk, -⟩ := mem_linksOf.1 hl
    obtain ⟨w, hw, hrests⟩ := move_rests hm (stand?_of_link? hk)
    rw [callsOf_of_stand? hw, callsOf_of_stand? (stand?_of_link? hk), hrests.silent.hooks]
  · intro l hl hm
    obtain ⟨k, hk, -⟩ := mem_linksOf.1 hl
    obtain ⟨w, hw, -, -, hhooks⟩ := hb.step l hl hm _ (stand?_of_link? hk)
    rw [callsOf_of_stand? hw, callsOf_of_stand? (stand?_of_link? hk), hhooks]

/-- What was counted for the links, after one more move. -/
private theorem sum_countedIn_move (moves : List Move)
    (hb : Booked i m (after settings now moves) events) {c : Counter}
    (hc : c = .suspends ∨ c = .wakes) :
    ∑ l ∈ (move m (after settings now moves)).linksOf i,
        (countedIn l (moves ++ [m]) (create settings now)).count c =
      ∑ l ∈ (after settings now moves).linksOf i,
          (countedIn l moves (create settings now)).count c +
        events.count c := by
  have hconcat : ∀ l, (countedIn l (moves ++ [m]) (create settings now)).count c =
      (countedIn l moves (create settings now)).count c +
        (countedBy l m (after settings now moves)).count c := fun l => by
    rw [countedIn, along_concat, List.count_append]
    rfl
  refine sum_move (after_sole settings now moves) ?_ ?_ ?_ fun h =>
    count_eq_zero_of_rest (hb.rest h) (by rcases hc with rfl | rfl <;> exact ⟨nofun, nofun⟩)
  · intro l hl hn
    rw [hconcat, (dozes settings now moves).2 hn, countedBy_of_none m hn]
    rfl
  · intro l hl hm
    rw [hconcat, countedBy_of_ne hm]
    rfl
  · rintro l hl rfl
    obtain ⟨k, hk, rfl⟩ := mem_linksOf.1 hl
    have hv := stand?_of_link? hk
    obtain ⟨w, hw, hg, hr, -⟩ := hb.step l hl rfl _ hv
    rw [hconcat, countedBy_advance hv hg hr, List.count_filter]
    rcases hc with rfl | rfl <;> rfl

/-- **What a move books goes into the ledger.** -/
private theorem Ledger.booked (moves : List Move)
    (h : Ledger settings now i moves ((after settings now moves).listener i)
      ((after settings now moves).linksOf i))
    (hb : Booked i m (after settings now moves) events) :
    Ledger settings now i (moves ++ [m]) ((move m (after settings now moves)).listener i)
      ((move m (after settings now moves)).linksOf i) := by
  have hstats := hb.gains.stats
  refine ⟨hb.gains.limit h.limit, ?_, ?_, ?_, ?_, fun c hc => ?_⟩
  · rw [hstats .accepted rfl, h.accepted, ← UInt64.ofNat_add, hb.links]
  · rw [hstats .accepted rfl, hstats .rejected rfl, offeredIn, along_concat, List.length_append]
    show _ = UInt64.ofNat (_ + (offeredBy i m (after settings now moves)).length)
    rw [← hb.offered, UInt64.ofNat_add, UInt64.ofNat_add, ← offeredIn, ← h.offered]
    ac_rfl
  · rw [hb.gains.taken, h.taken, hb.links]
  · rw [hstats .requests rfl, h.requests, after_concat, sum_callsOf_move settings now moves hb,
      UInt64.ofNat_add]
  · rw [hstats c (by rcases hc with rfl | rfl <;> rfl), h.turns c hc,
      sum_countedIn_move settings now moves hb hc, UInt64.ofNat_add]

/-- A listener that was just built has an empty ledger. -/
private theorem Ledger.fresh {moves : List Move} {x y : Listener} (hf : y.Fresh)
    (hg : y.Gains [] x) (ho : offeredIn i moves (create settings now) = []) :
    Ledger settings now i moves x ∅ := by
  have hstats : ∀ c : Counter, c.isEvent = true → x.stats.get c = 0 := by
    intro c hc
    rw [hg.stats c hc, hf.stats]
    cases c <;> rfl
  refine ⟨hg.limit ?_, hstats _ rfl, ?_, ?_, hstats _ rfl, fun c hc => ?_⟩
  · rw [hf.tracker]
    exact Nat.zero_le _
  · rw [hstats _ rfl, hstats _ rfl, ho]
    rfl
  · rw [hg.taken, hf.taken.1, hf.taken.2]
    rfl
  · rw [hstats c (by rcases hc with rfl | rfl <;> rfl)]
    rfl

/-- **The ledger of a listener is right at every moment of every run**, and nothing was brought
to a listener before it was built. -/
theorem ledger (moves : List Move) :
    (i < (after settings now moves).listeners.length →
      Ledger settings now i moves ((after settings now moves).listener i)
        ((after settings now moves).linksOf i)) ∧
    ((after settings now moves).listeners.length ≤ i →
      offeredIn i moves (create settings now) = []) := by
  induction moves using List.reverseRecOn with
  | nil => exact ⟨fun hi => (nomatch hi), fun _ => rfl⟩
  | append_singleton moves m ih =>
    have hsole := after_sole settings now moves
    have ha := audited settings now moves
    have hst : ∀ l v, (after settings now moves).stand? l = some v → v.Standing :=
      fun _ _ hv => standing settings now moves hv
    rw [after_concat]
    have hbuild : (∃ settings x platform, m = .build settings x platform) ∨
        (move m (after settings now moves)).listeners.length =
          (after settings now moves).listeners.length := by
      by_cases h : ∃ settings x platform, m = .build settings x platform
      · exact .inl h
      · exact .inr (length_move hsole ha hst fun settings x platform hm =>
          h ⟨settings, x, platform, hm⟩)
    have hgrow : (after settings now moves).listeners.length ≤
        (move m (after settings now moves)).listeners.length := by
      rcases hbuild with ⟨settings', x, platform, rfl⟩ | h
      · exact (build_builds settings' x platform _).length_le
      · exact Nat.le_of_eq h.symm
    have hoffered : (after settings now moves).listeners.length ≤ i →
        offeredIn i (moves ++ [m]) (create settings now) = [] := by
      intro hle
      rw [offeredIn, along_concat, ← offeredIn, ih.2 hle]
      exact offeredBy_of_le hle m
    refine ⟨fun hi => ?_, fun hle => hoffered (Nat.le_trans hgrow hle)⟩
    by_cases hlt : i < (after settings now moves).listeners.length
    · obtain ⟨events, hb⟩ := move_booked hsole (after_manned settings now moves) ha hst hlt m
      exact (ih.1 hlt).booked settings now moves hb
    · have hle := Nat.le_of_not_lt hlt
      rcases hbuild with ⟨settings', x, platform, rfl⟩ | h
      · obtain ⟨y, hf, hg⟩ := (build_builds settings' x platform _).gains_new hi hle
        have hlinks : (move (.build settings' x platform)
            (after settings now moves)).linksOf i = ∅ := by
          refine Finset.eq_empty_iff_forall_notMem.2 fun l hl => ?_
          obtain ⟨k, hk, hlistener⟩ := mem_linksOf.1 hl
          exact listener_ne_of_unbuilt settings now _ hle hk hlistener
        rw [hlinks]
        exact .fresh settings now hf hg (hoffered hle)
      · exact absurd (h ▸ hi) hlt

end LinkEngine.Engine

import LinkEngine.Proofs.Ledger
import LinkEngine.Proofs.Order
import Mathlib.Algebra.GroupWithZero.Nat
import Mathlib.Data.UInt

/-!
# The accounts of a listener balance

A listener keeps several records of its connections: counters, how many are alive, a registry,
the tallies of its pool of buffers. Each was shown to be right for itself (`audited`, `ledger`,
`dozes`); so they agree with one another, and with the links, at every moment of every run
(`accounts_balance`).
-/

namespace LinkEngine.Engine

open Connection (CloseReason Counter)

variable {s : Engine} {i : Nat}

/-! ## How many links -/

/-- Who has a property has another one besides, or has not. -/
private theorem countOf_split (p q : Link → Bool) :
    s.countOf i p = s.countOf i (fun k => p k && q k) + s.countOf i (fun k => p k && !q k) := by
  unfold countOf
  rw [List.countP_eq_countP_filter_add _ _ q, List.countP_filter, List.countP_filter]
  simp only [Bool.and_assoc]

/-- Properties that the links of a listener have together are counted alike. -/
private theorem countOf_congr {p q : Link → Bool}
    (h : ∀ l k, s.link? l = some k → p k = q k) : s.countOf i p = s.countOf i q := by
  refine List.countP_congr fun k hk => ?_
  obtain ⟨l, hk⟩ := mem_links.1 hk
  rw [h l k hk]

private theorem countP_eq_sum (p : Link → Bool) : ∀ links : List Link,
    (∀ k ∈ links, p k = true → k.closeReason.isSome = true) →
      links.countP p =
        (CloseReason.all.map fun r => links.countP fun k => p k && k.closeReason == some r).sum
  | [], _ => rfl
  | k :: links, h => by
    have ih := countP_eq_sum p links fun x hx => h x (List.mem_cons_of_mem k hx)
    have hone : (if p k = true then 1 else 0) = (CloseReason.all.map fun r =>
        if (p k && k.closeReason == some r) = true then 1 else 0).sum := by
      cases hp : p k with
      | false => rfl
      | true =>
        obtain ⟨r, hr⟩ := Option.isSome_iff_exists.1 (h k List.mem_cons_self hp)
        rw [hr]
        cases r <;> rfl
    simp only [List.countP_cons, List.sum_map_add, ih, hone]

/-- Links that have a reason to be closed are counted by their reasons. -/
private theorem countOf_eq_sum {p : Link → Bool}
    (h : ∀ l k, s.link? l = some k → p k = true → k.closeReason.isSome = true) :
    s.countOf i p =
      (CloseReason.all.map fun r => s.countOf i fun k => p k && k.closeReason == some r).sum := by
  have hsum := countP_eq_sum (fun k => k.listener == i && p k) s.links fun k hk hp => by
    obtain ⟨l, hk⟩ := mem_links.1 hk
    exact h l k hk (Bool.and_eq_true_iff.1 hp).2
  simp only [Bool.and_assoc] at hsum
  exact hsum

/-- Counters that count what they should add up to what they should. -/
private theorem sum_counters {x : Connection.Stats} {f : CloseReason → Nat} :
    ∀ reasons : List CloseReason,
      (∀ r ∈ reasons, ∃ c, Counter.ofReason? r = some c ∧ x.get c = UInt64.ofNat (f r)) →
      ((reasons.filterMap Counter.ofReason?).map x.get).sum = UInt64.ofNat (reasons.map f).sum
  | [], _ => rfl
  | r :: reasons, h => by
    obtain ⟨c, hc, hx⟩ := h r List.mem_cons_self
    have ih := sum_counters reasons fun r hr => h r (List.mem_cons_of_mem _ hr)
    rw [List.filterMap_cons_some hc, List.map_cons, List.sum_cons, List.map_cons, List.sum_cons,
      UInt64.ofNat_add, ih, hx]

private theorem ofNat_add_sub (a b : Nat) :
    UInt64.ofNat (a + b) - UInt64.ofNat a = UInt64.ofNat b := by
  rw [UInt64.ofNat_add, UInt64.add_comm]
  exact UInt64.add_sub_cancel ..

/-! ## The balance -/

/-- The accounts of listener `i` balance, where so many connections were brought to it and these
suspends and wakes were counted for its links. Counters wrap around: what is said of one is what
was counted, as long as that fits. -/
structure Balanced (s : Engine) (i offered : Nat) (naps : Nat → List Counter) : Prop where
  /-- Who was accepted and was not closed is alive, -/
  alive : (s.listener i).stats.get .accepted - (s.listener i).stats.get .closed =
    UInt64.ofNat (s.listener i).tracker.active
  /-- and is registered, -/
  registered : (s.listener i).registry.length = (s.listener i).tracker.active
  /-- and is a link that is not closed; -/
  notClosed : s.countOf i (!·.closed) = (s.listener i).tracker.active
  /-- there are no more of them than there may be. -/
  limit : (s.listener i).tracker.active ≤ (s.listener i).settings.maxConnections
  /-- Every connection that was accepted became a link. -/
  links : (s.listener i).stats.get .accepted = UInt64.ofNat (s.linksOf i).card
  /-- Every connection that was brought was accepted or rejected. -/
  offered : (s.listener i).stats.get .accepted + (s.listener i).stats.get .rejected =
    UInt64.ofNat offered
  /-- Every link took a pair of buffers, -/
  taken : UInt64.ofNat ((s.listener i).buffers.hits + (s.listener i).buffers.misses) =
    (s.listener i).stats.get .accepted
  /-- and gave it back when it was closed. -/
  returned : UInt64.ofNat ((s.listener i).buffers.returns + (s.listener i).buffers.discards) =
    (s.listener i).stats.get .closed
  /-- Every link that was closed was closed for one reason. -/
  reasons : (s.listener i).stats.get .closed =
    UInt64.ofNat (s.countOf i fun k => k.closed && k.closeReason == some .normal) +
      ((CloseReason.all.filterMap Counter.ofReason?).map (s.listener i).stats.get).sum
  /-- Every call of the request hook was counted. -/
  requests : (s.listener i).stats.get .requests =
    UInt64.ofNat (∑ l ∈ s.linksOf i, s.callsOf l .request)
  /-- Every suspend and every wake was counted for one of the links, -/
  counted : ∀ c : Counter, c = .suspends ∨ c = .wakes → (s.listener i).stats.get c =
    UInt64.ofNat (∑ l ∈ s.linksOf i, (naps l).count c)
  /-- and on each link they take turns; -/
  turns : ∀ l ∈ s.linksOf i, Alternates (naps l)
  /-- the last of them says where an open link is, -/
  suspended : ∀ l k, s.link? l = some k → k.listener = i → k.closed = false →
    ((naps l).getLast? = some .suspends ↔ k.IsSuspended)
  /-- and those that were suspended and not woken since, closed or not, are the difference. -/
  asleep : (s.listener i).stats.get .suspends - (s.listener i).stats.get .wakes =
    UInt64.ofNat ((s.linksOf i).filter fun l => (naps l).getLast? = some .suspends).card

variable (settings : Settings.Scheduler) (now : Nat) (moves : List Move)

/-- A link is given back when it is closed. -/
private theorem counted_eq {l : Nat} {k : Link}
    (hk : (after settings now moves).link? l = some k) : k.counted = !k.closed := by
  cases hc : k.closed with
  | false => exact (audited settings now moves).counted l k hk hc
  | true => exact ((standing settings now moves (stand?_of_link? hk)).gone hc).1.counted

/-- The links of a listener are those that are alive and those that were closed. -/
private theorem card_linksOf : ((after settings now moves).linksOf i).card =
    (after settings now moves).countOf i (!·.counted) +
      (after settings now moves).countOf i (·.counted) := by
  have hall : (after settings now moves).countOf i (fun _ => true) =
      ((after settings now moves).linksOf i).card := by
    rw [countOf_eq_card, Finset.filter_true_of_mem]
    intro l hl
    obtain ⟨k, hk, -⟩ := mem_linksOf.1 hl
    rw [hk]
    rfl
  rw [← hall, countOf_split (fun _ => true) (·.counted), Nat.add_comm]
  rfl

/-- The registry has the links that are alive, each once. -/
private theorem length_registry (hb : (after settings now moves).Books i 0) :
    ((after settings now moves).listener i).registry.length =
      (after settings now moves).countOf i (·.counted) := by
  rw [countOf_eq_card, ← List.toFinset_card_of_nodup hb.nodup]
  congr 1
  ext l
  rw [List.mem_toFinset, hb.registered, Finset.mem_filter, mem_linksOf, Option.any_eq_true]
  constructor
  · rintro ⟨k, hk, hi, hc⟩
    exact ⟨⟨k, hk, hi⟩, k, hk, hc⟩
  · rintro ⟨⟨k, hk, hi⟩, x, hx, hc⟩
    obtain rfl := Option.some.inj (hk.symm.trans hx)
    exact ⟨k, hk, hi, hc⟩

/-- The counter of closed links is the sum over their reasons. -/
private theorem closed_eq_sum (hb : (after settings now moves).Books i 0) :
    ((after settings now moves).listener i).stats.get .closed =
      UInt64.ofNat ((after settings now moves).countOf i fun k =>
        k.closed && k.closeReason == some .normal) +
      ((CloseReason.all.filterMap Counter.ofReason?).map
        ((after settings now moves).listener i).stats.get).sum := by
  have hsum := countOf_eq_sum (s := after settings now moves) (i := i) (p := (!·.counted))
    fun l k hk hc => by
      have hclosed : k.closed = true := by
        rw [counted_eq settings now moves hk, Bool.not_not] at hc
        exact hc
      exact (told settings now moves (stand?_of_link? hk)).closed.symm.trans hclosed
  have hnormal : (after settings now moves).countOf i
      (fun k => !k.counted && k.closeReason == some .normal) =
      (after settings now moves).countOf i fun k => k.closed && k.closeReason == some .normal := by
    refine countOf_congr fun l k hk => ?_
    rw [counted_eq settings now moves hk, Bool.not_not]
  have hreasons := sum_counters (x := ((after settings now moves).listener i).stats)
    (f := fun r => (after settings now moves).countOf i fun k =>
      !k.counted && k.closeReason == some r) CloseReason.all.tail fun r hr => by
      cases r <;> first
        | exact ⟨_, rfl, hb.reasons _ _ rfl⟩
        | exact absurd hr (by decide)
  rw [hb.closed, hsum]
  show UInt64.ofNat (_ + (CloseReason.all.tail.map _).sum) =
    _ + ((CloseReason.all.tail.filterMap Counter.ofReason?).map _).sum
  rw [UInt64.ofNat_add, hreasons]
  exact congrArg (UInt64.ofNat · + _) hnormal

/-- What was counted as suspended and not as woken are the links that sleep. -/
private theorem sum_suspends :
    ∑ l ∈ (after settings now moves).linksOf i,
        (countedIn l moves (create settings now)).count .suspends =
      ∑ l ∈ (after settings now moves).linksOf i,
        (countedIn l moves (create settings now)).count .wakes +
      (((after settings now moves).linksOf i).filter fun l =>
        (countedIn l moves (create settings now)).getLast? = some .suspends).card := by
  rw [Finset.card_filter, ← Finset.sum_add_distrib]
  refine Finset.sum_congr rfl fun l hl => ?_
  obtain ⟨k, hk, -⟩ := mem_linksOf.1 hl
  exact ((dozes settings now moves).1 _ (stand?_of_link? hk)).count

/-- **The accounts of every listener balance at every moment of every run.** -/
theorem accounts_balance (hi : i < (after settings now moves).listeners.length) :
    (after settings now moves).Balanced i (offeredIn i moves (create settings now)).length
      fun l => countedIn l moves (create settings now) := by
  have hledger := (ledger settings now moves).1 hi
  have hb := (audited settings now moves).books i hi
  have hactive : (after settings now moves).countOf i (·.counted) =
      ((after settings now moves).listener i).tracker.active := hb.active.symm
  have hdozes : ∀ l k, (after settings now moves).link? l = some k →
      Stand.Dozes (countedIn l moves (create settings now))
        ⟨k, (after settings now moves).entries l⟩ :=
    fun l k hk => (dozes settings now moves).1 _ (stand?_of_link? hk)
  refine
    { alive := ?_
      registered := (length_registry settings now moves hb).trans hactive
      notClosed := ?_
      limit := hledger.limit
      links := hledger.accepted
      offered := hledger.offered
      taken := ?_
      returned := ?_
      reasons := closed_eq_sum settings now moves hb
      requests := hledger.requests
      turns := fun l hl => ?_
      suspended := fun l k hk _ hc => (hdozes l k hk).suspended hc
      counted := hledger.turns
      asleep := ?_ }
  · rw [hledger.accepted, hb.closed, card_linksOf, ofNat_add_sub, hactive]
  · rw [← hactive]
    refine countOf_congr fun l k hk => ?_
    rw [counted_eq settings now moves hk]
  · rw [hledger.taken, hledger.accepted]
  · rw [hb.buffers, hb.closed]
  · obtain ⟨k, hk, -⟩ := mem_linksOf.1 hl
    exact (hdozes l k hk).alternates
  · rw [hledger.turns .suspends (.inl rfl), hledger.turns .wakes (.inr rfl), sum_suspends,
      ofNat_add_sub]

/-- The request of a link that was closed while it was suspended was never woken. -/
theorem accounts_balance_closedWhileSuspended :
    let s := after {} 0 closedWhileSuspended
    0 < s.listeners.length ∧ (s.listener 0).tracker.active = 0 ∧
      (s.listener 0).stats.get .closed = 1 ∧ (s.listener 0).stats.get .requests = 1 ∧
      (s.listener 0).stats.get .suspends - (s.listener 0).stats.get .wakes = 1 := by
  have hlistener : 0 < (after {} 0 closedWhileSuspended).listeners.length := by decide
  have h := accounts_balance {} 0 closedWhileSuspended hlistener
  have hactive : ((after {} 0 closedWhileSuspended).listener 0).tracker.active = 0 := by
    rw [← h.notClosed]
    decide
  refine ⟨hlistener, hactive, ?_, ?_, ?_⟩
  · rw [h.returned.symm]
    decide
  · rw [h.requests]
    decide
  · rw [h.asleep]
    decide

end LinkEngine.Engine

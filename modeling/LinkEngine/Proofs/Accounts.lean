import LinkEngine.Proofs.Growth
import LinkEngine.Proofs.Settled

/-!
# The accounts of a listener

A listener keeps accounts of its links: how many closed and for which reasons,
how many are alive, which of them are registered, how many pairs of buffers came
back. They are right at every moment of every run (`audited`): each link that was
given back is in the accounts once, under the reason it closed for, and each one
that was not is alive and registered. Only the end of a teardown and the start of
a new link move the accounts; whatever else happens leaves them as they are
(`Agree`).
-/

namespace LinkEngine

open Connection (CloseReason Counter Stats)

/-! ## What accounts go by -/

/-- What the accounts of a listener see of a link: whose it is, whether it was
given back, and for which reason it closed if it was. -/
def Link.account (k : Link) : Nat × Bool × Option CloseReason :=
  (k.listener, k.counted, if k.counted then none else k.closeReason)

/-- The accounts see the same of two links, and what was closed stays closed. -/
structure Link.Kin (k k' : Link) : Prop where
  account : k'.account = k.account
  closed : k.closed = true → k'.closed = true

/-- The accounts of two listeners are the same. -/
structure Listener.Kept (x y : Listener) : Prop where
  stats : ∀ c : Counter, c.isOfClose = true → y.stats.get c = x.stats.get c
  active : y.tracker.active = x.tracker.active
  returns : y.buffers.returns = x.buffers.returns
  discards : y.buffers.discards = x.buffers.discards
  registry : y.registry = x.registry

namespace Link

variable {k k' k'' : Link}

theorem Kin.refl (k : Link) : k.Kin k := ⟨rfl, id⟩

theorem Kin.trans (h₁ : k.Kin k') (h₂ : k'.Kin k'') : k.Kin k'' :=
  ⟨h₂.account.trans h₁.account, fun h => h₂.closed (h₁.closed h)⟩

theorem Kin.listener (h : k.Kin k') : k'.listener = k.listener := congrArg Prod.fst h.account

theorem Kin.counted (h : k.Kin k') : k'.counted = k.counted := congrArg (·.2.1) h.account

/-- Links that look the same in every respect the accounts go by are kin. -/
theorem Kin.of (hl : k'.listener = k.listener) (hn : k'.counted = k.counted)
    (hr : k'.closeReason = k.closeReason) (hc : k'.closed = k.closed) : k.Kin k' := by
  refine ⟨?_, fun h => hc.trans h⟩
  unfold Link.account
  rw [hl, hn, hr]

theorem Touched.kin (h : k.Touched k') : k.Kin k' :=
  .of (congrArg Prod.fst h.owner) h.settled.counted h.closeReason h.closed

theorem Handed.kin (h : k.Handed k') : k.Kin k' :=
  .of (congrArg Prod.fst h.owner) h.settled.counted h.closeReason h.closed

theorem Seized.kin {reason : CloseReason} (h : k.Seized reason k') : k.Kin k' :=
  .of (congrArg Prod.fst h.owner) h.settled.counted h.settled.closeReason h.settled.closed

theorem Own.kin (h : k.Own k') : k.Kin k' :=
  .of (congrArg (·.1) h.frame) (congrArg (·.2.2.2.2.1) h.frame)
    (congrArg (·.2.2.2.1) h.frame) (congrArg (·.2.2.1) h.frame)

/-- While a link was not given back, the accounts do not ask for its reason. -/
theorem Kin.marked (hn : k.counted = true) (reason : CloseReason) : k.Kin (k.marked reason) := by
  obtain ⟨-, hcounted, -⟩ := marked_fields k reason
  refine ⟨?_, fun _ => closed_marked k reason⟩
  unfold Link.account
  rw [hcounted, hn, show (k.marked reason).listener = k.listener from
    congrArg Prod.fst (owner_marked k reason)]
  rfl

end Link

/-! ## What is counted of a closed link -/

theorem Connection.Counter.isOfClose_of_reason {r : CloseReason} {c : Counter}
    (hc : Counter.ofReason? r = some c) : c.isOfClose = true := by
  cases r <;> cases hc <;> rfl

theorem Connection.Stats.get_recordClose_closed (x : Stats) (reason : CloseReason) :
    (x.recordClose reason).get .closed = x.get .closed + 1 := by
  cases reason <;> rfl

/-- A closed link counts under its own reason and no other. -/
theorem Connection.Stats.get_recordClose (x : Stats) (reason : CloseReason) {r : CloseReason}
    {c : Counter} (hc : Counter.ofReason? r = some c) :
    (x.recordClose reason).get c = if reason = r then x.get c + 1 else x.get c := by
  cases reason <;> cases r <;> cases hc <;> rfl

/-- A pair of buffers that comes back is kept or dropped. -/
theorem Stream.BufferPool.returns_release (p : BufferPool) (b : Buffers) :
    (p.release b).2.returns + (p.release b).2.discards = p.returns + p.discards + 1 := by
  unfold release
  split
  · rfl
  · exact Nat.succ_add ..

namespace Listener

theorem Kept.refl (x : Listener) : x.Kept x := ⟨fun _ _ => rfl, rfl, rfl, rfl, rfl⟩

theorem Kept.trans {x y z : Listener} (h₁ : x.Kept y) (h₂ : y.Kept z) : x.Kept z where
  stats c hc := (h₂.stats c hc).trans (h₁.stats c hc)
  active := h₂.active.trans h₁.active
  returns := h₂.returns.trans h₁.returns
  discards := h₂.discards.trans h₁.discards
  registry := h₂.registry.trans h₁.registry

theorem Tended.kept {f : Listener → Listener} (h : Tended f) (x : Listener) : x.Kept (f x) := by
  cases h with
  | trim | watch => exact ⟨fun _ _ => rfl, rfl, rfl, rfl, rfl⟩
  | extend more =>
    dsimp only
    split <;> exact ⟨fun _ _ => rfl, rfl, rfl, rfl, rfl⟩

/-- What is counted of open links is in other counters. -/
theorem Kept.noted {f : Stats → Stats} (h : Stats.Noted f) (x : Listener) :
    x.Kept { x with stats := f x.stats } := by
  refine ⟨?_, rfl, rfl, rfl, rfl⟩
  intro c hc
  cases h with
  | @record d hd =>
    show (x.stats.add d 1).get c = x.stats.get c
    rw [Stats.get_add, if_neg]
    rintro rfl
    rw [hc] at hd
    cases hd
  | bytes read written =>
    show ((x.stats.add .bytesRead _).add .bytesWritten _).get c = x.stats.get c
    rw [Stats.get_add, if_neg, Stats.get_add, if_neg]
    · rintro rfl
      revert hc
      decide
    · rintro rfl
      revert hc
      decide

end Listener

namespace Engine

variable {s t u : Engine} {i l : Nat} {k k' : Link} {reason : CloseReason} {joins : Nat → Nat}

/-- A listener that is added leaves those before as they are. -/
theorem listener_append_of_lt (hi : i < s.listeners.length) (x : Listener) :
    listener { s with listeners := s.listeners ++ [x] } i = s.listener i := by
  unfold listener
  rw [List.getD_eq_getElem?_getD, List.getD_eq_getElem?_getD, List.getElem?_append_left hi]

theorem listener_append_self (s : Engine) (x : Listener) :
    listener { s with listeners := s.listeners ++ [x] } s.listeners.length = x := by
  unfold listener
  simp [List.getD_eq_getElem?_getD]

/-- Two engines whose accounts go by the same and are the same. -/
structure Agree (s t : Engine) : Prop where
  links : ∀ l, Option.Rel Link.Kin (s.link? l) (t.link? l)
  counts : ∀ p : Nat × Bool × Option CloseReason → Bool,
    t.links.countP (fun k => p k.account) = s.links.countP (fun k => p k.account)
  length : t.listeners.length = s.listeners.length
  listeners : ∀ i, (s.listener i).Kept (t.listener i)

namespace Agree

theorem refl (s : Engine) : Agree s s := by
  refine ⟨?_, fun _ => rfl, rfl, fun i => .refl _⟩
  intro l
  cases s.link? l with
  | none => exact .none
  | some k => exact .some (.refl k)

/-- Accounts do not go by the pool, the timers and what else there is. -/
theorem same (hs : t.slots = s.slots) (hl : t.listeners = s.listeners) : Agree s t := by
  have hlinks : ∀ l, t.link? l = s.link? l := fun l => by
    unfold link?
    rw [hs]
  refine ⟨?_, ?_, congrArg _ hl, ?_⟩
  · intro l
    rw [hlinks]
    exact (refl s).links l
  · intro p
    unfold Engine.links
    rw [hs]
  · intro i
    unfold Engine.listener
    rw [hl]
    exact .refl _

theorem setLink (hk : s.link? l = some k) (h : k.Kin k') : Agree s (s.setLink l k') := by
  refine ⟨?_, ?_, rfl, fun i => .refl _⟩
  · intro m
    by_cases hm : m = l
    · subst hm
      rw [link?_setLink_self hk, hk]
      exact .some h
    · rw [link?_setLink_ne hm]
      exact (refl s).links m
  · intro p
    have := countP_links_setLink (fun k => p k.account) hk k'
    rw [h.account] at this
    exact Nat.add_right_cancel this

theorem listener (i : Nat) {f : Listener → Listener} (h : ∀ x : Listener, x.Kept (f x)) :
    Agree s (s.modifyListener i f) := by
  refine ⟨(refl s).links, fun _ => rfl, List.length_modify .., ?_⟩
  intro j
  by_cases hj : j = i
  · subst hj
    by_cases hlt : j < s.listeners.length
    · rw [listener_modifyListener_self hlt]
      exact h _
    · unfold Engine.listener modifyListener
      rw [List.modify_eq_self (Nat.le_of_not_lt hlt)]
      exact .refl _
  · rw [listener_modifyListener_ne hj]
    exact .refl _

theorem trans (h₁ : Agree s t) (h₂ : Agree t u) : Agree s u where
  links l := by
    have hst := h₁.links l
    have htu := h₂.links l
    generalize s.link? l = a at *
    generalize t.link? l = b at *
    generalize u.link? l = c at *
    cases hst with
    | none => exact htu
    | some h =>
      cases htu with
      | some h' => exact .some (h.trans h')
  counts p := (h₂.counts p).trans (h₁.counts p)
  length := h₂.length.trans h₁.length
  listeners i := (h₁.listeners i).trans (h₂.listeners i)

/-- Where a link was written to and no listener. -/
theorem written (hk : s.link? l = some k) (hs : t.slots = (s.setLink l k').slots)
    (hl : t.listeners = s.listeners) (h : k.Kin k') : Agree s t :=
  (setLink hk h).trans (.same hs hl)

/-- A link that is there afterwards was there before. -/
theorem link?_of (h : Agree s t) (hk : t.link? l = some k') :
    ∃ k, s.link? l = some k ∧ k.Kin k' := by
  have := h.links l
  rw [hk] at this
  generalize s.link? l = a at *
  cases this with
  | some hkin => exact ⟨_, rfl, hkin⟩

/-- A link that was there stays. -/
theorem link?_to (h : Agree s t) (hk : s.link? l = some k) :
    ∃ k', t.link? l = some k' ∧ k.Kin k' := by
  have := h.links l
  rw [hk] at this
  generalize t.link? l = b at *
  cases this with
  | some hkin => exact ⟨_, rfl, hkin⟩

end Agree

/-! ## Accounts -/

/-- How many links of a listener have a property. -/
def countOf (s : Engine) (i : Nat) (p : Link → Bool) : Nat :=
  s.links.countP fun k => k.listener == i && p k

/-- Where no link of a listener has a property, none is counted. -/
theorem countOf_eq_zero {p : Link → Bool}
    (h : ∀ l k, s.link? l = some k → k.listener = i → p k = false) : s.countOf i p = 0 := by
  refine List.countP_eq_zero.2 fun k hk => ?_
  obtain ⟨l, hk⟩ := mem_links.1 hk
  rw [Bool.and_eq_true, beq_iff_eq]
  rintro ⟨hlistener, hp⟩
  exact absurd ((h l k hk hlistener).symm.trans hp) Bool.false_ne_true

/-- The accounts of listener `i` are right, while `joining` connections are about to
become links of it. -/
structure Books (s : Engine) (i joining : Nat) : Prop where
  /-- Each link that was given back counts as closed. -/
  closed : (s.listener i).stats.get .closed = UInt64.ofNat (s.countOf i (!·.counted))
  /-- Each one counts under its reason, where that has a counter. -/
  reasons : ∀ r c, Counter.ofReason? r = some c → (s.listener i).stats.get c =
    UInt64.ofNat (s.countOf i fun k => !k.counted && k.closeReason == some r)
  /-- Its buffers came back, to be kept or dropped. -/
  buffers : (s.listener i).buffers.returns + (s.listener i).buffers.discards =
    s.countOf i (!·.counted)
  /-- The others are alive. -/
  active : (s.listener i).tracker.active = s.countOf i (·.counted) + joining
  nodup : (s.listener i).registry.Nodup
  /-- The others are registered. -/
  registered : ∀ l, l ∈ (s.listener i).registry ↔
    ∃ k, s.link? l = some k ∧ k.listener = i ∧ k.counted = true

/-- The accounts of all listeners are right. -/
structure Audited (s : Engine) (joins : Nat → Nat) : Prop where
  housed : ∀ l k, s.link? l = some k → k.listener < s.listeners.length
  /-- A link that is open was not given back. -/
  counted : ∀ l k, s.link? l = some k → k.closed = false → k.counted = true
  books : ∀ i, i < s.listeners.length → s.Books i (joins i)

private theorem countOf_agree (h : Agree s t) (i : Nat) {p : Link → Bool}
    (q : Nat × Bool × Option CloseReason → Bool) (hq : ∀ k : Link, p k = q k.account) :
    t.countOf i p = s.countOf i p := by
  have := h.counts fun a => a.1 == i && q a
  unfold countOf
  simp only [hq]
  exact this

theorem Books.agree {joining : Nat} (hb : s.Books i joining) (h : Agree s t) :
    t.Books i joining := by
  have hx := h.listeners i
  have hclosed := countOf_agree h i (p := (!·.counted)) (fun a => !a.2.1) fun k => rfl
  have hactive := countOf_agree h i (p := (·.counted)) (fun a => a.2.1) fun k => rfl
  -- Both sides of each account are the same before and after.
  refine ⟨?_, ?_, ?_, ?_, hx.registry ▸ hb.nodup, ?_⟩
  · rw [hx.stats .closed (by decide), hb.closed, hclosed]
  · intro r c hc
    have hreason := countOf_agree h i (p := fun k => !k.counted && k.closeReason == some r)
      (fun a => !a.2.1 && a.2.2 == some r) fun k => by
        unfold Link.account
        cases hn : k.counted <;> rfl
    rw [hx.stats c (Counter.isOfClose_of_reason hc), hb.reasons r c hc, hreason]
  · rw [hx.returns, hx.discards, hb.buffers, hclosed]
  · rw [hx.active, hb.active, hactive]
  · intro l
    rw [hx.registry, hb.registered]
    constructor
    · rintro ⟨k, hk, hl, hn⟩
      obtain ⟨k', hk', hkin⟩ := h.link?_to hk
      exact ⟨k', hk', hkin.listener.trans hl, hkin.counted.trans hn⟩
    · rintro ⟨k', hk', hl, hn⟩
      obtain ⟨k, hk, hkin⟩ := h.link?_of hk'
      exact ⟨k, hk, hkin.listener.symm.trans hl, hkin.counted.symm.trans hn⟩

theorem Audited.agree (ha : s.Audited joins) (h : Agree s t) : t.Audited joins := by
  refine ⟨?_, ?_, ?_⟩
  · intro l k' hk'
    obtain ⟨k, hk, hkin⟩ := h.link?_of hk'
    rw [h.length, hkin.listener]
    exact ha.housed l k hk
  · intro l k' hk' hc
    obtain ⟨k, hk, hkin⟩ := h.link?_of hk'
    -- A link that is open now was open before.
    refine hkin.counted.trans (ha.counted l k hk ?_)
    cases hclosed : k.closed with
    | false => rfl
    | true => rw [hkin.closed hclosed] at hc; cases hc
  · intro i hi
    rw [h.length] at hi
    exact (ha.books i hi).agree h

/-! ## The end of a teardown -/

private theorem countOf_setLink (hk : s.link? l = some k) (i : Nat) (p : Link → Bool)
    (k' : Link) : (s.setLink l k').countOf i p + (if k.listener == i && p k then 1 else 0) =
      s.countOf i p + (if k'.listener == i && p k' then 1 else 0) :=
  countP_links_setLink _ hk k'

/-- Giving back a link does not concern the accounts of other listeners. -/
private theorem Books.giveBack_ne {joining : Nat} (hb : s.Books i joining)
    (hk : s.link? l = some k) (hi : i ≠ k.listener) : (giveBack l reason s).Books i joining := by
  have hl : (k.listener == i) = false := by simpa using fun h => hi h.symm
  have hcount : ∀ p, (giveBack l reason s).countOf i p = s.countOf i p := by
    intro p
    have := countOf_setLink hk i p k.gone
    rw [show k.gone.listener = k.listener from rfl, hl] at this
    rw [giveBack_eq hk]
    exact this
  have hx : (giveBack l reason s).listener i = s.listener i := by
    rw [giveBack_eq hk, listener_modifyListener_ne hi]
    rfl
  refine ⟨?_, ?_, ?_, ?_, hx ▸ hb.nodup, ?_⟩
  · rw [hx, hcount, hb.closed]
  · intro r c hc
    rw [hx, hcount, hb.reasons r c hc]
  · rw [hx, hcount, hb.buffers]
  · rw [hx, hcount, hb.active]
  · intro m
    rw [hx, hb.registered, giveBack_eq hk, link?_modifyListener]
    -- The link is registered elsewhere, if at all.
    by_cases hm : m = l
    · subst hm
      rw [link?_setLink_self hk, hk]
      constructor <;>
      · rintro ⟨k', hk', hl', -⟩
        cases hk'
        exact absurd hl'.symm hi
    · rw [link?_setLink_ne hm]

/-- **A link that is given back moves the accounts of its listener by one.** -/
private theorem Books.giveBack_self {joining : Nat} (hb : s.Books k.listener joining)
    (hk : s.link? l = some k) (hi : k.listener < s.listeners.length) (hn : k.counted = true)
    (hr : k.closeReason = some reason) : (giveBack l reason s).Books k.listener joining := by
  have hcount : ∀ p, (giveBack l reason s).countOf k.listener p + (if p k then 1 else 0) =
      s.countOf k.listener p + (if p k.gone then 1 else 0) := by
    intro p
    have := countOf_setLink hk k.listener p k.gone
    rw [show k.gone.listener = k.listener from rfl, beq_self_eq_true, Bool.true_and,
      Bool.true_and] at this
    rw [giveBack_eq hk]
    exact this
  have hx : (giveBack l reason s).listener k.listener =
      (s.listener k.listener).released l k.stream.close.2.takeBuffers.1 reason := by
    rw [giveBack_eq hk]
    exact listener_modifyListener_self (s := s.setLink l k.gone) hi _
  have hclosed : (giveBack l reason s).countOf k.listener (!·.counted) =
      s.countOf k.listener (!·.counted) + 1 := by
    have := hcount (!·.counted)
    rw [hn] at this
    exact this
  -- The listener counts one more as closed, and in each account one link moves over.
  refine ⟨?_, ?_, ?_, ?_, ?_, ?_⟩
  · rw [hx, hclosed, UInt64.ofNat_add, ← hb.closed]
    exact Stats.get_recordClose_closed _ _
  · intro r c hc
    have hreason : (giveBack l reason s).countOf k.listener
        (fun k => !k.counted && k.closeReason == some r) =
        s.countOf k.listener (fun k => !k.counted && k.closeReason == some r) +
          (if reason = r then 1 else 0) := by
      have := hcount fun k => !k.counted && k.closeReason == some r
      simpa only [hn, hr, Link.gone, Bool.not_true, Bool.false_and, Bool.false_eq_true, if_false,
        Bool.not_false, Bool.true_and, beq_iff_eq, Option.some.injEq, Nat.add_zero] using this
    rw [hx, hreason]
    refine (Stats.get_recordClose _ reason hc).trans ?_
    rw [hb.reasons r c hc]
    split
    · exact (UInt64.ofNat_add _ _).symm
    · rfl
  · rw [hx, hclosed, ← hb.buffers]
    exact Stream.BufferPool.returns_release _ _
  · have hactive := hcount (·.counted)
    rw [hn] at hactive
    rw [hx]
    show (s.listener k.listener).tracker.active - 1 = _
    rw [hb.active]
    have hgone : k.gone.counted = false := rfl
    rw [hgone] at hactive
    simp only [if_true, Bool.false_eq_true, if_false] at hactive
    omega
  · rw [hx]
    exact hb.nodup.erase l
  · intro m
    rw [hx]
    show m ∈ (s.listener k.listener).registry.erase l ↔ _
    rw [hb.nodup.mem_erase_iff, hb.registered, giveBack_eq hk, link?_modifyListener]
    by_cases hm : m = l
    · subst hm
      rw [link?_setLink_self hk]
      constructor
      · exact fun h => absurd rfl h.1
      · rintro ⟨k', hk', -, hn'⟩
        cases hk'
        cases hn'
    · rw [link?_setLink_ne hm]
      exact and_iff_right hm

/-- The end of a teardown leaves the accounts right. -/
theorem audited_giveBack (ha : s.Audited joins) (hk : s.link? l = some k) (hc : k.closed = true)
    (hn : k.counted = true) (hr : k.closeReason = some reason) :
    (giveBack l reason s).Audited joins := by
  -- No link is opened, and none but this one is given back.
  have hlink : ∀ m k', (giveBack l reason s).link? m = some k' →
      ∃ k, s.link? m = some k ∧ k'.listener = k.listener ∧
        (k'.closed = false → k.closed = false ∧ k'.counted = k.counted) := by
    intro m k' hk'
    rw [giveBack_eq hk, link?_modifyListener] at hk'
    by_cases hm : m = l
    · subst hm
      rw [link?_setLink_self hk] at hk'
      cases hk'
      refine ⟨k, hk, rfl, ?_⟩
      intro hc'
      rw [show k.gone.closed = k.closed from rfl, hc] at hc'
      cases hc'
    · rw [link?_setLink_ne hm] at hk'
      exact ⟨k', hk', rfl, fun h => ⟨h, rfl⟩⟩
  have hlength := length_giveBack l reason s
  refine ⟨?_, ?_, ?_⟩
  · intro m k' hk'
    obtain ⟨k, hk, hl, -⟩ := hlink m k' hk'
    rw [hl, hlength]
    exact ha.housed m k hk
  · intro m k' hk' hc'
    obtain ⟨k, hk, -, hopen⟩ := hlink m k' hk'
    obtain ⟨hc, hn⟩ := hopen hc'
    exact hn.trans (ha.counted m k hk hc)
  · intro i hi
    rw [hlength] at hi
    by_cases hil : i = k.listener
    · subst hil
      exact (ha.books _ hi).giveBack_self hk hi hn hr
    · exact (ha.books i hi).giveBack_ne hk hil

/-! ## Courses and tasks -/

/-- Accounts do not go by sockets. -/
private theorem agree_modifySocket (s : Engine) (l : Nat)
    (f : Socket.Endpoint Operation → Socket.Endpoint Operation) : Agree s (s.modifySocket l f) := by
  refine ⟨?_, fun p => countP_links_modifySocket (fun k => rfl) s l, rfl,
    fun i => .refl _⟩
  intro m
  rw [link?_modifySocket]
  split
  · cases s.link? m with
    | none => exact .none
    | some k => exact .some (.of rfl rfl rfl rfl)
  · exact (Agree.refl s).links m

theorem Change.agree (h : Change s t) : Agree s t := by
  cases h with
  | listener i hf => exact .listener i hf.kept
  | socket l hf => exact agree_modifySocket s l _
  | touched hk h => exact .setLink hk h.kin
  | handed hk h => exact (Agree.setLink hk h.kin).trans (.same rfl rfl)
  | _ => exact .same rfl rfl

theorem Halt.agree {done : Engine → Prop} (h : Halt s t done) : Agree s t := by
  cases h with
  | listener i =>
    have hhalted : Agree s (s.modifyListener i Listener.halted) :=
      .listener i fun x => ⟨fun _ _ => rfl, rfl, rfl, rfl, rfl⟩
    exact hhalted.trans (.same rfl rfl)
  | all => exact .same rfl rfl

/-- The beginning of a teardown of a link that was not given back leaves the accounts
as they are. -/
private theorem agree_beginTearDown (hk : s.link? l = some k) (hn : k.counted = true)
    (reason : CloseReason) : Agree s (beginTearDown l reason s) := by
  rw [beginTearDown_eq hk]
  exact (Agree.setLink hk (.marked hn reason)).trans (.same rfl rfl)

/-- When the close hook of a link is over, the link still is to be given back. -/
private theorem hooked_link (hk : s.link? l = some k)
    (hook : Course (beginTearDown l reason s) t) :
    ∃ k', t.link? l = some k' ∧ k'.closed = true ∧ k'.counted = k.counted ∧
      k'.closeReason = some reason := by
  obtain ⟨w, hw, hvw⟩ := hook.stand (stand?_beginTearDown_self (stand?_of_link? hk) reason)
  have hsettled := hvw.settled (Link.closed_marked k reason)
  obtain ⟨hr, hn, -⟩ := Link.marked_fields k reason
  exact ⟨w.link, (stand?_eq_some.1 hw).1, hsettled.closed.trans (Link.closed_marked k reason),
    hsettled.counted.trans hn, hsettled.closeReason.trans hr⟩

theorem audited_beginTearDown (ha : s.Audited joins) (hk : s.link? l = some k)
    (hc : k.closed = false) (reason : CloseReason) : (beginTearDown l reason s).Audited joins :=
  ha.agree (agree_beginTearDown hk (ha.counted l k hk hc) reason)

/-- The close hook of a link may tear down others; the link itself is still to be given back
after it. -/
theorem audited_hooked (ha : s.Audited joins) (hk : s.link? l = some k) (hc : k.closed = false)
    (hook : Course (beginTearDown l reason s) t) (ht : t.Audited joins) :
    (giveBack l reason t).Audited joins := by
  obtain ⟨x, hx, hc', hcounted, hr⟩ := hooked_link hk hook
  exact audited_giveBack ht hx hc' (hcounted.trans (ha.counted l k hk hc)) hr

theorem Course.audited (h : Course s t) (ha : s.Audited joins) : t.Audited joins := by
  induction h with
  | refl => exact ha
  | change h _ ih => exact ih (ha.agree h.agree)
  | halt h _ _ _ ihinner ihrest => exact ihrest (ihinner (ha.agree h.agree))
  | @teardown s t u l k k' reason hk h hook _ ihhook ihrest =>
    have hset := ha.agree (.setLink hk h.kin)
    have hk' := link?_setLink_self hk k'
    have hbegun := audited_beginTearDown hset hk' h.open.2 reason
    exact ihrest (audited_hooked hset hk' h.open.2 hook (ihhook hbegun))

theorem TornDown.audited (h : TornDown l reason s t) (ha : s.Audited joins) :
    t.Audited joins := by
  cases h with
  | absent | before => exact ha
  | now hk hc hook =>
    exact audited_hooked ha hk hc hook (hook.audited (audited_beginTearDown ha hk hc reason))

private theorem agree_arm (l : Nat) (delay : Time.Duration) (s : Engine) :
    Agree s (s.arm l delay).2 := by
  cases hk : s.link? l with
  | none =>
    rw [arm_of_none hk]
    exact .refl s
  | some k =>
    rw [arm_eq hk]
    split <;> exact .written hk rfl rfl (.of rfl rfl rfl rfl)

private theorem agree_disarm (l : Nat) (s : Engine) : Agree s (s.disarm l) := by
  cases hk : s.link? l with
  | none =>
    rw [disarm_of_none hk]
    exact .refl s
  | some k =>
    rw [disarm_eq hk]
    exact .written hk rfl rfl (Link.Own.disarmed k).kin

theorem Work.audited (h : Work l s t) (ha : s.Audited joins) : t.Audited joins := by
  induction h with
  | refl => exact ha
  | course h _ ih => exact ih (h.audited ha)
  | own hk h _ _ ih => exact ih (ha.agree (.setLink hk h.kin))
  | armed delay _ ih => exact ih (ha.agree (agree_arm _ delay _))
  | disarmed _ ih => exact ih (ha.agree (agree_disarm _ _))
  | stats i h _ ih => exact ih (ha.agree (.listener i (.noted h)))
  | handle _ _ _ ih => exact ih (ha.agree (.same rfl rfl))

theorem Drove.audited (h : Drove l s t) (ha : s.Audited joins) : t.Audited joins := by
  cases h with
  | work h => exact h.audited ha
  | torn h ht h' => exact h'.audited (ht.audited (h.audited ha))

theorem Begun.audited {place : Nat} (h : Begun place s t) (ha : s.Audited joins) :
    t.Audited joins := by
  cases h with
  | nothing => exact ha
  | taken ht hk hd h => exact h.audited (ha.agree (.same rfl rfl))

/-! ## Listeners and new links -/

/-- The accounts of a listener go by it and by the slots alone. -/
private theorem Books.congr {joining : Nat} (hb : s.Books i joining) (hs : t.slots = s.slots)
    (hx : t.listener i = s.listener i) : t.Books i joining := by
  have hcount : ∀ p, t.countOf i p = s.countOf i p := fun p => by
    unfold countOf links
    rw [hs]
  have hlinks : ∀ l, t.link? l = s.link? l := fun l => by
    unfold link?
    rw [hs]
  refine ⟨?_, ?_, ?_, ?_, hx ▸ hb.nodup, ?_⟩
  · rw [hx, hcount, hb.closed]
  · intro r c hc
    rw [hx, hcount, hb.reasons r c hc]
  · rw [hx, hcount, hb.buffers]
  · rw [hx, hcount, hb.active]
  · intro l
    rw [hx, hb.registered, hlinks]

/-- A listener without links has nothing in its accounts. -/
private theorem Books.fresh {x : Listener} (hx : s.listener i = x) (hf : x.Fresh)
    (hn : ∀ l k, s.link? l = some k → k.listener ≠ i) : s.Books i 0 := by
  -- No link can be one of a listener that was not there yet.
  have hcount : ∀ p, s.countOf i p = 0 := fun p =>
    countOf_eq_zero fun l k hk hlistener => absurd hlistener (hn l k hk)
  refine ⟨?_, ?_, ?_, ?_, ?_, ?_⟩
  · rw [hcount, hx, hf.stats]
    rfl
  · intro r c hc
    rw [hcount, hx, hf.stats]
    cases c <;> rfl
  · rw [hcount, hx, hf.pool.1, hf.pool.2]
  · rw [hcount, hx, hf.tracker]
  · rw [hx, hf.registry]
    exact .nil
  · intro l
    rw [hx, hf.registry]
    constructor
    · intro h
      cases h
    · rintro ⟨k, hk, hl, -⟩
      exact absurd hl (hn l k hk)

/-- A new listener comes with right accounts. -/
theorem audited_addListener (ha : s.Audited fun _ => 0) {x : Listener} (hx : x.Fresh) :
    Audited { s with listeners := s.listeners ++ [x] } fun _ => 0 := by
  refine ⟨?_, ha.counted, ?_⟩
  · intro l k hk
    have := ha.housed l k hk
    rw [List.length_append]
    exact Nat.lt_add_right _ this
  · intro i hi
    rw [List.length_append, List.length_singleton] at hi
    rcases Nat.lt_succ_iff_lt_or_eq.1 hi with hi | rfl
    · exact (ha.books i hi).congr rfl (listener_append_of_lt hi x)
    · exact Books.fresh (listener_append_self s x) hx fun l k hk => Nat.ne_of_lt (ha.housed l k hk)

theorem Builds.audited (h : Builds s t) (ha : s.Audited fun _ => 0) : t.Audited fun _ => 0 := by
  cases h with
  | refused => exact ha
  | unqueued => exact ha.agree (.same rfl rfl)
  | built _ _ hf _ _ h' _ =>
    exact h'.audited (audited_addListener (s := s.withHousekeeping _) (ha.agree (.same rfl rfl)) hf)

private theorem Starts.audited (h : Starts l s t) (ha : s.Audited joins) : t.Audited joins := by
  have hset : ∀ {k}, s.link? l = some k →
      (s.setLink l { k with request := .request }).Audited joins :=
    fun hk => ha.agree (.setLink hk (.of rfl rfl rfl rfl))
  cases h with
  | queued hk => exact (hset hk).agree (.same rfl rfl)
  | @refused k t hk h =>
    have ht := h.audited (hset hk)
    cases hk' : t.link? l with
    | none =>
      rw [modifyLink_of_none hk']
      exact ht
    | some k' =>
      rw [modifyLink_eq_setLink hk']
      exact ht.agree (.setLink hk' (.of rfl rfl rfl rfl))

/-- A slot without a link is in no accounts. -/
theorem agree_addSlot (s : Engine) (socket : Socket.Endpoint Operation) :
    Agree s (s.addSlot socket) := by
  refine ⟨?_, ?_, rfl, fun i => .refl _⟩
  · intro l
    rw [link?_addSlot]
    exact (Agree.refl s).links l
  · intro p
    unfold links addSlot
    rw [List.filterMap_append]
    exact congrArg _ (List.append_nil _)

/-- A connection is about to become a link of listener `i`. -/
def joining (i : Nat) : Nat → Nat := fun j => if j = i then 1 else 0

/-- A connection that is let in is about to become a link. -/
theorem audited_join (ha : s.Audited fun _ => 0) {tracker : Shutdown.Tracker} {limit : Nat}
    (hj : (s.listener i).tracker.join? limit = some tracker) :
    (s.modifyListener i fun x => { x with tracker }).Audited (joining i) := by
  have hactive := (Shutdown.Tracker.active_of_join? hj).1
  have hlength : (s.modifyListener i fun x => { x with tracker }).listeners.length =
      s.listeners.length := List.length_modify ..
  refine ⟨fun l k hk => hlength ▸ ha.housed l k hk, ha.counted, fun j hlt => ?_⟩
  · rw [hlength] at hlt
    have hb := ha.books j hlt
    by_cases hji : j = i
    · subst hji
      have hx := listener_modifyListener_self (s := s) hlt fun x => { x with tracker }
      refine ⟨?_, ?_, ?_, ?_, ?_, ?_⟩
      · rw [hx]
        exact hb.closed
      · intro r c hc
        rw [hx]
        exact hb.reasons r c hc
      · rw [hx]
        exact hb.buffers
      · rw [hx]
        unfold joining
        rw [if_pos rfl]
        exact hactive.trans (congrArg (· + 1) hb.active)
      · rw [hx]
        exact hb.nodup
      · intro l
        rw [hx]
        exact hb.registered l
    · unfold joining
      rw [if_neg hji]
      exact hb.congr rfl (listener_modifyListener_ne hji s _)

private theorem countP_set_link (p : Link → Bool) (k : Link) :
    ∀ (slots : List Slot) (l : Nat) (e : Socket.Endpoint Operation),
      slots[l]? = some (.turnedAway e) → ((slots.set l (.link k)).filterMap Slot.link?).countP p =
        (slots.filterMap Slot.link?).countP p + (if p k then 1 else 0)
  | [], l, e, h => by simp at h
  | slot :: slots, 0, e, h => by
    obtain rfl : slot = .turnedAway e := by simpa using h
    simp only [List.set_cons_zero, List.filterMap_cons, Slot.link?, List.countP_cons]
  | slot :: slots, l + 1, e, h => by
    have ih := countP_set_link p k slots l e (by simpa using h)
    rw [List.set_cons_succ]
    cases slot with
    | link k' =>
      simp only [List.filterMap_cons, Slot.link?, List.countP_cons]
      omega
    | turnedAway socket => simpa only [List.filterMap_cons, Slot.link?] using ih

private theorem acquire_same (p : Stream.BufferPool) :
    p.acquire.2.returns = p.returns ∧ p.acquire.2.discards = p.discards := by
  unfold Stream.BufferPool.acquire
  split <;> exact ⟨rfl, rfl⟩

/-! ## Links that are installed -/

section Install

variable {e : Socket.Endpoint Operation} (he : s.slots[l]? = some (.turnedAway e))
  (handler : Handler) (notes : List Link.Note)

include he

private theorem link?_of_turnedAway : s.link? l = none := by
  unfold link?
  rw [he]
  rfl

/-- A link that is installed counts wherever it has the property. -/
private theorem countOf_installLink (i j : Nat) (p : Link → Bool) :
    (installLink i l handler notes s).countOf j p = s.countOf j p + (if i == j &&
      p (.new i handler e (s.listener i).buffers.acquire.1 notes) then 1 else 0) := by
  rw [installLink_eq he]
  exact countP_set_link _ _ s.slots l e he

/-- What a link that is installed does not have, it does not add to. -/
private theorem countOf_installLink_of_not {i : Nat} {p : Link → Bool}
    (hp : p (.new i handler e (s.listener i).buffers.acquire.1 notes) = false) :
    (installLink i l handler notes s).countOf i p = s.countOf i p := by
  rw [countOf_installLink he, hp, Bool.and_false]
  rfl

private theorem listener_installLink_self (hi : i < s.listeners.length) :
    (installLink i l handler notes s).listener i = { s.listener i with
      buffers := (s.listener i).buffers.acquire.2
      registry := (s.listener i).listing.arrange ((s.listener i).registry ++ [l])
      stats := (s.listener i).stats.record .accepted } := by
  rw [installLink_eq he]
  exact listener_modifyListener_self (s := { s with slots := _ }) hi _

private theorem listener_installLink_ne {j : Nat} (hji : j ≠ i) :
    (installLink i l handler notes s).listener j = s.listener j := by
  rw [installLink_eq he]
  exact listener_modifyListener_ne hji _ _

/-- The registry of its listener lists the new link, each one once. -/
private theorem registry_installLink {b : Nat} (hi : i < s.listeners.length) (hb : s.Books i b) :
    ((installLink i l handler notes s).listener i).registry.Nodup ∧
      ∀ m, m ∈ ((installLink i l handler notes s).listener i).registry ↔
        m = l ∨ m ∈ (s.listener i).registry := by
  have hperm : ((installLink i l handler notes s).listener i).registry.Perm
      (l :: (s.listener i).registry) := by
    rw [listener_installLink_self he handler notes hi]
    exact ((s.listener i).listing.perm _).trans (List.perm_append_singleton ..)
  have hl : l ∉ (s.listener i).registry := by
    intro hmem
    obtain ⟨k, hk, -⟩ := (hb.registered l).1 hmem
    exact nomatch hk.symm.trans (link?_of_turnedAway he)
  exact ⟨hperm.nodup_iff.2 (List.nodup_cons.2 ⟨hl, hb.nodup⟩),
    fun m => hperm.mem_iff.trans List.mem_cons⟩

/-- The accounts of the listener that gets the link were one short before. -/
private theorem books_installLink_self (hi : i < s.listeners.length) (hb : s.Books i 1) :
    (installLink i l handler notes s).Books i 0 := by
  have hx := listener_installLink_self he handler notes hi
  obtain ⟨hnodup, hregistry⟩ := registry_installLink he handler notes hi hb
  have hstats : ∀ c : Counter, c.isOfClose = true →
      ((installLink i l handler notes s).listener i).stats.get c = (s.listener i).stats.get c :=
    hx ▸ (Listener.Kept.noted (.record rfl) (s.listener i)).stats
  obtain ⟨hreturns, hdiscards⟩ := acquire_same (s.listener i).buffers
  refine ⟨?_, ?_, ?_, ?_, hnodup, ?_⟩
  · rw [hstats .closed rfl, countOf_installLink_of_not he handler notes rfl]
    exact hb.closed
  · intro r c hc
    rw [hstats c (Counter.isOfClose_of_reason hc),
      countOf_installLink_of_not he handler notes rfl]
    exact hb.reasons r c hc
  · rw [hx, countOf_installLink_of_not he handler notes rfl]
    exact (congr (congrArg _ hreturns) hdiscards).trans hb.buffers
  · rw [hx, countOf_installLink he, beq_self_eq_true]
    exact hb.active
  · intro m
    rw [hregistry, hb.registered, link?_installLink he]
    by_cases hm : m = l
    · rw [if_pos hm]
      exact ⟨fun _ => ⟨_, rfl, rfl, rfl⟩, fun _ => .inl hm⟩
    · rw [if_neg hm]
      exact or_iff_right hm

/-- The accounts of the other listeners stay as they are. -/
private theorem books_installLink_ne {j : Nat} (hji : j ≠ i) (hb : s.Books j 0) :
    (installLink i l handler notes s).Books j 0 := by
  have hx := listener_installLink_ne he handler notes hji
  have hsame : ∀ p, (installLink i l handler notes s).countOf j p = s.countOf j p := by
    intro p
    have hij : (i == j) = false := beq_false_of_ne (Ne.symm hji)
    rw [countOf_installLink he, hij, Bool.false_and]
    rfl
  refine ⟨?_, ?_, ?_, ?_, hx ▸ hb.nodup, ?_⟩
  · rw [hx, hsame, hb.closed]
  · intro r c hc
    rw [hx, hsame, hb.reasons r c hc]
  · rw [hx, hsame, hb.buffers]
  · rw [hx, hsame, hb.active]
  · intro m
    rw [hx, hb.registered, link?_installLink he]
    by_cases hm : m = l
    · -- The new link is not one of this listener.
      subst hm
      rw [if_pos rfl, link?_of_turnedAway he]
      constructor
      · rintro ⟨k, hk, -⟩
        cases hk
      · rintro ⟨k, hk, hl, -⟩
        cases hk
        exact absurd hl.symm hji
    · rw [if_neg hm]

/-- **A connection that becomes a link is entered into the accounts of its listener.** -/
theorem audited_installLink (ha : s.Audited (joining i)) (hi : i < s.listeners.length) :
    (installLink i l handler notes s).Audited fun _ => 0 := by
  have hlink := link?_installLink he i handler notes
  have hlength : (installLink i l handler notes s).listeners.length = s.listeners.length := by
    rw [installLink_eq he]
    exact List.length_modify ..
  refine ⟨?_, ?_, ?_⟩
  · intro m k hk
    rw [hlength]
    rw [hlink] at hk
    split at hk
    · cases hk
      exact hi
    · exact ha.housed m k hk
  · intro m k hk hc
    rw [hlink] at hk
    split at hk
    · cases hk
      rfl
    · exact ha.counted m k hk hc
  · intro j hj
    have hb := ha.books j (hlength ▸ hj)
    unfold joining at hb
    split at hb
    · next hji =>
      subst hji
      exact books_installLink_self he handler notes hi hb
    · next hji => exact books_installLink_ne he handler notes hji hb

end Install

theorem Accepts.audited {arrival : Arrival} (h : Accepts i arrival s t)
    (hi : i < s.listeners.length) (ha : s.Audited fun _ => 0) : t.Audited fun _ => 0 := by
  have hslot := ha.agree (agree_addSlot s arrival.socket)
  cases h with
  | turnedAway => exact hslot.agree (.listener i (.noted (.record rfl)))
  | started hj make hn ask _ start =>
    have hjoined := make.audited (audited_join (s := s.addSlot arrival.socket) hslot hj)
    obtain ⟨e, he, -⟩ := make.turnedAway (slots_addSlot s arrival.socket)
    have hlt := make.length.symm ▸ (List.length_modify .. ▸ hi)
    exact start.audited (ask.audited (audited_installLink he _ _ hjoined hlt))

/-! ## Runs -/

variable (settings : Settings.Scheduler) (now : Nat)

/-- **The accounts of every listener are right at every moment of every run.** -/
theorem audited (moves : List Move) : (after settings now moves).Audited fun _ => 0 := by
  refine after_induction (P := fun s => s.Audited fun _ => 0) ?_ ?_ moves
  · refine ⟨?_, ?_, ?_⟩
    · intro l k hk
      cases hk
    · intro l k hk
      cases hk
    · intro i hi
      cases hi
  · intro m s hs
    cases move_moves m s with
    | course h => exact h.audited hs
    | built h => exact h.audited hs
    | accepted hi h => exact h.audited hi hs
    | begun h => exact h.audited hs
    | drove h => exact h.audited hs

/-- A listener that a move builds has no links yet. -/
theorem listener_ne_of_unbuilt {moves : List Move} (m : Move)
    (hi : (after settings now moves).listeners.length ≤ i)
    (hk : (move m (after settings now moves)).link? l = some k) : k.listener ≠ i := by
  rintro rfl
  refine absurd hi (Nat.not_le_of_lt ?_)
  cases hold : (after settings now moves).link? l with
  | none =>
    obtain ⟨j, arrival, -, hj, -, hstarted⟩ :=
      move_started (after_manned settings now moves) m hold (stand?_of_link? hk)
    exact hstarted.listener ▸ hj
  | some old =>
    obtain ⟨w, hw, hturn⟩ := move_turn (after_sole settings now moves) m (stand?_of_link? hold)
    obtain rfl : w.link = k := Option.some.inj ((stand?_eq_some.1 hw).1.symm.trans hk)
    rw [show w.link.listener = old.listener from congrArg Prod.fst hturn.owner]
    exact (audited settings now moves).housed l old hold

end Engine

end LinkEngine

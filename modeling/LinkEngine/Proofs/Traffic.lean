import LinkEngine.Proofs.Ledger
import Mathlib.Algebra.GroupWithZero.Nat

/-!
# What listeners count of the bytes

A listener counts the bytes that its links move, in either direction. It does so when a hook
returns or fails, by what the stream of the link counted meanwhile (`callHook_bills`); what a
hook moves that panics is counted by nobody, though the link goes on to be closed in good order.
A step of a task calls one hook at most, so it counts what its link moved by it, or nothing of
it (`stepLink_bills`), and nothing else that happens moves bytes or counts them. Hence at every
moment of every run a listener counted what its links moved, but for what they moved in steps
that panicked (`bytes_balance`); and those do occur (`panic_uncounted`).
-/

namespace LinkEngine

open Connection (CloseReason Counter Stats)
open Link (Ending Note Outcome Step Upgrades)

/-! ## Counters -/

theorem Connection.Stats.get_recordClose_counter (x : Stats) (reason : CloseReason)
    (d : Direction) : (x.recordClose reason).get d.counter = x.get d.counter := by
  cases d <;> cases reason <;> rfl

theorem Connection.Stats.get_recordBytes_counter (x : Stats) (n : Direction → Nat)
    (d : Direction) :
    (x.recordBytes (n .inward) (n .outward)).get d.counter =
      x.get d.counter + UInt64.ofNat (n d) := by
  cases d <;> rfl

theorem Connection.Stats.get_record_of_ne (x : Stats) {c : Counter} {d : Direction}
    (hc : c ≠ d.counter) : (x.record c).get d.counter = x.get d.counter := by
  show (x.add c 1).get _ = _
  rw [Stats.get_add, if_neg hc]

/-! ## Links -/

namespace Link

variable {k k' k'' : Link}

/-- The note tells that a hook panicked. -/
def Note.isPanic : Note → Bool
  | .ended _ .panicked => true
  | _ => false

/-- How many calls of its hooks panicked, the close hook aside. -/
def panics (k : Link) : Nat := k.calls.countP Note.isPanic

theorem panics_note (k : Link) (n : Note) :
    (k.note n).panics = k.panics + if n.isCall && n.isPanic then 1 else 0 := by
  unfold panics
  rw [calls_note, List.countP_append]
  cases n.isCall <;> cases hp : n.isPanic <;> simp [hp]

/-- It moved no bytes, and none of its hooks panicked. -/
structure Still (k k' : Link) : Prop where
  unmoved : k.Unmoved k'
  panics : k'.panics = k.panics

/-- It moved some bytes perhaps, and none of its hooks panicked. -/
structure Onward (k k' : Link) : Prop where
  listener : k'.listener = k.listener
  panics : k'.panics = k.panics
  moved : ∀ d, k.stream.moved d ≤ k'.stream.moved d

theorem Still.refl (k : Link) : k.Still k := ⟨.refl k, rfl⟩

theorem Still.trans (h₁ : k.Still k') (h₂ : k'.Still k'') : k.Still k'' :=
  ⟨h₁.unmoved.trans h₂.unmoved, h₂.panics.trans h₁.panics⟩

theorem Still.onward (h : k.Still k') : k.Onward k' :=
  ⟨h.unmoved.listener, h.panics, fun d => Nat.le_of_eq (h.unmoved.moved d).symm⟩

theorem Onward.trans (h₁ : k.Onward k') (h₂ : k'.Onward k'') : k.Onward k'' :=
  ⟨h₂.listener.trans h₁.listener, h₂.panics.trans h₁.panics,
    fun d => Nat.le_trans (h₁.moved d) (h₂.moved d)⟩

/-- What works on anything but the stream and the history. -/
theorem Still.of (hl : k'.listener = k.listener) (hh : k'.history = k.history)
    (hs : ∀ d, k'.stream.moved d = k.stream.moved d) : k.Still k' :=
  ⟨⟨hl, hs⟩, congrArg (fun h => (h.filter Note.isCall).countP Note.isPanic) hh⟩

theorem Silent.still (h : k.Silent k') (hu : k.Unmoved k') : k.Still k' :=
  ⟨hu, congrArg (·.countP Note.isPanic) h.calls⟩

theorem still_note (k : Link) {n : Note} (hn : (n.isCall && n.isPanic) = false) :
    k.Still (k.note n) := by
  refine ⟨.of rfl rfl, ?_⟩
  rw [panics_note, hn]
  rfl

/-- How many of the bytes that a link moved were counted: those of hooks that did not panic. -/
def billed (k k' : Link) (d : Direction) : Nat :=
  if k'.panics = k.panics then k'.stream.moved d - k.stream.moved d else 0

end Link

/-- The stream of a new link has moved nothing. -/
theorem Stand.Started.moved {i : Nat} {arrival : Engine.Arrival} {v : Stand}
    (h : Started i arrival v) (d : Direction) : v.link.stream.moved d = 0 := by
  have hnew : ∀ socket buffers notes,
      (Link.new i arrival.handler socket buffers notes).stream.moved d = 0 := fun _ _ _ => by
    cases d <;> rfl
  cases h with
  | queued _ _ h => exact (h.unmoved.moved d).trans (hnew _ _ _)
  | refused _ _ h ht => exact (ht.unmoved.moved d).trans ((h.unmoved.moved d).trans (hnew _ _ _))

namespace Engine

variable {s t u : Engine} {i l : Nat} {k k' : Link} {m : Move} {R : Link → Link → Prop}

/-! ## Times in which no bytes are counted -/

/-- The counters for bytes stay as they are. -/
def Unbilled (s t : Engine) : Prop :=
  ∀ i (d : Direction), (t.listener i).stats.get d.counter = (s.listener i).stats.get d.counter

theorem Unbilled.refl (s : Engine) : Unbilled s s := fun _ _ => rfl

theorem Unbilled.trans (h₁ : Unbilled s t) (h₂ : Unbilled t u) : Unbilled s u := fun i d =>
  (h₂ i d).trans (h₁ i d)

theorem Unbilled.same (h : t.listeners = s.listeners) : Unbilled s t := fun i d => by
  unfold Engine.listener
  rw [h]

theorem Unbilled.listener (j : Nat) {f : Listener → Listener}
    (h : ∀ x d, (f x).stats.get (Direction.counter d) = x.stats.get d.counter) :
    Unbilled s (s.modifyListener j f) := by
  intro i d
  rcases listener_modifyListener_cases s j i f with hi | ⟨-, -, hi⟩
  · rw [hi]
  · rw [hi]
    exact h _ d

theorem Unbilled.count (j : Nat) {c : Counter} (hc : ∀ d : Direction, c ≠ d.counter) :
    Unbilled s (s.count j c) :=
  .listener j fun x d => x.stats.get_record_of_ne (hc d)

private theorem Change.unbilled (h : Change s t) : Unbilled s t := by
  cases h with
  | listener j h =>
    refine .listener j fun x d => ?_
    cases h with
    | extend more =>
      dsimp only
      split <;> rfl
    | _ => rfl
  | _ => exact .same rfl

private theorem Halt.unbilled {done : Engine → Prop} (h : Halt s t done) : Unbilled s t := by
  cases h with
  | listener j => exact .trans (.listener j (f := Listener.halted) fun _ _ => rfl) (.same rfl)
  | all => exact .same rfl

private theorem giveBack_unbilled (l : Nat) (reason : CloseReason) (s : Engine) :
    Unbilled s (giveBack l reason s) := by
  cases hk : s.link? l with
  | none =>
    rw [giveBack_of_none hk]
    exact .refl s
  | some k =>
    rw [giveBack_eq hk]
    have hset : Unbilled s (s.setLink l k.gone) := .same rfl
    exact hset.trans (.listener _ fun x d => x.stats.get_recordClose_counter reason d)

/-- **Others count no bytes.** -/
theorem Course.unbilled (h : Course s t) : Unbilled s t := by
  induction h with
  | refl => exact .refl _
  | change h _ ih => exact h.unbilled.trans ih
  | halt h _ _ _ ihinner ihrest => exact (h.unbilled.trans ihinner).trans ihrest
  | @teardown s t u l k k' reason hk h hook _ ihhook ihrest =>
    have hbegun : Unbilled s (beginTearDown l reason (s.setLink l k')) :=
      .same (listeners_beginTearDown l reason _)
    exact (hbegun.trans ihhook).trans ((giveBack_unbilled l reason _).trans ihrest)

theorem TornDown.unbilled {reason : CloseReason} (h : TornDown l reason s t) : Unbilled s t := by
  cases h with
  | absent | before => exact .refl s
  | now hk hc hook =>
    have hbegun : Unbilled s (beginTearDown l reason s) :=
      .same (listeners_beginTearDown l reason s)
    exact (hbegun.trans hook.unbilled).trans (giveBack_unbilled l reason _)

/-- No bytes are counted, and what happens to link `l` is as `R` says. -/
structure Spares (R : Link → Link → Prop) (l : Nat) (s t : Engine) : Prop where
  length : t.listeners.length = s.listeners.length
  stats : Unbilled s t
  link : ∀ k, s.link? l = some k → ∃ k', t.link? l = some k' ∧ R k k'

namespace Spares

theorem trans (hR : ∀ {x y z}, R x y → R y z → R x z) (h₁ : Spares R l s t)
    (h₂ : Spares R l t u) : Spares R l s u := by
  refine ⟨h₂.length.trans h₁.length, h₁.stats.trans h₂.stats, fun k hk => ?_⟩
  obtain ⟨k', hk', h⟩ := h₁.link k hk
  obtain ⟨k'', hk'', h'⟩ := h₂.link k' hk'
  exact ⟨k'', hk'', hR h h'⟩

theorem of_none (hk : s.link? l = none) (h : t.listeners = s.listeners) : Spares R l s t :=
  ⟨congrArg _ h, .same h, fun _ hk' => nomatch hk.symm.trans hk'⟩

/-- The link is written to. -/
theorem write (hk : s.link? l = some k) (h : R k k') (hl : t.listeners = s.listeners)
    (ht : t.link? l = some k') : Spares R l s t := by
  refine ⟨congrArg _ hl, .same hl, fun x hx => ?_⟩
  obtain rfl := Option.some.inj (hk.symm.trans hx)
  exact ⟨k', ht, h⟩

theorem setLink (hk : s.link? l = some k) (h : R k k') : Spares R l s (s.setLink l k') :=
  .write hk h rfl (link?_setLink_self hk k')

end Spares

/-- The time of a hook: link `l` moves bytes perhaps, and no hook panics. -/
abbrev Acts : Nat → Engine → Engine → Prop := Spares Link.Onward

/-- The time of a task that calls no hook: link `l` moves no bytes. -/
abbrev Idle : Nat → Engine → Engine → Prop := Spares Link.Still

theorem Idle.refl (s : Engine) : Idle l s s := ⟨rfl, .refl s, fun k hk => ⟨k, hk, .refl k⟩⟩

theorem Idle.trans (h₁ : Idle l s t) (h₂ : Idle l t u) : Idle l s u := Spares.trans .trans h₁ h₂

theorem Acts.trans (h₁ : Acts l s t) (h₂ : Acts l t u) : Acts l s u := Spares.trans .trans h₁ h₂

theorem Idle.acts (h : Idle l s t) : Acts l s t :=
  ⟨h.length, h.stats, fun k hk =>
    let ⟨k', hk', hstill⟩ := h.link k hk
    ⟨k', hk', hstill.onward⟩⟩

theorem Course.idle (h : Course s t) : Idle l s t := by
  refine ⟨h.length, h.unbilled, fun k hk => ?_⟩
  obtain ⟨w, hw, hvw⟩ := h.stand (stand?_of_link? hk)
  exact ⟨w.link, (stand?_eq_some.1 hw).1, hvw.silent.still hvw.unmoved⟩

theorem idle_count (j : Nat) {c : Counter} (hc : ∀ d : Direction, c ≠ d.counter) :
    Idle l s (s.count j c) :=
  ⟨List.length_modify .., .count j hc, fun k hk => ⟨k, hk, .refl k⟩⟩

theorem idle_note (l : Nat) (s : Engine) {n : Note} (hn : (n.isCall && n.isPanic) = false) :
    Idle l s (s.note l n) := by
  cases hk : s.link? l with
  | none => exact .of_none hk rfl
  | some k =>
    rw [note_eq_setLink hk]
    exact .setLink hk (k.still_note hn)

theorem idle_disarm (l : Nat) (s : Engine) : Idle l s (s.disarm l) := by
  cases hk : s.link? l with
  | none => exact .of_none hk (listeners_disarm l s)
  | some k =>
    refine .write hk (k.silent_disarmed.still k.unmoved_disarmed) (listeners_disarm l s) ?_
    exact (stand?_eq_some.1 (stand?_disarm (stand?_of_link? hk))).1

theorem idle_arm (l : Nat) (delay : Time.Duration) (s : Engine) : Idle l s (s.arm l delay).2 := by
  cases hk : s.link? l with
  | none => exact .of_none hk (listeners_arm l delay s)
  | some k =>
    have hgeneration : k.Still { k with waitGeneration := k.waitGeneration + 1 } :=
      .of rfl rfl fun _ => rfl
    rw [arm_eq hk]
    split
    · exact .write hk (hgeneration.trans (Link.still_note _ rfl)) rfl (link?_setLink_self hk _)
    · refine .write hk ?_ rfl (link?_setLink_self hk _)
      exact .of rfl rfl fun _ => rfl

/-! ## Hooks -/

private theorem startComet_still {h : Handle} {upgrades : Upgrades}
    {timeout : Option Time.Duration} (hs : startComet l k upgrades timeout = .ok (h, k')) :
    k.Still k' := by
  unfold startComet at hs
  split at hs
  · cases hs
  · split at hs
    · cases hs
    · cases hs
      refine .trans ?_ (Link.still_note _ rfl)
      exact .of rfl rfl fun _ => rfl

private theorem startDuplex_still {upgrades : Upgrades} (hs : startDuplex k upgrades = .ok k') :
    k.Still k' := by
  unfold startDuplex at hs
  split at hs <;> cases hs
  exact .of rfl rfl fun _ => rfl

private theorem acts_stream (hk : s.link? l = some k) {x : Stream Operation}
    (h : k.stream.Reaches x) : Acts l s (s.setLink l { k with stream := x }) :=
  .setLink hk ⟨rfl, rfl, h.moved_le⟩

private theorem idle_awaitReadable (l : Nat) (s : Engine) : Idle l s (awaitReadable l s).2 := by
  cases hk : s.link? l with
  | none =>
    unfold awaitReadable
    rw [hk]
    exact .refl s
  | some k =>
    have hset : Idle l s (s.setLink l { k with stream := k.stream.wait.2 }) :=
      .setLink hk (.of rfl rfl fun _ => k.stream.moved_wait)
    exact hset.trans (awaitReadable_course hk).idle

private theorem act_acts (l : Nat) (upgrades : Upgrades) (a : Action.Kind) (s : Engine) :
    Acts l s (act l upgrades a s).2 := by
  unfold act
  split
  · exact (Idle.refl s).acts
  next k hk =>
  cases a with
  | transfer t => exact acts_stream hk (k.stream.transfer_reaches t)
  | wait => exact (idle_awaitReadable l s).acts
  | operate op => exact (perform_course l op s).idle.acts
  | echoLine => exact acts_stream hk k.stream.echoLine_reaches
  | comet name timeout =>
    dsimp only
    split
    · exact (Idle.refl s).acts
    · next hs =>
      have hset := Idle.acts (.setLink hk (startComet_still hs))
      cases name with
      | none => exact hset
      | some n => exact ⟨hset.length, hset.stats, hset.link⟩
  | duplex =>
    dsimp only
    split
    · exact (Idle.refl s).acts
    · next hs => exact Idle.acts (.setLink hk (startDuplex_still hs))
  | duplexClose =>
    dsimp only
    split
    · exact Idle.acts (.setLink hk (.of rfl rfl fun _ => rfl))
    · exact (Idle.refl s).acts
  | duplexInfo =>
    dsimp only
    split <;> exact (Idle.refl s).acts
  | kill => exact Idle.acts (.setLink hk (.of rfl rfl fun _ => rfl))
  | closeSelf reason =>
    exact (closeWith_course (tears_tearDown _) (Nat.le_refl _) l _).idle.acts
  | _ => exact (Idle.refl s).acts

private theorem actAll_acts (l : Nat) (upgrades : Upgrades) :
    ∀ (actions : List Action) (s : Engine), Acts l s (actAll l upgrades actions s).2
  | [], s => (Idle.refl s).acts
  | a :: rest, s => by
    have hact := act_acts l upgrades a.kind s
    have hdid : ∀ (t : Engine) answer, Acts l t (t.note l (.did a.label answer)) := fun t _ =>
      (idle_note l t rfl).acts
    unfold actAll
    split
    · next h =>
      rw [h] at hact
      exact hact
    · next h =>
      rw [h] at hact
      exact (hact.trans (hdid _ _)).trans (actAll_acts l upgrades rest _)
    · next h =>
      rw [h] at hact
      exact hact.trans (hdid _ _)
    · next f _ h =>
      rw [h] at hact
      have hnoted := hact.trans (hdid _ (.failed f))
      dsimp only
      split
      · exact hnoted.trans (actAll_acts l upgrades rest _)
      · exact hnoted

/-- What the step of a task comes to for the counters of bytes: each listener counted what link
`l` moved, if that is its own and no hook of it panicked, and nothing else. -/
structure Bills (l : Nat) (s t : Engine) : Prop where
  length : t.listeners.length = s.listeners.length
  link : ∀ k, s.link? l = some k → k.listener < s.listeners.length → ∃ k',
    t.link? l = some k' ∧ k'.listener = k.listener ∧
    (∀ d, k.stream.moved d ≤ k'.stream.moved d) ∧
    ∀ i (d : Direction), (t.listener i).stats.get d.counter =
      (s.listener i).stats.get d.counter +
        UInt64.ofNat (if i = k.listener then k.billed k' d else 0)

namespace Bills

/-- Nothing was moved at first. -/
theorem after (h₁ : Idle l s t) (h₂ : Bills l t u) : Bills l s u := by
  refine ⟨h₂.length.trans h₁.length, fun k hk hi => ?_⟩
  obtain ⟨x, hx, ⟨hl, hm⟩, hp⟩ := h₁.link k hk
  obtain ⟨k', hk', hl', hm', hb⟩ := h₂.link x hx (by rw [hl, h₁.length]; exact hi)
  refine ⟨k', hk', hl'.trans hl, fun d => hm d ▸ hm' d, fun i d => ?_⟩
  have hbilled : x.billed k' d = k.billed k' d := by
    unfold Link.billed
    rw [hp, hm]
  rw [hb i d, h₁.stats i d, hl, hbilled]

/-- Nothing is moved any more. -/
theorem before (h₁ : Bills l s t) (h₂ : Idle l t u) : Bills l s u := by
  refine ⟨h₂.length.trans h₁.length, fun k hk hi => ?_⟩
  obtain ⟨x, hx, hl, hm, hb⟩ := h₁.link k hk hi
  obtain ⟨k', hk', ⟨hl', hm'⟩, hp⟩ := h₂.link x hx
  refine ⟨k', hk', hl'.trans hl, fun d => (hm' d).symm ▸ hm d, fun i d => ?_⟩
  have hbilled : k.billed k' d = k.billed x d := by
    unfold Link.billed
    rw [hp, hm']
  rw [h₂.stats i d, hb i d, hbilled]

theorem refl (s : Engine) : Bills l s s := by
  refine ⟨rfl, fun k hk _ => ⟨k, hk, rfl, fun _ => Nat.le_refl _, fun i d => ?_⟩⟩
  have hbilled : k.billed k d = 0 := (if_pos rfl).trans (Nat.sub_self _)
  rw [hbilled, ite_self]
  exact (UInt64.add_zero _).symm

end Bills

theorem Idle.bills (h : Idle l s t) : Bills l s t := .after h (.refl t)

private theorem panics_ended {hook : Hook} (hh : hook ≠ .close) (k : Link) (ending : Ending) :
    (k.note (.ended hook ending)).panics = k.panics + if ending = .panicked then 1 else 0 := by
  rw [Link.panics_note]
  cases ending <;> simp [Note.isCall, Note.isPanic, hh]

/-- A hook panicked: what it moved is not counted. -/
private theorem Acts.panicked {hook : Hook} (h : Acts l s t) (hh : hook ≠ .close) :
    Bills l s (t.note l (.ended hook .panicked)) := by
  refine ⟨h.length, fun k hk _ => ?_⟩
  obtain ⟨k', hk', hl, hp, hm⟩ := h.link k hk
  have hunbilled : Unbilled s (t.note l (.ended hook .panicked)) := h.stats.trans (.same rfl)
  refine ⟨k'.note (.ended hook .panicked), ?_, hl, hm, fun i d => ?_⟩
  · rw [note_eq_setLink hk']
    exact link?_setLink_self hk' _
  · have hlost : k.billed (k'.note (.ended hook .panicked)) d = 0 := by
      refine if_neg ?_
      rw [panics_ended hh, hp, if_pos rfl]
      exact Nat.succ_ne_self _
    rw [hunbilled i d, hlost, ite_self]
    exact (UInt64.add_zero _).symm

/-- A hook returned or failed: what it moved is counted. -/
private theorem Acts.counted {hook : Hook} {ending : Ending} (h : Acts l s t)
    (hh : hook ≠ .close) (he : ending ≠ .panicked) (hk : s.link? l = some k)
    (hk' : (t.note l (.ended hook ending)).link? l = some k') :
    Bills l s ((t.note l (.ended hook ending)).modifyListener k.listener fun x =>
      { x with
        stats := x.stats.recordBytes (k'.stream.bytesRead - k.stream.bytesRead)
          (k'.stream.bytesWritten - k.stream.bytesWritten) }) := by
  refine ⟨(List.length_modify ..).trans h.length, fun x hx hi => ?_⟩
  obtain rfl := Option.some.inj (hk.symm.trans hx)
  obtain ⟨k₁, hk₁, hl, hp, hm⟩ := h.link k hk
  have hunbilled : Unbilled s (t.note l (.ended hook ending)) := h.stats.trans (.same rfl)
  have hlength : (t.note l (.ended hook ending)).listeners.length = s.listeners.length := h.length
  rw [note_eq_setLink hk₁, link?_setLink_self hk₁] at hk'
  obtain rfl := Option.some.inj hk'
  refine ⟨k₁.note (.ended hook ending), ?_, hl, hm, fun i d => ?_⟩
  · rw [link?_modifyListener, note_eq_setLink hk₁]
    exact link?_setLink_self hk₁ _
  by_cases hik : i = k.listener
  · subst hik
    have hbilled : k.billed (k₁.note (.ended hook ending)) d =
        (k₁.note (.ended hook ending)).stream.moved d - k.stream.moved d := by
      refine if_pos ?_
      rw [panics_ended hh, hp, if_neg he]
      rfl
    rw [listener_modifyListener_self (hlength ▸ hi), if_pos rfl, hbilled, ← hunbilled]
    exact Stats.get_recordBytes_counter _
      (fun d => (k₁.note (.ended hook ending)).stream.moved d - k.stream.moved d) d
  · rw [listener_modifyListener_ne hik, if_neg hik, hunbilled]
    exact (UInt64.add_zero _).symm

/-- **A call of a hook is billed to the listener unless the hook panics.** -/
theorem callHook_bills (l : Nat) {hook : Hook} (hh : hook ≠ .close) (upgrades : Upgrades)
    (s : Engine) : Bills l s (callHook l hook upgrades s).2 := by
  unfold callHook
  split
  · exact .refl s
  next k hk =>
  have hk' : (s.note l (.began hook)).link? l = some (k.note (.began hook)) := by
    rw [note_eq_setLink hk]
    exact link?_setLink_self hk _
  have hruns : Acts l (s.note l (.began hook))
      (runHook l k hook upgrades (s.note l (.began hook))).2 := by
    unfold runHook
    split
    · exact (Idle.refl _).acts
    · exact actAll_acts l upgrades _ _
  refine .after (idle_note l s (n := .began hook) rfl) ?_
  dsimp only
  split
  · next h =>
    rw [h]
    exact hruns.panicked hh
  · next hn _ =>
    -- The link is still there.
    obtain ⟨x, hx, -⟩ := hruns.link _ hk'
    rw [note_eq_setLink hx, link?_setLink_self hx] at hn
    cases hn
  · next after hafter hne =>
    exact hruns.counted (k := k.note (.began hook)) hh hne hk' hafter

/-! ## Steps -/

private theorem idle_transition (hk : s.link? l = some k) (machine : Connection.Machine) :
    Idle l s (s.setLink l { k with machine }) := .setLink hk (.of rfl rfl fun _ => rfl)

private theorem bills_withTransition {e : Connection.Event}
    {go : Link → Engine → Outcome × Engine}
    (hgo : ∀ k t, t.link? l = some k → Bills l t (go k t).2) :
    Bills l s (withTransition l e s go).2 := by
  cases hk : s.link? l with
  | none =>
    unfold withTransition
    rw [hk]
    exact .refl s
  | some k =>
    rcases withTransition_cases (e := e) hk go with ⟨f, h⟩ | ⟨machine, h⟩
    · rw [h]
      exact .refl s
    · rw [h]
      exact .after (idle_transition hk machine) (hgo _ _ (link?_setLink_self hk _))

private theorem idle_withTransition {e : Connection.Event}
    {go : Link → Engine → Outcome × Engine}
    (hgo : ∀ k t, t.link? l = some k → Idle l t (go k t).2) :
    Idle l s (withTransition l e s go).2 := by
  cases hk : s.link? l with
  | none =>
    unfold withTransition
    rw [hk]
    exact .refl s
  | some k =>
    rcases withTransition_cases (e := e) hk go with ⟨f, h⟩ | ⟨machine, h⟩
    · rw [h]
      exact .refl s
    · rw [h]
      exact (idle_transition hk machine).trans (hgo _ _ (link?_setLink_self hk _))

private theorem bills_of_callHook {hook : Hook} {upgrades : Upgrades} {ending : Ending}
    (hh : hook ≠ .close) (h : callHook l hook upgrades s = (ending, t)) : Bills l s t := by
  have hcalled := callHook_bills l hh upgrades s
  rw [h] at hcalled
  exact hcalled

private theorem bills_withHook {hook : Hook} {upgrades : Upgrades}
    {go : Bool → Engine → Outcome × Engine} (hh : hook ≠ .close)
    (hgo : ∀ keep t, Idle l t (go keep t).2) : Bills l s (withHook l hook upgrades s go).2 := by
  unfold withHook
  split
  · next h => exact (bills_of_callHook hh h).before (hgo _ _)
  · next h => exact bills_of_callHook hh h
  · next h => exact bills_of_callHook hh h

private theorem idle_withFlush {go : Link → Engine → Outcome × Engine}
    (hgo : ∀ k t, t.link? l = some k → Idle l t (go k t).2) : Idle l s (withFlush l s go).2 := by
  unfold withFlush
  split
  · exact .refl s
  next k hk =>
  have hset : Idle l s (s.setLink l { k with stream := k.stream.flush.2 }) :=
    .setLink hk (.of rfl rfl fun _ => k.stream.moved_flush)
  dsimp only
  split
  · exact hset.trans (idle_note l _ rfl)
  · exact hset.trans (hgo _ _ (link?_setLink_self hk _))

private theorem idle_waitOnce (deadline : Nat) (ready idle : Step) (late : CloseReason) :
    Idle l s (waitOnce l deadline ready idle late s).2 := by
  unfold waitOnce
  split
  · exact .refl s
  split
  · exact .refl s
  split
  · exact .refl s
  have hwaited := idle_awaitReadable l s
  split <;>
  · next h =>
    rw [h] at hwaited
    exact hwaited

private theorem idle_stepResumeParked : Idle l s (stepResumeParked l s).2 := by
  unfold stepResumeParked
  split
  · exact .refl s
  · dsimp only
    split
    · split <;> exact idle_disarm l s
    · exact idle_disarm l s
    · exact idle_disarm l s

private theorem idle_stepAfter (keep : Bool) : Idle l s (stepAfter l keep s).2 := by
  unfold stepAfter
  split
  · exact .refl s
  next k hk =>
  split
  · exact .setLink hk (.of rfl rfl fun _ => rfl)
  · exact .setLink hk (.of rfl rfl fun _ => rfl)
  · exact .refl s

private theorem idle_stepRest (killed : Bool) : Idle l s (stepRest l killed s).2 := by
  unfold stepRest
  split
  · exact .refl s
  next k hk =>
  dsimp only
  split
  · exact .setLink hk (.of rfl rfl fun _ => rfl)
  split
  · exact .setLink hk (.of rfl rfl fun _ => rfl)
  · refine Idle.trans (.setLink hk ?_) (idle_count _ fun d => ?_)
    · exact .of rfl rfl fun _ => rfl
    · cases d <;> exact nofun

private theorem idle_declined : Idle l s (stepAwait.declined l s).2 := by
  unfold stepAwait.declined
  split
  · exact .refl s
  next k hk =>
  split
  · refine Idle.trans (.setLink hk ?_) (idle_disarm l _)
    exact .of rfl rfl fun _ => rfl
  · exact .refl s

private theorem idle_of_arm {delay : Time.Duration} {r : Except Failure Unit}
    (h : s.arm l delay = (r, t)) : Idle l s t := by
  have harmed := idle_arm l delay s
  rw [h] at harmed
  exact harmed

private theorem idle_of_register {x : Multiplexer} {r : Option Bool}
    (h : register l k x s = (r, t)) : Idle l s t := by
  have hregistered : Idle l s (register l k x s).2 := (register_course l k x s).idle
  rw [h] at hregistered
  exact hregistered

private theorem idle_stepAwait : Idle l s (stepAwait l s).2 := by
  unfold stepAwait
  split
  · exact .refl s
  next k hk =>
  have hpolled : Idle l s (s.setLink l { k with stream := k.stream.poll.2 }) :=
    .setLink hk (.of rfl rfl fun _ => k.stream.moved_poll)
  have hk' := link?_setLink_self hk { k with stream := k.stream.poll.2 }
  dsimp only
  generalize s.setLink l { k with stream := k.stream.poll.2 } = t at hpolled hk' ⊢
  refine hpolled.trans ?_
  split
  · exact .refl t
  · exact .refl t
  · exact .refl t
  split
  · exact .refl t
  split
  · exact .refl t
  split
  · exact .refl t
  next r _ =>
  have hrests : Idle l t (t.setLink l { k with stream := k.stream.poll.2, request := r }) :=
    .setLink hk' (.of rfl rfl fun _ => rfl)
  split
  · next h => exact hrests.trans (idle_of_arm h)
  next h =>
  have harmed := hrests.trans (idle_of_arm h)
  split
  · next h => exact harmed.trans (idle_of_register h)
  · next h => exact harmed.trans (idle_of_register h)
  · next h => exact (harmed.trans (idle_of_register h)).trans idle_declined

private theorem idle_park : Idle l s (stepSuspend.park l s).2 := by
  unfold stepSuspend.park
  split
  · exact .refl s
  next k hk =>
  split
  · exact .refl s
  · exact .setLink hk (.of rfl rfl fun _ => rfl)
  · refine Idle.trans (.setLink hk ?_) (idle_disarm l _)
    exact .of rfl rfl fun _ => rfl

private theorem idle_stepSuspend : Idle l s (stepSuspend l s).2 := by
  unfold stepSuspend
  split
  · exact .refl s
  split
  · exact .refl s
  refine idle_withTransition fun k t _ => ?_
  dsimp only
  split
  · next h => exact idle_of_arm h
  · next h =>
    refine ((idle_of_arm h).trans (idle_count _ fun d => ?_)).trans idle_park
    cases d <;> exact nofun

private theorem idle_stepUpgrade : Idle l s (stepUpgrade l s).2 := by
  refine idle_withTransition fun k t hk => Idle.trans (.setLink hk ?_) (idle_count _ fun d => ?_)
  · exact .of rfl rfl fun _ => rfl
  · cases d <;> exact nofun

private theorem bills_stepAccept : Bills l s (stepAccept l s).2 := by
  refine bills_withTransition fun k t hk => ?_
  have hset : ∀ socket : Socket.Endpoint Operation,
      Idle l t (t.setLink l { k with stream := { k.stream with socket } }) := fun _ =>
    .setLink hk (.of rfl rfl fun d => by cases d <;> rfl)
  dsimp only
  split
  · exact (hset _).bills
  · exact .after (hset _) (bills_withHook nofun fun _ u => .refl u)

private theorem bills_stepDispatch : Bills l s (stepDispatch l s).2 := by
  refine bills_withTransition fun k t hk => ?_
  have hcounted : Idle l t (t.count k.listener .requests) :=
    idle_count _ fun d => by cases d <;> exact nofun
  have hset : Idle l t ((t.count k.listener .requests).setLink l { k with pending := .none }) :=
    hcounted.trans (.setLink hk (.of rfl rfl fun _ => rfl))
  exact .after hset (bills_withHook nofun fun _ _ => idle_withFlush fun _ u _ => .refl u)

private theorem idle_flushAnyway : Idle l s (stepResume.flushAnyway l s) := by
  unfold stepResume.flushAnyway
  cases hk : s.link? l with
  | none =>
    rw [modifyLink_of_none hk]
    exact .refl s
  | some k =>
    rw [modifyLink_eq_setLink hk]
    refine .setLink hk ?_
    have hflushed : k.Still { k with stream := k.stream.flush.2 } :=
      .of rfl rfl fun _ => k.stream.moved_flush
    split
    · next h =>
      rw [h] at hflushed
      exact hflushed
    · next h =>
      rw [h] at hflushed
      exact hflushed.trans (Link.still_note _ rfl)

private theorem bills_stepResume (timedOut : Bool) : Bills l s (stepResume l timedOut s).2 := by
  refine bills_withTransition fun k t hk => ?_
  have hset : Idle l t (t.setLink l { k with comet := none }) :=
    .setLink hk (.of rfl rfl fun _ => rfl)
  dsimp only
  refine .after hset ?_
  have hne : Hook.suspendTimeout ≠ .close := nofun
  split
  · split
    · next h => exact bills_of_callHook hne h
    · next h => exact (bills_of_callHook hne h).before idle_flushAnyway
  · split
    · exact .refl _
    · refine .after (idle_count _ fun d => ?_)
        (bills_withHook nofun fun _ _ => idle_withFlush fun _ u _ => .refl u)
      cases d <;> exact nofun

private theorem bills_stepService : Bills l s (stepService l s).2 := by
  refine bills_withTransition fun k t _ => bills_withHook nofun fun _ u =>
    idle_withFlush fun k' w hk' => ?_
  dsimp only
  split
  · exact .refl w
  split
  · exact .refl w
  refine Idle.trans (.setLink hk' ?_) (idle_withTransition fun _ x _ => .refl x)
  exact .of rfl rfl fun _ => rfl

/-- **A step of a task bills what its link moved by it**, unless a hook panics. -/
theorem stepLink_bills (l : Nat) (step : Step) (s : Engine) : Bills l s (stepLink l step s).2 := by
  cases step with
  | accept => exact bills_stepAccept
  | resumeParked => exact idle_stepResumeParked.bills
  | dispatch => exact bills_stepDispatch
  | after keep => exact (idle_stepAfter keep).bills
  | rest killed => exact (idle_stepRest killed).bills
  | await => exact idle_stepAwait.bills
  | block =>
    show Bills l s (stepBlock l s).2
    refine Idle.bills ?_
    unfold stepBlock
    split
    · exact .refl s
    · exact idle_waitOnce _ _ _ _
  | suspend => exact idle_stepSuspend.bills
  | resume timedOut => exact bills_stepResume timedOut
  | upgrade => exact idle_stepUpgrade.bills
  | listen deadline => exact (idle_waitOnce deadline _ _ _).bills
  | service => exact bills_stepService

/-! ## Moves -/

/-- Carrying out what a step decided bills nothing. -/
private theorem conclude_idle (o : Outcome) (hk : s.link? l = some k) :
    Idle l s (conclude l o s) := by
  have htorn : ∀ (reason : CloseReason) (t : Engine), Unbilled t
      ((tearDown l reason t).modifyLink l fun k => { k with step := none }) := fun reason t =>
    (tearDown_tornDown l reason t).unbilled.trans (.same rfl)
  have hfailed : ∀ f, Unbilled s ((tearDown l (failureReason l f s).1
      (failureReason l f s).2).modifyLink l fun k => { k with step := none }) := fun f =>
    (failureReason_course hk f).2.1.unbilled.trans (htorn _ _)
  refine ⟨(conclude_gains (i := k.listener) o).length, ?_, fun x hx => ?_⟩
  · cases o with
    | next step => exact .same rfl
    | park => exact .same rfl
    | close reason => exact htorn reason s
    | fail f => exact hfailed f
    | refused f => exact hfailed f
    | panic => exact htorn .handlerError s
  · obtain ⟨-, w, hw, hconcluded⟩ := conclude_concluded (stand?_of_link? hx) o
    exact ⟨w.link, (stand?_eq_some.1 hw).1, hconcluded.silent.still hconcluded.unmoved⟩

/-- **A move of a task bills what its link moved by it**, unless a hook panics. -/
theorem advance_bills (hk : s.link? l = some k) (hi : k.listener < s.listeners.length) :
    Bills l s (advance l s) := by
  unfold advance
  rw [hk]
  cases hstep : k.step with
  | none =>
    rw [Option.bind_some, hstep]
    exact .refl s
  | some step =>
    rw [Option.bind_some, hstep]
    have hbills := stepLink_bills l step s
    obtain ⟨k', hk', -⟩ := hbills.link k hk hi
    exact hbills.before (conclude_idle _ hk')

private theorem Starts.unbilled (h : Starts l s t) : Unbilled s t := by
  cases h with
  | queued => exact .same rfl
  | refused hk h =>
    have hset : ∀ k, Unbilled s (s.setLink l k) := fun _ => .same rfl
    exact ((hset _).trans h.unbilled).trans (.same rfl)

private theorem installLink_unbilled (i : Nat) (handler : Handler) (notes : List Note)
    {e : Socket.Endpoint Operation} (he : s.slots[l]? = some (.turnedAway e)) :
    Unbilled s (installLink i l handler notes s) := by
  rw [installLink_eq he]
  refine .trans (.same rfl) (.listener i fun x d => x.stats.get_record_of_ne ?_)
  cases d <;> exact nofun

/-- Bringing a connection bills nothing. -/
private theorem Accepts.unbilled {arrival : Arrival} (h : Accepts i arrival s t) :
    Unbilled s t := by
  have hslot : Unbilled s (s.addSlot arrival.socket) := .same rfl
  cases h with
  | turnedAway => exact hslot.trans (.count i fun d => by cases d <;> exact nofun)
  | @started tracker t u _ notes hj make hn ask _ start =>
    obtain ⟨e, he, -⟩ := make.turnedAway (slots_addSlot s arrival.socket)
    have hjoined : Unbilled (s.addSlot arrival.socket)
        ((s.addSlot arrival.socket).modifyListener i fun x => { x with tracker }) :=
      .listener i fun _ _ => rfl
    have hmade := (hslot.trans hjoined).trans make.unbilled
    have hinstalled := hmade.trans (installLink_unbilled i arrival.handler notes he)
    exact (hinstalled.trans ask.unbilled).trans start.unbilled

/-- A listener that has counted nothing is no different from one that is not there. -/
private theorem unbilled_append {y : Listener} (hy : y.stats = {}) :
    Unbilled s { s with listeners := s.listeners ++ [y] } := by
  intro i d
  rcases Nat.lt_trichotomy i s.listeners.length with hi | rfl | hi
  · rw [listener_append_of_lt hi]
  · rw [listener_append_self, hy]
    unfold Engine.listener
    rw [List.getD_eq_getElem?_getD, List.getElem?_eq_none (Nat.le_refl _)]
    cases d <;> rfl
  · unfold Engine.listener
    rw [List.getD_eq_getElem?_getD, List.getD_eq_getElem?_getD,
      List.getElem?_eq_none (Nat.le_of_lt hi), List.getElem?_eq_none]
    rw [List.length_append]
    exact hi

/-- Building a listener bills nothing. -/
private theorem Builds.unbilled (h : Builds s t) : Unbilled s t := by
  cases h with
  | refused => exact .refl s
  | unqueued => exact .same rfl
  | @built delay x y t h hf hy hs h' ht =>
    have hhouse : Unbilled s (s.withHousekeeping x) := .same rfl
    exact (hhouse.trans (unbilled_append hf.stats)).trans h'.unbilled

private theorem begin_unbilled (place : Nat) (s : Engine) : Unbilled s (begin place s) := by
  unfold begin
  split
  · exact .refl s
  split
  · exact .refl s
  split
  · exact .refl s
  dsimp only
  split
  · exact .same rfl
  split
  · exact .trans (.same rfl) (tearDown_tornDown _ _ _).unbilled
  · exact .same rfl

/-- **A move that is no step of a task bills nothing.** -/
theorem move_unbilled (hm : ∀ l, m ≠ .advance l) : Unbilled s (move m s) := by
  cases m with
  | build settings x platform => exact (build_builds settings x platform s).unbilled
  | accept i arrival =>
    show Unbilled s (if i < s.listeners.length then (s.accept i arrival).2 else s)
    split
    · exact (accept_accepts i arrival s).unbilled
    · exact .refl s
  | begin place => exact begin_unbilled place s
  | advance l => exact absurd rfl (hm l)
  | _ => exact (move_course rfl s).unbilled

/-! ## Runs -/

/-- How many bytes the links of a listener moved. -/
def trafficOf (s : Engine) (i : Nat) (d : Direction) : Nat :=
  ∑ l ∈ s.linksOf i, (s.link? l).elim 0 (·.stream.moved d)

/-- What a link of a listener moved by a step in which one of its hooks panicked, where the move
is one. -/
def lostBy (i : Nat) (d : Direction) (m : Move) (s : Engine) : List Nat :=
  match m with
  | .advance l =>
    match s.link? l, (move m s).link? l with
    | some k, some k' =>
      if k.listener = i ∧ k'.panics ≠ k.panics then [k'.stream.moved d - k.stream.moved d] else []
    | _, _ => []
  | _ => []

/-- How many bytes were moved in steps that panicked. -/
def lostIn (i : Nat) (d : Direction) (moves : List Move) (s : Engine) : Nat :=
  (along (lostBy i d) moves s).sum

theorem lostBy_of_ne (hm : ∀ l ∈ s.linksOf i, m ≠ .advance l) (d : Direction) :
    lostBy i d m s = [] := by
  unfold lostBy
  split
  · split
    · next l _ _ k k' hk hk' =>
      exact if_neg fun h => hm l (mem_linksOf.2 ⟨k, hk, h.1⟩) rfl
    · rfl
  · rfl

/-- What is moved is counted or lost. -/
private theorem billed_add_lost {l : Nat} (hk : s.link? l = some k)
    (hk' : (advance l s).link? l = some k') (d : Direction) :
    k.billed k' d + (lostBy k.listener d (.advance l) s).sum =
      k'.stream.moved d - k.stream.moved d := by
  have hlost : lostBy k.listener d (.advance l) s =
      if k'.panics ≠ k.panics then [k'.stream.moved d - k.stream.moved d] else [] := by
    unfold lostBy
    dsimp only [move]
    rw [hk, hk']
    simp
  rw [hlost]
  unfold Link.billed
  by_cases hp : k'.panics = k.panics
  · rw [if_pos hp, if_neg (not_not.2 hp)]
    rfl
  · rw [if_neg hp, if_pos hp, List.sum_singleton, Nat.zero_add]

variable (settings : Settings.Scheduler) (now : Nat)

/-- What the links moved, after one more move. -/
private theorem trafficOf_move (moves : List Move) (m : Move) {n : Nat}
    (hstep : ∀ l ∈ (after settings now moves).linksOf i, m = .advance l →
      ∀ k k', (after settings now moves).link? l = some k →
        (move m (after settings now moves)).link? l = some k' →
        k'.stream.moved d = k.stream.moved d + n)
    (hn : (∀ l ∈ (after settings now moves).linksOf i, m ≠ .advance l) → n = 0) :
    (move m (after settings now moves)).trafficOf i d =
      (after settings now moves).trafficOf i d + n := by
  refine sum_move (after_sole settings now moves) ?_ ?_ ?_ hn
  · intro l hl hnone
    obtain ⟨k, hk, -⟩ := mem_linksOf.1 hl
    obtain ⟨_, arrival, -, -, -, hstarted⟩ :=
      move_started (after_manned settings now moves) m hnone (stand?_of_link? hk)
    rw [hk]
    exact hstarted.moved d
  · intro l hl hm
    obtain ⟨k, hk, -⟩ := mem_linksOf.1 hl
    obtain ⟨w, hw, hrests⟩ := move_rests hm (stand?_of_link? hk)
    rw [hk, (stand?_eq_some.1 hw).1]
    exact hrests.unmoved.moved d
  · intro l hl hm
    obtain ⟨k, hk, -⟩ := mem_linksOf.1 hl
    obtain ⟨w, hw, -⟩ := move_turn (after_sole settings now moves) m (stand?_of_link? hk)
    have hk' := (stand?_eq_some.1 hw).1
    rw [hk, hk']
    exact hstep l hl hm k w.link hk hk'

/-- What a move counts of the bytes, and what it loses, is what it moves. -/
private theorem balance_move (moves : List Move) (m : Move) (i : Nat) (d : Direction) :
    ∃ billed, ((move m (after settings now moves)).listener i).stats.get d.counter =
        ((after settings now moves).listener i).stats.get d.counter + UInt64.ofNat billed ∧
      (move m (after settings now moves)).trafficOf i d =
        (after settings now moves).trafficOf i d +
          (billed + (lostBy i d m (after settings now moves)).sum) := by
  have hhoused := (audited settings now moves).housed
  by_cases h : ∃ l ∈ (after settings now moves).linksOf i, m = .advance l
  · obtain ⟨l, hl, rfl⟩ := h
    obtain ⟨k, hk, rfl⟩ := mem_linksOf.1 hl
    have hbills := advance_bills hk (hhoused l k hk)
    obtain ⟨k', hk', -, hmoved, hstats⟩ := hbills.link k hk (hhoused l k hk)
    have hbilled := hstats k.listener d
    rw [if_pos rfl] at hbilled
    refine ⟨k.billed k' d, hbilled, ?_⟩
    rw [billed_add_lost hk hk' d]
    refine trafficOf_move settings now moves _ ?_ fun hne => absurd rfl (hne l hl)
    rintro l' - ⟨⟩ x x' hx hx'
    obtain rfl := Option.some.inj (hk.symm.trans hx)
    obtain rfl := Option.some.inj (hk'.symm.trans hx')
    exact (Nat.add_sub_of_le (hmoved d)).symm
  · have hne : ∀ l ∈ (after settings now moves).linksOf i, m ≠ .advance l := fun l hl hm =>
      h ⟨l, hl, hm⟩
    refine ⟨0, ?_, ?_⟩
    · rw [show UInt64.ofNat 0 = 0 from rfl, UInt64.add_zero]
      by_cases hadvance : ∃ l, m = .advance l
      · obtain ⟨l, rfl⟩ := hadvance
        cases hk : (after settings now moves).link? l with
        | none =>
          show ((advance l _).listener i).stats.get _ = _
          rw [advance_of_absent hk]
        | some k =>
          have hi := hhoused l k hk
          obtain ⟨_, _, _, _, hstats⟩ := (advance_bills hk hi).link k hk hi
          refine (hstats i d).trans ?_
          rw [if_neg fun hik => hne l (mem_linksOf.2 ⟨k, hk, hik.symm⟩) rfl]
          exact UInt64.add_zero _
      · exact move_unbilled (fun l hm => hadvance ⟨l, hm⟩) i d
    · rw [lostBy_of_ne hne]
      exact trafficOf_move settings now moves m (fun l hl hm => absurd hm (hne l hl)) fun _ => rfl

/-- **A listener counts the bytes that the hooks of its links read and wrote, however the hooks
ended, but for what they moved in steps in which one panicked.** The bytes are those that the
calls of a transfer handed to the reader or reported as taken. -/
theorem bytes_balance (moves : List Move) (i : Nat) (d : Direction) :
    ((after settings now moves).listener i).stats.get d.counter +
        UInt64.ofNat (lostIn i d moves (create settings now)) =
      UInt64.ofNat ((after settings now moves).trafficOf i d) ∧
    ∀ (x : Stream Operation) (t : Stream.Transfer), ∃ calls, (x.transfer t).2 = x.follow calls ∧
      (x.transfer t).2.moved d = x.moved d + (x.passed calls d).length := by
  refine ⟨?_, fun x t => ?_⟩
  · induction moves using List.reverseRecOn with
    | nil => cases d <;> rfl
    | append_singleton moves m ih =>
      obtain ⟨billed, hstats, htraffic⟩ := balance_move settings now moves m i d
      have hlost : lostIn i d (moves ++ [m]) (create settings now) =
          lostIn i d moves (create settings now) +
            (lostBy i d m (after settings now moves)).sum := by
        rw [lostIn, along_concat, List.sum_append]
        rfl
      rw [after_concat, hstats, hlost, htraffic, UInt64.ofNat_add, UInt64.ofNat_add,
        UInt64.ofNat_add, ← ih]
      ac_rfl
  · obtain ⟨calls, h⟩ := x.transfer_reaches t
    exact ⟨calls, h, h ▸ x.moved_follow calls d⟩

/-- What a hook does that writes two bytes and then panics. -/
def falters : List Action :=
  [⟨"write", .transfer (.writeAll [104, 105]), false⟩, ⟨"panic", .panic, false⟩]

/-- The two bytes are moved, and the link is closed in good order, but they are not counted. -/
theorem panic_uncounted :
    ((after {} 0 (serving { requests := [falters] } 2)).trafficOf 0 .outward,
      ((after {} 0 (serving { requests := [falters] } 2)).listener 0).stats.get .bytesWritten,
      ((after {} 0 (serving { requests := [falters] } 2)).link? 0).map (·.closeReason)) =
    (2, 0, some (some .handlerError)) := by
  decide

end Engine

end LinkEngine

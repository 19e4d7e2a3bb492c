import LinkEngine.Proofs.Alternation
import LinkEngine.Proofs.Exhaustion
import LinkEngine.Proofs.Traffic
import LinkEngine.Proofs.TwoWay

/-!
# Two-way streams make progress

The task of a two-way stream could call the handler again and again for bytes that it leaves in
the buffer. It does not: each call but the last consumed at least one byte. What the calls of a
run consumed is written down move by move (`consumedIn`), and `Session` says where a link stands
that was upgraded: the calls so far are those written down, what they consumed adds up to what
left the stream since, and the stream shows both while it goes on. Others leave that as it is
(`Session.aside`), a step of the task keeps it (`Session.stepped`), so it holds throughout a run
(`session`). Since rounds only follow each other where bytes were consumed, a stream whose
socket delivers finitely many ends, if no step of its task lasts for ever (`ends_of_bounded`).
-/

namespace LinkEngine

open Connection (CloseReason)
open Link (Duplex Note Outcome Step)

namespace Stand

variable {b : Nat} {xs : List Nat} {v w u : Stand} {o : Outcome} {step : Step}

/-! ## Where an upgraded link stands -/

/-- How far an upgraded link got, where its calls consumed these numbers of bytes. -/
inductive Stage (xs : List Nat) (v : Stand) : Prop where
  /-- It is about to become a two-way stream. -/
  | upgrading (hs : v.link.step = some .upgrade) (hx : xs = [])
  /-- Its task waits for bytes or is about to have them served. -/
  | going {step : Step} (hs : v.link.step = some step)
      (hstep : step = .service ∨ ∃ t, step = .listen t)
      (hd : v.link.duplex = some { reads := xs.length, bytesRead := xs.sum })
      (hx : ∀ x ∈ xs, 1 ≤ x)
  | ended (hc : v.link.closed = true) (hs : v.link.step = none)

/-- The calls for the bytes of a link consumed these numbers of them since `b` had been
consumed. -/
structure Session (b : Nat) (xs : List Nat) (v : Stand) : Prop where
  read : v.link.stream.bytesRead = b + xs.sum
  calls : v.link.hooks.count .service = xs.length
  consumed : ∀ x ∈ xs.dropLast, 1 ≤ x
  stage : Stage xs v

/-- **There is one call more than bytes at most**: only the last may have consumed none. -/
theorem Session.length_le (h : Session b xs v) : xs.length ≤ 1 + xs.sum := by
  have hle := List.length_le_sum_of_one_le _ h.consumed
  rcases List.eq_nil_or_concat' xs with rfl | ⟨ys, y, rfl⟩
  · exact Nat.zero_le _
  · rw [List.dropLast_concat] at hle
    rw [List.length_append, List.sum_append]
    simp only [List.length_singleton, List.sum_singleton]
    omega

/-! ## How far its rounds got -/

/-- How far through a round a step is. -/
def place : Step → Nat
  | .listen _ => 1
  | .service => 2
  | _ => 0

/-- How many steps of its rounds a two-way stream took: it listens, has its bytes served, and
listens again. -/
def rounds (v : Stand) : Nat := 3 * v.link.hooks.count .service + v.link.step.elim 0 place

/-- The link closed, stands before the same step, or is further on. -/
def Advanced (v w : Stand) : Prop :=
  w.link.closed = true ∨ w.link.step = v.link.step ∧ w.rounds = v.rounds ∨ v.rounds < w.rounds

theorem rounds_of_step (hs : v.link.step = some step) :
    v.rounds = 3 * v.link.hooks.count .service + place step := by
  unfold rounds
  rw [hs]
  rfl

theorem rounds_le (v : Stand) : v.rounds ≤ 3 * v.link.hooks.count .service + 2 := by
  have hplace : ∀ step, place step ≤ 2 := by
    intro step
    unfold place
    split <;> omega
  unfold rounds
  cases v.link.step with
  | none => exact Nat.le_add_right ..
  | some step => exact Nat.add_le_add_left (hplace step) _

/-! ## Moves of an upgraded link -/

/-- **Others leave an upgraded link where it is.** -/
theorem Session.aside (h : Session b xs v) (ha : Aside v w) :
    Session b xs w ∧ Advanced v w := by
  have hrests := ha.rests
  have hsession : Stage xs w → Session b xs w := fun hstage =>
    ⟨(hrests.unmoved.moved .inward).trans h.read,
      (congrArg (List.count .service) hrests.silent.hooks).trans h.calls, h.consumed, hstage⟩
  rcases ha with hcourse | ⟨hnone, hturn⟩
  · refine ⟨hsession ?_, .inr (.inl ⟨hcourse.step, ?_⟩)⟩
    · cases h.stage with
      | upgrading hs hx => exact .upgrading (hcourse.step.trans hs) hx
      | going hs hstep hd hx =>
        exact .going (hcourse.step.trans hs) hstep (hcourse.unserved.duplex.trans hd) hx
      | ended hc hs => exact .ended (hcourse.closed hc) (hcourse.step.trans hs)
    · unfold rounds
      rw [hcourse.step, hcourse.silent.hooks]
  · -- Nobody drives it, so it is closed.
    cases h.stage with
    | upgrading hs | going hs => exact nomatch hs.symm.trans hnone
    | ended hc hs =>
      obtain ⟨hsettled, hs'⟩ := hturn.settled hc hs
      have hclosed := hsettled.closed.trans hc
      exact ⟨hsession (.ended hclosed hs'), .inl hclosed⟩

/-- The upgrade itself calls nobody, and shows nothing yet. -/
private theorem Session.upgrades (h : Session b [] v) (hv : Ready .upgrade v)
    (hs : v.link.step = some .upgrade) (hp : Plan.upgrade v o w) (hc : Concluded w o u) :
    Session b [] u ∧ Advanced v u := by
  obtain ⟨hm, -, -⟩ := hv.expects
  obtain ⟨machine, -, t, rfl, rfl⟩ := transition_moves (m := .duplex) (by rw [hm]; rfl) hp
  obtain rfl := hc.eq_next rfl
  refine ⟨⟨h.read, h.calls, h.consumed, .going rfl (.inr ⟨t, rfl⟩) rfl nofun⟩, .inr (.inr ?_)⟩
  rw [rounds_of_step hs]
  exact Nat.lt_succ_self _

/-- Waiting for the next bytes calls nobody and consumes nothing. -/
private theorem Session.listens {t : Nat} (h : Session b xs v)
    (hs : v.link.step = some (.listen t))
    (hd : v.link.duplex = some { reads := xs.length, bytesRead := xs.sum })
    (hx : ∀ x ∈ xs, 1 ≤ x) (hp : Plan.wait .service (.listen t) .timeout v o w)
    (hc : Concluded w o u) : Session b xs u ∧ Advanced v u := by
  obtain ⟨hduplex, hread, ho⟩ := wait_passes hp
  have hhooks : u.link.hooks = v.link.hooks := hc.silent.hooks.trans (wait_silent hp).hooks
  have hsession : Stage xs u → Session b xs u := fun hstage =>
    ⟨((hc.unmoved.moved .inward).trans hread).trans h.read,
      (congrArg (List.count .service) hhooks).trans h.calls, h.consumed, hstage⟩
  have hbefore := rounds_of_step hs
  rcases ho with ho | rfl | rfl
  · obtain ⟨hclosed, hnone⟩ := hc.closed ho
    exact ⟨hsession (.ended hclosed hnone), .inl hclosed⟩
  · obtain rfl := hc.eq_next rfl
    refine ⟨hsession (.going rfl (.inl rfl) (hduplex.trans hd) hx), .inr (.inr ?_)⟩
    rw [hbefore, ← hhooks]
    exact Nat.lt_succ_self _
  · obtain rfl := hc.eq_next rfl
    refine ⟨hsession (.going rfl (.inr ⟨t, rfl⟩) (hduplex.trans hd) hx),
      .inr (.inl ⟨hs.symm, ?_⟩)⟩
    rw [hbefore, ← hhooks]
    rfl

/-- A call is one more, and only if it consumed something the stream goes on. -/
private theorem Session.serves (h : Session b xs v) (hv : Ready .service v)
    (hs : v.link.step = some .service)
    (hd : v.link.duplex = some { reads := xs.length, bytesRead := xs.sum })
    (hx : ∀ x ∈ xs, 1 ≤ x) (hp : Plan.service v o w) (hc : Concluded w o u)
    (hle : v.link.stream.bytesRead ≤ u.link.stream.bytesRead) :
    Session b (xs ++ [u.link.stream.bytesRead - v.link.stream.bytesRead]) u ∧ Advanced v u := by
  have hround := service_round hv hd rfl hp
  have hread := h.read
  have hcount : u.link.hooks.count .service = v.link.hooks.count .service + 1 := by
    rw [hc.silent.hooks, hround.hooks, List.count_append]
    rfl
  have hsession : Stage (xs ++ [u.link.stream.bytesRead - v.link.stream.bytesRead]) u →
      Session b (xs ++ [u.link.stream.bytesRead - v.link.stream.bytesRead]) u := by
    refine fun hstage => ⟨?_, ?_, ?_, hstage⟩
    · rw [List.sum_append, List.sum_singleton]
      omega
    · rw [hcount, h.calls, List.length_append]
      rfl
    · rwa [List.dropLast_concat]
  have hends : o.isEnd = true →
      Session b (xs ++ [u.link.stream.bytesRead - v.link.stream.bytesRead]) u ∧
        Advanced v u := by
    intro ho
    obtain ⟨hclosed, hnone⟩ := hc.closed ho
    exact ⟨hsession (.ended hclosed hnone), .inl hclosed⟩
  cases hround with
  | broke h => exact hends h.isEnd
  | ended | stuck => exact hends rfl
  | @goes _ _ t _ hduplex hb =>
    obtain rfl := hc.eq_next rfl
    refine ⟨hsession (.going rfl (.inr ⟨t, rfl⟩) (hduplex.trans ?_) fun x hmem => ?_),
      .inr (.inr ?_)⟩
    · rw [List.length_append, List.sum_append, List.sum_singleton]
      rfl
    · rcases List.mem_append.1 hmem with hmem | hmem
      · exact hx x hmem
      · obtain rfl := List.mem_singleton.1 hmem
        exact Nat.sub_pos_of_lt hb
    · rw [rounds_of_step hs, rounds_of_step rfl, hcount]
      show 3 * _ + 2 < 3 * (_ + 1) + 1
      omega

/-- **A step of the task of an upgraded link** is the upgrade itself, a wait, or a call: it closes
the link, waits once more, or leads on. -/
theorem Session.stepped (h : Session b xs v) (hv : Ready step v) (hs : v.link.step = some step)
    (hp : plan step v o w) (hc : Concluded w o u)
    (hle : v.link.stream.bytesRead ≤ u.link.stream.bytesRead) :
    Session b (xs ++ if step = .service then
      [u.link.stream.bytesRead - v.link.stream.bytesRead] else []) u ∧ Advanced v u := by
  cases h.stage with
  | upgrading hs' hx =>
    obtain rfl := Option.some.inj (hs'.symm.trans hs)
    subst hx
    exact h.upgrades hv hs hp hc
  | going hs' hstep hd hx =>
    obtain rfl := Option.some.inj (hs'.symm.trans hs)
    rcases hstep with rfl | ⟨t, rfl⟩
    · exact h.serves hv hs hd hx hp hc hle
    · rw [if_neg nofun, List.append_nil]
      exact h.listens hs hd hx hp hc
  | ended _ hs' => exact nomatch hs'.symm.trans hs

/-! ## Where no call was made yet -/

/-- The handler was called for bytes only where an open link is a two-way stream. -/
def Unserviced (v : Stand) : Prop :=
  v.link.closed = false → v.link.machine.state ≠ .duplex → v.link.hooks.count .service = 0

/-- A task that has bytes served, or waits for them, leaves its link a two-way stream. -/
private theorem Ready.twoWay (hv : Ready step v) (hp : plan step v o w) (ho : o.isEnd = false)
    (hm : v.link.machine.state = .duplex) : w.link.machine.state = .duplex := by
  have hleads := (plan_leads step v o w hp).resolve_left (Bool.eq_false_iff.1 ho)
  have hdecided := hv.decided hp
  have hexpects := hv.expects
  rw [hm] at hexpects
  cases hleads with
  | service | idle | listenAgain => exact hdecided.expects.1
  | _ => simp [Expects] at hexpects

theorem Turn.unserviced (h : Turn v w) (hv : Standing v) (hu : Unserviced v) : Unserviced w := by
  intro hc hm
  cases h with
  | course h =>
    rw [h.silent.hooks]
    exact hu (h.open hc) fun hm' => hm ((h.abides hc).2.1.trans hm')
  | begin | idle => exact hu hc hm
  | doomed hd he hc' hc'' h => exact nomatch h.closed.symm.trans hc
  | @step _ x _ step o hs hp _ hconcluded =>
    have hready := (standing_some hs).1 hv
    have ho : o.isEnd = false := Bool.eq_false_iff.2 fun ho =>
      nomatch (hconcluded.closed ho).1.symm.trans hc
    obtain rfl := hconcluded.eq_next ho
    have hm' : v.link.machine.state ≠ .duplex := by
      intro h
      have hx := hready.twoWay hp ho h
      exact hm hx
    have hzero := hu hready.closed hm'
    -- Only a call for bytes would count, and that needs a two-way stream.
    rcases hready.invokes hp with ⟨hsilent, -⟩ | ⟨hook, hhook, hi⟩
    · show x.link.hooks.count .service = 0
      rw [hsilent.hooks]
      exact hzero
    · obtain ⟨_, more, hcalls, hmore, -⟩ := hi.calls
      show x.link.hooks.count .service = 0
      rw [Link.hooks_of_began hcalls hmore, List.count_append, hzero]
      cases step with
      | service => exact absurd hready.expects.1 hm'
      | resume timedOut => cases timedOut <;> (cases hhook; rfl)
      | accept | dispatch =>
        cases hhook
        rfl
      | _ => cases hhook

end Stand

namespace Engine

variable {s : Engine} {n : Nat} {k k' : Link} {v : Stand} {m : Move} {b : Nat} {xs : List Nat}

/-! ## What calls consumed -/

/-- What the call consumed that a move of the task of a link made for the bytes of a two-way
stream, where it made one. -/
def consumedBy (n : Nat) (m : Move) (s : Engine) : List Nat :=
  match m, s.link? n, (move m s).link? n with
  | .advance n', some k, some k' =>
    if n' = n ∧ k.step = some .service then [k'.stream.bytesRead - k.stream.bytesRead] else []
  | _, _, _ => []

/-- What such calls consumed, move by move. -/
def consumedIn (n : Nat) : List Move → Engine → List Nat := along (consumedBy n)

theorem consumedIn_concat (n : Nat) (moves : List Move) (m : Move) (s : Engine) :
    consumedIn n (moves ++ [m]) s = consumedIn n moves s ++ consumedBy n m (follow moves s) :=
  along_concat moves m s

theorem consumedBy_of_ne (hm : m ≠ .advance n) (s : Engine) : consumedBy n m s = [] := by
  unfold consumedBy
  split
  · next n' k k' _ _ => exact if_neg fun (h : n' = n ∧ _) => hm (h.1 ▸ rfl)
  · rfl

theorem consumedBy_advance (hk : s.link? n = some k) (hk' : (advance n s).link? n = some k') :
    consumedBy n (.advance n) s =
      if k.step = some .service then [k'.stream.bytesRead - k.stream.bytesRead] else [] := by
  have hmove : (move (.advance n) s).link? n = some k' := hk'
  unfold consumedBy
  rw [hk, hmove]
  exact if_congr (and_iff_right rfl) rfl rfl

variable {settings : Settings.Scheduler} {now : Nat}

theorem unserviced (moves : List Move) (hv : (after settings now moves).stand? n = some v) :
    v.Unserviced := by
  have h := after_stand settings now (P := fun v => v.Standing ∧ v.Unserviced)
    (fun i arrival v hstarted => ⟨hstarted.standing, fun _ _ => by rw [hstarted.hooks]; rfl⟩)
    (fun v w hv hturn => ⟨hv.1.turn hturn, hturn.unserviced hv.1 hv.2⟩) moves n v hv
  exact h.2

/-- A link that is about to be upgraded made no call for bytes yet. -/
theorem session_upgrading {moves : List Move} (hv : (after settings now moves).stand? n = some v)
    (hs : v.link.step = some .upgrade) : v.Session v.link.stream.bytesRead [] := by
  have hready := (Stand.standing_some hs).1 (standing settings now moves hv)
  have hnone := unserviced moves hv hready.closed (hready.expects.1.trans_ne nofun)
  exact ⟨rfl, hnone, nofun, .upgrading hs rfl⟩

/-- What was consumed is never given back. -/
theorem bytesRead_advance {moves : List Move} (hk : (after settings now moves).link? n = some k)
    (hk' : (advance n (after settings now moves)).link? n = some k') :
    k.stream.bytesRead ≤ k'.stream.bytesRead := by
  have hhoused := (audited settings now moves).housed n k hk
  obtain ⟨x, hx, -, hmoved, -⟩ := (advance_bills hk hhoused).link k hk hhoused
  obtain rfl := Option.some.inj (hx.symm.trans hk')
  exact hmoved .inward

/-- **One more move of a run.** -/
theorem session_move {moves : List Move} (hv : (after settings now moves).stand? n = some v)
    (h : v.Session b xs) (m : Move) :
    ∃ w, (after settings now (moves ++ [m])).stand? n = some w ∧
      w.Session b (xs ++ consumedBy n m (after settings now moves)) ∧ v.Advanced w := by
  rw [after_concat]
  by_cases hm : m = .advance n
  · subst hm
    have hk := (stand?_eq_some.1 hv).1
    show ∃ w, (advance n (after settings now moves)).stand? n = some w ∧ _
    cases hs : v.link.step with
    | none =>
      have hnothing := advance_of_none hv hs
      rw [consumedBy_advance hk (hnothing ▸ hk), hs, if_neg nofun, List.append_nil, hnothing]
      exact ⟨v, hv, h, .inr (.inl ⟨rfl, rfl⟩)⟩
    | some step =>
      obtain ⟨w, u, hu, hplan, -, hconcluded⟩ :=
        advance_step (after_sole settings now moves) hv hs
      have hready := (Stand.standing_some hs).1 (standing settings now moves hv)
      have hk' := (stand?_eq_some.1 hu).1
      have hstepped := h.stepped hready hs hplan hconcluded (bytesRead_advance hk hk')
      refine ⟨u, hu, ?_⟩
      rw [consumedBy_advance hk hk', hs]
      simpa only [Option.some.injEq] using hstepped
  · obtain ⟨w, hw, haside⟩ := move_aside hm hv
    rw [consumedBy_of_ne hm, List.append_nil]
    exact ⟨w, hw, h.aside haside⟩

/-- **Where an upgraded link stands after any moves.** -/
theorem session {before : List Move} (hv : (after settings now before).stand? n = some v)
    (hs : v.link.step = some .upgrade) (later : List Move) :
    ∃ w, (after settings now (before ++ later)).stand? n = some w ∧
      w.Session v.link.stream.bytesRead (consumedIn n later (after settings now before)) := by
  induction later using List.reverseRecOn with
  | nil =>
    rw [List.append_nil]
    exact ⟨v, hv, session_upgrading hv hs⟩
  | append_singleton later m ih =>
    obtain ⟨w, hw, hsession⟩ := ih
    obtain ⟨u, hu, hsession, -⟩ := session_move hw hsession m
    rw [after_append settings now before later, ← consumedIn_concat] at hsession
    exact ⟨u, List.append_assoc .. ▸ hu, hsession⟩

/-! ## Closing before the next wait -/

/-- A wait that was not made up for by the buffer was made on the socket. -/
theorem awaitReadable_pauses (hk : s.link? n = some k) :
    (awaitReadable n s).1 = .ok .ready ∨
      ∃ w, (awaitReadable n s).2.stand? n = some w ∧
        w.link.stream.pauses = k.stream.pauses + 1 := by
  cases hbuffered : k.stream.input.isEmpty with
  | false =>
    left
    unfold awaitReadable Stream.wait
    rw [hk]
    simp only [hbuffered, Bool.not_false, if_true]
  | true =>
    right
    obtain ⟨w, hw, hcourse⟩ := (awaitReadable_course hk).stand
      (stand?_setLink_self (stand?_of_link? hk) _)
    exact ⟨w, hw, hcourse.unserved.pauses.trans (k.stream.pauses_wait hbuffered)⟩

/-- **Before it waits a task looks whether its link is to close**, and whether it is late. -/
theorem waitOnce_cases (hk : s.link? n = some k) (t : Nat) (ready idle : Step)
    (late : CloseReason) :
    (s.isClosing k = true ∧
      waitOnce n t ready idle late s = (.close k.requestedClose, s)) ∨
    (s.isClosing k = false ∧ waitOnce n t ready idle late s = (.close late, s)) ∨
    (s.isClosing k = false ∧ ((waitOnce n t ready idle late s).1 = .next ready ∨
      ∃ w, (waitOnce n t ready idle late s).2.stand? n = some w ∧
        w.link.stream.pauses = k.stream.pauses + 1)) := by
  unfold waitOnce
  rw [hk]
  dsimp only
  cases hclosing : s.isClosing k with
  | true =>
    refine .inl ⟨rfl, ?_⟩
    unfold peerClosed closeReasonOr
    rw [if_pos rfl, hclosing, if_pos rfl]
  | false =>
    rw [if_neg Bool.false_ne_true]
    by_cases hlate : t - s.now = 0
    · exact .inr (.inl ⟨rfl, if_pos hlate⟩)
    · refine .inr (.inr ⟨rfl, ?_⟩)
      have hwaited := awaitReadable_pauses hk
      rw [if_neg hlate]
      generalize awaitReadable n s = waited at hwaited
      obtain ⟨r, e⟩ := waited
      rcases hwaited with rfl | hpauses
      · exact .inl rfl
      · refine .inr ?_
        cases r with
        | error kind => exact hpauses
        | ok readiness => cases readiness <;> exact hpauses

/-- A link that a step decided to close is closed for that reason, and not waited on any more. -/
theorem conclude_close (hv : s.stand? n = some v) (hc : v.link.closed = false)
    (reason : CloseReason) :
    ∃ w, (conclude n (.close reason) s).stand? n = some w ∧
      w.link.closeReason = some reason ∧ w.link.stream.pauses = v.link.stream.pauses := by
  obtain ⟨-, w, hw, hconcluded⟩ := conclude_concluded hv (.close reason)
  refine ⟨w, hw, ?_, hconcluded.unserved.pauses⟩
  cases hconcluded with
  | close ht => exact ht.closeReason hc
  | fail hf => rcases hf with hf | hf <;> cases hf

/-- Where a task waits for bytes, its link closes for a violation without a wait only if that is
what was asked for. -/
theorem closes_unpaused {moves : List Move} {t : Nat}
    (hv : (after settings now moves).stand? n = some v) (hs : v.link.step = some (.listen t)) :
    ∃ w, (after settings now (moves ++ [.advance n])).stand? n = some w ∧
      (w.link.closeReason = some .protocolViolation ∧
          w.link.stream.pauses = v.link.stream.pauses ↔
        v.link.closeRequest = some .protocolViolation) := by
  have hk := (stand?_eq_some.1 hv).1
  have hm := matched settings now moves hv
  have hopen := ((Stand.standing_some hs).1 (standing settings now moves hv)).closed
  have hstep : after settings now (moves ++ [.advance n]) = conclude n
      (waitOnce n t .service (.listen t) .timeout (after settings now moves)).1
      (waitOnce n t .service (.listen t) .timeout (after settings now moves)).2 :=
    (after_concat ..).trans (advance_eq hv hs)
  have hunasked : (after settings now moves).isClosing v.link = false →
      v.link.closeRequest ≠ some .protocolViolation := by
    intro hc hr
    have hclosing : v.link.closing = true := hm.symm.trans (congrArg Option.isSome hr)
    exact nomatch hclosing.symm.trans (Bool.or_eq_false_iff.1 hc).1
  rcases waitOnce_cases hk t .service (.listen t) .timeout with ⟨-, heq⟩ | ⟨hc, heq⟩ | ⟨hc, h⟩
  · obtain ⟨w, hw, hreason, hpauses⟩ := conclude_close hv hopen v.link.requestedClose
    rw [hstep, heq]
    have hrequested : v.link.ClosesAs .normal v.link.requestedClose := .inr rfl
    refine ⟨w, hw, ?_⟩
    rw [and_iff_left hpauses, hreason, Option.some_inj]
    exact Stand.closesAs_iff hrequested hm nofun nofun
  · obtain ⟨w, hw, hreason, -⟩ := conclude_close hv hopen .timeout
    rw [hstep, heq]
    refine ⟨w, hw, iff_of_false (fun h => ?_) (hunasked hc)⟩
    exact nomatch hreason.symm.trans h.1
  · obtain ⟨w, u, hw, hu, -, -, hconcluded⟩ :=
      advance_stepped (after_sole settings now moves) hv hs
    have hu' : (after settings now (moves ++ [.advance n])).stand? n = some u :=
      after_concat .. ▸ hu
    refine ⟨u, hu', iff_of_false ?_ (hunasked hc)⟩
    rintro ⟨hreason, hpauses⟩
    rcases h with hnext | ⟨w', hw', hwaited⟩
    · -- Bytes were there, and the task goes on.
      have hnext : (stepLink n (.listen t) (after settings now moves)).1 = .next .service := hnext
      rw [hnext] at hconcluded
      obtain rfl := hconcluded.eq_next rfl
      have hready := (Stand.standing_some rfl).1 (standing settings now _ hu')
      have htold := (told settings now _ hu').closeReason_eq_none hready.closed
      exact nomatch htold.symm.trans hreason
    · have hw' : (stepLink n (.listen t) (after settings now moves)).2.stand? n = some w' := hw'
      obtain rfl := Option.some.inj (hw'.symm.trans hw)
      have hlater := hconcluded.unserved.pauses
      omega

/-- What was asked of a closed link, and what it closed for, is settled. -/
theorem follow_closed (hs : s.scheduler.Sole) (hv : s.stand? n = some v)
    (hc : v.link.closed = true) (hnone : v.link.step = none) (moves : List Move) :
    ∃ w, (follow moves s).stand? n = some w ∧ v.link.Settled w.link ∧
      w.link.closeRequest = v.link.closeRequest := by
  obtain ⟨w, hw, hsettled, -, hrequest⟩ := follow_stand
    (P := fun w => v.link.Settled w.link ∧ w.link.step = none ∧
      w.link.closeRequest = v.link.closeRequest) (fun x y hx hturn => by
        have hclosed := hx.1.closed.trans hc
        obtain ⟨hsettled, hstep⟩ := hturn.settled hclosed hx.2.1
        exact ⟨hx.1.trans hsettled, hstep,
          (hturn.closeRequest hclosed hx.2.1).trans hx.2.2⟩)
    hs hv ⟨.refl _, hnone, rfl⟩ moves
  exact ⟨w, hw, hsettled, hrequest⟩

/-- A link that is driven stays with its task while that takes no step. -/
theorem follow_aside {step : Step} (hv : s.stand? n = some v) (hs : v.link.step = some step)
    {others : List Move} (ho : ∀ m ∈ others, m ≠ .advance n) :
    ∃ w, (follow others s).stand? n = some w ∧ w.link.step = some step ∧
      v.link.Unserved w.link := by
  induction others generalizing s v with
  | nil => exact ⟨v, hv, hs, .refl _⟩
  | cons m others ih =>
    obtain ⟨w, hw, hcourse | ⟨hnone, -⟩⟩ := move_aside (ho m List.mem_cons_self) hv
    · obtain ⟨u, hu, hstep, hunserved⟩ := ih hw (hcourse.step.trans hs)
        fun m hm => ho m (List.mem_cons_of_mem _ hm)
      exact ⟨u, hu, hstep, hcourse.unserved.trans hunserved⟩
    · exact nomatch hs.symm.trans hnone

/-- **After a call that returned and was flushed the link closes for a violation before it waits
again** exactly if the call neither ended the stream nor consumed a byte, or that reason was
asked for. -/
theorem violates_iff {moves others : List Move} {d : Duplex} {keep : Bool} {k₁ k₂ k₃ : Link}
    (hv : (after settings now moves).stand? n = some v) (hs : v.link.step = some .service)
    (hd : v.link.duplex = some d) (hc : d.closed = false)
    (h₁ : (after settings now (moves ++ [.advance n])).link? n = some k₁)
    (hcalls : k₁.calls = v.link.calls ++ Note.served .service keep)
    (ho : ∀ m ∈ others, m ≠ .advance n)
    (h₂ : (after settings now (moves ++ [.advance n] ++ others)).link? n = some k₂)
    (h₃ : (after settings now (moves ++ [.advance n] ++ others ++ [.advance n])).link? n =
      some k₃) :
    k₃.closeReason = some .protocolViolation ∧ k₃.stream.pauses = k₁.stream.pauses ↔
      k₁.duplex.any (·.closed) = false ∧ k₁.stream.bytesRead = v.link.stream.bytesRead ∨
        k₂.closeRequest = some .protocolViolation := by
  have hready := (Stand.standing_some hs).1 (standing settings now moves hv)
  obtain ⟨w, u, hu, hplan, hworked, hconcluded⟩ :=
    advance_step (after_sole settings now moves) hv hs
  have hread := bytesRead_advance (stand?_eq_some.1 hv).1 (stand?_eq_some.1 hu).1
  have hround := Stand.service_round hready hd hc hplan
  have hopen := hready.decided hplan
  have hu' : (after settings now (moves ++ [.advance n])).stand? n = some u :=
    after_concat .. ▸ hu
  obtain rfl : u.link = k₁ := Option.some.inj ((stand?_eq_some.1 hu').1.symm.trans h₁)
  have hsole := after_sole settings now (moves ++ [.advance n])
  -- What became of a closed link by the end was decided by the call.
  have hsettled : u.link.closed = true → u.link.step = none →
      k₃.closeReason = u.link.closeReason ∧ k₃.stream.pauses = u.link.stream.pauses ∧
        k₂.closeRequest = u.link.closeRequest := by
    intro hclosed hnone
    obtain ⟨x, hx, -, hrequest⟩ := follow_closed hsole hu' hclosed hnone others
    obtain ⟨y, hy, hsettled, -⟩ :=
      follow_closed hsole hu' hclosed hnone (others ++ [.advance n])
    rw [← after_append] at hx hy
    rw [← List.append_assoc] at hy
    obtain rfl : x.link = k₂ := Option.some.inj ((stand?_eq_some.1 hx).1.symm.trans h₂)
    obtain rfl : y.link = k₃ := Option.some.inj ((stand?_eq_some.1 hy).1.symm.trans h₃)
    exact ⟨hsettled.closeReason, congrArg (·.get .wait) hsettled.calls, hrequest⟩
  have hbytes := hconcluded.unmoved.moved .inward
  have hduplex := hconcluded.unserved.duplex
  generalize (stepLink n .service (after settings now moves)).1 = o at hround hopen hconcluded
  cases hround with
  | broke h =>
    obtain ⟨more, hcalls', -, hne⟩ := h.calls
    rw [hconcluded.silent.calls, hcalls', List.append_cancel_left_eq] at hcalls
    exact absurd hcalls (hne _ _)
  | @ended _ _ reason _ hd' hr =>
    obtain ⟨hclosed, hnone⟩ := hconcluded.closed rfl
    obtain ⟨hreason, hpauses, hrequest⟩ := hsettled hclosed hnone
    have htorn : u.link.closeReason = some reason ∧
        u.link.closeRequest = w.link.closeRequest := by
      cases hconcluded with
      | close ht => exact ⟨ht.closeReason hopen, ht.closeRequest⟩
      | fail hf => rcases hf with hf | hf <;> cases hf
    have hmatched := hworked.matched (matched settings now moves hv)
    have hiff : reason = .protocolViolation ↔ w.link.closeRequest = some .protocolViolation :=
      Stand.closesAs_iff hr hmatched nofun nofun
    rw [hreason, hrequest, htorn.1, htorn.2, and_iff_left hpauses, Option.some_inj, hiff,
      hduplex, hd']
    exact (or_iff_right fun h => nomatch h.1).symm
  | stuck _ hd' hb =>
    obtain ⟨hclosed, hnone⟩ := hconcluded.closed rfl
    obtain ⟨hreason, hpauses, -⟩ := hsettled hclosed hnone
    have htorn : u.link.closeReason = some .protocolViolation := by
      cases hconcluded with
      | close ht => exact ht.closeReason hopen
      | fail hf => rcases hf with hf | hf <;> cases hf
    refine iff_of_true ⟨hreason.trans htorn, hpauses⟩ (.inl ⟨?_, ?_⟩)
    · rw [hduplex, hd']
      exact hc
    · exact Nat.le_antisymm (Nat.le_trans (Nat.le_of_eq hbytes) hb) hread
  | goes _ _ hb =>
    obtain rfl := hconcluded.eq_next rfl
    obtain ⟨x, hx, hlistens, hunserved⟩ := follow_aside hu' rfl ho
    rw [← after_append] at hx
    obtain ⟨y, hy, hiff⟩ := closes_unpaused hx hlistens
    obtain rfl : x.link = k₂ := Option.some.inj ((stand?_eq_some.1 hx).1.symm.trans h₂)
    obtain rfl : y.link = k₃ := Option.some.inj ((stand?_eq_some.1 hy).1.symm.trans h₃)
    rw [hunserved.pauses] at hiff
    refine hiff.trans (or_iff_right ?_).symm
    rintro ⟨-, hsame⟩
    exact Nat.lt_irrefl _ (hsame ▸ hb)

/-! ## Streams end -/

/-- The engine after a run and the first of endlessly many moves that follow. -/
def afterFirst (settings : Settings.Scheduler) (now : Nat) (before : List Move)
    (later : Nat → Move) (i : Nat) : Engine :=
  after settings now (before ++ (List.range i).map later)

/-- **A two-way stream that is given finitely many bytes ends**, if none of its task's steps lasts
for ever. -/
theorem ends_of_bounded {before : List Move} {later : Nat → Move} {bound : Nat}
    (hv : (after settings now before).stand? n = some v) (hs : v.link.step = some .upgrade)
    (hb : ∀ i k, (afterFirst settings now before later i).link? n = some k →
      k.stream.bytesRead + k.stream.buffered ≤ bound)
    (hover : ∀ i k, (afterFirst settings now before later i).link? n = some k →
      k.step ≠ none → ∃ j k', i ≤ j ∧ (afterFirst settings now before later j).link? n = some k' ∧
        k'.step ≠ k.step) :
    ∃ i k, (afterFirst settings now before later i).link? n = some k ∧ k.closed = true := by
  choose w hw hsession using fun i => session hv hs ((List.range i).map later)
  have hk : ∀ i, (afterFirst settings now before later i).link? n = some (w i).link :=
    fun i => (stand?_eq_some.1 (hw i)).1
  by_contra hnever
  have hopen : ∀ i, (w i).link.closed ≠ true := fun i hc => hnever ⟨i, _, hk i, hc⟩
  have hnext : ∀ i, (w i).Advanced (w (i + 1)) := by
    intro i
    obtain ⟨x, hx, -, hadvanced⟩ := session_move (hw i) (hsession i) (later i)
    have hsucc := hw (i + 1)
    rw [List.range_succ, List.map_append, List.map_singleton, ← List.append_assoc] at hsucc
    obtain rfl := Option.some.inj (hx.symm.trans hsucc)
    exact hadvanced
  -- As long as it stands before the same step it is no further on; then it is.
  have hlater : ∀ i j, i ≤ j →
      (w j).link.step = (w i).link.step ∧ (w j).rounds = (w i).rounds ∨
        (w i).rounds < (w j).rounds := by
    intro i j hij
    induction j, hij using Nat.le_induction with
    | base => exact .inl ⟨rfl, rfl⟩
    | succ j _ ih =>
      rcases hnext j with hc | ⟨hstep, hsame⟩ | hlt
      · exact absurd hc (hopen (j + 1))
      · rw [hstep, hsame]
        exact ih
      · refine .inr (Nat.lt_of_le_of_lt ?_ hlt)
        rcases ih with ⟨-, hsame⟩ | hlt'
        · exact Nat.le_of_eq hsame.symm
        · exact Nat.le_of_lt hlt'
  have hgrows : ∀ r, ∃ i, r ≤ (w i).rounds := by
    intro r
    induction r with
    | zero => exact ⟨0, Nat.zero_le _⟩
    | succ r ih =>
      obtain ⟨i, hi⟩ := ih
      have hdriven : (w i).link.step ≠ none := by
        cases (hsession i).stage with
        | upgrading hs | going hs => exact fun h => nomatch hs.symm.trans h
        | ended hc => exact absurd hc (hopen i)
      obtain ⟨j, k', hij, hk', hne⟩ := hover i _ (hk i) hdriven
      obtain rfl : (w j).link = k' := Option.some.inj ((hk j).symm.trans hk')
      rcases hlater i j hij with ⟨hsame, -⟩ | hlt
      · exact absurd hsame hne
      · exact ⟨j, Nat.le_trans (Nat.succ_le_succ hi) hlt⟩
  obtain ⟨i, hi⟩ := hgrows (3 * (1 + bound) + 3)
  have hrounds := (w i).rounds_le
  have hcalls := (hsession i).calls
  have hlength := (hsession i).length_le
  have hread := (hsession i).read
  have hbound := hb i _ (hk i)
  omega

variable (settings now)

/-- **The loop of a two-way stream makes progress.** Of a link that a run is about to upgrade:

* each call for its bytes but the last consumed at least one, so there is at most one call more
  than bytes were consumed since the upgrade;
* at each call the stream shows how many there were before, and the bytes consumed since;
* after a call that returned and was flushed, whatever others do meanwhile, the link closes for a
  violation before it waits again exactly if the call neither ended the stream nor consumed a
  byte, or a violation is what the first who asked for the close gave as the reason;
* where the socket delivers finitely many bytes and no step of the task lasts for ever, neither a
  wait nor a call, the link closes. -/
theorem duplex_makes_progress {before : List Move} {n : Nat} {k₀ : Link}
    (hk : (after settings now before).link? n = some k₀) (hs : k₀.step = some .upgrade) :
    (∀ later, ∃ k, (after settings now (before ++ later)).link? n = some k ∧
      k.callsOf .service = (consumedIn n later (after settings now before)).length ∧
      k.stream.bytesRead =
        k₀.stream.bytesRead + (consumedIn n later (after settings now before)).sum ∧
      (∀ c ∈ (consumedIn n later (after settings now before)).dropLast, 1 ≤ c) ∧
      k.callsOf .service ≤ 1 + (k.stream.bytesRead - k₀.stream.bytesRead) ∧
      (k.step = some .service →
        k.duplex = some
          { reads := k.callsOf .service
            bytesRead := k.stream.bytesRead - k₀.stream.bytesRead
            closed := false } ∧
        ∀ keep others k₁ k₂ k₃,
          (after settings now (before ++ later ++ [.advance n])).link? n = some k₁ →
          k₁.calls = k.calls ++ Note.served .service keep →
          (∀ m ∈ others, m ≠ .advance n) →
          (after settings now (before ++ later ++ [.advance n] ++ others)).link? n = some k₂ →
          (after settings now (before ++ later ++ [.advance n] ++ others ++ [.advance n])).link? n =
            some k₃ →
          (k₃.closeReason = some .protocolViolation ∧ k₃.stream.pauses = k₁.stream.pauses ↔
            k₁.duplex.any (·.closed) = false ∧ k₁.stream.bytesRead = k.stream.bytesRead ∨
              k₂.closeRequest = some .protocolViolation))) ∧
    ∀ (later : Nat → Move) (bound : Nat),
      (∀ i k, (afterFirst settings now before later i).link? n = some k →
        k.stream.bytesRead + k.stream.buffered ≤ bound) →
      (∀ i k, (afterFirst settings now before later i).link? n = some k → k.step ≠ none →
        ∃ j k', i ≤ j ∧ (afterFirst settings now before later j).link? n = some k' ∧
          k'.step ≠ k.step) →
      ∃ i k, (afterFirst settings now before later i).link? n = some k ∧ k.closed = true := by
  have hv := stand?_of_link? hk
  refine ⟨fun later => ?_, fun later bound hb hover => ends_of_bounded hv hs hb hover⟩
  obtain ⟨w, hw, hsession⟩ := session hv hs later
  have hcalls : w.link.callsOf .service =
      (consumedIn n later (after settings now before)).length :=
    (Link.callsOf_eq ..).trans hsession.calls
  have hread : w.link.stream.bytesRead =
      k₀.stream.bytesRead + (consumedIn n later (after settings now before)).sum :=
    hsession.read
  have hsince : w.link.stream.bytesRead - k₀.stream.bytesRead =
      (consumedIn n later (after settings now before)).sum := by
    omega
  refine ⟨w.link, (stand?_eq_some.1 hw).1, hcalls, hread, hsession.consumed, ?_, fun hstep => ?_⟩
  · rw [hcalls, hsince]
    exact hsession.length_le
  · rw [hcalls, hsince]
    cases hsession.stage with
    | upgrading hs' => exact nomatch hs'.symm.trans hstep
    | ended _ hs' => exact nomatch hs'.symm.trans hstep
    | going _ _ hd _ =>
      exact ⟨hd, fun keep others k₁ k₂ k₃ h₁ hserved ho h₂ h₃ =>
        violates_iff hw hstep hd rfl h₁ hserved ho h₂ h₃⟩

/-- One connection that is about to be upgraded, with what its socket delivers and what its
handler does for the bytes. -/
def upgrading (input : Text.Bytes) (actions : List Action) : List Move :=
  [.build {} none,
    .accept 0
      { socket := { input }
        handler := { requests := [[⟨"duplex", .duplex, false⟩]], services := [actions] } },
    .begin 0] ++ List.replicate 3 (.advance 0)

/-- Two bytes are read at a time. -/
def readTwo : Action := ⟨"read", .transfer (.read 2), false⟩

/-- Where a task is over, nothing comes of its further steps. -/
theorem afterFirst_advance {before : List Move} {i j : Nat} (hij : i ≤ j)
    (hk : (afterFirst settings now before (fun _ => .advance n) i).link? n = some k)
    (hs : k.step = none) :
    afterFirst settings now before (fun _ => .advance n) j =
      afterFirst settings now before (fun _ => .advance n) i := by
  induction j, hij using Nat.le_induction with
  | base => rfl
  | succ j _ ih =>
    have hnext : afterFirst settings now before (fun _ => .advance n) (j + 1) =
        advance n (afterFirst settings now before (fun _ => .advance n) j) := by
      unfold afterFirst
      rw [List.range_succ, List.map_append, ← List.append_assoc]
      exact after_concat ..
    rw [hnext, ih]
    exact advance_of_none (stand?_of_link? hk) hs

/-- A handler that reads two bytes at a time is shown the first two when it is called again, and
after the third the stream ends. -/
theorem duplex_makes_progress_reading :
    (∃ k, (after {} 0 (upgrading [1, 2, 3] [readTwo] ++ List.replicate 4 (.advance 0))).link? 0 =
        some k ∧ k.callsOf .service = 1 ∧
      k.duplex = some { reads := 1, bytesRead := 2, closed := false }) ∧
    ∃ i k, (afterFirst {} 0 (upgrading [1, 2, 3] [readTwo]) (fun _ => .advance 0) i).link? 0 =
      some k ∧ k.closed = true := by
  have hupgrades : ((after {} 0 (upgrading [1, 2, 3] [readTwo])).link? 0).map
      (fun k => (k.step, k.stream.bytesRead)) = some (some .upgrade, 0) := by
    decide
  obtain ⟨k₀, hk₀, hfields₀⟩ := Option.map_eq_some_iff.1 hupgrades
  obtain ⟨hs₀, hread₀⟩ := Prod.mk.inj hfields₀
  obtain ⟨hcalls, hends⟩ := duplex_makes_progress {} 0 hk₀ hs₀
  refine ⟨?_, ?_⟩
  · obtain ⟨k, hk, -, -, -, -, hshows⟩ := hcalls (List.replicate 4 (.advance 0))
    have hserves : ((after {} 0 (upgrading [1, 2, 3] [readTwo] ++
        List.replicate 4 (.advance 0))).link? 0).map
          (fun k => (k.step, k.callsOf .service, k.stream.bytesRead)) =
        some (some .service, 1, 2) := by
      decide
    rw [hk] at hserves
    obtain ⟨hs, hone, hread⟩ : k.step = some .service ∧ k.callsOf .service = 1 ∧
        k.stream.bytesRead = 2 := by
      simpa using hserves
    refine ⟨k, hk, hone, ?_⟩
    rw [(hshows hs).1, hone, hread, hread₀]
  · -- The task is over after six steps, each of which leads on.
    have hrun : ∀ i ∈ List.range 7,
        (((afterFirst {} 0 (upgrading [1, 2, 3] [readTwo]) (fun _ => .advance 0) i).link? 0).any
          fun k => k.stream.bytesRead + k.stream.buffered ≤ 3) = true ∧
        (i < 6 →
          ((afterFirst {} 0 (upgrading [1, 2, 3] [readTwo]) (fun _ => .advance 0)
            (i + 1)).link? 0).map (·.step) ≠
          ((afterFirst {} 0 (upgrading [1, 2, 3] [readTwo]) (fun _ => .advance 0) i).link? 0).map
            (·.step)) := by
      decide
    have hover : ((afterFirst {} 0 (upgrading [1, 2, 3] [readTwo]) (fun _ => .advance 0)
        6).link? 0).map (·.step) = some none := by
      decide
    obtain ⟨x, hx, hnone⟩ := Option.map_eq_some_iff.1 hover
    refine hends (fun _ => .advance 0) 3 (fun i k hk => ?_) fun i k hk hne => ?_
    · have hany : ((afterFirst {} 0 (upgrading [1, 2, 3] [readTwo])
          (fun _ => .advance 0) i).link? 0).any
            (fun k => k.stream.bytesRead + k.stream.buffered ≤ 3) = true := by
        rcases Nat.le_total i 6 with hle | hge
        · exact (hrun i (List.mem_range.2 (Nat.lt_succ_of_le hle))).1
        · rw [afterFirst_advance {} 0 hge hx hnone]
          exact (hrun 6 (by decide)).1
      rw [hk] at hany
      simpa using hany
    · rcases Nat.lt_or_ge i 6 with hlt | hge
      · obtain ⟨hany, -⟩ := hrun (i + 1) (List.mem_range.2 (Nat.succ_lt_succ hlt))
        obtain ⟨k', hk', -⟩ := (Option.any_eq_true _ _).1 hany
        have hleads := (hrun i (List.mem_range.2 (Nat.lt_succ_of_lt hlt))).2 hlt
        refine ⟨i + 1, k', Nat.le_succ i, hk', fun hsame => hleads ?_⟩
        rw [hk, hk']
        exact congrArg some hsame
      · rw [afterFirst_advance {} 0 hge hx hnone, hx] at hk
        cases hk
        exact absurd hnone hne

/-- A handler that reads two bytes, ends the stream and asks for its link to be closed for a
violation. -/
def violating : List Action :=
  [readTwo, ⟨"duplex_close", .duplexClose, false⟩,
    ⟨"close_self", .closeSelf (some .protocolViolation), false⟩]

/-- A link may close for a violation at once though the call returned, was flushed, consumed bytes
and ended the stream: its handler asked for that. -/
theorem closes_for_violation_asked_for :
    ∃ k k₁, (after {} 0 (upgrading [1, 2, 3] violating ++ List.replicate 2 (.advance 0))).link? 0 =
        some k ∧ k.step = some .service ∧
      (after {} 0 (upgrading [1, 2, 3] violating ++ List.replicate 2 (.advance 0) ++
        [.advance 0])).link? 0 = some k₁ ∧
      k₁.calls = k.calls ++ Note.served .service true ∧
      k.stream.bytesRead < k₁.stream.bytesRead ∧ k₁.duplex.any (·.closed) = true ∧
      k₁.closed = true ∧ k₁.closeReason = some .protocolViolation ∧
      k₁.stream.pauses = k.stream.pauses := by
  have hbefore : ((after {} 0 (upgrading [1, 2, 3] violating ++
      List.replicate 2 (.advance 0))).link? 0).map
        (fun k => (k.step, k.calls, k.stream.bytesRead, k.stream.pauses)) =
      some (some .service, Note.served .start true ++ Note.served .request true, 0, 1) := by
    decide
  have hafter : ((after {} 0 (upgrading [1, 2, 3] violating ++ List.replicate 2 (.advance 0) ++
      [.advance 0])).link? 0).map
        (fun k => ((k.calls, k.stream.bytesRead, k.stream.pauses), k.duplex.any (·.closed),
          k.closed, k.closeReason)) =
      some ((Note.served .start true ++ Note.served .request true ++ Note.served .service true, 2,
        1), true, true, some .protocolViolation) := by
    decide
  obtain ⟨k, hk, hfields⟩ := Option.map_eq_some_iff.1 hbefore
  obtain ⟨k₁, hk₁, hfields₁⟩ := Option.map_eq_some_iff.1 hafter
  simp only [Prod.mk.injEq] at hfields hfields₁
  obtain ⟨hs, hcalls, hread, hpauses⟩ := hfields
  obtain ⟨⟨hcalls₁, hread₁, hpauses₁⟩, hended, hclosed, hreason⟩ := hfields₁
  refine ⟨k, k₁, hk, hs, hk₁, ?_, ?_, hended, hclosed, hreason, ?_⟩
  · rw [hcalls₁, hcalls]
  · rw [hread, hread₁]
    decide
  · rw [hpauses, hpauses₁]

end Engine

end LinkEngine

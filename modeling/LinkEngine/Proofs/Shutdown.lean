import LinkEngine.Proofs.Whole

/-!
# What a shutdown comes to

A listener that shuts down gets no more links, and those it has leave, so once their tasks have
run nothing of them is left (`Emptied`). What is left to say is what they close for: a link that
obeys closes for the first reason it was asked to close for, until its task ends for a reason of
its own (`obeys_follow`). All of it together is `shutdown_closes_all`.
-/

namespace LinkEngine

open Connection (CloseReason)
open Link (Outcome Step)

namespace Engine

variable {s : Engine} {i l : Nat} {k k' : Link} {v : Stand} {m : Move}
variable {settings : Settings.Scheduler} {now : Nat}

/-! ## Reasons -/

/-- The next step of the task of a link closes it for a reason of its own. -/
def endsForItself (s : Engine) (l : Nat) : Bool :=
  ((s.link? l).bind (·.step)).any fun step => (stepLink l step s).1.isOwn

/-- A link that obeys does so after a move, unless its own task closes it before anybody
asked, or for a reason of its own. -/
private theorem obeys_move {moves : List Move}
    (hv : (after settings now moves).stand? l = some v) (ho : v.link.Obeys)
    (hm : m.advances l = true → v.link.mayRest = true → v.link.closing = false)
    (hown : m.advances l = true → (after settings now moves).endsForItself l = false) :
    ∃ w, (after settings now (moves ++ [m])).stand? l = some w ∧ (w.link.Obeys ∨
      m = .advance l ∧ v.link.closed = false ∧ v.link.closing = false ∧ w.link.Unasked) := by
  have hstanding := standing settings now moves hv
  have hmatched := matched settings now moves hv
  have hsole := after_sole settings now moves
  rw [after_concat]
  cases hadvances : m.advances l with
  | false =>
    obtain ⟨w, hw, hturn, hcourse⟩ := move_turn_of_others hsole hadvances hv
    refine ⟨w, hw, .inl ?_⟩
    rcases hcourse with hstep | hcourse
    · cases hturn with
      | course h => exact h.obeys ho
      | begin => exact ho.next _
      | idle => exact ho
      | doomed hd he hc hc' h =>
        refine (h.obeys hc hmatched fun _ => rfl).resolve_right fun hunasked => ?_
        exact nomatch hunasked.2.symm.trans (h.grown.closing hc')
      | step hs => exact nomatch hs.symm.trans hstep
    · exact hcourse.obeys ho
  | true =>
    obtain rfl := Move.eq_of_advances hadvances
    obtain ⟨hk, -⟩ := stand?_eq_some.1 hv
    cases hstep : v.link.step with
    | none =>
      have hsame : move (.advance l) (after settings now moves) = after settings now moves :=
        advance_of_none hv hstep
      exact ⟨v, hsame.symm ▸ hv, .inl ho⟩
    | some step =>
      obtain ⟨w, x, hx, hplan, hworked, hconcluded⟩ := advance_step hsole hv hstep
      have hends := hown hadvances
      unfold endsForItself at hends
      rw [hk, Option.bind_some, hstep] at hends
      refine ⟨x, hx, (Stand.step_obeys hstanding hstep hplan hworked hconcluded hmatched
        (fun hrest => hm hadvances ((Link.mayRest_of_some hstep).trans hrest)) hends).imp_right
        fun hunasked => ⟨rfl, ((Stand.standing_some hstep).1 hstanding).closed, ?_, hunasked⟩⟩
      -- Had somebody asked before, it would be known still.
      refine Bool.eq_false_iff.2 fun hclosing => ?_
      have := (hworked.grown.trans hconcluded.grown).closing hclosing
      exact nomatch hunasked.2.symm.trans this

/-- **A link that leaves and obeys does so until its task ends for a reason of its own.** -/
private theorem obeys_follow {moves : List Move}
    (hv : (after settings now moves).stand? l = some v) (ho : v.link.Obeys)
    (hl : v.link.Leaving) (later : List Move) :
    ∃ w, (after settings now (moves ++ later)).stand? l = some w ∧ w.link.Leaving ∧
      (w.link.Obeys ∨ ∃ before rest, later = before ++ .advance l :: rest ∧
        (after settings now (moves ++ before)).endsForItself l = true) := by
  induction later using List.reverseRecOn with
  | nil => exact ⟨v, (List.append_nil moves).symm ▸ hv, hl, .inl ho⟩
  | append_singleton later m ih =>
    obtain ⟨w, hw, hleaving, h⟩ := ih
    rw [← List.append_assoc]
    have hstanding := standing settings now _ hw
    obtain ⟨x, hx, hturn⟩ := move_turn (after_sole settings now _) m hw
    rw [← after_concat] at hx
    refine ⟨x, hx, hturn.leaving hstanding (matched settings now _ hw) hleaving, ?_⟩
    rcases h with hobeys | ⟨before, rest, rfl, hown⟩
    · by_cases hown : m.advances l = true ∧
          (after settings now (moves ++ later)).endsForItself l = true
      · exact .inr ⟨later, [], by rw [Move.eq_of_advances hown.1], hown.2⟩
      · have hrest : w.link.mayRest = true → w.link.closing = false := by
          intro hrest
          cases hc : w.link.closed with
          | false => exact nomatch (hleaving.mayRest hc).symm.trans hrest
          | true => exact nomatch (Link.mayRest_of_none (hstanding.gone hc).2).symm.trans hrest
        obtain ⟨x', hx', h⟩ := obeys_move hw hobeys (fun _ => hrest) fun hadvances =>
          Bool.eq_false_iff.2 fun h => hown ⟨hadvances, h⟩
        obtain rfl : x' = x := Option.some.inj (hx'.symm.trans hx)
        refine .inl (h.resolve_right ?_)
        rintro ⟨-, hc, hclosing, -⟩
        exact nomatch hclosing.symm.trans (hleaving.heeding hc).1
    · exact .inr ⟨before, rest ++ [m], by simp, hown⟩

/-- What a link that was open before the move that shuts its listener down closes for. -/
private theorem reason_of_shutdown {before later : List Move}
    (hi : i < (after settings now before).listeners.length)
    (hrun : (after settings now before).isShuttingDown i = false)
    (hdown : (after settings now (before ++ [m])).isShuttingDown i = true)
    (hm : (after settings now before).Undecided i m)
    (hk : (after settings now before).link? l = some k) (hlistener : k.listener = i)
    (hopen : k.closed = false) (hp : k.closing = true → k.request.isParked = false)
    (hk' : (after settings now (before ++ m :: later)).link? l = some k')
    (hclosed : k'.closed = true) :
    k'.closeReason = some k'.requestedClose ∨
      (∃ earlier rest, m :: later = earlier ++ .advance l :: rest ∧
        (after settings now (before ++ earlier)).endsForItself l = true) ∨
      m = .advance l ∧ ∃ x, (after settings now (before ++ [m])).link? l = some x ∧ x.Unasked := by
  have hv := stand?_of_link? hk
  have hobeys : k.Obeys := .of_open (matched settings now before hv) hopen hp
  by_cases hown : m.advances l = true ∧ (after settings now before).endsForItself l = true
  · refine .inr (.inl ⟨[], later, ?_, ?_⟩)
    · rw [Move.eq_of_advances hown.1]
      rfl
    · rw [List.append_nil]
      exact hown.2
  obtain ⟨w, hw, h⟩ := obeys_move hv hobeys
    (fun _ hrest => (hm l k hk hlistener hopen hrest).2)
    fun hadvances => Bool.eq_false_iff.2 fun h => hown ⟨hadvances, h⟩
  rcases h with hobeys | ⟨hself, -, -, hunasked⟩
  · have hleaving : w.link.Leaving := by
      obtain ⟨x, hx, hturn⟩ := move_turn (after_sole settings now before) m hv
      rw [← after_concat] at hx
      obtain rfl : x = w := Option.some.inj (hx.symm.trans hw)
      exact leaves_of_shutdown hi hrun hdown hm l x.link (stand?_eq_some.1 hx).1
        ((congrArg Prod.fst hturn.owner).trans hlistener)
    obtain ⟨x, hx, -, h⟩ := obeys_follow hw hobeys hleaving later
    rw [List.append_assoc, List.singleton_append] at hx
    obtain rfl : x.link = k' := Option.some.inj ((stand?_eq_some.1 hx).1.symm.trans hk')
    rcases h with hobeys | ⟨earlier, rest, rfl, hends⟩
    · exact .inl (hobeys.reason hclosed)
    · refine .inr (.inl ⟨m :: earlier, rest, rfl, ?_⟩)
      rwa [List.append_assoc, List.singleton_append] at hends
  · exact .inr (.inr ⟨hself, w.link, (stand?_eq_some.1 hw).1, hunasked⟩)

/-- **A listener that is shut down asks each of its links that it finds open to close.** What
counts is the first reason that was given, which is the shutdown where nobody asked
before. -/
theorem shutdownListener_asks {d : Nat} {tear : Teardown} (hT : Tears d tear)
    (hs : s.openLinks ≤ d) (hrun : (s.listener i).stopped = false) {first rest : List Nat}
    (hreg : (s.listener i).registry = first ++ l :: rest)
    (hk : (closeAll tear first .shutdown (haltListener i s)).link? l = some k)
    (hc : k.closed = false) :
    ∃ k', (shutdownListener tear i s).link? l = some k' ∧ k'.closing = true ∧
      k'.closeRequest = some (k.closeRequest.getD .shutdown) := by
  have hask : ∀ (s : Engine) (l : Nat), s.openLinks ≤ d →
      Course s (closeWith tear l .shutdown s) := fun s l hs => closeWith_course hT hs l .shutdown
  have hd : (closeAll tear first .shutdown (haltListener i s)).openLinks ≤ d :=
    Nat.le_trans (foldl_course (s := haltListener i s) hs hask first).openLinks_le hs
  obtain ⟨x, hx, hclosing, hrequest⟩ := closeWith_closing hT hd .shutdown hk hc
  -- What comes after it leaves it at that.
  have hrest := foldl_course (Nat.le_trans (hask _ l hd).openLinks_le hd) hask rest
  obtain ⟨w, hw, hcourse⟩ := hrest.stand (stand?_of_link? hx)
  refine ⟨w.link, ?_, hcourse.grown.closing hclosing, hcourse.grown.closeRequest _ hrequest⟩
  rw [shutdownListener_eq tear hrun, hreg]
  unfold closeAll
  rw [List.foldl_append, List.foldl_cons]
  exact (stand?_eq_some.1 hw).1

variable (settings now) in
/-- **Shutdown closes everything.** Let a move of a run be the one by which a listener begins
to shut down: somebody shuts it down or raises the signal, from outside, from a hook, or
while a handler is made. The links that no task drives may be new, queued, parked between
requests or within one, woken, or to close already, as they like. Each task that began ran to its
end before anything else happened; or else tasks may be on the way with others, in a hook or
elsewhere, as long as none is between its last look at whether its link is to close and the
parking of it. Then

* from that move on each connection that is brought to the listener is turned away and
  counted as rejected;
* once all tasks of its links have run, in whatever order and whatever else happens, and
  from then on, all links it ever had are closed, none counts as alive, none is registered,
  and neither a deadline of them nor its housekeeping is queued;
* a link that was open closes for the first reason it was asked to close for, unless its task
  ends for a reason of its own: it panics, lacks memory, comes to the end of its time in
  suspension or breaks the protocol, or the step that shuts the listener down closed the link
  before anybody asked. Where tasks were on the way together, this leaves out a link that was
  to close already and is parked all the same;
* each link that is open when the shutdown comes to it is asked to close then, so the first
  reason is the shutdown where nobody asked before. -/
theorem shutdown_closes_all (before later : List Move) (m : Move)
    (hi : i < (after settings now before).listeners.length)
    (hrun : (after settings now before).isShuttingDown i = false)
    (hdown : (after settings now (before ++ [m])).isShuttingDown i = true)
    (hm : runsWhole (before ++ [m]) (create settings now) = true ∨
      (after settings now before).Undecided i m) :
    (∀ arrival, accept i arrival (after settings now (before ++ m :: later)) =
      (.refused .shuttingDown, ((after settings now (before ++ m :: later)).addSlot
        arrival.socket).count i .rejected)) ∧
    ((after settings now (before ++ m :: later)).Finished i → ∀ more,
      (after settings now (before ++ m :: later ++ more)).Emptied i) ∧
    (∀ l k k', (after settings now before).link? l = some k → k.listener = i →
      k.closed = false → (runsWhole (before ++ [m]) (create settings now) = true ∨
        (k.closing = true → k.request.isParked = false)) →
      (after settings now (before ++ m :: later)).link? l = some k' → k'.closed = true →
      k'.closeReason = some k'.requestedClose ∨
      (∃ earlier rest, m :: later = earlier ++ .advance l :: rest ∧
        (after settings now (before ++ earlier)).endsForItself l = true) ∨
      m = .advance l ∧ ∃ x, (after settings now (before ++ [m])).link? l = some x ∧ x.Unasked) ∧
    (∀ d tear s first rest l k, Tears d tear → s.openLinks ≤ d → (s.listener i).stopped = false →
      (s.listener i).registry = first ++ l :: rest →
      (closeAll tear first .shutdown (haltListener i s)).link? l = some k → k.closed = false →
      ∃ k', (shutdownListener tear i s).link? l = some k' ∧ k'.closing = true ∧
        k'.closeRequest = some (k.closeRequest.getD .shutdown)) := by
  have hundecided := hm.elim (fun hwhole => undecided_of_runsWhole hwhole i) id
  have hsplit : before ++ m :: later = before ++ [m] ++ later := by
    rw [List.append_assoc, List.singleton_append]
  have hlater : (after settings now (before ++ m :: later)).isShuttingDown i = true := by
    rw [hsplit, after_append]
    exact (follow_shuts later _).isShuttingDown hdown
  refine ⟨accept_of_shuttingDown hlater, ?_, ?_, ?_⟩
  · intro hf more
    have hlength : (after settings now before).listeners.length ≤
        (after settings now (before ++ m :: later)).listeners.length := by
      rw [after_append]
      exact (follow_shuts (m :: later) _).length
    refine emptied_of_finished (Nat.lt_of_lt_of_le hi hlength) hlater ?_ hf more
    rw [hsplit]
    exact leaves_follow hdown (leaves_of_shutdown hi hrun hdown hundecided) later
  · intro l k k' hk hlistener hopen hp hk' hclosed
    have hunparked : k.closing = true → k.request.isParked = false := by
      rcases hp with hwhole | hp
      · rw [runsWhole_append, Bool.and_eq_true] at hwhole
        exact fun hclosing => unparked_of_runsWhole hwhole.1 hk hclosing hopen
      · exact hp
    exact reason_of_shutdown hi hrun hdown hundecided hk hlistener hopen hunparked hk' hclosed
  · exact fun d tear s first rest l k hT hs hrun hreg hk hc =>
      shutdownListener_asks hT hs hrun hreg hk hc

/-- Of three connections the first is suspended and the second is queued when the request of
the third shuts the listener down: this is what happened before that. -/
def beforeShutdown : List Move :=
  suspending 4 ++ [.accept 0 { socket := {} },
    .accept 0 {
      socket := {}
      handler := { requests := [[⟨"shutdown", .operate (.shutdown 0), false⟩]] } },
    .begin 1, .advance 2]

/-- When the tasks of the other two have run, a fourth connection is turned away, and nothing
is left of the three. -/
theorem shutdown_closes_all_request :
    (accept 0 { socket := {} } (after {} 0 (beforeShutdown ++
      .advance 2 :: [.advance 2, .advance 2, .begin 0]))).1 = .refused .shuttingDown ∧
    ∀ more, (after {} 0 (beforeShutdown ++
      .advance 2 :: [.advance 2, .advance 2, .begin 0] ++ more)).Emptied 0 := by
  have hdriven : (after {} 0 (beforeShutdown ++
      .advance 2 :: [.advance 2, .advance 2, .begin 0])).links.all (!·.isDriven) = true := by
    decide
  have htasks : (after {} 0 (beforeShutdown ++
      .advance 2 :: [.advance 2, .advance 2, .begin 0])).tasks = [] := by
    decide
  have hwhole : runsWhole (beforeShutdown ++ [.advance 2]) (create {} 0) = true := by decide
  obtain ⟨haccept, hemptied, -⟩ := shutdown_closes_all {} 0 beforeShutdown
    [.advance 2, .advance 2, .begin 0] (.advance 2) (i := 0) (by decide) (by decide) (by decide)
    (.inl hwhole)
  exact ⟨congrArg Prod.fst (haccept _), hemptied (finished_of_idle hdriven htasks 0)⟩

end Engine

end LinkEngine

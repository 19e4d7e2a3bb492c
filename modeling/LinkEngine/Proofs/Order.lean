import LinkEngine.Proofs.Growth
import LinkEngine.Proofs.Hooks
import LinkEngine.Proofs.Requests
import Mathlib.Data.List.Chain

/-!
# The order of hooks

Move by move a run shows which hooks of a link are called, how they end, and what they leave
behind (`Engine.callsIn`). A call admits certain hooks after it, and no others
(`Hook.Call.Admits`); throughout every run each call was admitted by the one before it
(`Engine.hooks_in_order`). Between two moves the hook that a link heads for is one that the
last call admits (`Awaits`), and each step is checked against that.
-/

namespace LinkEngine

open Connection (CloseReason State)
open Link (Ending Note Outcome Pending Step)

/-! ## Calls -/

/-- A call of a hook, with what was found when the move that made it was over. -/
structure Hook.Call where
  hook : Hook
  /-- How it ended. -/
  ending : Option Ending
  /-- The upgrade that it asked for. -/
  asked : Pending
  /-- How many bytes of the stream were consumed. -/
  consumed : Nat
  /-- The two-way stream was ended. -/
  ended : Bool

namespace Hook.Call

/-- The hook returned. -/
def Returned (c : Call) : Prop := ∃ keep, c.ending = some (.returned keep)

/-- The call was one for a request, or for a request that was taken up again. -/
def Serves (c : Call) : Prop := c.hook = .request ∨ c.hook = .resume

/-- The hooks that may be called next after a call. -/
def Admits (c : Call) : Hook → Prop
  | .start => False
  | .request => c.hook = .start ∧ c.Returned ∨
      c.Serves ∧ c.ending = some (.returned true) ∧ c.asked = .none
  | .resume | .suspendTimeout => c.Serves ∧ c.Returned ∧ ∃ comet, c.asked = .comet comet
  | .service => c.hook = .request ∧ c.Returned ∧ c.asked = .duplex ∨
      c.hook = .service ∧ c.Returned ∧ c.ended = false ∧ 0 < c.consumed
  | .close => c.hook ≠ .close

/-- The hooks that may be called next, after the last call if there was one. -/
def Admitted : Option Call → Hook → Prop
  | none, hook => hook = .start ∨ hook = .close
  | some c, hook => c.Admits hook

/-- Each call is admitted by the one before it, and the first one where there was none. -/
structure Orderly (calls : List Call) : Prop where
  first : ∀ c ∈ calls.head?, Admitted none c.hook
  next : calls.IsChain fun c d => c.Admits d.hook

variable {c : Call} {calls : List Call}

theorem orderly_nil : Orderly [] := ⟨fun _ hc => (nomatch hc), .nil⟩

theorem Orderly.concat (h : Orderly calls) (hc : Admitted calls.getLast? c.hook) :
    Orderly (calls ++ [c]) := by
  refine ⟨?_, List.isChain_append.2 ⟨h.next, .singleton c, ?_⟩⟩
  · cases calls with
    | nil =>
      intro d hd
      cases hd
      exact hc
    | cons d rest => exact h.first
  · intro d hd e he
    cases he
    rw [hd] at hc
    exact hc

/-- The start hook is called first. -/
theorem Orderly.start (h : Orderly calls) : ∀ c ∈ calls.tail, c.hook ≠ .start := by
  intro c hc hstart
  cases calls with
  | nil => cases hc
  | cons d rest =>
    -- No call admits a start hook after it.
    obtain ⟨front, back, rfl⟩ := List.append_of_mem hc
    have hnext := h.next
    rw [← List.cons_append] at hnext
    have hadmits := (List.isChain_append.1 hnext).2.2 _
      (List.getLast?_eq_some_getLast (List.cons_ne_nil d front)) c rfl
    rw [hstart] at hadmits
    exact hadmits

/-- What a call must have been to admit another hook than the close hook. -/
private theorem of_admits {hook : Hook} (h : c.Admits hook) :
    hook = .close ∧ c.hook ≠ .close ∨ c.hook = .start ∨ c.Serves ∨ c.hook = .service := by
  cases hook with
  | start => exact h.elim
  | request => exact .inr (h.imp And.left fun h => .inl h.1)
  | resume | suspendTimeout => exact .inr (.inr (.inl h.1))
  | service => exact .inr (.inr (h.imp (fun h => .inl h.1) And.left))
  | close => exact .inl ⟨rfl, h⟩

/-- Nothing is admitted after the close hook. -/
theorem ne_close_of_admits {hook : Hook} (h : c.Admits hook) : c.hook ≠ .close := by
  intro hc
  rcases of_admits h with ⟨-, h⟩ | h | (h | h) | h
  · exact h hc
  all_goals exact nomatch h.symm.trans hc

/-- Only the close hook is admitted after a suspended request timed out. -/
theorem eq_close_of_admits {hook : Hook} (h : c.Admits hook) (hc : c.hook = .suspendTimeout) :
    hook = .close := by
  rcases of_admits h with ⟨h, -⟩ | h | (h | h) | h
  · exact h
  all_goals exact nomatch h.symm.trans hc

theorem Orderly.suspendTimeout (h : Orderly calls) :
    calls.IsChain fun c d => c.hook = .suspendTimeout → d.hook = .close :=
  h.next.imp fun _ _ => eq_close_of_admits

/-- The close hook is called last. -/
theorem Orderly.close (h : Orderly calls) : ∀ c ∈ calls.dropLast, c.hook ≠ .close := by
  intro c hc
  obtain ⟨front, back, hfront⟩ := List.append_of_mem hc
  cases hcalls : calls.getLast? with
  | none =>
    rw [List.getLast?_eq_none_iff.1 hcalls] at hc
    cases hc
  | some last =>
    -- Some call comes right after it.
    have hnext := h.next
    rw [← List.dropLast_append_getLast? last hcalls, hfront, List.append_assoc,
      List.cons_append] at hnext
    have htail := hnext.right_of_append
    cases back with
    | nil => exact ne_close_of_admits (List.isChain_cons_cons.1 htail).1
    | cons d back => exact ne_close_of_admits (List.isChain_cons_cons.1 htail).1

end Hook.Call

/-! ## What a move shows of them -/

namespace Link

/-- The hook of which the note says that it was called. -/
def Note.called? : Note → Option Hook
  | .began hook => some hook
  | .closing _ => some .close
  | _ => none

/-- How this hook ended, if the note tells that. -/
def Note.endingOf? (hook : Hook) : Note → Option Ending
  | .ended hook' ending => if hook' = hook then some ending else none
  | _ => none

/-- The hooks that were called, the close hook among them. -/
def called (k : Link) : List Hook := k.history.filterMap Note.called?

/-- The notes that were written since a link was in an earlier state, or since it was made. -/
def notesSince (before : Option Link) (k : Link) : List Note :=
  k.history.drop (before.elim 0 (·.history.length))

/-- A call of this hook that was made meanwhile. -/
def callSince (before : Option Link) (k : Link) (hook : Hook) : Hook.Call :=
  { hook
    ending := ((k.notesSince before).filterMap (Note.endingOf? hook)).head?
    asked := k.pending
    consumed := k.stream.bytesRead - before.elim 0 (·.stream.bytesRead)
    ended := k.duplex.any (·.closed) }

/-- The calls that were made meanwhile. -/
def callsSince (before : Option Link) (k : Link) : List Hook.Call :=
  ((k.notesSince before).filterMap Note.called?).map (k.callSince before)

end Link

namespace Engine

/-- The calls of the hooks of a link, move by move. -/
def callsIn (l : Nat) : List Move → Engine → List Hook.Call :=
  along fun m s => ((move m s).link? l).elim [] (·.callsSince (s.link? l))

end Engine

namespace Link

variable {k k' : Link} {notes : List Note}

theorem notesSince_some (h : k'.history = k.history ++ notes) : k'.notesSince (some k) = notes := by
  unfold notesSince
  rw [h]
  exact List.drop_left ..

theorem callsSince_some (h : k'.history = k.history ++ notes) :
    k'.callsSince (some k) = (notes.filterMap Note.called?).map (k'.callSince (some k)) := by
  unfold callsSince
  rw [notesSince_some h]

theorem map_hook_callsSince (before : Option Link) (k : Link) :
    (k.callsSince before).map (·.hook) = (k.notesSince before).filterMap Note.called? := by
  unfold callsSince
  rw [List.map_map]
  exact List.map_id _

/-- Where no close hook was called, others were; and where no other was, the close hook
was. -/
theorem filterMap_called_of_open (h : notes.filterMap Note.closing? = []) :
    notes.filterMap Note.called? = notes.filterMap Note.began? := by
  refine List.filterMap_congr ?_
  intro n hn
  have hclosing := List.filterMap_eq_nil_iff.1 h n hn
  cases n with
  | closing => cases hclosing
  | _ => rfl

theorem filterMap_called_of_silent (h : notes.filterMap Note.began? = []) :
    notes.filterMap Note.called? = (notes.filterMap Note.closing?).map fun _ => .close := by
  rw [List.map_filterMap]
  refine List.filterMap_congr ?_
  intro n hn
  have hbegan := List.filterMap_eq_nil_iff.1 h n hn
  cases n with
  | began => cases hbegan
  | _ => rfl

/-- The ending of a hook is found among what is told of calls. -/
theorem filterMap_endingOf {hook : Hook} (hh : hook ≠ .close) (notes : List Note) :
    notes.filterMap (Note.endingOf? hook) =
      (notes.filter Note.isCall).filterMap (Note.endingOf? hook) := by
  rw [List.filterMap_filter]
  refine List.filterMap_congr ?_
  intro n _
  cases n with
  | ended hook' ending =>
    show (if hook' = hook then some ending else none) =
      if (hook' != .close) = true then if hook' = hook then some ending else none else none
    by_cases h : hook' = hook
    · rw [if_pos h, if_pos (bne_iff_ne.2 (h ▸ hh))]
    · rw [if_neg h, ite_self]
  | _ => rfl

theorem called_append (h : k'.history = k.history ++ notes) :
    k'.called = k.called ++ notes.filterMap Note.called? := by
  unfold called
  rw [h, List.filterMap_append]

theorem hooks_append (h : k'.history = k.history ++ notes) :
    k'.hooks = k.hooks ++ notes.filterMap Note.began? := by
  unfold hooks
  rw [h, List.filterMap_append]

theorem closings_append (h : k'.history = k.history ++ notes) :
    k'.closings = k.closings ++ notes.filterMap Note.closing? := by
  unfold closings
  rw [h, List.filterMap_append]

theorem filterMap_began_eq_nil (h : k'.history = k.history ++ notes) (hh : k'.hooks = k.hooks) :
    notes.filterMap Note.began? = [] := by
  rw [hooks_append h] at hh
  exact List.append_right_eq_self.1 hh

theorem Told.closings_eq_nil (h : k.Told) (hc : k.closed = false) : k.closings = [] := by
  rw [h.closings, h.closeReason_eq_none hc]
  rfl

/-- What was called on an open link while no other hook was: the close hook, if the link was
closed. -/
theorem called_of_silent (hk : k.Told) (hk' : k'.Told) (hc : k.closed = false)
    (h : k'.history = k.history ++ notes) (hs : notes.filterMap Note.began? = []) :
    notes.filterMap Note.called? = if k'.closed then [.close] else [] := by
  have hclosings := closings_append h
  rw [hk.closings_eq_nil hc, List.nil_append] at hclosings
  rw [filterMap_called_of_silent hs, ← hclosings, hk'.closings, hk'.closed]
  cases k'.closeReason <;> rfl

end Link

/-! ## What the last call admits -/

namespace Stand

open Hook.Call (Admitted Orderly)

variable {v w u : Stand} {o : Outcome} {step : Step} {calls : List Hook.Call}

/-- The last call admits the hook that a link heads for. -/
structure Awaits (last : Option Hook.Call) (k : Link) : Prop where
  close : Admitted last .close
  hook : ∀ hook, k.awaited = some hook → Admitted last hook
  /-- Where a request is over, what comes next depends on what it asked for. -/
  after : ∀ keep, k.step = some (.after keep) → ∃ c, last = some c ∧
    c.ending = some (.returned keep) ∧ c.asked = k.pending ∧
    (c.hook = .request ∨ c.hook = .resume ∧ k.pending ≠ .duplex)

theorem Awaits.abides {last : Option Hook.Call} {k k' : Link} (h : Awaits last k)
    (hk : Abides k k') : Awaits last k' := by
  obtain ⟨hs, hm, hp⟩ := hk
  have hawaited : k'.awaited = k.awaited := by
    unfold Link.awaited
    rw [hs, hm]
  refine ⟨h.close, fun hook hh => h.hook hook (hawaited ▸ hh), ?_⟩
  rw [hs, hp]
  exact h.after

/-- The calls of the hooks of a link, as far as it has come: they are in order, and so is what
it heads for; the lifecycle counted the requests. -/
structure InOrder (calls : List Hook.Call) (v : Stand) : Prop where
  hooks : calls.map (·.hook) = v.link.called
  orderly : Orderly calls
  awaits : v.link.closed = false → Awaits calls.getLast? v.link
  requests : v.link.requests = min (v.link.hooks.count .request) Connection.Machine.maxRequests

/-- Nothing but the close hook was called on an open link. -/
theorem InOrder.silent (h : InOrder calls v) (hc : v.link.closed = false) (hv : v.link.Told)
    (hw : w.link.Told) (hg : v.link.Grown w.link) (hs : v.link.Silent w.link)
    (hr : w.link.requests = v.link.requests)
    (ha : w.link.closed = false → Awaits calls.getLast? w.link) :
    InOrder (calls ++ w.link.callsSince (some v.link)) w := by
  obtain ⟨notes, hnotes⟩ := hg.history
  have hnotes := hnotes.symm
  have hbegan := Link.filterMap_began_eq_nil hnotes hs.hooks
  have hcalled := Link.called_of_silent hv hw hc hnotes hbegan
  have hhooks : (calls ++ w.link.callsSince (some v.link)).map (·.hook) = w.link.called := by
    rw [List.map_append, h.hooks, Link.map_hook_callsSince, Link.notesSince_some hnotes,
      Link.called_append hnotes]
  have hsince := Link.callsSince_some hnotes
  rw [hcalled] at hsince
  refine ⟨hhooks, ?_, fun hopen => ?_, ?_⟩
  · rw [hsince]
    split
    · exact h.orderly.concat (h.awaits hc).close
    · rw [List.map_nil, List.append_nil]
      exact h.orderly
  · rw [hsince, hopen, if_neg Bool.false_ne_true, List.map_nil, List.append_nil]
    exact ha hopen
  · rw [hr, hs.hooks]
    exact h.requests

/-- Nothing at all is called on a link that was torn down. -/
theorem InOrder.settled (h : InOrder calls v) (hc : v.link.closed = true)
    (hg : v.link.Grown w.link) (hs : v.link.Settled w.link)
    (hr : w.link.requests = v.link.requests) :
    InOrder (calls ++ w.link.callsSince (some v.link)) w := by
  obtain ⟨notes, hnotes⟩ := hg.history
  have hnotes := hnotes.symm
  have hbegan := Link.filterMap_began_eq_nil hnotes hs.hooks
  have hclosing : notes.filterMap Note.closing? = [] := by
    have hclosings := Link.closings_append hnotes
    rw [hs.closings] at hclosings
    exact List.self_eq_append_right.1 hclosings
  have hnone : notes.filterMap Note.called? = [] := by
    rw [Link.filterMap_called_of_open hclosing, hbegan]
  rw [Link.callsSince_some hnotes, hnone, List.map_nil, List.append_nil]
  refine ⟨?_, h.orderly, fun hopen => ?_, ?_⟩
  · rw [Link.called_append hnotes, hnone, List.append_nil]
    exact h.hooks
  · exact nomatch (hs.closed.trans hc).symm.trans hopen
  · rw [hr, hs.hooks]
    exact h.requests

/-! ## Steps that call a hook -/

/-- What a step wrote when it called a hook, and what it is to the link afterwards. -/
private theorem Invoked.called {hook : Hook} (h : Invoked hook v o w) (hh : hook ≠ .close)
    (hv : v.link.Told) (hc : v.link.closed = false) (hw : w.link.Told) (hu : u.link.Told)
    (hg : v.link.Grown w.link) (hg' : w.link.Grown u.link) (hs : w.link.Silent u.link) :
    ∃ notes, u.link.history = v.link.history ++ notes ∧
      notes.filterMap Note.called? = hook :: (if u.link.closed then [.close] else []) ∧
      ∃ ending, (notes.filterMap (Note.endingOf? hook)).head? = some ending ∧
        (o.isEnd = true ∨
          ∃ keep, ending = .returned keep ∧ Leads v.link.stream.bytesRead w hook keep o) := by
  obtain ⟨notes, hnotes⟩ := hg.history
  obtain ⟨notes', hnotes'⟩ := hg'.history
  obtain ⟨ending, more, hcalls, hmore, hl⟩ := h.calls
  have hcalled : notes.filterMap Note.called? = [hook] := by
    have hclosings := Link.closings_append hnotes.symm
    rw [hv.closings_eq_nil hc, hw.closings_eq_nil h.closed, List.nil_append] at hclosings
    have hhooks := Link.hooks_append hnotes.symm
    rw [Link.hooks_of_began hcalls hmore] at hhooks
    rw [Link.filterMap_called_of_open hclosings.symm]
    exact (List.append_cancel_left hhooks).symm
  have hsilent := Link.filterMap_began_eq_nil hnotes'.symm hs.hooks
  have hwhole : u.link.history = v.link.history ++ (notes ++ notes') := by
    rw [← hnotes', ← hnotes, List.append_assoc]
  refine ⟨notes ++ notes', hwhole, ?_, ending, ?_, hl⟩
  · rw [List.filterMap_append, hcalled, Link.called_of_silent hw hu h.closed hnotes'.symm hsilent]
    rfl
  · -- The ending is noted among the calls, and there it comes right after the beginning.
    have hfilter : (notes ++ notes').filter Note.isCall = .began hook :: .ended hook ending :: more := by
      have hsame := hs.calls.trans hcalls
      unfold Link.calls at hsame
      rw [hwhole, List.filter_append] at hsame
      exact List.append_cancel_left hsame
    have hended : Note.endingOf? hook (.ended hook ending) = some ending := if_pos rfl
    rw [Link.filterMap_endingOf hh, hfilter, List.filterMap_cons_none rfl,
      List.filterMap_cons_some hended]
    rfl

/-- A step calls the hook that its link heads for, or, where it is late, the one that takes
its place. -/
private theorem Awaits.admits {last : Option Hook.Call} {hook : Hook} (h : Awaits last v.link)
    (hs : v.link.step = some step) (hh : step.hook? = some hook) : Admitted last hook := by
  have hawaited : ∀ hook', { v.link with step := some step }.awaited = some hook' →
      Admitted last hook' := by
    rw [← hs]
    exact h.hook
  cases step with
  | accept | dispatch | service =>
    cases hh
    exact hawaited _ rfl
  | resume timedOut =>
    have hresume := hawaited .resume rfl
    cases hh
    cases timedOut with
    | false => exact hresume
    | true =>
      cases last with
      | none => rcases hresume with h | h <;> cases h
      | some c => exact hresume
  | _ => cases hh

/-- What a hook left behind when it returned admits the hook that its link heads for then. -/
private theorem Leads.awaits {c : Hook.Call} {hook : Hook} {keep : Bool} {read : Nat}
    (h : Leads read w hook keep o) (hc : c.hook = hook) (he : c.ending = some (.returned keep))
    (ha : c.asked = w.link.pending) (hb : c.consumed = w.link.stream.bytesRead - read)
    (hd : c.ended = w.link.duplex.any (·.closed)) :
    Awaits (some c) (w.next o.step?).link := by
  have hclose : hook ≠ .close → Admitted (some c) .close := fun hh h => hh (hc.symm.trans h)
  cases h with
  | started =>
    refine ⟨hclose nofun, ?_, nofun⟩
    rintro _ ⟨⟩
    exact .inl ⟨hc, keep, he⟩
  | served =>
    refine ⟨hclose nofun, nofun, ?_⟩
    rintro _ ⟨⟩
    exact ⟨c, rfl, he, ha, .inl hc⟩
  | resumed _ hp =>
    refine ⟨hclose nofun, nofun, ?_⟩
    rintro _ ⟨⟩
    exact ⟨c, rfl, he, ha, .inr ⟨hc, hp⟩⟩
  | serviced _ t hduplex hopen hread =>
    refine ⟨hclose nofun, ?_, nofun⟩
    rintro _ ⟨⟩
    refine .inr ⟨hc, ⟨keep, he⟩, ?_, ?_⟩
    · rw [hd, hduplex]
      exact hopen
    · rw [hb]
      exact Nat.sub_pos_of_lt hread

/-- **A step that calls a hook calls it in order.** -/
private theorem InOrder.invoked {hook : Hook} (h : InOrder calls v)
    (hv : Ready step v) (hs : v.link.step = some step) (hh : step.hook? = some hook)
    (hi : Invoked hook v o w) (hp : plan step v o w) (hu : Concluded w o u)
    (htv : v.link.Told) (htw : w.link.Told) (htu : u.link.Told)
    (hg : v.link.Grown w.link) :
    InOrder (calls ++ u.link.callsSince (some v.link)) u := by
  have hclose : hook ≠ .close := by
    rintro rfl
    cases step <;> first | cases hh | (rename_i t; cases t <;> cases hh)
  obtain ⟨notes, hnotes, hcalled, ending, hending, hl⟩ :=
    hi.called hclose htv hv.closed htw htu hg hu.grown hu.silent
  obtain ⟨c, hc⟩ : ∃ c, c = u.link.callSince (some v.link) hook := ⟨_, rfl⟩
  have hcending : c.ending = some ending := by
    rw [hc]
    show ((u.link.notesSince _).filterMap _).head? = _
    rw [Link.notesSince_some hnotes]
    exact hending
  have hchook : c.hook = hook := hc ▸ rfl
  have horderly : Orderly (calls ++ [c]) :=
    h.orderly.concat (hchook ▸ (h.awaits hv.closed).admits hs hh)
  have hsince := Link.callsSince_some hnotes
  rw [hcalled, List.map_cons, ← hc] at hsince
  refine ⟨?_, ?_, fun hopen => ?_, ?_⟩
  · rw [List.map_append, h.hooks, Link.map_hook_callsSince, Link.notesSince_some hnotes,
      Link.called_append hnotes]
  · rw [hsince, List.append_cons]
    split
    · refine horderly.concat ?_
      rw [List.getLast?_concat]
      exact fun h => hclose (hchook.symm.trans h)
    · rw [List.map_nil, List.append_nil]
      exact horderly
  · rw [hsince, hopen, if_neg Bool.false_ne_true, List.map_nil, List.getLast?_concat]
    -- The link is open still, so the hook returned.
    rcases hl with ho | ⟨keep, rfl, hl⟩
    · exact nomatch (hu.closed ho).1.symm.trans hopen
    · have hend : o.isEnd = false := by
        cases hl <;> rfl
      obtain rfl := hu.eq_next hend
      exact hl.awaits hchook hcending (hc ▸ rfl) (hc ▸ rfl) (hc ▸ rfl)
  · rw [hu.requests, hv.requests hp, hu.silent.hooks, hv.served hp, h.requests]
    split <;> omega

/-! ## Steps that call none -/

/-- After a request its link heads for what the request asked for. -/
private theorem Awaits.rested {last : Option Hook.Call} {keep : Bool} (h : Awaits last v.link)
    (hs : v.link.step = some (.after keep)) (hp : Plan.after keep v o w) :
    Awaits last (w.next o.step?).link := by
  obtain ⟨c, rfl, hending, hasked, hhook⟩ := h.after keep hs
  have hserves : c.Serves := hhook.imp_right And.left
  rcases after_cases hp with ⟨hpending, rfl⟩ | ⟨comet, hpending, rfl⟩ | ⟨hpending, killed, hk, rfl⟩
  · refine ⟨h.close, ?_, nofun⟩
    rintro _ ⟨⟩
    have hrequest : c.hook = .request := hhook.resolve_right fun h => h.2 hpending
    exact .inl ⟨hrequest, ⟨keep, hending⟩, hasked.trans hpending⟩
  · refine ⟨h.close, ?_, nofun⟩
    rintro _ ⟨⟩
    exact ⟨hserves, ⟨keep, hending⟩, comet, hasked.trans hpending⟩
  · refine ⟨h.close, ?_, nofun⟩
    intro hook hh
    cases killed with
    | true => cases hh
    | false =>
      cases hh
      obtain rfl := hk rfl
      exact .inr ⟨hserves, hending, hasked.trans hpending⟩

/-- A step that calls no hook leaves its link where the last call admits it. -/
private theorem Awaits.silent {last : Option Hook.Call} (h : Awaits last v.link)
    (hv : Ready step v) (hs : v.link.step = some step) (hh : step.hook? = none)
    (hp : plan step v o w) (ho : o.isEnd = false) (hc : w.link.closed = false) :
    Awaits last (w.next o.step?).link := by
  by_cases ha : ∃ keep, step = .after keep
  · obtain ⟨keep, rfl⟩ := ha
    exact h.rested hs hp
  · obtain ⟨hawaited, hafter⟩ := hv.awaited hs hp hh (not_exists.1 ha) ho hc
    refine ⟨h.close, fun hook hhook => h.hook hook (hawaited ▸ hhook), ?_⟩
    intro keep hnext
    cases o with
    | next step =>
      cases hnext
      exact absurd rfl (hafter keep)
    | _ => cases hnext

/-! ## Turns -/

/-- A task that begins leaves its link heading for the hook it headed for. -/
private theorem Awaits.begin {last : Option Hook.Call} {k : Link} {e : Link.Entry}
    {q : List Link.Entry} (h : Awaits last k) (hd : k.isDriven = false)
    (hw : Standing ⟨{ k with step := some e.step }, q⟩) :
    Awaits last { k with step := some e.step } := by
  have hawaited : ∀ hook, Link.awaitedIn k.machine.state = some hook → Admitted last hook := by
    intro hook hh
    refine h.hook hook ?_
    unfold Link.awaited
    rw [step_eq_none hd]
    exact hh
  refine ⟨h.close, ?_, fun keep hs => by cases e <;> cases hs⟩
  cases e with
  | accept =>
    -- Only a link that never ran is begun this way.
    have hready : Ready .accept _ := (standing_some rfl).1 hw
    have hinit : k.machine.state = .init := hready.expects.1
    rintro _ ⟨⟩
    exact hawaited _ (congrArg Link.awaitedIn hinit)
  | resume => exact hawaited

/-- **Turns call the hooks of a link in order.** -/
theorem InOrder.turn (h : InOrder calls v) (ht : Turn v w) (hv : Standing v)
    (hk : v.link.Told) : InOrder (calls ++ w.link.callsSince (some v.link)) w := by
  have hw := ht.told hk
  have hg := ht.grown
  have hstanding := hv.turn ht
  cases hc : v.link.closed with
  | true =>
    have hs := (hv.gone hc).2
    refine h.settled hc hg (ht.settled hc hs).1 ?_
    cases ht with
    | course h => exact h.requests
    | begin _ _ hc' => exact nomatch hc.symm.trans hc'
    | idle => rfl
    | doomed _ _ hc' => exact nomatch hc.symm.trans hc'
    | step hs' => exact nomatch hs.symm.trans hs'
  | false =>
    have hawaits := h.awaits hc
    cases ht with
    | course hcourse =>
      exact h.silent hc hk hw hg hcourse.silent hcourse.requests fun hopen =>
        hawaits.abides (hcourse.abides hopen)
    | begin hd =>
      exact h.silent hc hk hw hg (.of rfl rfl (.refl _)) rfl fun _ => hawaits.begin hd hstanding
    | idle _ _ hc' => exact nomatch hc.symm.trans hc'
    | doomed _ _ _ _ htorn =>
      exact h.silent hc hk hw hg htorn.silent htorn.requests fun hopen =>
        nomatch htorn.closed.symm.trans hopen
    | step hs hp hworked hu =>
      have hready := (standing_some hs).1 hv
      rcases hready.invokes hp with ⟨hsilent, hne, hh⟩ | ⟨hook, hh, hi⟩
      · refine h.silent hc hk hw hg (hsilent.trans hu.silent) ?_ fun hopen => ?_
        · rw [hu.requests, hready.requests hp, if_neg hne]
        · have ho : _ = false := Bool.eq_false_iff.2 fun ho =>
            nomatch (hu.closed ho).1.symm.trans hopen
          obtain rfl := hu.eq_next ho
          exact hawaits.silent hready hs (hh.resolve_right (Bool.eq_false_iff.1 ho)) hp ho hopen
      · exact h.invoked hready hs hh hi hp hu hk (hworked.told hk) hw hworked.grown

/-! ## New links -/

/-- On a link that never ran, nothing but the close hook was called. -/
private theorem inOrder_unbegun (hk : v.link.Told) (hh : v.link.hooks = [])
    (hr : v.link.requests = 0) (hc : v.link.closed = false → Abides {v.link with
      step := none, machine := {}, pending := .none } v.link) :
    InOrder (v.link.callsSince none) v := by
  have hcalled : v.link.called = if v.link.closed then [.close] else [] := by
    unfold Link.called
    rw [Link.filterMap_called_of_silent hh]
    show v.link.closings.map _ = _
    rw [hk.closings, hk.closed]
    cases v.link.closeReason <;> rfl
  have hsince : v.link.callsSince none = v.link.called.map (v.link.callSince none) := rfl
  refine ⟨Link.map_hook_callsSince none v.link, ?_, fun hopen => ?_, ?_⟩
  · rw [hsince, hcalled]
    split
    · exact Hook.Call.orderly_nil.concat (.inr rfl)
    · exact Hook.Call.orderly_nil
  · rw [hsince, hcalled, hopen]
    obtain ⟨hs, hm, -⟩ := hc hopen
    refine ⟨.inr rfl, ?_, ?_⟩
    · intro hook hhook
      unfold Link.awaited at hhook
      rw [hs, hm] at hhook
      cases hhook
      exact .inl rfl
    · intro keep hafter
      exact nomatch hs.symm.trans hafter
  · rw [hr, hh]
    rfl

theorem Started.inOrder {i : Nat} {arrival : Engine.Arrival} (h : Started i arrival v) :
    InOrder (v.link.callsSince none) v := by
  have hk := h.told
  have hh := h.hooks
  cases h with
  | queued hs hn h => exact inOrder_unbegun hk hh h.requests h.abides
  | @refused _ _ _ w u hs hn h ht =>
    refine inOrder_unbegun hk hh ?_ fun hopen => nomatch ht.closed.symm.trans hopen
    exact ht.requests.trans h.requests

end Stand

/-! ## Runs -/

namespace Engine

variable {s : Engine} {l : Nat} {k : Link} {v : Stand}

variable (settings : Settings.Scheduler) (now : Nat)

/-- Each move calls the hooks of a link in order. -/
private theorem inOrder (moves : List Move) (hv : (after settings now moves).stand? l = some v) :
    Stand.InOrder (callsIn l moves (create settings now)) v := by
  refine (after_along settings now (P := Stand.InOrder) ?_ ?_ ?_ moves).1 v hv
  · intro m s _ hn
    rw [hn]
    rfl
  · intro moves m i arrival w hn hw hstarted
    rw [(stand?_eq_some.1 hw).1, hn]
    exact hstarted.inOrder
  · intro moves calls m v w hv hw hturn h
    rw [(stand?_eq_some.1 hw).1, (stand?_eq_some.1 hv).1]
    exact h.turn hturn (standing settings now moves hv) (told settings now moves hv)

/-- **Throughout every run the hooks of each link are called in order.** What a run shows of
the calls is what the history of the link tells; each call is admitted by the one before it;
the start hook comes first and the close hook last, each once at most, and only the close hook
follows one that timed out; and the lifecycle counted the calls of the request hook, up to the
largest count it can hold. -/
theorem hooks_in_order (moves : List Move) (hk : (after settings now moves).link? l = some k) :
    let calls := callsIn l moves (create settings now)
    calls.map (·.hook) = k.called ∧ Hook.Call.Orderly calls ∧
      (∀ c ∈ calls.tail, c.hook ≠ .start) ∧ (∀ c ∈ calls.dropLast, c.hook ≠ .close) ∧
      (calls.IsChain fun c d => c.hook = .suspendTimeout → d.hook = .close) ∧
      k.machine.requests = min (k.callsOf .request) Connection.Machine.maxRequests := by
  have hcalls := inOrder settings now moves (stand?_of_link? hk)
  refine ⟨hcalls.hooks, hcalls.orderly, hcalls.orderly.start, hcalls.orderly.close,
    hcalls.orderly.suspendTimeout, ?_⟩
  rw [Link.callsOf_eq]
  exact hcalls.requests

/-- A run in which a request is suspended, and its link is closed while it waits. -/
def closedWhileSuspended : List Move := suspending 4 ++ [.perform 0 (.close (some 0) none)]

/-- No hook takes that request up. -/
theorem hooks_in_order_suspending :
    ∃ k, (after {} 0 closedWhileSuspended).link? 0 = some k ∧
      (callsIn 0 closedWhileSuspended (create {} 0)).map (·.hook) = [.start, .request, .close] ∧
      k.machine.requests = 1 := by
  have hrun : ((after {} 0 closedWhileSuspended).link? 0).map
      (fun k => (k.called, k.callsOf .request)) = some ([.start, .request, .close], 1) := by
    decide
  obtain ⟨k, hk, hshown⟩ := Option.map_eq_some_iff.1 hrun
  obtain ⟨hcalled, hcount⟩ := Prod.mk.inj hshown
  obtain ⟨hhooks, -, -, -, -, hrequests⟩ := hooks_in_order {} 0 closedWhileSuspended hk
  rw [hcount, Nat.min_eq_left (by decide)] at hrequests
  exact ⟨k, hk, hhooks.trans hcalled, hrequests⟩

end Engine

end LinkEngine

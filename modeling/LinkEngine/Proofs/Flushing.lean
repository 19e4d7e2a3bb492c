import LinkEngine.Proofs.Calls

/-!
# What hooks wrote is on its way

What a hook wrote lies in a buffer until the link flushes it. It does so in the step that
called the hook, before the outcome of the step is carried out, so that between two steps
of a task nothing waits in the buffer of an open link (`Link.Flushed`). The start hook is
the exception: nothing flushes what it wrote before the request hook returned
(`flushes_after_hook`).
-/

namespace LinkEngine

open Link (Note Outcome Step)

namespace Link

variable {k k' : Link}

/-- Nothing that a hook wrote waits in the buffer, unless the start hook was the last. -/
def Flushed (k : Link) : Prop :=
  k.closed = false → ∀ hook, k.hooks.getLast? = some hook → hook ≠ .start →
    k.stream.output.bytes = []

theorem Flushed.of_closed (hc : k.closed = true) : k.Flushed :=
  fun hc' => nomatch hc.symm.trans hc'

/-- Where no hook was called nothing came into the buffer. -/
theorem Flushed.silent (h : k.Flushed) (hs : k.Silent k') : k'.Flushed := by
  intro hc hook hlast hne
  rw [(hs.stream hc).output]
  exact h (hs.open hc) hook (hs.hooks ▸ hlast) hne

end Link

namespace Stand

variable {v w u : Stand} {o : Outcome}

/-- After a step that called another hook than the start hook, the buffer is empty. -/
theorem Called.flushed (h : Called v o w) (hv : v.link.Flushed) (hc : Concluded w o u) :
    u.link.Flushed := by
  cases h with
  | nothing h => exact hv.silent (h.trans hc.silent)
  | broke h => exact .of_closed (hc.closed h.isEnd).1
  | started hcalls =>
    intro _ hook hlast hne
    rw [hc.silent.hooks, Link.hooks_of_served hcalls, List.getLast?_concat] at hlast
    exact absurd (Option.some.inj hlast).symm hne
  | served h =>
    obtain ⟨more, hd⟩ := h.stream
    exact Link.Flushed.silent (fun _ _ _ _ => hd.output) hc.silent

/-- A stream took what a hook wrote that was called and returned, and unless that was the
start hook, it was handed to the socket. -/
theorem Called.takes {hook : Hook} {keep : Bool} (h : Called v o w)
    (hcalls : w.link.calls = v.link.calls ++ Note.served hook keep) :
    ∃ written, v.link.stream.Takes w.link.stream written ∧
      (hook ≠ .start → v.link.stream.Delivers w.link.stream written) := by
  cases h with
  | nothing h =>
    have hnone := h.calls.symm.trans hcalls
    rw [List.self_eq_append_right] at hnone
    cases hnone
  | broke h =>
    obtain ⟨more, hmore, -, hne⟩ := h.calls
    exact absurd (List.append_cancel_left (hmore.symm.trans hcalls)) (hne hook keep)
  | started hstarted hused =>
    -- It is told by the calls which hook it was.
    obtain ⟨rfl, -⟩ := Link.Note.served_inj (List.append_cancel_left (hcalls.symm.trans hstarted))
    obtain ⟨written, htakes⟩ := hused
    exact ⟨written, htakes, fun hne => absurd rfl hne⟩
  | served h =>
    obtain ⟨written, hd⟩ := h.stream
    exact ⟨written, hd.takes, fun _ => hd⟩

/-- **Whatever happens to a link that stands, nothing waits in its buffer.** -/
theorem Turn.flushed (h : Turn v w) (hstanding : Standing v) (hv : v.link.Flushed) :
    w.link.Flushed := by
  cases h with
  | course h => exact hv.silent h.silent
  | begin => exact hv.silent (.of rfl rfl (.refl _))
  | idle => exact hv
  | doomed _ _ _ _ h => exact hv.silent h.silent
  | step hs hp _ hc => exact (((standing_some hs).1 hstanding).called hp).flushed hv hc

/-- No hook was called on a new link. -/
theorem Started.flushed {i : Nat} {arrival : Engine.Arrival} (h : Started i arrival v) :
    v.link.Flushed := by
  have hnew : ∀ {handler socket buffers} {notes : List Note}, (∀ n ∈ notes, n.isDeed = true) →
      (Link.new i handler socket buffers notes).Flushed := by
    intro handler socket buffers notes hn _ hook hlast
    have hnone : (Link.new i handler socket buffers notes).hooks = [] := by
      refine List.filterMap_eq_nil_iff.2 ?_
      intro n hmem
      have := hn n hmem
      cases n <;> first | rfl | cases this
    rw [hnone] at hlast
    cases hlast
  cases h with
  | queued _ hn h => exact (hnew hn).silent (h.silent.trans (.of rfl rfl (.refl _)))
  | refused _ _ _ ht => exact .of_closed ht.closed

end Stand

namespace Engine

variable {s : Engine} {l : Nat} {k : Link} {v : Stand}

variable (settings : Settings.Scheduler) (now : Nat)

theorem flushed (moves : List Move) (hv : (after settings now moves).stand? l = some v) :
    v.link.Flushed := by
  have h := after_stand settings now (P := fun v => v.Standing ∧ v.link.Flushed)
    (fun _ _ _ h => ⟨h.standing, h.flushed⟩)
    (fun _ _ hv h => ⟨hv.1.turn h, h.flushed hv.1 hv.2⟩) moves l v hv
  exact h.2

/-- **What a hook wrote is flushed before anything else happens.** Of what is written to a
stream it takes a front part. Between two moves of a run nothing waits in the buffer of an
open link, if the last hook that was called was not the start hook. And in the very step
that called a hook which returned, and whose output could be flushed, everything the
stream took so far was handed to the socket when the step decided what comes next. What
the start hook wrote was only taken. -/
theorem flushes_after_hook (moves : List Move) (hk : (after settings now moves).link? l = some k) :
    (∀ (x y : Stream Operation) (bytes : Text.Bytes) (n : Nat), x.write bytes = (.ok n, y) →
      x.Takes y (bytes.take n)) ∧
    (k.closed = false → ∀ hook, k.hooks.getLast? = some hook → hook ≠ .start →
      k.stream.output.bytes = []) ∧
    ∀ step hook keep k', k.step = some step →
      (stepLink l step (after settings now moves)).2.link? l = some k' →
      k'.calls = k.calls ++ Note.served hook keep →
      ∃ written, k.stream.Takes k'.stream written ∧
        (hook ≠ .start → k'.stream.socket.sent = k.stream.produced ++ written ∧
          k'.stream.output.bytes = []) := by
  have hv := stand?_of_link? hk
  refine ⟨?_, flushed settings now moves hv, ?_⟩
  · intro x y bytes n h
    have hw := x.write_takes bytes
    rw [h] at hw
    exact hw.2
  intro step hook keep k' hstep hk' hcalls
  obtain ⟨w, hw, hplan⟩ := (stepLink_drives hk step).own (after_sole settings now moves) _ hv
  obtain rfl : w.link = k' := Option.some.inj ((stand?_eq_some.1 hw).1.symm.trans hk')
  have hready := (Stand.standing_some hstep).1 (standing settings now moves hv)
  obtain ⟨written, htakes, hd⟩ := (hready.called hplan).takes hcalls
  exact ⟨written, htakes, fun hne => ⟨(hd hne).sent, (hd hne).output⟩⟩

/-- What a hook does that writes two bytes. -/
def greets : List Action := [⟨"write", .transfer (.writeAll [104, 105]), false⟩]

/-- What a request hook wrote was sent when its step decided what comes next. -/
theorem flushes_after_hook_request :
    ∃ k, (stepLink 0 .dispatch (after {} 0 (serving { requests := [greets] } 1))).2.link? 0 =
        some k ∧ k.stream.socket.sent = [104, 105] ∧ k.stream.output.bytes = [] := by
  have hbefore : ((after {} 0 (serving { requests := [greets] } 1)).link? 0).map
      (fun k => (k.step, k.calls)) = some (some .dispatch, Note.served .start true) := by
    decide
  have hafter : ((stepLink 0 .dispatch
      (after {} 0 (serving { requests := [greets] } 1))).2.link? 0).map
      (fun k => (k.calls, k.stream.produced)) =
      some (Note.served .start true ++ Note.served .request true, [104, 105]) := by
    decide
  obtain ⟨k, hk, h⟩ := Option.map_eq_some_iff.1 hbefore
  obtain ⟨hstep, hcalls⟩ := Prod.mk.inj h
  obtain ⟨k', hk', h'⟩ := Option.map_eq_some_iff.1 hafter
  obtain ⟨hcalls', hproduced⟩ := Prod.mk.inj h'
  obtain ⟨-, -, hserved⟩ := flushes_after_hook {} 0 (serving { requests := [greets] } 1) hk
  obtain ⟨written, htakes, hsent⟩ :=
    hserved _ .request true k' hstep hk' (by rw [hcalls, hcalls'])
  obtain ⟨hsent, hempty⟩ := hsent nofun
  exact ⟨k', hk', hsent.trans (htakes.produced.symm.trans hproduced), hempty⟩

/-- What a start hook wrote still waits in the buffer when the request hook is called. -/
theorem start_hook_unflushed :
    ((after {} 0 (serving { start := greets } 1)).link? 0).map
      (fun k => (k.hooks, k.stream.output.bytes, k.stream.socket.sent)) =
      some ([.start], [104, 105], []) ∧
    ((after {} 0 (serving { start := greets } 2)).link? 0).map (·.hooks) =
      some [.start, .request] := by
  decide

end Engine

end LinkEngine

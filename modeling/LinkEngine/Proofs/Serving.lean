import LinkEngine.Engine.Hooks
import LinkEngine.Proofs.Work

/-!
# Hooks serve their link

While a hook runs on a link, the engine changes by work of that link's task, and
the link itself by what the hook may do to it and what others do meanwhile: the
two are proved together, action by action (`act_serves`), for the actions of a
hook in a row, and for the whole call (`callHook_hooked`).
-/

namespace LinkEngine

open Link (Ending Upgrades)

/-- A hook whose actions close the stream is one of a handler that does. -/
theorem Handler.closesStream_of_mem {h : Handler} {hook : Hook} {n : Nat} {a : Action}
    (ha : a ∈ h.actions hook n) (hk : a.kind = .transfer .close) : h.closesStream = true := by
  -- A call beyond the last list of actions uses the last one again.
  have hcall : ∀ lists : List (List Action), a ∈ call lists n → ∃ x ∈ lists, a ∈ x := by
    intro lists hm
    unfold call at hm
    split at hm
    · next x hx => exact ⟨x, List.mem_of_getElem? hx, hm⟩
    · cases hl : lists with
      | nil =>
        rw [hl] at hm
        cases hm
      | cons y ys =>
        rw [hl, List.getLastD_cons] at hm
        cases ys with
        | nil => exact ⟨y, List.mem_cons_self, hm⟩
        | cons z zs =>
          rw [List.getLastD_eq_getLast?] at hm
          refine ⟨(z :: zs).getLast (by simp), List.mem_cons_of_mem _ (List.getLast_mem _), ?_⟩
          simpa [List.getLast?_eq_some_getLast] using hm
  have hany : ∃ x ∈ h.start :: h.suspendTimeout :: (h.requests ++ h.resumes ++ h.services),
      a ∈ x := by
    unfold actions at ha
    cases hook with
    | start => exact ⟨_, by simp, ha⟩
    | suspendTimeout => exact ⟨_, by simp, ha⟩
    | request =>
      obtain ⟨x, hx, hax⟩ := hcall _ ha
      exact ⟨x, by simp [hx], hax⟩
    | resume =>
      obtain ⟨x, hx, hax⟩ := hcall _ ha
      exact ⟨x, by simp [hx], hax⟩
    | service =>
      obtain ⟨x, hx, hax⟩ := hcall _ ha
      exact ⟨x, by simp [hx], hax⟩
    | close => cases ha
  obtain ⟨x, hx, hax⟩ := hany
  exact List.any_eq_true.2 ⟨x, hx, List.any_eq_true.2 ⟨a, hax, beq_iff_eq.2 hk⟩⟩

namespace Engine

variable {l : Nat} {s t u : Engine} {k k' : Link} {upgrades : Upgrades}

/-- A link is served: its task worked, and the link shows no more than a hook
with these upgrades and others may have done to it. -/
structure Serves (l : Nat) (upgrades : Upgrades) (s t : Engine) : Prop where
  work : Work l s t
  own : ∀ v, s.stand? l = some v → ∃ w, t.stand? l = some w ∧ Stand.Served upgrades v w

namespace Serves

theorem refl (s : Engine) : Serves l upgrades s s := ⟨.refl s, fun v hv => ⟨v, hv, .refl v⟩⟩

theorem trans (h₁ : Serves l upgrades s t) (h₂ : Serves l upgrades t u) :
    Serves l upgrades s u := by
  refine ⟨h₁.work.trans h₂.work, ?_⟩
  intro v hv
  obtain ⟨w, hw, hvw⟩ := h₁.own v hv
  obtain ⟨x, hx, hwx⟩ := h₂.own w hw
  exact ⟨x, hx, hvw.trans hwx⟩

theorem course (h : Course s t) : Serves l upgrades s t := by
  refine ⟨.ofCourse h, ?_⟩
  intro v hv
  obtain ⟨w, hw, hvw⟩ := h.stand hv
  exact ⟨w, hw, .course hvw (.refl w)⟩

/-- The hook writes to its link. -/
theorem acted (hk : s.link? l = some k) (ho : k.Own k') (ha : k.Acted upgrades k') :
    Serves l upgrades s (s.setLink l k') := by
  refine ⟨.write hk ho ha.wait, ?_⟩
  intro v hv
  obtain rfl : v.link = k := Option.some.inj ((stand?_eq_some.1 hv).1.symm.trans hk)
  exact ⟨_, stand?_setLink_self hv k', .acted ha (.refl _)⟩

/-- The hook uses the stream of its link, and does not close it unless the handler
does. -/
theorem stream (hk : s.link? l = some k) {x : Stream Operation}
    (hx : x.closes = k.stream.closes ∨ k.handler.closesStream = true)
    (hused : k.stream.Used x) : Serves l upgrades s (s.setLink l { k with stream := x }) :=
  acted hk ⟨rfl, hx, .inl rfl, Nat.le_refl _⟩ (.stream k hused)

theorem did (l : Nat) (label : String) (answer : Link.Answer) (s : Engine) :
    Serves l upgrades s (s.note l (.did label answer)) :=
  course (note_course l _ s fun k _ => .did k label answer)

/-- The link is the same one's as before. -/
theorem owner (h : Serves l upgrades s t) (hk : s.link? l = some k) :
    ∃ k', t.link? l = some k' ∧ k'.owner = k.owner := by
  obtain ⟨w, hw, hvw⟩ := h.own _ (stand?_of_link? hk)
  exact ⟨w.link, (stand?_eq_some.1 hw).1, hvw.owner⟩

end Serves

/-! ## Actions -/

/-- Waiting for input is a write to the stream and a course. -/
theorem awaitReadable_course (hk : s.link? l = some k) :
    Course (s.setLink l { k with stream := k.stream.wait.2 }) (awaitReadable l s).2 := by
  unfold awaitReadable
  rw [hk]
  simp only
  split
  · next elapsed _ => exact .single (.pass elapsed)
  · next ops _ =>
    exact foldl_course (Nat.le_refl _)
      (fun t op _ => perform_course l op t) ops

private theorem closes_echoLine (x : Stream Operation) : (echoLine x).2.closes = x.closes := by
  have hr := x.closes_readLine
  unfold echoLine
  split
  · next h =>
    rw [h] at hr
    exact hr
  · next h =>
    rw [h] at hr
    exact hr
  · next text y _ h =>
    rw [h] at hr
    have hw := y.closes_writeAll (Text.encode text)
    simp only
    split
    · next h =>
      rw [h] at hw
      exact hw.trans hr
    · next h =>
      rw [h] at hw
      exact hw.trans hr

private theorem echoLine_used (x : Stream Operation) : x.Used (echoLine x).2 := by
  have hr := x.readLine_quiet.used
  unfold echoLine
  split
  · next h =>
    rw [h] at hr
    exact hr
  · next h =>
    rw [h] at hr
    exact hr
  · next text y _ h =>
    rw [h] at hr
    have hw := y.writeAll_used (Text.encode text)
    simp only
    split
    · next h =>
      rw [h] at hw
      exact hr.trans hw
    · next h =>
      rw [h] at hw
      exact hr.trans hw

private theorem startComet_own {h : Handle} {timeout : Option Time.Duration}
    (hs : startComet l k upgrades timeout = .ok (h, k')) : k.Own k' := by
  unfold startComet at hs
  split at hs
  · cases hs
  · split at hs <;> cases hs
    exact ⟨rfl, .inl rfl, .inr ⟨_, rfl, rfl⟩, Nat.le_refl _⟩

private theorem startDuplex_own (hs : startDuplex k upgrades = .ok k') : k.Own k' := by
  unfold startDuplex at hs
  split at hs <;> cases hs
  exact ⟨rfl, .inl rfl, .inl rfl, Nat.le_refl _⟩

/-- One action of a hook serves the link. -/
theorem act_serves (hk : s.link? l = some k) (upgrades : Upgrades) (a : Action.Kind)
    (hc : a = .transfer .close → k.handler.closesStream = true) :
    Serves l upgrades s (act l upgrades a s).2 := by
  unfold act
  rw [hk]
  simp only
  cases a with
  | transfer t =>
    refine .stream hk ?_ (k.stream.transfer_used t)
    -- Of all transfers only one closes the stream, and then the handler does so.
    by_cases ht : t = .close
    · exact .inr (hc (ht ▸ rfl))
    · exact .inl (k.stream.closes_transfer t ht)
  | wait =>
    exact (Serves.stream hk (.inl k.stream.closes_wait) k.stream.wait_quiet.used).trans
      (.course (awaitReadable_course hk))
  | operate op => exact .course (perform_course l op s)
  | echoLine => exact .stream hk (.inl (closes_echoLine k.stream)) (echoLine_used k.stream)
  | comet name timeout =>
    simp only
    split
    · exact .refl s
    · next h k' hs =>
      have hserves := Serves.acted (l := l) hk (startComet_own hs) (.comet hs)
      cases name with
      | none => exact hserves
      | some n =>
        refine hserves.trans ⟨.handle n h (.refl _), fun v hv => ⟨v, hv, .refl v⟩⟩
  | duplex =>
    simp only
    split
    · exact .refl s
    · next k' hs => exact .acted hk (startDuplex_own hs) (.duplex hs)
  | duplexClose =>
    simp only
    split
    · next hd => exact .acted hk ⟨rfl, .inl rfl, .inl rfl, Nat.le_refl _⟩ (.twoWay hd)
    · exact .refl s
  | duplexInfo =>
    simp only
    split <;> exact .refl s
  | kill => exact .acted hk ⟨rfl, .inl rfl, .inl rfl, Nat.le_refl _⟩ (.kill k)
  | closeSelf reason => exact .course (closeWith_course (tears_tearDown _) (Nat.le_refl _) l _)
  | _ => exact .refl s

/-- The actions of a hook serve the link, one after the other. -/
theorem actAll_serves {h : Handler} :
    ∀ (actions : List Action) (s : Engine) (k : Link), s.link? l = some k → k.handler = h →
      (∀ a ∈ actions, a.kind = .transfer .close → h.closesStream = true) →
      Serves l upgrades s (actAll l upgrades actions s).2
  | [], s, k, hk, hh, hc => .refl s
  | a :: rest, s, k, hk, hh, hc => by
    have hact := act_serves hk upgrades a.kind
      fun ha => hh ▸ hc a List.mem_cons_self ha
    -- Whatever an action did to the link, it is still there and has the same handler.
    have hrest : ∀ t, Serves l upgrades s t → Serves l upgrades s (actAll l upgrades rest t).2 := by
      intro t ht
      obtain ⟨k', hk', ho⟩ := ht.owner hk
      exact ht.trans (actAll_serves rest t k' hk' ((congrArg Prod.snd ho).trans hh)
        fun b hb => hc b (List.mem_cons_of_mem a hb))
    unfold actAll
    split
    · next h =>
      rw [h] at hact
      exact hact
    · next h =>
      rw [h] at hact
      exact hrest _ (hact.trans (.did l a.label _ _))
    · next h =>
      rw [h] at hact
      exact hact.trans (.did l a.label _ _)
    · next f t h =>
      rw [h] at hact
      have hnoted := hact.trans (.did l a.label (.failed f) t)
      simp only
      split
      · exact hrest _ hnoted
      · exact hnoted

private theorem runHook_serves (hk : s.link? l = some k') (hh : k'.handler = k.handler)
    (hook : Hook) (upgrades : Upgrades) : Serves l upgrades s (runHook l k hook upgrades s).2 := by
  unfold runHook
  split
  · exact .refl s
  · exact actAll_serves _ s k' hk hh fun a ha hc => Handler.closesStream_of_mem ha hc

/-- **Calling a hook is work of the link's task, and to the link it is a call of
that hook.** -/
theorem callHook_hooked (hk : s.link? l = some k) (hook : Hook) (upgrades : Upgrades) :
    Work l s (callHook l hook upgrades s).2 ∧
      ∀ v, s.stand? l = some v → ∃ w, (callHook l hook upgrades s).2.stand? l = some w ∧
        Stand.Hooked hook upgrades v (callHook l hook upgrades s).1 w := by
  have hbegan := note_eq_setLink hk (.began hook)
  have hk' : (s.note l (.began hook)).link? l = some (k.note (.began hook)) := by
    rw [hbegan]
    exact link?_setLink_self hk _
  have hruns := runHook_serves (k := k) hk' rfl hook upgrades
  obtain ⟨k₁, hk₁, -⟩ := hruns.owner hk'
  have hwork : Work l s (s.note l (.began hook)) := by
    rw [hbegan]
    exact .write hk (.note k rfl) rfl
  unfold callHook
  rw [hk]
  simp only
  generalize runHook l k hook upgrades (s.note l (.began hook)) = run at hruns hk₁
  obtain ⟨ending, t⟩ := run
  have hended := note_eq_setLink hk₁ (.ended hook ending)
  have hwork' : Work l s (t.note l (.ended hook ending)) := by
    refine hwork.trans (hruns.work.trans ?_)
    rw [hended]
    exact .write hk₁ (.note k₁ rfl) rfl
  have hown : ∀ v, s.stand? l = some v →
      ∃ w, (t.note l (.ended hook ending)).stand? l = some w ∧
        Stand.Hooked hook upgrades v ending w := by
    intro v hv
    obtain rfl : v.link = k := Option.some.inj ((stand?_eq_some.1 hv).1.symm.trans hk)
    -- Between the two notes the hook was served.
    obtain ⟨w, hw, hvw⟩ := hruns.own _ (hbegan ▸ stand?_setLink_self hv _)
    obtain rfl : w.link = k₁ := Option.some.inj ((stand?_eq_some.1 hw).1.symm.trans hk₁)
    exact ⟨_, hended ▸ stand?_setLink_self hw _, w, hvw, rfl⟩
  split
  · exact ⟨hwork', hown⟩
  · exact ⟨hwork', hown⟩
  · exact ⟨hwork'.trans (.stats _ (.bytes _ _) (.refl _)), hown⟩

end Engine

end LinkEngine

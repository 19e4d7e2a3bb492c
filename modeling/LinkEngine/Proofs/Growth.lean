import LinkEngine.Proofs.Runs

/-!
# What only grows

Whatever happens to a link, its history only gets longer, it stays to be closed once
somebody asked for that, the first reason that was given stays, and no wait of it comes
back (`follow_grown`). So what a history tells at one time of a run, it tells at any later
time.
-/

namespace LinkEngine

open Connection (CloseReason)
open Link (Note)

/-- The history of a link only grows, that it was asked to close, and the first reason to,
stays, and the number of its wait only goes up. -/
structure Link.Grown (k k' : Link) : Prop where
  history : k.history <+: k'.history
  closeRequest : ∀ r, k.closeRequest = some r → k'.closeRequest = some r
  closing : k.closing = true → k'.closing = true
  waitGeneration : k.waitGeneration ≤ k'.waitGeneration

namespace Link.Grown

variable {k k' k'' : Link}

theorem refl (k : Link) : k.Grown k := ⟨List.prefix_rfl, fun _ h => h, fun h => h, Nat.le_refl _⟩

theorem trans (h₁ : k.Grown k') (h₂ : k'.Grown k'') : k.Grown k'' :=
  ⟨h₁.history.trans h₂.history, fun r h => h₂.closeRequest r (h₁.closeRequest r h),
    fun h => h₂.closing (h₁.closing h), Nat.le_trans h₁.waitGeneration h₂.waitGeneration⟩

/-- What changes none of the four, or only goes on to another wait. -/
theorem same (hh : k'.history = k.history) (hr : k'.closeRequest = k.closeRequest)
    (hc : k'.closing = k.closing) (hw : k.waitGeneration ≤ k'.waitGeneration) : k.Grown k' :=
  ⟨hh ▸ List.prefix_rfl, fun _ h => hr.trans h, fun h => hc.trans h, hw⟩

theorem note (h : k.Grown k') (n : Note) : k.Grown (k'.note n) :=
  ⟨h.history.trans (List.prefix_append _ _), h.closeRequest, h.closing, h.waitGeneration⟩

theorem ask (k : Link) (reason : CloseReason) : k.Grown (k.ask reason) := by
  refine ⟨List.prefix_rfl, ?_, fun _ => rfl, Nat.le_refl _⟩
  intro r h
  show some (k.closeRequest.getD reason) = some r
  rw [h, Option.getD_some]

theorem interrupt (h : k.Grown k') : k.Grown k'.interrupt := by
  unfold Link.interrupt
  split
  · exact h.trans (same rfl rfl rfl (Nat.le_refl _))
  · exact h

end Link.Grown

theorem Link.Touched.grown {k k' : Link} (h : k.Touched k') : k.Grown k' := by
  cases h with
  | did label answer => exact .note (.refl k) _
  | closeEnded h ending => exact .note (.refl k) _
  | asked hc hp reason => exact .interrupt ((Grown.ask k reason).trans (.same rfl rfl rfl (Nat.le_refl _)))
  | deferred hc hr =>
    refine .note ?_ _
    exact .same rfl rfl rfl (Nat.le_refl _)
  | _ => exact .same rfl rfl rfl (Nat.le_refl _)

theorem Link.Handed.grown {k k' : Link} (h : k.Handed k') : k.Grown k' := by
  cases h with
  | woken hc hr =>
    refine .note ?_ _
    exact .same rfl rfl rfl (Nat.le_refl _)
  | _ => exact .same rfl rfl rfl (Nat.le_refl _)

theorem Link.Seized.grown {k k' : Link} {reason : CloseReason} (h : k.Seized reason k') :
    k.Grown k' := by
  cases h with
  | refused => exact .same rfl rfl rfl (Nat.le_refl _)
  | asked => exact (Grown.ask k _).trans (.same rfl rfl rfl (Nat.le_refl _))

theorem Link.grown_disarmed (k : Link) : k.Grown k.disarmed := by
  refine .same ?_ ?_ ?_ k.waitGeneration_disarmed <;>
  · unfold Link.disarmed
    cases k.deadline <;> rfl

theorem Link.grown_marked (k : Link) (reason : CloseReason) : k.Grown (k.marked reason) := by
  have hdisarmed := grown_disarmed { k with closed := true, closeReason := some reason }
  have hshut : k.Grown (k.shut reason) :=
    ⟨hdisarmed.history, hdisarmed.closeRequest, hdisarmed.closing, hdisarmed.waitGeneration⟩
  exact hshut.note _

theorem Link.grown_gone (k : Link) : k.Grown k.gone := .same rfl rfl rfl (Nat.le_refl _)

theorem Link.Own.grown {k k' : Link} (h : k.Own k') : k.Grown k' := by
  have hr : k'.closeRequest = k.closeRequest := congrArg (·.2.2.2.2.2.1) h.frame
  have hc : k'.closing = k.closing := congrArg (·.2.2.2.2.2.2) h.frame
  rcases h.history with hh | ⟨n, -, hh⟩
  · exact .same hh hr hc h.wait
  · exact ⟨hh ▸ List.prefix_append _ _, fun _ h => hr.trans h, fun h => hc.trans h, h.wait⟩

namespace Stand

variable {v w : Stand}

theorem Course.grown (h : Course v w) : v.link.Grown w.link :=
  h.induction (P := fun k => v.link.Grown k) (fun h hk => hk.trans h.grown)
    (fun h hk => hk.trans h.grown)
    (fun h hk => hk.trans (h.grown.trans (Link.grown_marked _ _)))
    (fun _ hk => hk.trans (Link.grown_gone _)) (.refl _)

theorem Worked.grown (h : Worked v w) : v.link.Grown w.link := by
  induction h with
  | refl => exact .refl _
  | course h _ ih => exact h.grown.trans ih
  | own h _ ih => exact h.grown.trans ih

theorem TornDown.grown {reason : CloseReason} (h : TornDown reason v w) :
    v.link.Grown w.link := by
  cases h with
  | before => exact .refl _
  | now hc hook => exact (Link.grown_marked _ _).trans (hook.grown.trans (Link.grown_gone _))

theorem Concluded.grown {o : Link.Outcome} (h : Concluded v o w) : v.link.Grown w.link := by
  cases h with
  | next | park => exact .same rfl rfl rfl (Nat.le_refl _)
  | close ht => exact ht.grown.trans (.same rfl rfl rfl (Nat.le_refl _))
  | fail _ _ h _ ht => exact h.grown.trans (ht.grown.trans (.same rfl rfl rfl (Nat.le_refl _)))
  | panic ht => exact ht.grown.trans (.same rfl rfl rfl (Nat.le_refl _))

theorem Turn.grown (h : Turn v w) : v.link.Grown w.link :=
  h.induction (P := fun k => v.link.Grown k) (fun _ _ hk => hk.trans (.same rfl rfl rfl (Nat.le_refl _)))
    (fun h hk => hk.trans h.grown) (fun h hk => hk.trans h.grown) (fun h hk => hk.trans h.grown)
    (.refl _)

theorem Worked.owner (h : Worked v w) : w.link.owner = v.link.owner := by
  induction h with
  | refl => rfl
  | course h _ ih => exact ih.trans h.owner
  | own h _ ih =>
    have hown : ∀ {k k' : Link}, k.Own k' → k'.owner = k.owner := fun h =>
      congrArg (fun f => (f.1, f.2.1)) h.frame
    exact ih.trans (hown h)

theorem TornDown.owner {reason : CloseReason} (h : TornDown reason v w) :
    w.link.owner = v.link.owner := by
  cases h with
  | before => rfl
  | now hc hook => exact hook.owner.trans (Link.owner_marked _ _)

/-- A new link is one of the listener the connection was brought to. -/
theorem Started.listener {i : Nat} {arrival : Engine.Arrival} (h : Started i arrival v) :
    v.link.listener = i := by
  cases h with
  | queued _ _ h => exact congrArg Prod.fst h.owner
  | refused _ _ h ht => exact (congrArg Prod.fst ht.owner).trans (congrArg Prod.fst h.owner)

/-- A link never changes hands. -/
theorem Turn.owner (h : Turn v w) : w.link.owner = v.link.owner :=
  h.induction (P := fun k => k.owner = v.link.owner) (fun _ _ hk => hk)
    (fun h hk => h.owner.trans hk) (fun h hk => h.owner.trans hk) (fun h hk => h.owner.trans hk) rfl

end Stand

/-- **Histories only grow.** -/
theorem Engine.follow_grown {s : Engine} {l : Nat} {k : Link} (hs : s.scheduler.Sole)
    (hk : s.link? l = some k) (moves : List Engine.Move) :
    ∃ k', (Engine.follow moves s).link? l = some k' ∧ k.Grown k' := by
  obtain ⟨w, hw, hgrown⟩ := Engine.follow_stand (P := fun v => k.Grown v.link)
    (fun _ _ hv h => hv.trans h.grown) hs (Engine.stand?_of_link? hk) (.refl k) moves
  exact ⟨w.link, (Engine.stand?_eq_some.1 hw).1, hgrown⟩

end LinkEngine

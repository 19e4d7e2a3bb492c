import LinkEngine.Proofs.Moves

/-!
# New links

Bringing a connection to a listener either turns it away or makes a link of it:
a slot is added, the handler is made, which may set off a course, the link is
installed and perhaps asked to close at once, and a task is queued for it, or it
is torn down (`accept_accepts`). The other links see a course of all this
(`Accepts.stand`), and the new one begins in one of two ways (`Accepts.started`).
-/

namespace LinkEngine

open Connection (CloseReason)

namespace Link

/-- The note tells of something done. -/
def Note.isDeed : Note → Bool
  | .did _ _ => true
  | _ => false

/-- A link that was just installed. -/
def new (i : Nat) (handler : Handler) (socket : Socket.Endpoint Operation)
    (buffers : Stream.Buffers) (history : List Note) : Link :=
  { listener := i, handler, stream := .create socket buffers, history }

end Link

/-- Where a new link may stand when its connection was brought to a listener. -/
inductive Stand.Started (i : Nat) (arrival : Engine.Arrival) : Stand → Prop where
  | queued {socket : Socket.Endpoint Operation} {buffers : Stream.Buffers}
      {notes : List Link.Note} {w : Stand} (hs : socket.closes = arrival.socket.closes)
      (hn : ∀ n ∈ notes, n.isDeed = true)
      (h : Course ⟨.new i arrival.handler socket buffers notes, []⟩ w) :
      Started i arrival ⟨{ w.link with request := .request }, [.accept]⟩
  | refused {socket : Socket.Endpoint Operation} {buffers : Stream.Buffers}
      {notes : List Link.Note} {w u : Stand} (hs : socket.closes = arrival.socket.closes)
      (hn : ∀ n ∈ notes, n.isDeed = true)
      (h : Course ⟨.new i arrival.handler socket buffers notes, []⟩ w)
      (ht : TornDown .shutdown ⟨{ w.link with request := .request }, []⟩ u) :
      Started i arrival (u.put { u.link with held := false })

namespace Engine

variable {s t u : Engine} {l m i : Nat} {k k' : Link} {v : Stand} {arrival : Arrival}

/-! ## Slots without a link -/

/-- A slot for an attempt to accept. -/
def addSlot (s : Engine) (socket : Socket.Endpoint Operation) : Engine :=
  { s with slots := s.slots ++ [.turnedAway socket] }

theorem link?_addSlot (s : Engine) (socket : Socket.Endpoint Operation) (l : Nat) :
    (s.addSlot socket).link? l = s.link? l := by
  unfold addSlot link?
  rw [List.getElem?_append]
  split
  · rfl
  · next hl =>
    rw [List.getElem?_eq_none (Nat.le_of_not_lt hl)]
    cases hn : l - s.slots.length with
    | zero => rfl
    | succ n => rfl

theorem slots_addSlot (s : Engine) (socket : Socket.Endpoint Operation) :
    (s.addSlot socket).slots[s.slots.length]? = some (.turnedAway socket) := by
  show (s.slots ++ [_])[s.slots.length]? = _
  simp

private theorem turnedAway_setLink {e : Socket.Endpoint Operation}
    (he : s.slots[l]? = some (.turnedAway e)) (m : Nat) (k : Link) :
    (s.setLink m k).slots[l]? = some (.turnedAway e) := by
  show (s.slots.modify m _)[l]? = _
  rw [List.getElem?_modify, he]
  split <;> rfl

private theorem turnedAway_beginTearDown {e : Socket.Endpoint Operation}
    (he : s.slots[l]? = some (.turnedAway e)) (m : Nat) (reason : CloseReason) :
    (beginTearDown m reason s).slots[l]? = some (.turnedAway e) := by
  cases hk : s.link? m with
  | none =>
    rw [beginTearDown_of_none hk]
    exact he
  | some k =>
    rw [beginTearDown_eq hk]
    exact turnedAway_setLink he m _

private theorem turnedAway_giveBack {e : Socket.Endpoint Operation}
    (he : s.slots[l]? = some (.turnedAway e)) (m : Nat) (reason : CloseReason) :
    (giveBack m reason s).slots[l]? = some (.turnedAway e) := by
  cases hk : s.link? m with
  | none =>
    rw [giveBack_of_none hk]
    exact he
  | some k =>
    rw [giveBack_eq hk]
    exact turnedAway_setLink he m _

/-- Where there is no link, no change makes one, nor closes the socket. -/
private theorem Change.turnedAway (h : Change s t) {e : Socket.Endpoint Operation}
    (he : s.slots[l]? = some (.turnedAway e)) :
    ∃ e', t.slots[l]? = some (.turnedAway e') ∧ e'.closes = e.closes := by
  cases h with
  | @socket m f hf =>
    have hslots : (modifySocket m f s).slots[l]? =
        some (.turnedAway (if m = l then f e else e)) := by
      show (s.slots.modify m _)[l]? = _
      rw [List.getElem?_modify, he]
      split <;> rfl
    refine ⟨_, hslots, ?_⟩
    split
    · exact congrArg Socket.PerCall.close (hf.untouched e).1
    · rfl
  | touched hk h => exact ⟨e, turnedAway_setLink he _ _, rfl⟩
  | handed hk h => exact ⟨e, turnedAway_setLink he _ _, rfl⟩
  | _ => exact ⟨e, he, rfl⟩

/-- Where there is no link, no course makes one, nor closes the socket. -/
theorem Course.turnedAway (h : Course s t) {e : Socket.Endpoint Operation}
    (he : s.slots[l]? = some (.turnedAway e)) :
    ∃ e', t.slots[l]? = some (.turnedAway e') ∧ e'.closes = e.closes := by
  -- Nobody can name a link that is not there, so only its socket is worked on.
  induction h generalizing e with
  | refl => exact ⟨e, he, rfl⟩
  | change h _ ih =>
    obtain ⟨e', he', hc⟩ := h.turnedAway he
    obtain ⟨e'', he'', hc'⟩ := ih he'
    exact ⟨e'', he'', hc'.trans hc⟩
  | halt h _ _ _ ihinner ihrest =>
    obtain ⟨e', he', hc⟩ := ihinner (h.slots ▸ he)
    obtain ⟨e'', he'', hc'⟩ := ihrest he'
    exact ⟨e'', he'', hc'.trans hc⟩
  | @teardown s t u m k k' reason hk h hook _ ihhook ihrest =>
    obtain ⟨e', he', hc⟩ := ihhook (turnedAway_beginTearDown (turnedAway_setLink he m k') m reason)
    obtain ⟨e'', he'', hc'⟩ := ihrest (turnedAway_giveBack he' m reason)
    exact ⟨e'', he'', hc'.trans hc⟩

/-! ## Bringing a connection -/

/-- How a link that was installed is started. -/
inductive Starts (l : Nat) (s : Engine) : Engine → Prop where
  | queued {k : Link} (hk : s.link? l = some k) :
      Starts l s { s.setLink l { k with request := .request } with
        tasks := s.tasks ++ [⟨l, .accept⟩] }
  | refused {k : Link} {t : Engine} (hk : s.link? l = some k)
      (h : TornDown l .shutdown (s.setLink l { k with request := .request }) t) :
      Starts l s (t.modifyLink l fun k => { k with held := false })

/-- What bringing a connection to listener `i` does to an engine. -/
inductive Accepts (i : Nat) (arrival : Arrival) (s : Engine) : Engine → Prop where
  | turnedAway : Accepts i arrival s ((s.addSlot arrival.socket).count i .rejected)
  | started {tracker : Shutdown.Tracker} {t u w : Engine} {notes : List Link.Note}
      (hj : (s.listener i).tracker.join? (s.listener i).settings.maxConnections = some tracker)
      (make : Course ((s.addSlot arrival.socket).modifyListener i fun x => { x with tracker }) t)
      (hn : ∀ n ∈ notes, n.isDeed = true)
      (ask : Course (installLink i s.slots.length arrival.handler notes t) u)
      (asked : (installLink i s.slots.length arrival.handler notes t).isShuttingDown i = true →
        u.Heeds s.slots.length)
      (start : Starts s.slots.length u w) : Accepts i arrival s w

private theorem makeHandler_course (l : Nat) :
    ∀ (ops : List NamedOperation) (s : Engine), Course s (makeHandler l ops s).2 ∧
      ∀ n ∈ (makeHandler l ops s).1, n.isDeed = true
  | [], s => ⟨.refl s, fun n hn => by cases hn⟩
  | op :: ops, s => by
    obtain ⟨hcourse, hnotes⟩ := makeHandler_course l ops (perform l op.operation s).2
    refine ⟨(perform_course l op.operation s).trans hcourse, ?_⟩
    intro n hn
    rcases List.mem_cons.1 hn with rfl | hn
    · rfl
    · exact hnotes n hn

/-- Installing a link puts it into its slot. -/
theorem installLink_eq {e : Socket.Endpoint Operation} (he : s.slots[l]? = some (.turnedAway e))
    (i : Nat) (handler : Handler) (notes : List Link.Note) :
    installLink i l handler notes s =
      { s with
        slots := s.slots.set l
          (.link (.new i handler e (s.listener i).buffers.acquire.1 notes)) }.modifyListener i
        fun x => { x with
          buffers := (s.listener i).buffers.acquire.2
          registry := x.listing.arrange (x.registry ++ [l])
          stats := x.stats.record .accepted } := by
  unfold installLink
  rw [he]
  rfl

theorem link?_installLink {e : Socket.Endpoint Operation}
    (he : s.slots[l]? = some (.turnedAway e)) (i : Nat) (handler : Handler)
    (notes : List Link.Note) (m : Nat) :
    (installLink i l handler notes s).link? m =
      if m = l then some (.new i handler e (s.listener i).buffers.acquire.1 notes)
      else s.link? m := by
  rw [installLink_eq he]
  unfold link?
  show ((s.slots.set l _)[m]?).bind _ = _
  rw [List.getElem?_set]
  have hl : l < s.slots.length := by
    rw [List.getElem?_eq_some_iff] at he
    exact he.1
  by_cases h : m = l
  · subst h
    rw [if_pos rfl, if_pos hl, if_pos rfl]
    rfl
  · rw [if_neg fun e => h e.symm, if_neg h]

private theorem startLink_starts (hk : s.link? l = some k) (hr : k.request = .init) :
    Starts l s (startLink l s).2 := by
  unfold startLink
  rw [hk]
  simp only [hr]
  unfold Connection.Request.begin Connection.Request.move
  rw [if_pos rfl]
  simp only
  unfold schedule
  by_cases href : s.refusing
  · rw [if_pos (show (s.setLink l _).refusing = true from href)]
    exact .refused hk (tearDown_tornDown l .shutdown _)
  · rw [if_neg (show ¬ (s.setLink l _).refusing = true from href)]
    exact .queued hk

/-- The ownership state does not refuse the start of a link that is in the state
in which links start. -/
private theorem startLink_ne_refused (hk : s.link? l = some k) (hr : k.request = .init)
    (r : Connection.Request.Refusal) : (startLink l s).1 ≠ .refused (.request r) := by
  unfold startLink
  rw [hk]
  simp only [hr]
  unfold Connection.Request.begin Connection.Request.move
  rw [if_pos rfl]
  simp only
  split <;> exact fun h => nomatch h

/-- A link that was installed, and was perhaps asked to close, is in the state in
which links start. -/
private theorem installed_init {notes : List Link.Note} {e : Socket.Endpoint Operation}
    (he : s.slots[l]? = some (.turnedAway e)) (i : Nat) (handler : Handler)
    (h : Course (installLink i l handler notes s) u) :
    ∃ k, u.link? l = some k ∧ k.request = .init := by
  have hinstalled := link?_installLink he i handler notes l
  rw [if_pos rfl] at hinstalled
  obtain ⟨w, hw, hvw⟩ := h.stand (stand?_of_link? hinstalled)
  refine ⟨w.link, (stand?_eq_some.1 hw).1, ?_⟩
  -- Others change the ownership state of a parked link only, and this one is not parked.
  rcases (hvw.held rfl).request with hr | ⟨hr, -⟩
  · exact hr
  · cases hr

/-- A link is asked to close at once where its listener shuts down. -/
private theorem askAtOnce_course (i l : Nat) (s : Engine) :
    Course s (if s.isShuttingDown i then closeWith tearDown l .shutdown s else s) := by
  split
  · exact closeWith_course (tears_tearDown _) (Nat.le_refl _) _ _
  · exact .refl s

private theorem askAtOnce_heeds {i : Nat} (l : Nat) (h : s.isShuttingDown i = true) :
    (if s.isShuttingDown i then closeWith tearDown l .shutdown s else s).Heeds l := by
  rw [if_pos h]
  exact closeWith_heeds (tears_tearDown _) (Nat.le_refl _) _ _

/-- **Bringing a connection to a listener turns it away, or starts a link.** -/
theorem accept_accepts (i : Nat) (arrival : Arrival) (s : Engine) :
    Accepts i arrival s (accept i arrival s).2 := by
  unfold accept
  simp only
  split
  · exact .turnedAway
  · split
    · exact .turnedAway
    · next tracker hj =>
      -- While the handler is made, the slot is there but not the link.
      obtain ⟨hmake, hnotes⟩ := makeHandler_course s.slots.length arrival.whileMaking
        ((s.addSlot arrival.socket).modifyListener i fun x => { x with tracker })
      obtain ⟨e, he, -⟩ := hmake.turnedAway (slots_addSlot s arrival.socket)
      have hask := askAtOnce_course i s.slots.length (installLink i s.slots.length arrival.handler
        (makeHandler s.slots.length arrival.whileMaking
          ((s.addSlot arrival.socket).modifyListener i fun x => { x with tracker })).1
        (makeHandler s.slots.length arrival.whileMaking
          ((s.addSlot arrival.socket).modifyListener i fun x => { x with tracker })).2)
      obtain ⟨k, hk, hr⟩ := installed_init he i arrival.handler hask
      exact .started hj hmake hnotes hask (askAtOnce_heeds _) (startLink_starts hk hr)

/-- **The start of a link is never refused by its ownership state.** -/
theorem accept_ne_refused (i : Nat) (arrival : Arrival) (s : Engine)
    (r : Connection.Request.Refusal) : (accept i arrival s).1 ≠ .refused (.request r) := by
  unfold accept
  simp only
  split
  · exact fun h => nomatch h
  · split
    · exact fun h => nomatch h
    · obtain ⟨hmake, -⟩ := makeHandler_course s.slots.length arrival.whileMaking
        ((s.addSlot arrival.socket).modifyListener i fun x => { x with tracker := ‹_› })
      obtain ⟨e, he, -⟩ := hmake.turnedAway (slots_addSlot s arrival.socket)
      obtain ⟨k, hk, hr⟩ := installed_init he i arrival.handler (askAtOnce_course i _ _)
      exact startLink_ne_refused hk hr r

/-! ## What links see of it -/

theorem Starts.stand_ne (hm : m ≠ l) (h : Starts l s t) (hv : s.stand? m = some v) :
    ∃ w, t.stand? m = some w ∧ Stand.Course v w := by
  cases h with
  | @queued k hk =>
    have hentries := entries_append (s.setLink l { k with request := .request }) l m .accept
    rw [if_neg hm] at hentries
    obtain ⟨hkm, hq⟩ := stand?_eq_some.1 hv
    exact ⟨v, stand?_eq_some.2 ⟨(link?_setLink_ne hm s _).trans hkm, hentries.trans hq⟩, .refl v⟩
  | refused hk h =>
    obtain ⟨w, hw, hvw⟩ := h.stand_ne hm ((stand?_setLink_ne hm s _).trans hv)
    refine ⟨w, ?_, hvw⟩
    rw [← hw]
    exact stand?_congr (by rw [link?_modifyLink, if_neg hm]) rfl

/-- To a link that is there, bringing a connection is a course. -/
theorem Accepts.stand (h : Accepts i arrival s t) (hv : s.stand? l = some v) :
    ∃ w, t.stand? l = some w ∧ Stand.Course v w := by
  have hlt : l < s.slots.length := lt_length_of_link? (stand?_eq_some.1 hv).1
  have hslot : (s.addSlot arrival.socket).stand? l = s.stand? l :=
    stand?_congr (link?_addSlot s _ l) rfl
  cases h with
  | turnedAway => exact ⟨v, (stand?_congr rfl rfl).trans (hslot.trans hv), .refl v⟩
  | @started tracker t₁ t₂ w notes hj make hn ask _ start =>
    -- The slot of the new link is behind all the others.
    have hne : l ≠ s.slots.length := Nat.ne_of_lt hlt
    obtain ⟨e, he, -⟩ := make.turnedAway (slots_addSlot s arrival.socket)
    obtain ⟨a, ha, hva⟩ := make.stand ((stand?_congr rfl rfl).trans (hslot.trans hv))
    have hinstall : (installLink i s.slots.length arrival.handler notes t₁).stand? l = some a := by
      rw [← ha]
      refine stand?_congr ?_ ?_
      · rw [link?_installLink he, if_neg hne]
      · rw [installLink_eq he]
        rfl
    obtain ⟨b, hb, hab⟩ := ask.stand hinstall
    obtain ⟨c, hc, hbc⟩ := start.stand_ne hne hb
    exact ⟨c, hc, hva.trans (hab.trans hbc)⟩

/-! ## Timers and the pool -/

theorem Starts.lasts {P : Timer.Scheduler → Prop} (hP : Timer.Scheduler.Lasts P)
    (h : Starts l s t) (hs : P s.scheduler) : P t.scheduler := by
  cases h with
  | queued hk => exact hs
  | refused hk h =>
    have htorn := h.lasts hP hs
    exact htorn

theorem Accepts.lasts {P : Timer.Scheduler → Prop} (hP : Timer.Scheduler.Lasts P)
    (h : Accepts i arrival s t) (hs : P s.scheduler) : P t.scheduler := by
  cases h with
  | turnedAway => exact hs
  | started hj make hn ask _ start =>
    obtain ⟨e, he, -⟩ := make.turnedAway (slots_addSlot s arrival.socket)
    have hmade := make.lasts hP hs
    refine start.lasts hP (ask.lasts hP ?_)
    rw [installLink_eq he]
    exact hmade

/-- Every task in the pool is one of a link that is there. -/
def Manned (s : Engine) : Prop := ∀ task ∈ s.tasks, (s.link? task.link).isSome

/-- A link that is not there has no task. -/
theorem Manned.entries (h : s.Manned) (hl : s.link? l = none) : s.entries l = [] := by
  unfold Engine.entries
  rw [List.map_eq_nil_iff, List.filter_eq_nil_iff]
  intro task ht hlink
  have := h task ht
  rw [beq_iff_eq.1 hlink, hl] at this
  cases this

/-- The links are the same, and a new task is one of a link that is there. -/
structure Peopled (s t : Engine) : Prop where
  links : ∀ l, (t.link? l).isSome = (s.link? l).isSome
  tasks : ∀ task ∈ t.tasks, task ∈ s.tasks ∨ (t.link? task.link).isSome

namespace Peopled

theorem refl (s : Engine) : Peopled s s := ⟨fun _ => rfl, fun _ h => .inl h⟩

theorem trans (h₁ : Peopled s t) (h₂ : Peopled t u) : Peopled s u := by
  refine ⟨fun l => (h₂.links l).trans (h₁.links l), ?_⟩
  intro task ht
  rcases h₂.tasks task ht with h | h
  · rcases h₁.tasks task h with h | h
    · exact .inl h
    · exact .inr ((h₂.links _).trans h)
  · exact .inr h

theorem manned (h : Peopled s t) (hs : s.Manned) : t.Manned := by
  intro task ht
  rcases h.tasks task ht with h' | h'
  · exact (h.links _).trans (hs task h')
  · exact h'

theorem setLink (s : Engine) (l : Nat) (k : Link) : Peopled s (s.setLink l k) := by
  refine ⟨?_, fun _ h => .inl h⟩
  intro m
  show ((s.modifyLink l fun _ => k).link? m).isSome = _
  rw [link?_modifyLink]
  split
  · exact Option.isSome_map
  · rfl

/-- A task that is added is one of a link that is there. -/
theorem queued (hk : s.link? l = some k) (k' : Link) (e : Link.Entry) :
    Peopled s { s.setLink l k' with tasks := s.tasks ++ [⟨l, e⟩] } := by
  refine ⟨(setLink s l k').links, ?_⟩
  intro task ht
  rcases List.mem_append.1 ht with h | h
  · exact .inl h
  · refine .inr ?_
    obtain rfl : task = ⟨l, e⟩ := by simpa using h
    exact ((setLink s l k').links l).trans (by rw [hk]; rfl)

end Peopled

theorem Change.peopled (h : Change s t) : Peopled s t := by
  cases h with
  | socket l hf =>
    refine ⟨?_, fun _ h => .inl h⟩
    intro m
    rw [link?_modifySocket]
    split
    · exact Option.isSome_map
    · rfl
  | touched hk h => exact .setLink s _ _
  | handed hk h => exact .queued hk _ _
  | _ => exact ⟨fun _ => rfl, fun _ h => .inl h⟩

private theorem Halt.peopled {done : Engine → Prop} (h : Halt s t done) : Peopled s t := by
  cases h <;> exact ⟨fun _ => rfl, fun _ h => .inl h⟩

theorem peopled_beginTearDown (l : Nat) (reason : CloseReason) (s : Engine) :
    Peopled s (beginTearDown l reason s) := by
  cases hk : s.link? l with
  | none =>
    rw [beginTearDown_of_none hk]
    exact .refl s
  | some k =>
    rw [beginTearDown_eq hk]
    exact ⟨(Peopled.setLink s l _).links, fun _ h => .inl h⟩

theorem peopled_giveBack (l : Nat) (reason : CloseReason) (s : Engine) :
    Peopled s (giveBack l reason s) := by
  cases hk : s.link? l with
  | none =>
    rw [giveBack_of_none hk]
    exact .refl s
  | some k =>
    rw [giveBack_eq hk]
    exact ⟨(Peopled.setLink s l _).links, fun _ h => .inl h⟩

theorem Course.peopled (h : Course s t) : Peopled s t := by
  induction h with
  | refl => exact .refl _
  | change h _ ih => exact h.peopled.trans ih
  | halt h _ _ _ ihinner ihrest => exact h.peopled.trans (ihinner.trans ihrest)
  | teardown _ _ _ _ ihhook ihrest =>
    exact (Peopled.setLink _ _ _).trans
      ((peopled_beginTearDown _ _ _).trans (ihhook.trans ((peopled_giveBack _ _ _).trans ihrest)))

theorem TornDown.peopled (h : TornDown l reason s t) : Peopled s t := by
  cases h with
  | absent | before => exact .refl s
  | now hk hc hook =>
    exact (peopled_beginTearDown _ _ _).trans (hook.peopled.trans (peopled_giveBack _ _ _))

private theorem peopled_arm (l : Nat) (delay : Time.Duration) (s : Engine) :
    Peopled s (s.arm l delay).2 := by
  cases hk : s.link? l with
  | none =>
    rw [arm_of_none hk]
    exact .refl s
  | some k =>
    rw [arm_eq hk]
    split <;> exact ⟨(Peopled.setLink s l _).links, fun _ h => .inl h⟩

private theorem peopled_disarm (l : Nat) (s : Engine) : Peopled s (s.disarm l) := by
  cases hk : s.link? l with
  | none =>
    rw [disarm_of_none hk]
    exact .refl s
  | some k =>
    rw [disarm_eq hk]
    exact ⟨(Peopled.setLink s l _).links, fun _ h => .inl h⟩

theorem Work.peopled (h : Work l s t) : Peopled s t := by
  induction h with
  | refl => exact .refl _
  | course h _ ih => exact h.peopled.trans ih
  | own _ _ _ _ ih => exact (Peopled.setLink _ _ _).trans ih
  | armed delay _ ih => exact (peopled_arm _ delay _).trans ih
  | disarmed _ ih => exact (peopled_disarm _ _).trans ih
  | stats _ _ _ ih => exact ⟨ih.links, ih.tasks⟩
  | handle _ _ _ ih => exact ⟨ih.links, ih.tasks⟩

theorem Drove.peopled (h : Drove l s t) : Peopled s t := by
  cases h with
  | work h => exact h.peopled
  | torn h ht h' => exact h.peopled.trans (ht.peopled.trans h'.peopled)

theorem Begun.peopled {place : Nat} (h : Begun place s t) : Peopled s t := by
  cases h with
  | nothing => exact .refl s
  | taken ht hk hd h =>
    have hq : Peopled s (s.dequeue place) :=
      ⟨fun _ => rfl, fun _ h => .inl (List.mem_of_mem_eraseIdx h)⟩
    exact hq.trans h.peopled

theorem Starts.peopled (h : Starts l s t) : Peopled s t := by
  cases h with
  | queued hk => exact .queued hk _ _
  | refused hk h =>
    refine (Peopled.setLink _ _ _).trans (h.peopled.trans ?_)
    cases hk' : Engine.link? _ l with
    | none => rw [modifyLink_of_none hk']; exact .refl _
    | some k' => rw [modifyLink_eq_setLink hk']; exact .setLink _ _ _

/-- Bringing a connection makes no link but the one in the new slot, and leaves
the pool manned. -/
theorem Accepts.links (h : Accepts i arrival s t) :
    (∀ l, l ≠ s.slots.length → (t.link? l).isSome = (s.link? l).isSome) ∧
      (s.Manned → t.Manned) := by
  have hslot : ∀ f, Peopled s ((s.addSlot arrival.socket).modifyListener i f) := fun f =>
    ⟨fun l => congrArg Option.isSome (link?_addSlot s arrival.socket l), fun _ h => .inl h⟩
  cases h with
  | turnedAway => exact ⟨fun l _ => (hslot _).links l, (hslot _).manned⟩
  | @started tracker t₁ t₂ w notes hj make hn ask _ start =>
    obtain ⟨e, he, -⟩ := make.turnedAway (slots_addSlot s arrival.socket)
    have hmade := (hslot fun x => { x with tracker }).trans make.peopled
    have hstarted := ask.peopled.trans start.peopled
    have hinstalled := link?_installLink he i arrival.handler notes
    refine ⟨?_, fun hm => hstarted.manned ?_⟩
    · intro l hl
      rw [hstarted.links, hinstalled, if_neg hl, hmade.links]
    · intro task ht
      rw [installLink_eq he] at ht
      rw [hinstalled]
      split
      · rfl
      · exact hmade.manned hm task ht

/-- **The new link begins with a task to start it, or is torn down at once.** -/
theorem Accepts.started_stand (h : Accepts i arrival s t) (hm : s.Manned) :
    t.link? s.slots.length = none ∨
      ∃ w, t.stand? s.slots.length = some w ∧ Stand.Started i arrival w := by
  have hnone : (s.addSlot arrival.socket).link? s.slots.length = none := by
    rw [link?_addSlot]
    unfold link?
    rw [List.getElem?_eq_none (Nat.le_refl _)]
    rfl
  cases h with
  | turnedAway => exact .inl hnone
  | @started tracker t₁ t₂ w notes hj make hn ask _ start =>
    obtain ⟨e, he, hc⟩ := make.turnedAway (slots_addSlot s arrival.socket)
    -- The slot is new, so no task in the pool can be for it.
    have hm₁ : t₁.Manned := by
      refine make.peopled.manned ?_
      intro task ht
      show ((s.addSlot arrival.socket).link? task.link).isSome
      rw [link?_addSlot]
      exact hm task ht
    have hq : t₁.entries s.slots.length = [] := by
      refine hm₁.entries ?_
      unfold link?
      rw [he]
      rfl
    have hnew : (installLink i s.slots.length arrival.handler notes t₁).stand? s.slots.length =
        some ⟨.new i arrival.handler e (t₁.listener i).buffers.acquire.1 notes, []⟩ := by
      refine stand?_eq_some.2 ⟨?_, ?_⟩
      · rw [link?_installLink he, if_pos rfl]
      · rw [installLink_eq he]
        exact hq
    obtain ⟨a, ha, hva⟩ := ask.stand hnew
    have hqa : a.queue = [] := (hva.held rfl).queue
    obtain ⟨hka, hea⟩ := stand?_eq_some.1 ha
    refine .inr ?_
    cases start with
    | queued hk =>
      obtain rfl : a.link = _ := Option.some.inj (hka.symm.trans hk)
      have hentries := entries_append
        (t₂.setLink s.slots.length { a.link with request := .request })
        s.slots.length s.slots.length .accept
      rw [if_pos rfl, show (t₂.setLink s.slots.length _).entries s.slots.length = a.queue from hea,
        hqa] at hentries
      exact ⟨⟨{ a.link with request := .request }, [.accept]⟩,
        stand?_eq_some.2 ⟨link?_setLink_self hk _, hentries⟩, .queued hc hn hva⟩
    | refused hk ht =>
      obtain rfl : a.link = _ := Option.some.inj (hka.symm.trans hk)
      have hset := stand?_setLink_self ha { a.link with request := .request }
      rw [hqa] at hset
      obtain ⟨b, hb, hab⟩ := ht.stand_self hset
      refine ⟨_, ?_, .refused hc hn hva hab⟩
      rw [modifyLink_eq_setLink (stand?_eq_some.1 hb).1]
      exact stand?_setLink_self hb _

end Engine

end LinkEngine

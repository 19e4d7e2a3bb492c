import LinkEngine.Engine.Hooks
import LinkEngine.Proofs.Closes
import LinkEngine.Proofs.Output
import LinkEngine.Proofs.Stand

/-!
# What a task does to its link

The task that drives a link takes steps, and each of them does more than concern
the link: it reads the settings and the clock, calls hooks, waits. A `Plan` says
of a step which outcomes and which new stands may come of it, as far as the link
itself shows, and `Stand.plan` has one for each step, put together from the same
parts as the steps themselves. That the steps keep to their plans is proved with
the steps (`stepLink_drives`); what must hold of a link through all its steps is
proved from the plans alone.
-/

namespace LinkEngine

open Connection (CloseReason)
open Link (Ending Entry Outcome Step Upgrades)

/-- The handler closes the stream of its connection itself in one of its hooks. -/
def Handler.closesStream (h : Handler) : Bool :=
  (h.start :: h.suspendTimeout :: (h.requests ++ h.resumes ++ h.services)).any
    (·.any (·.kind == .transfer .close))

/-! ## What a task writes -/

namespace Link

/-- The note tells of a teardown. -/
def Note.isClosing : Note → Bool
  | .closing _ => true
  | _ => false

/-- What the task of a link leaves as it is when it writes to the link, its
history and its stream apart. -/
def frame (k : Link) :
    Nat × Handler × Bool × Option CloseReason × Bool × Option CloseReason × Bool :=
  (k.listener, k.handler, k.closed, k.closeReason, k.counted, k.closeRequest, k.closing)

/-- What the task of a link may write to it. The stream is closed only where the
handler does that. -/
structure Own (k k' : Link) : Prop where
  frame : k'.frame = k.frame
  closes : k'.stream.closes = k.stream.closes ∨ k.handler.closesStream = true
  history : k'.history = k.history ∨
    ∃ n : Note, n.isClosing = false ∧ k'.history = k.history ++ [n]
  /-- It may set the deadline of a wait to come, and take that of a wait back. -/
  wait : k.waitGeneration ≤ k'.waitGeneration

theorem Own.stream {k : Link} {x : Stream Operation} (hx : x.closes = k.stream.closes) :
    k.Own { k with stream := x } :=
  ⟨rfl, .inl hx, .inl rfl, Nat.le_refl _⟩

theorem Own.note (k : Link) {n : Note} (hn : n.isClosing = false) : k.Own (k.note n) :=
  ⟨rfl, .inl rfl, .inr ⟨n, hn, rfl⟩, Nat.le_refl _⟩

theorem Own.disarmed (k : Link) : k.Own k.disarmed := by
  refine ⟨?_, ?_, ?_, k.waitGeneration_disarmed⟩ <;> unfold Link.disarmed <;> split
  all_goals first | rfl | exact .inl rfl

theorem wait_transition {k k' : Link} {e : Connection.Event} (h : k.transition e = .ok k') :
    k'.wait = k.wait := by
  unfold Link.transition at h
  split at h <;> cases h
  rfl

theorem Own.transition {k k' : Link} {e : Connection.Event} (h : k.transition e = .ok k') :
    k.Own k' := by
  unfold Link.transition at h
  split at h <;> cases h
  exact ⟨rfl, .inl rfl, .inl rfl, Nat.le_refl _⟩

end Link

/-- A link changes by what its task writes to it, and by courses. -/
inductive Stand.Worked : Stand → Stand → Prop where
  | refl (v : Stand) : Worked v v
  | course {v w u : Stand} (h : Course v w) (rest : Worked w u) : Worked v u
  | own {v u : Stand} {k : Link} (h : v.link.Own k) (rest : Worked ⟨k, v.queue⟩ u) : Worked v u

/-! ## Hooks -/

namespace Link

/-- What an action of a hook does to the link it is called on. -/
inductive Acted (upgrades : Upgrades) : Link → Link → Prop where
  | stream (k : Link) {x : Stream Operation} (hx : k.stream.Used x) :
      Acted upgrades k { k with stream := x }
  | kill (k : Link) : Acted upgrades k { k with killKeepalive := true }
  /-- It ends its two-way stream. -/
  | twoWay {k : Link} {d : Duplex} (hd : k.duplex = some d) :
      Acted upgrades k { k with duplex := some { d with closed := true } }
  | comet {k k' : Link} {l : Nat} {timeout : Option Time.Duration} {h : Engine.Handle}
      (hk : Engine.startComet l k upgrades timeout = .ok (h, k')) : Acted upgrades k k'
  | duplex {k k' : Link} (hk : Engine.startDuplex k upgrades = .ok k') : Acted upgrades k k'

theorem Acted.owner {upgrades : Upgrades} {k k' : Link} (h : k.Acted upgrades k') :
    k'.owner = k.owner := by
  cases h with
  | comet hk =>
    unfold Engine.startComet at hk
    split at hk
    · cases hk
    · split at hk <;> cases hk
      rfl
  | duplex hk =>
    unfold Engine.startDuplex at hk
    split at hk <;> cases hk
    rfl
  | _ => rfl

/-- No hook concerns itself with the deadline of a wait. -/
theorem Acted.wait {upgrades : Upgrades} {k k' : Link} (h : k.Acted upgrades k') :
    k'.wait = k.wait := by
  cases h with
  | comet hk =>
    unfold Engine.startComet at hk
    split at hk
    · cases hk
    · split at hk <;> cases hk
      rfl
  | duplex hk =>
    unfold Engine.startDuplex at hk
    split at hk <;> cases hk
    rfl
  | _ => rfl

/-- The reason a link closes for where its own would be another. It has its own only while
nobody asked for the close. -/
def ClosesAs (k : Link) (own reason : CloseReason) : Prop :=
  reason = own ∧ k.closing = false ∨ reason = k.requestedClose

/-- The reason a link closes for when its task failed. A lack of memory is told of even where
somebody asked for the close. -/
def FailsAs (k : Link) (f : Failure) (reason : CloseReason) : Prop :=
  reason = f.closeReason ∧ (k.closing = false ∨ f.isOutOfMemory = true) ∨
    reason = k.requestedClose

/-- Its stream was flushed, and where that failed it is noted. -/
def flushed (k : Link) : Link :=
  match k.stream.flush with
  | (.ok (), stream) => { k with stream }
  | (.error kind, stream) => { k with stream }.note (.unflushed kind)

theorem flushed_of_ok {k : Link} (h : k.stream.flush.1 = .ok ()) :
    k.flushed = { k with stream := k.stream.flush.2 } := by
  unfold flushed
  generalize k.stream.flush = f at h ⊢
  obtain ⟨r, stream⟩ := f
  cases h
  rfl

theorem flushed_of_error {k : Link} {kind : IoKind} (h : k.stream.flush.1 = .error kind) :
    k.flushed = { k with stream := k.stream.flush.2 }.note (.unflushed kind) := by
  unfold flushed
  generalize k.stream.flush = f at h ⊢
  obtain ⟨r, stream⟩ := f
  cases h
  rfl

theorem flushed_cases (k : Link) : ∃ stream,
    k.flushed = { k with stream } ∨ ∃ kind, k.flushed = { k with stream }.note (.unflushed kind) := by
  refine ⟨k.stream.flush.2, ?_⟩
  cases hf : k.stream.flush.1 with
  | ok _ => exact .inl (flushed_of_ok hf)
  | error kind => exact .inr ⟨kind, flushed_of_error hf⟩

theorem wait_flushed (k : Link) : k.flushed.wait = k.wait := by
  obtain ⟨stream, h | ⟨kind, h⟩⟩ := k.flushed_cases <;> rw [h] <;> rfl

/-- What is recorded of a call of the handler that consumed some bytes. -/
def Duplex.recordRead (d : Duplex) (consumed : Nat) : Duplex :=
  { d with reads := d.reads + 1, bytesRead := d.bytesRead + consumed }

/-- The next step of a task that just began. -/
def Entry.step : Entry → Step
  | .accept => .accept
  | .resume => .resumeParked

end Link

namespace Stand

/-- Puts a link in the place of an earlier state of it. -/
def put (v : Stand) (k : Link) : Stand := ⟨k, v.queue⟩

@[simp] theorem link_put (v : Stand) (k : Link) : (v.put k).link = k := rfl

@[simp] theorem put_put (v : Stand) (k k' : Link) : (v.put k).put k' = v.put k' := rfl

/-- What comes of a link while a hook of it runs: the hook acts, and others do
what they do. -/
inductive Served (upgrades : Upgrades) : Stand → Stand → Prop where
  | refl (v : Stand) : Served upgrades v v
  | course {v w u : Stand} (h : Course v w) (rest : Served upgrades w u) : Served upgrades v u
  | acted {v u : Stand} {k : Link} (h : v.link.Acted upgrades k)
      (rest : Served upgrades (v.put k) u) : Served upgrades v u

theorem Served.trans {upgrades : Upgrades} {v w u : Stand} (h₁ : Served upgrades v w)
    (h₂ : Served upgrades w u) : Served upgrades v u := by
  induction h₁ with
  | refl => exact h₂
  | course h _ ih => exact .course h (ih h₂)
  | acted h _ ih => exact .acted h (ih h₂)

theorem Served.owner {upgrades : Upgrades} {v w : Stand} (h : Served upgrades v w) :
    w.link.owner = v.link.owner := by
  induction h with
  | refl => rfl
  | course h _ ih => exact ih.trans h.owner
  | acted h _ ih => exact ih.trans h.owner

/-- A hook was called on a link, and how it ended. -/
def Hooked (hook : Hook) (upgrades : Upgrades) (v : Stand) (ending : Ending) (w : Stand) : Prop :=
  ∃ u, Served upgrades (v.put (v.link.note (.began hook))) u ∧
    w = u.put (u.link.note (.ended hook ending))

/-- A wait for input came back: others did what they did meanwhile. -/
def Waited (v w : Stand) : Prop :=
  Course (v.put { v.link with stream := v.link.stream.wait.2 }) w

/-- A link is torn down for a reason, unless that was done before. -/
inductive TornDown (reason : CloseReason) (v : Stand) : Stand → Prop where
  | before (h : v.link.closed = true) : TornDown reason v v
  | now {w : Stand} (h : v.link.closed = false)
      (hook : Course (v.put (v.link.marked reason)) w) : TornDown reason v (w.put w.link.gone)

theorem TornDown.closed {reason : CloseReason} (h : TornDown reason v w) :
    w.link.closed = true := by
  cases h with
  | before hc => exact hc
  | now hc hook => exact hook.closed (Link.closed_marked _ _)

/-! ## Plans -/

/-- Which outcomes and which stands may come of something a task does. -/
abbrev Plan := Stand → Outcome → Stand → Prop

namespace Plan

/-- Nothing more is done. -/
def yield (outcome : Outcome) : Plan := fun v o w => o = outcome ∧ w = v

/-- The link is written to. -/
def write (f : Link → Link) (go : Plan) : Plan := fun v => go (v.put (f v.link))

/-- The lifecycle moves, or refuses to. -/
def transition (e : Connection.Event) (go : Plan) : Plan := fun v o w =>
  match v.link.transition e with
  | .error f => o = .refused f ∧ w = v
  | .ok k => go (v.put k) o w

/-- A hook is called. -/
def hook (hook : Hook) (upgrades : Upgrades) (go : Bool → Plan) : Plan := fun v o w =>
  ∃ ending u, Hooked hook upgrades v ending u ∧
    match ending with
    | .returned keep => go keep u o w
    | .failed f => o = .fail f ∧ w = u
    | .panicked => o = .panic ∧ w = u

/-- The stream is flushed. -/
def flush (go : Plan) : Plan := fun v o w =>
  match v.link.stream.flush.1 with
  | .error kind => o = .fail (.ofKind kind) ∧ w = v.put v.link.flushed
  | .ok () => go (v.put v.link.flushed) o w

/-- The deadline of a wait is set. -/
def arm (go : Plan) : Plan := fun v o w =>
  let k := { v.link with waitGeneration := v.link.waitGeneration + 1 }
  (o = .fail .schedulerShutdown ∧ w = v.put (k.note (.unarmed .schedulerShutdown))) ∨
    ∃ t, go (v.put { k with deadline := some t }) o w

/-- The link closes, for its own reason or the one that was asked for. -/
def close (own : CloseReason) : Plan := fun v o w =>
  ∃ reason, v.link.ClosesAs own reason ∧ o = .close reason ∧ w = v

/-- Input is waited for once, unless the link is to close. -/
def wait (ready idle : Step) (late : CloseReason) : Plan := fun v o w =>
  close .peerClosed v o w ∨ v.link.closing = false ∧
    (yield (.close late) v o w ∨ ∃ u, Waited v u ∧
      ((∃ kind, yield (.fail (.ofKind kind)) u o w) ∨ yield (.next ready) u o w ∨
        yield (.next idle) u o w ∨ close .peerClosed u o w))

/-- A link the multiplexer did not take goes on, unless a waker owns it. -/
def declined : Plan := fun v o w =>
  match v.link.request.wakeKeepalive with
  | (.resume, r) => o = .next .block ∧ w = v.put { v.link with request := r }.disarmed
  | _ => o = .park ∧ w = v

/-- The link is handed to the multiplexer, during which others do what they do. -/
def register : Plan := fun v o w =>
  ∃ u, Course v u ∧ (yield .panic u o w ∨ yield .park u o w ∨ declined u o w)

/-- The link is given away, unless a wake came first. -/
def park : Plan := fun v o w =>
  match v.link.request.trySuspend with
  | .error r => o = .refused (.request r) ∧ w = v
  | .ok (.suspended, r) => o = .park ∧ w = v.put { v.link with request := r }
  | .ok (.woken, r) =>
    o = .next (.resume v.link.isTimedOut) ∧ w = v.put { v.link with request := r }.disarmed

/-- The link starts. -/
def accept : Plan :=
  transition .accept fun v o w =>
    ∃ stream, v.link.stream.Quiet stream ∧
      ((∃ kind, yield (.fail (.ofKind kind)) (v.put { v.link with stream }) o w) ∨
      hook .start .none (fun _ => yield (.next .dispatch)) (v.put { v.link with stream }) o w)

/-- The link is taken up where it was parked. -/
def resumeParked : Plan := fun v o w =>
  w = v.put v.link.disarmed ∧
    match v.link.machine.state with
    | .keepalive =>
      o = if v.link.isTimedOut then .close .keepaliveTimeout else .next .await
    | .cometSuspend => o = .next (.resume v.link.isTimedOut)
    | state => o = .refused (.transition { state, event := .wake })

/-- A request is served. -/
def dispatch : Plan :=
  transition .dispatch <| write (fun k => { k with pending := .none }) <|
    hook .request .any fun keep => flush <| yield (.next (.after keep))

/-- What was asked for comes next; a link that is to close, or is not kept, does not rest. -/
def after (keep : Bool) : Plan := fun v o w =>
  match v.link.pending with
  | .duplex => o = .next .upgrade ∧ w = v.put { v.link with pending := .none }
  | .comet c => o = .next .suspend ∧ w = v.put { v.link with pending := .none, comet := some c }
  | .none =>
    (∃ killed, (v.link.closing = true ∨ keep = false → killed = true) ∧
      o = .next (.rest killed)) ∧ w = v

/-- A request ends. -/
def rest (killed : Bool) : Plan :=
  write (fun k => { k with comet := none }) fun v o w =>
    match v.link.machine.finish killed with
    | .error r => o = .refused (.transition r) ∧ w = v
    | .ok machine =>
      if machine.state.isClosed then close .normal (v.put { v.link with machine }) o w
      else ∃ t, yield (.next .await) (v.put { v.link with machine, restUntil := t }) o w

/-- A probe told, or failed to tell, whether there is input. -/
def polled : Plan := fun v o w =>
  (∃ kind, yield (.fail (.ofKind kind)) v o w) ∨ yield (.next .dispatch) v o w ∨
    close .peerClosed v o w ∨ yield (.close .keepaliveTimeout) v o w ∨
    yield (.next .block) v o w ∨
    match v.link.request.rest with
    | .error r => o = .refused (.request r) ∧ w = v
    | .ok r => arm register (v.put { v.link with request := r }) o w

/-- The next request is waited for. -/
def await : Plan := fun v o w =>
  polled (v.put { v.link with stream := v.link.stream.poll.2 }) o w

/-- The request is suspended. -/
def suspend : Plan := fun v o w =>
  if v.link.closing then o = .close v.link.requestedClose ∧ w = v
  else transition .suspend (arm park) v o w

/-- The request is over, because its deadline passed. -/
def expire : Plan := fun v o w =>
  ∃ ending u, Hooked .suspendTimeout .none v ending u ∧
    if ending = .panicked then o = .panic ∧ w = u
    else o = .close .suspendTimeout ∧ w = u.put u.link.flushed

/-- The request is taken up again. -/
def resume (timedOut : Bool) : Plan :=
  transition .wake <| write (fun k => { k with comet := none }) fun v o w =>
    if timedOut then expire v o w
    else if v.link.closing then o = .close v.link.requestedClose ∧ w = v
    else hook .resume .comet (fun keep => flush <| yield (.next (.after keep))) v o w

/-- The link becomes a two-way stream. -/
def upgrade : Plan :=
  transition .upgrade fun v o w =>
    ∃ t, yield (.next (.listen t)) (v.put { v.link with duplex := some {} }) o w

/-- What comes of the bytes of a two-way stream once the handler returned and was flushed: the
stream is over, is stuck, or goes on. -/
def serviced (before v : Stand) : Outcome → Stand → Prop := fun o w =>
  let d := v.link.duplex.getD {}
  let consumed := v.link.stream.bytesRead - before.link.stream.bytesRead
  (d.closed = true ∧ close .normal v o w) ∨
    (d.closed = false ∧ consumed = 0 ∧ yield (.close .protocolViolation) v o w) ∨
    (0 < consumed ∧ d.closed = false ∧
      transition .keepalive (fun v o w => ∃ t, yield (.next (.listen t)) v o w)
        (v.put { v.link with duplex := some (d.recordRead consumed) }) o w)

/-- The bytes of a two-way stream are served, and it goes on if some were consumed and it
was not ended. -/
def service : Plan :=
  transition .dispatch fun before =>
    hook .service .none (fun _ => flush (serviced before)) before

/-- A flush fails the link, or goes on; nothing but the stream was written to, and a
note where it failed. -/
theorem flush_cases {go : Plan} {v w : Stand} {o : Outcome} (h : flush go v o w) :
    ∃ stream,
      (∃ kind, o = .fail (.ofKind kind) ∧
        w = v.put ({ v.link with stream }.note (.unflushed kind))) ∨
      go (v.put { v.link with stream }) o w := by
  refine ⟨v.link.stream.flush.2, ?_⟩
  unfold flush at h
  split at h
  · next kind hf =>
    rw [Link.flushed_of_error hf] at h
    exact .inl ⟨kind, h⟩
  · next hf =>
    rw [Link.flushed_of_ok hf] at h
    exact .inr h

end Plan

/-- The plan of each step. -/
def plan : Step → Plan
  | .accept => Plan.accept
  | .resumeParked => Plan.resumeParked
  | .dispatch => Plan.dispatch
  | .after keep => Plan.after keep
  | .rest killed => Plan.rest killed
  | .await => Plan.await
  | .block => Plan.wait .dispatch .block .keepaliveTimeout
  | .suspend => Plan.suspend
  | .resume timedOut => Plan.resume timedOut
  | .upgrade => Plan.upgrade
  | .listen deadline => Plan.wait .service (.listen deadline) .timeout
  | .service => Plan.service

/-! ## Turns -/

/-- The task of a link is over, or takes another step. -/
def next (v : Stand) (step : Option Step) : Stand := v.put { v.link with step }

/-- What a step decided is carried out. -/
inductive Concluded (v : Stand) : Outcome → Stand → Prop where
  | next (step : Step) : Concluded v (.next step) (v.next (some step))
  | park : Concluded v .park (v.next none)
  | close {reason : CloseReason} {w : Stand} (h : TornDown reason v w) :
      Concluded v (.close reason) (w.next none)
  | fail {f : Failure} {outcome : Outcome} {reason : CloseReason} {w u : Stand}
      (ho : outcome = .fail f ∨ outcome = .refused f) (hr : v.link.FailsAs f reason)
      (h : Course v w) (hm : f.isOutOfMemory = false → w = v) (ht : TornDown reason w u) :
      Concluded v outcome (u.next none)
  | panic {w : Stand} (h : TornDown .handlerError v w) : Concluded v .panic (w.next none)

/-- What a move of the engine may be to a link that is there. -/
inductive Turn : Stand → Stand → Prop where
  /-- Others move. -/
  | course {v w : Stand} (h : Course v w) : Turn v w
  /-- A task of it begins. -/
  | begin {k : Link} {q : List Entry} (hd : k.isDriven = false) {i : Nat} {e : Entry}
      (he : q[i]? = some e) (hc : k.closed = false) (hc' : k.closing = false) :
      Turn ⟨k, q⟩ ⟨{ k with step := some e.step }, q.eraseIdx i⟩
  /-- A task of it begins, but it is closed. -/
  | idle {k : Link} {q : List Entry} (hd : k.isDriven = false) {i : Nat} {e : Entry}
      (he : q[i]? = some e) (hc : k.closed = true) : Turn ⟨k, q⟩ ⟨k, q.eraseIdx i⟩
  /-- A task of it begins, but it is to close. -/
  | doomed {k : Link} {q : List Entry} (hd : k.isDriven = false) {i : Nat} {e : Entry}
      (he : q[i]? = some e) (hc : k.closed = false) (hc' : k.closing = true) {w : Stand}
      (h : TornDown k.requestedClose ⟨k, q.eraseIdx i⟩ w) : Turn ⟨k, q⟩ w
  /-- Its task takes a step. -/
  | step {v w u : Stand} {step : Step} {outcome : Outcome} (hs : v.link.step = some step)
      (h : plan step v outcome w) (hw : Worked v w) (hc : Concluded w outcome u) : Turn v u

/-- What is kept by courses, by teardowns and by what a task writes is kept by
turns, as far as it does not depend on the next step. -/
theorem Turn.induction {P : Link → Prop} (hstep : ∀ k step, P k → P { k with step })
    (hcourse : ∀ {v w}, Course v w → P v.link → P w.link)
    (htorn : ∀ {reason v w}, TornDown reason v w → P v.link → P w.link)
    (hworked : ∀ {v w}, Worked v w → P v.link → P w.link) {v w : Stand}
    (h : Turn v w) (hv : P v.link) : P w.link := by
  cases h with
  | course h => exact hcourse h hv
  | begin => exact hstep _ _ hv
  | idle => exact hv
  | doomed hd he hc hc' h => exact htorn h hv
  | step hs h hw hc =>
    -- A step works first, and what it decided is carried out then.
    have hv := hworked hw hv
    cases hc with
    | next step => exact hstep _ _ hv
    | park => exact hstep _ _ hv
    | close ht => exact hstep _ _ (htorn ht hv)
    | fail ho hr hf _ ht => exact hstep _ _ (htorn ht (hcourse hf hv))
    | panic ht => exact hstep _ _ (htorn ht hv)

end Stand

end LinkEngine

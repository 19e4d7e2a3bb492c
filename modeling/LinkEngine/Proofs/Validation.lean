import LinkEngine.Engine.Accepting
import LinkEngine.Settings.Document
import LinkEngine.Settings.Environment

/-!
# The two checks of the settings

Loaded settings are checked as a whole, and a listener checks its section once
more when it is built. What the second check asks beyond the first is the
longest single wait: nothing else refuses a listener with settings that were
loaded (`build_of_loaded`). No variable sets it, so settings from the environment
are never refused; a document can.
-/

namespace LinkEngine

namespace Settings

variable {e e' : Engine}

/-- A check goes on exactly where the setting it looks at is not zero. -/
theorem nonzero_bind_eq_ok {isZero : Bool} {setting : String} {rest : Except Fault Unit} :
    (nonzero isZero setting >>= fun _ => rest) = .ok () ↔ isZero = false ∧ rest = .ok () := by
  cases isZero <;> simp [nonzero, bind, Except.bind]

theorem nonzero_bind {setting : String} {isZero : Bool} (h : isZero = false)
    (rest : Except Fault Unit) : (nonzero isZero setting >>= fun _ => rest) = rest := by
  rw [h]
  rfl

theorem message_pollSlice :
    (Fault.zero "listener.poll_slice").message = "listener.poll_slice must be > 0" := by
  unfold Fault.message
  simp

/-- What the check of loaded settings makes sure of. -/
structure Engine.Sound (e : Engine) : Prop where
  keepaliveTimeout : e.listener.keepaliveTimeout.isZero = false
  suspendTimeout : e.listener.suspendTimeout.isZero = false
  maxConnections : (e.listener.maxConnections == 0) = false
  dispatchLimit : (e.scheduler.dispatchLimit == 0) = false
  intervals : e.scheduler.minSampleInterval.le e.scheduler.maxSampleInterval = true

theorem Engine.validate_eq_ok_iff : e.validate = .ok () ↔ e.Sound := by
  unfold validate
  rw [nonzero_bind_eq_ok, nonzero_bind_eq_ok, nonzero_bind_eq_ok, nonzero_bind_eq_ok]
  constructor
  · rintro ⟨hkeepalive, hsuspend, hconnections, hlimit, hintervals⟩
    refine ⟨hkeepalive, hsuspend, hconnections, hlimit, ?_⟩
    split at hintervals
    · assumption
    · cases hintervals
  · rintro ⟨hkeepalive, hsuspend, hconnections, hlimit, hintervals⟩
    exact ⟨hkeepalive, hsuspend, hconnections, hlimit, if_pos hintervals⟩

/-- Of a section of sound settings only the longest single wait is left to check. -/
theorem Engine.Sound.validate_listener (h : e.Sound) :
    e.listener.validate = nonzero e.listener.pollSlice.isZero "listener.poll_slice" := by
  unfold Listener.validate
  rw [nonzero_bind h.keepaliveTimeout, nonzero_bind h.suspendTimeout, h.maxConnections]
  cases e.listener.pollSlice.isZero <;> rfl

/-! ## Where settings come from -/

theorem Engine.checked_eq_ok_iff : e.checked = .ok e' ↔ e = e' ∧ e.validate = .ok () := by
  unfold checked
  split <;> simp [*]

/-- What no variable sets stays as it was. -/
theorem override_keeps {α : Type} {env : Environment} {vs : List Variable} (part : Engine → α)
    (hsets : ∀ v ∈ vs, ∀ n e, part (v.set n e) = part e) (h : override env vs e = .ok e') :
    part e' = part e := by
  induction vs generalizing e with
  | nil =>
    cases h
    rfl
  | cons v vs ih =>
    have hlater : ∀ v ∈ vs, ∀ n e, part (v.set n e) = part e :=
      fun w hw => hsets w (List.mem_cons_of_mem v hw)
    unfold override at h
    split at h
    · cases h
    · exact ih hlater h
    · exact (ih hlater h).trans (hsets v List.mem_cons_self _ _)

theorem pollSlice_set {v : Variable} (hv : v ∈ Variable.all) (n : Nat) (e : Engine) :
    (v.set n e).listener.pollSlice = e.listener.pollSlice := by
  simp only [Variable.all, List.mem_cons, List.not_mem_nil, or_false] at hv
  rcases hv with rfl | rfl | rfl | rfl | rfl <;> rfl

/-- Settings a process goes on with. -/
inductive Engine.Loaded : Engine → Prop where
  /-- They were put together by hand, and checked. -/
  | assembled {e : Engine} (h : e.validate = .ok ()) : e.Loaded
  /-- They are written in a document, however that is read. -/
  | written {e : Engine} {read : List Char → Option Json.Value} {cs : List Char}
      (h : ofDocumentWith read cs = .ok e) : e.Loaded
  | given {e : Engine} {env : Environment} (h : ofEnvironment env = .ok e) : e.Loaded

theorem Engine.Loaded.sound (h : e.Loaded) : e.Sound := by
  refine validate_eq_ok_iff.mp ?_
  cases h with
  | assembled h => exact h
  | written h =>
    unfold ofDocumentWith at h
    split at h
    · cases h
    · obtain ⟨rfl, hchecked⟩ := checked_eq_ok_iff.mp h
      exact hchecked
  | given h =>
    unfold ofEnvironment at h
    split at h
    · cases h
    · obtain ⟨rfl, hchecked⟩ := checked_eq_ok_iff.mp h
      exact hchecked

theorem Engine.pollSlice_of_ofEnvironment {env : Environment} (h : ofEnvironment env = .ok e) :
    e.listener.pollSlice = .ofMillis 250 := by
  unfold ofEnvironment at h
  split at h
  · cases h
  · rename_i hover
    obtain ⟨rfl, -⟩ := checked_eq_ok_iff.mp h
    exact override_keeps (fun e => e.listener.pollSlice) (fun v hv => pollSlice_set hv) hover

end Settings

namespace Engine

variable {e : Settings.Engine} {s : Engine}

/-- A timer that is not taken is no fault of the settings. -/
theorem queueTimer_ne_config (s : Engine) (t : Nat) (delay : Time.Duration) (text : String) :
    (s.queueTimer t delay).1 ≠ .error (.config text) := by
  unfold queueTimer Timer.Scheduler.queue Timer.Scheduler.queueAt Timer.Heap.insert
  grind

/-- A listener is refused for its settings exactly as its check says, and then nothing has
happened. -/
theorem build_config_iff {settings : Settings.Listener} {multiplexer : Option Multiplexer}
    {platform : Platform} {text : String} :
    (s.build settings multiplexer platform).1 = .error (.config text) ↔
      ∃ fault, settings.validate = .error fault ∧ fault.message = text := by
  unfold build
  cases hcheck : settings.validate with
  | error fault => simp
  | ok _ =>
    have htimer := (s.newTimer (.housekeeping s.listeners.length)).2.queueTimer_ne_config
      (s.newTimer (.housekeeping s.listeners.length)).1 settings.housekeepingInterval text
    simp only [reduceCtorEq, false_and, exists_false, iff_false]
    grind

/-- **A listener with settings that were loaded is refused for its settings only where the
longest single wait is nothing**; the refusal says so and leaves the engine as it was.
Settings from the environment are never refused. -/
theorem build_of_loaded (he : e.Loaded) (multiplexer : Option Multiplexer)
    (platform : Platform) (s : Engine) :
    (∀ text, (s.build e.listener multiplexer platform).1 = .error (.config text) ↔
      e.listener.pollSlice.isZero = true ∧ text = "listener.poll_slice must be > 0") ∧
    (e.listener.pollSlice.isZero = true → (s.build e.listener multiplexer platform).2 = s) ∧
    ((∃ env, Settings.Engine.ofEnvironment env = .ok e) →
      ∀ text, (s.build e.listener multiplexer platform).1 ≠ .error (.config text)) := by
  have hcheck := he.sound.validate_listener
  have hrefused (text : String) :
      (s.build e.listener multiplexer platform).1 = .error (.config text) ↔
      e.listener.pollSlice.isZero = true ∧ text = "listener.poll_slice must be > 0" := by
    rw [build_config_iff, hcheck]
    cases e.listener.pollSlice.isZero with
    | true =>
      simp only [Settings.nonzero, if_true, Except.error.injEq, exists_eq_left', true_and,
        Settings.message_pollSlice]
      exact eq_comm
    | false => simp [Settings.nonzero]
  refine ⟨hrefused, fun hslice => ?_, fun ⟨env, henv⟩ text href => ?_⟩
  · unfold build
    rw [hcheck, hslice]
    rfl
  · have hslice := ((hrefused text).mp href).1
    rw [Settings.Engine.pollSlice_of_ofEnvironment henv] at hslice
    cases hslice

/-- With the default settings, which an empty environment gives, a first listener is not
refused for them. -/
theorem build_of_loaded_default :
    Settings.Engine.ofEnvironment [] = .ok {} ∧
      ∀ text, ((create {} 0).build {} none).1 ≠ .error (.config text) := by
  have hgiven : Settings.Engine.ofEnvironment [] = .ok {} := rfl
  exact ⟨hgiven, (build_of_loaded (.given hgiven) none {} (create {} 0)).2.2 ⟨[], hgiven⟩⟩

deriving instance DecidableEq for Except

/-- **A document may set the longest single wait to nothing**: it is loaded, and no listener
can be built with it. -/
theorem loaded_unbuildable :
    Settings.Engine.ofDocument "\x7b\"listener\":\x7b\"poll_slice\":0\x7d\x7d".toList =
        .ok { listener := { pollSlice := .zero } } ∧
      ((create {} 0).build { pollSlice := .zero } none).1 =
        .error (.config "listener.poll_slice must be > 0") :=
  ⟨by decide +kernel, by decide +kernel⟩

end Engine

end LinkEngine

import LinkEngine.Json.Reader
import LinkEngine.Settings.Fault

/-!
# Settings as a document

A section is written as an object of its fields, in any order and with any
other members, or as an array of its fields in their fixed order, cut off
anywhere. A field that is not written keeps its default; one that is written
twice refuses the document. Spans of time are written in milliseconds. How a
document is read as a value is an argument of `Engine.ofDocumentWith`.
-/

namespace LinkEngine.Settings

open Json (Value Literal)

/-- A field of a section: its name and how a written value is put into the
section, if it fits. -/
structure Field (σ : Type) where
  name : String
  put : Value → σ → Option σ

/-- The number a value stands for. -/
def natural? : Value → Option Nat
  | .number n => n.natural?
  | _ => none

/-- The text a value stands for. -/
def text? : Value → Option String
  | .text t => t.text?.map String.ofList
  | _ => none

/-- A field that holds a number. -/
def Field.natural {σ : Type} (name : String) (set : Nat → σ → σ) : Field σ :=
  { name, put := fun v s => (natural? v).map (set · s) }

/-- A field that holds a span of time. -/
def Field.span {σ : Type} (name : String) (set : Time.Duration → σ → σ) : Field σ :=
  .natural name (fun ms => set (.ofMillis ms))

/-- A field that holds a text. -/
def Field.text {σ : Type} (name : String) (set : String → σ → σ) : Field σ :=
  { name, put := fun v s => (text? v).map (set · s) }

/-- A field that holds a truth value. -/
def Field.flag {σ : Type} (name : String) (set : Bool → σ → σ) : Field σ :=
  { name
    put := fun v s =>
      match v with
      | .bool b => some (set b s)
      | _ => none }

/-- A field that holds a number or nothing. -/
def Field.optional {σ : Type} (name : String) (set : Option Nat → σ → σ) : Field σ :=
  { name
    put := fun v s =>
      match v with
      | .null => some (set none s)
      | _ => (natural? v).map (fun n => set (some n) s) }

/-- Puts the members of an object into a section. `seen` holds the names of the
fields written so far. -/
def readObject {σ : Type} (fields : List (Field σ)) (seen : List String) (s : σ) :
    List (Literal × Value) → Option σ
  | [] => some s
  | (key, value) :: members =>
    match key.text? with
    | none => none
    | some name =>
      match fields.find? (fun f => f.name.toList == name) with
      | none => readObject fields seen s members
      | some f =>
        if seen.contains f.name then none
        else
          match f.put value s with
          | none => none
          | some s' => readObject fields (f.name :: seen) s' members

/-- Puts the items of an array into a section, in the order of its fields. -/
def readArray {σ : Type} (s : σ) : List (Field σ) → List Value → Option σ
  | _, [] => some s
  | [], _ :: _ => none
  | f :: fields, v :: items =>
    match f.put v s with
    | none => none
    | some s' => readArray s' fields items

/-- Reads a section, starting from its defaults. -/
def readSection {σ : Type} (fields : List (Field σ)) (defaults : σ) : Value → Option σ
  | .object members => readObject fields [] defaults members
  | .array items => readArray defaults fields items
  | _ => none

/-- A field that holds a section of its own. -/
def Field.nested {σ τ : Type} (name : String) (fields : List (Field τ)) (defaults : τ)
    (set : τ → σ → σ) : Field σ :=
  { name, put := fun v s => (readSection fields defaults v).map (set · s) }

/-- The fields of the listener's section. -/
def Listener.fields : List (Field Listener) :=
  [.span "keepalive_timeout" (fun x s => { s with keepaliveTimeout := x }),
    .span "suspend_timeout" (fun x s => { s with suspendTimeout := x }),
    .span "duplex_idle_timeout" (fun x s => { s with duplexIdleTimeout := x }),
    .span "read_timeout" (fun x s => { s with readTimeout := x }),
    .span "poll_slice" (fun x s => { s with pollSlice := x }),
    .natural "max_connections" (fun x s => { s with maxConnections := x }),
    .span "accept_interval" (fun x s => { s with acceptInterval := x }),
    .span "housekeeping_interval" (fun x s => { s with housekeepingInterval := x }),
    .natural "max_idle_buffers" (fun x s => { s with maxIdleBuffers := x }),
    .natural "read_buffer_size" (fun x s => { s with readBufferSize := x }),
    .natural "write_buffer_size" (fun x s => { s with writeBufferSize := x })]

/-- The fields of the scheduler's section. -/
def Scheduler.fields : List (Field Scheduler) :=
  [.span "approx_threshold" (fun x s => { s with approxThreshold := x }),
    .span "fallback_window" (fun x s => { s with fallbackWindow := x }),
    .span "min_sample_interval" (fun x s => { s with minSampleInterval := x }),
    .span "max_sample_interval" (fun x s => { s with maxSampleInterval := x }),
    .natural "dispatch_limit" (fun x s => { s with dispatchLimit := x }),
    .text "thread_name" (fun x s => { s with threadName := x })]

/-- The fields of the worker pool's section. -/
def Worker.fields : List (Field Worker) :=
  [.natural "max_threads" (fun x s => { s with maxThreads := x }),
    .natural "priority_threads" (fun x s => { s with priorityThreads := x }),
    .text "name_prefix" (fun x s => { s with namePrefix := x }),
    .optional "stack_size" (fun x s => { s with stackSize := x }),
    .span "keep_alive" (fun x s => { s with keepAlive := x })]

/-- The fields of the multiplexer's section. -/
def Multiplexer.fields : List (Field Multiplexer) :=
  [.flag "enabled" (fun x s => { s with enabled := x }),
    .span "poll_interval" (fun x s => { s with pollInterval := x }),
    .natural "max_watched" (fun x s => { s with maxWatched := x }),
    .text "thread_name" (fun x s => { s with threadName := x })]

/-- The sections. -/
def Engine.fields : List (Field Engine) :=
  [.nested "listener" Listener.fields {} (fun x s => { s with listener := x }),
    .nested "scheduler" Scheduler.fields {} (fun x s => { s with scheduler := x }),
    .nested "worker" Worker.fields {} (fun x s => { s with worker := x }),
    .nested "multiplexer" Multiplexer.fields {} (fun x s => { s with multiplexer := x })]

/-- Settings that pass the check, or its fault. -/
def Engine.checked (e : Engine) : Except Fault Engine :=
  match e.validate with
  | .ok () => .ok e
  | .error fault => .error fault

/-- The settings written in a document, where documents are read in this way. -/
def Engine.ofDocumentWith (read : List Char → Option Value) (cs : List Char) :
    Except Fault Engine :=
  match (read cs).bind (readSection Engine.fields {}) with
  | none => .error .malformed
  | some e => e.checked

/-- The settings written in a document. -/
def Engine.ofDocument (cs : List Char) : Except Fault Engine :=
  Engine.ofDocumentWith Json.read? cs

end LinkEngine.Settings

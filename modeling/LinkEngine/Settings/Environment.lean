import LinkEngine.Settings.Document
import LinkEngine.Text.Blank
import LinkEngine.Text.Utf8

/-!
# Settings in environment variables

Five settings can be given in variables of the process. A variable that is not
set, or whose value is no text, changes nothing; one that holds anything but a
number, with blanks around it, is a fault.
-/

namespace LinkEngine.Settings

open Text (Bytes)

/-- The variables of a process with their values. -/
abbrev Environment := List (String × Bytes)

/-- The text a variable holds, if it is set and holds one. -/
def Environment.text? (env : Environment) (name : String) : Option String :=
  (env.lookup name).bind Text.decode?

/-- The number a variable holds, if it is set. -/
def Environment.natural? (env : Environment) (name : String) : Except Fault (Option Nat) :=
  match env.text? name with
  | none => .ok none
  | some raw =>
    match Text.readUnsigned (Text.trim raw.toList) with
    | some n => .ok (some n)
    | none => .error (.unreadable name raw.toList)

/-- A variable with the setting it gives. -/
structure Variable where
  name : String
  set : Nat → Engine → Engine

/-- The variables, in the order in which they are looked at. -/
def Variable.all : List Variable :=
  [{ name := "STRAND_KEEPALIVE_TIMEOUT_MS"
     set := fun n e =>
      { e with listener := { e.listener with keepaliveTimeout := .ofMillis n } } },
   { name := "STRAND_SUSPEND_TIMEOUT_MS"
     set := fun n e =>
      { e with listener := { e.listener with suspendTimeout := .ofMillis n } } },
   { name := "STRAND_MAX_CONNECTIONS"
     set := fun n e => { e with listener := { e.listener with maxConnections := n } } },
   { name := "STRAND_TIMER_DISPATCH_LIMIT"
     set := fun n e => { e with scheduler := { e.scheduler with dispatchLimit := n } } },
   { name := "STRAND_WORKER_THREADS"
     set := fun n e => { e with worker := { e.worker with maxThreads := n } } }]

/-- Replaces the settings that variables give. -/
def override (env : Environment) : List Variable → Engine → Except Fault Engine
  | [], e => .ok e
  | v :: vs, e =>
    match env.natural? v.name with
    | .error fault => .error fault
    | .ok none => override env vs e
    | .ok (some n) => override env vs (v.set n e)

/-- The default settings with those replaced that variables give. -/
def Engine.ofEnvironment (env : Environment) : Except Fault Engine :=
  match override env Variable.all {} with
  | .error fault => .error fault
  | .ok e => e.checked

end LinkEngine.Settings

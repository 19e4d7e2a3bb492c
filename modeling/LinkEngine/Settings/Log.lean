import LinkEngine.Failure
import LinkEngine.Settings.Environment

/-!
# Logging

The level, the format and the destination of the log, how they are read from
words and variables, and what setting up the log answers. A process sets up its
log once; a second attempt is refused, after everything else was looked at.
-/

namespace LinkEngine.Settings.Log

/-- How much is logged. -/
inductive Level where
  | trace
  | debug
  | info
  | warn
  | error
  deriving DecidableEq, Repr, Inhabited

/-- The word for a level. -/
def Level.name : Level → String
  | .trace => "trace"
  | .debug => "debug"
  | .info => "info"
  | .warn => "warn"
  | .error => "error"

/-- How a message is laid out. -/
inductive Format where
  | json
  | pretty
  | compact
  deriving DecidableEq, Repr, Inhabited

/-- A word as it is compared: without blanks around it and in small letters. -/
def normal (text : String) : List Char := Text.lowerAscii (Text.trim text.toList)

/-- The level a word names. -/
def Level.read (text : String) : Except Fault Level :=
  let word := normal text
  if word = "trace".toList then .ok .trace
  else if word = "debug".toList then .ok .debug
  else if word = "info".toList then .ok .info
  else if word = "warn".toList ∨ word = "warning".toList then .ok .warn
  else if word = "error".toList then .ok .error
  else .error (.unknownLogLevel word)

/-- The format a word names. -/
def Format.read (text : String) : Except Fault Format :=
  let word := normal text
  if word = "json".toList then .ok .json
  else if word = "pretty".toList then .ok .pretty
  else if word = "compact".toList ∨ word = "plain".toList then .ok .compact
  else .error (.unknownLogFormat word)

/-- Where the log goes. -/
inductive Output where
  | stdout
  | stderr
  /-- One file; `opens` says whether it can be opened. -/
  | file (opens : Bool)
  /-- A row of files that are changed at intervals. -/
  | rolling
  deriving DecidableEq, Repr, Inhabited

/-- How the log is set up. -/
structure Config where
  level : Level := .info
  format : Format := .json
  output : Output := .stdout
  threadIds : Bool := false
  threadNames : Bool := true
  targets : Bool := true
  colors : Bool := false
  /-- A filter that takes the place of the level. -/
  filter : Option String := none
  deriving DecidableEq, Repr, Inhabited

/-- The default set-up with the level and the format that variables give. -/
def Config.ofEnvironment (env : Environment) : Except Fault Config := do
  let level ← match env.text? "STRAND_LOG_LEVEL" with
    | some text => Level.read text
    | none => .ok .info
  let format ← match env.text? "STRAND_LOG_FORMAT" with
    | some text => Format.read text
    | none => .ok .json
  .ok { level, format }

/-- A filter can be used when every bracket that opens a span in it is
closed. -/
def filterFits (filter : List Char) : Bool := go 0 filter
where
  go (openSpans : Nat) : List Char → Bool
    | [] => openSpans == 0
    | '[' :: rest => go (openSpans + 1) rest
    | ']' :: rest => go (openSpans - 1) rest
    | _ :: rest => go openSpans rest

/-- Sets up the log of a process in which it is, or is not, set up already. The
filter is looked at first, then the destination is opened. -/
def Config.install (c : Config) (installed : Bool) : Except (Fault ⊕ IoKind) Unit :=
  if c.filter.any (fun f => !filterFits f.toList) then .error (.inl .badLogFilter)
  else if c.output = .file false then .error (.inr .notFound)
  else if installed then .error (.inl .logInstalled)
  else .ok ()

end LinkEngine.Settings.Log

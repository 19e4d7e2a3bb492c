import LinkEngine.Settings.Sections
import LinkEngine.Text.Quoted

/-!
# Settings that cannot be used

The causes for which settings are refused, with their wording, and the two
checks: `Engine.validate` looks at all sections when settings are loaded, and
`Listener.validate` looks at the listener's section when a listener is built.
Each names the first setting at fault.
-/

namespace LinkEngine.Settings

/-- Why settings are refused. -/
inductive Fault where
  /-- The setting must not be zero. -/
  | zero (setting : String)
  /-- The least sampling interval exceeds the greatest. -/
  | intervalsCrossed
  /-- The document is not one, or does not fit the settings. -/
  | malformed
  /-- The variable holds no number. -/
  | unreadable (name : String) (value : List Char)
  | unknownLogLevel (word : List Char)
  | unknownLogFormat (word : List Char)
  | badLogFilter
  | logInstalled
  deriving DecidableEq, Repr

/-- The wording of a fault. -/
def Fault.message : Fault → String
  | .zero setting => setting ++ " must be > 0"
  | .intervalsCrossed => "scheduler.min_sample_interval exceeds max_sample_interval"
  | .malformed => "malformed document"
  | .unreadable name value => name ++ ": cannot parse " ++ Text.quote value
  | .unknownLogLevel word => "unknown log level " ++ Text.quote word
  | .unknownLogFormat word => "unknown log format " ++ Text.quote word
  | .badLogFilter => "bad filter"
  | .logInstalled => "logging already initialized"

/-- Refuses a setting that is zero. -/
def nonzero (isZero : Bool) (setting : String) : Except Fault Unit :=
  if isZero then .error (.zero setting) else .ok ()

/-- Checks all sections of loaded settings. -/
def Engine.validate (e : Engine) : Except Fault Unit := do
  nonzero e.listener.keepaliveTimeout.isZero "listener.keepalive_timeout"
  nonzero e.listener.suspendTimeout.isZero "listener.suspend_timeout"
  nonzero (e.listener.maxConnections == 0) "listener.max_connections"
  nonzero (e.scheduler.dispatchLimit == 0) "scheduler.dispatch_limit"
  if e.scheduler.minSampleInterval.le e.scheduler.maxSampleInterval then .ok ()
  else .error .intervalsCrossed

/-- Checks the section a listener is built with. -/
def Listener.validate (l : Listener) : Except Fault Unit := do
  nonzero l.keepaliveTimeout.isZero "listener.keepalive_timeout"
  nonzero l.suspendTimeout.isZero "listener.suspend_timeout"
  nonzero l.pollSlice.isZero "listener.poll_slice"
  nonzero (l.maxConnections == 0) "listener.max_connections"

end LinkEngine.Settings

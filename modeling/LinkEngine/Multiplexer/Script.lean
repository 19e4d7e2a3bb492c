/-!
# A multiplexer that follows a script

A multiplexer watches resting connections and tells them when input arrives. One
that follows a script answers each registration in turn as it is written, and
things may happen before it answers: a notice of input, the passing of time
until deadlines fire, a panic. Once the script is used up it takes every
connection and stays silent.
-/

namespace LinkEngine.Multiplexer

/-- What can happen before a registration is answered. -/
inductive Event where
  /-- The connection is told that input arrived. -/
  | notice
  /-- A while passes, and the deadlines that fired in it run. -/
  | deadlines
  /-- The same, but the scheduler shuts down before they run. -/
  | deadlinesAfterShutdown
  | panic
  deriving DecidableEq, Repr

/-- The answer to one registration. -/
structure Registration where
  events : List Event := []
  /-- The multiplexer takes the connection. -/
  takes : Bool := true
  deriving DecidableEq, Repr, Inhabited

end LinkEngine.Multiplexer

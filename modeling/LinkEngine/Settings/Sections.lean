import LinkEngine.Time.Duration

/-!
# Settings

What a process can set, in four sections, each with its defaults: the listener
and the life of its connections, the timer scheduler, the worker pool, and the
multiplexer that watches resting connections.
-/

namespace LinkEngine.Settings

open Time (Duration)

/-- Settings of a listener and its connections. -/
structure Listener where
  /-- How long a connection may rest before it is closed. -/
  keepaliveTimeout : Duration := .ofSeconds 15
  /-- The deadline of a suspended request that names none. -/
  suspendTimeout : Duration := .ofSeconds 30
  /-- How long a two-way stream may stay silent. -/
  duplexIdleTimeout : Duration := .ofSeconds 300
  /-- How long a read may block while a handler runs. -/
  readTimeout : Duration := .ofSeconds 30
  /-- The longest single wait for readiness. -/
  pollSlice : Duration := .ofMillis 250
  /-- How many connections may be alive at once. -/
  maxConnections : Nat := 10000
  /-- The pause between two attempts to accept. -/
  acceptInterval : Duration := .ofMillis 10
  housekeepingInterval : Duration := .ofSeconds 30
  /-- How many idle buffer pairs are kept. -/
  maxIdleBuffers : Nat := 256
  readBufferSize : Nat := 8192
  writeBufferSize : Nat := 8192
  deriving DecidableEq, Repr, Inhabited

/-- Settings of the timer scheduler. -/
structure Scheduler where
  /-- Delays from here on are measured from the published clock. -/
  approxThreshold : Duration := .ofSeconds 2
  /-- The longest sleep while nothing is queued. -/
  fallbackWindow : Duration := .ofSeconds 10
  minSampleInterval : Duration := .ofMillis 1
  maxSampleInterval : Duration := .ofMillis 100
  /-- How many fired callbacks may be under way at once. -/
  dispatchLimit : Nat := 64
  threadName : String := "strand-timer"
  deriving DecidableEq, Repr, Inhabited

/-- Settings of the worker pool. -/
structure Worker where
  /-- Threads for requests; zero means eight per processor. -/
  maxThreads : Nat := 0
  /-- Threads kept for urgent work. -/
  priorityThreads : Nat := 4
  namePrefix : String := "strand-worker"
  stackSize : Option Nat := none
  /-- How long an idle thread lingers. -/
  keepAlive : Duration := .ofSeconds 10
  deriving DecidableEq, Repr, Inhabited

/-- Settings of the multiplexer. -/
structure Multiplexer where
  enabled : Bool := true
  /-- The longest single poll. -/
  pollInterval : Duration := .ofMillis 10
  /-- How many connections are watched at once. -/
  maxWatched : Nat := 65536
  threadName : String := "strand-mux"
  deriving DecidableEq, Repr, Inhabited

/-- All settings of a process. -/
structure Engine where
  listener : Listener := {}
  scheduler : Scheduler := {}
  worker : Worker := {}
  multiplexer : Multiplexer := {}
  deriving DecidableEq, Repr, Inhabited

/-- How many threads a pool may use for requests. -/
inductive Threads where
  | exactly (n : Nat)
  | perProcessor (n : Nat)
  deriving DecidableEq, Repr

/-- The threads a pool uses for requests: those that were set, or eight per
processor. -/
def Worker.threads (w : Worker) : Threads :=
  if w.maxThreads > 0 then .exactly w.maxThreads else .perProcessor 8

end LinkEngine.Settings

import LinkEngine.Time.Duration

/-!
# The cached clock

Reading the exact time costs something, so a sampler publishes it now and then
and others read the published value, `Clock.approx`. How often it samples
follows the use: when somebody read the published value since the last sample,
the interval is halved, otherwise it is doubled, within the bounds the clock
was made with. Exact times are arguments here; the clock holds none.
-/

namespace LinkEngine.Time

/-- The published time and the sampler's state. -/
structure Clock where
  /-- The time last published. -/
  approx : Nat
  /-- Somebody read the published time since the last sample. -/
  wasRead : Bool
  /-- The sampler's present interval. -/
  interval : Nat
  /-- The bounds of the interval. -/
  least : Duration
  greatest : Duration
  deriving DecidableEq, Repr, Inhabited

namespace Clock

/-- A clock with bounds for its interval. The lower bound is at least a
millisecond and the upper at least the lower; sampling starts at the upper. -/
def create (least greatest : Duration) : Clock :=
  let least := least.max (Duration.ofMillis 1)
  let greatest := greatest.max least
  { approx := 0, wasRead := false, interval := greatest.millis,
    least := least, greatest := greatest }

/-- The default bounds are one and a hundred milliseconds. -/
def default : Clock := create (Duration.ofMillis 1) (Duration.ofMillis 100)

/-- Reads the published time. -/
def read (c : Clock) : Nat × Clock := (c.approx, { c with wasRead := true })

/-- The interval after one in which the published time was, or was not, read. -/
def nextInterval (c : Clock) : Nat :=
  if c.wasRead then max (c.interval / 2) c.least.millis
  else min (min (c.interval * 2) Millis.max) c.greatest.millis

/-- Publishes the exact time `now`, never going back, and adapts the
interval. -/
def sample (c : Clock) (now : Nat) : Clock :=
  { c with approx := max c.approx now, wasRead := false, interval := c.nextInterval }

/-- One use of a clock. -/
inductive Use where
  | read
  | sample (now : Nat)
  deriving DecidableEq, Repr

/-- A clock after one use. -/
def apply (c : Clock) : Use → Clock
  | .read => c.read.2
  | .sample now => c.sample now

/-- The interval at the start and after each sample of a sequence of uses. -/
def intervals (c : Clock) : List Use → List Nat
  | uses => c.interval :: go c uses
where
  go (c : Clock) : List Use → List Nat
    | [] => []
    | .read :: uses => go c.read.2 uses
    | .sample now :: uses => (c.sample now).interval :: go (c.sample now) uses

end Clock

end LinkEngine.Time

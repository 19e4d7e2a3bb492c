/-!
# Spans of time and clock readings

A `Duration` is a number of nanoseconds. A clock reading is a number of whole
milliseconds that never goes beyond `Millis.max`: sums and conversions stop
there (`Millis.add`, `Duration.millis`).
-/

namespace LinkEngine.Time

/-- The greatest clock reading. -/
def Millis.max : Nat := UInt64.size - 1

/-- Adds two readings and stays at the greatest one. -/
def Millis.add (a b : Nat) : Nat := min (a + b) Millis.max

/-- A span of time. -/
structure Duration where
  nanos : Nat
  deriving DecidableEq, Repr, Inhabited

namespace Duration

/-- Nanoseconds in a millisecond. -/
def nanosPerMilli : Nat := 1000000

/-- Nanoseconds in a second. -/
def nanosPerSecond : Nat := 1000000000

/-- A span of no time. -/
def zero : Duration := ⟨0⟩

/-- The longest span: as many seconds as 64 bits hold and a last fraction. -/
def longest : Duration := ⟨(UInt64.size - 1) * nanosPerSecond + (nanosPerSecond - 1)⟩

/-- A span in milliseconds. -/
def ofMillis (ms : Nat) : Duration := ⟨ms * nanosPerMilli⟩

/-- A span in microseconds. -/
def ofMicros (us : Nat) : Duration := ⟨us * 1000⟩

/-- A span in seconds. -/
def ofSeconds (s : Nat) : Duration := ⟨s * nanosPerSecond⟩

/-- A span in seconds and nanoseconds. -/
def ofParts (seconds nanos : Nat) : Duration := ⟨seconds * nanosPerSecond + nanos⟩

/-- No time at all. -/
def isZero (d : Duration) : Bool := d.nanos == 0

/-- The longer of two spans. -/
def max (a b : Duration) : Duration := if a.nanos ≤ b.nanos then b else a

/-- `a` is at most as long as `b`. -/
def le (a b : Duration) : Bool := a.nanos ≤ b.nanos

/-- Whole milliseconds, the fraction dropped. -/
def millis (d : Duration) : Nat := min (d.nanos / nanosPerMilli) Millis.max

/-- Whole milliseconds, a fraction counted as one more. -/
def millisCeil (d : Duration) : Nat :=
  min ((d.nanos + (nanosPerMilli - 1)) / nanosPerMilli) Millis.max

end Duration

end LinkEngine.Time

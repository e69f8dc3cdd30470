/-! # Durations

Spans of time in nanoseconds; the seconds of a span fit 64 bits. -/

namespace AccessLog.Time

structure Duration where
  nanos : Nat
  deriving DecidableEq, Repr

namespace Duration

def nanosPerSecond : Nat := 1000000000

def nanosPerMilli : Nat := 1000000

/-- Spans are shorter than this. -/
def bound : Nat := UInt64.size * nanosPerSecond

def zero : Duration := ⟨0⟩

def ofSeconds (s : Nat) : Duration := ⟨s * nanosPerSecond⟩

def ofMillis (ms : Nat) : Duration := ⟨ms * nanosPerMilli⟩

/-- Whole seconds and nanoseconds on top; a carry past the bound is refused. -/
def ofParts? (seconds nanos : Nat) : Option Duration :=
  let total := seconds * nanosPerSecond + nanos
  if total < bound then some ⟨total⟩ else none

def seconds (d : Duration) : Nat := d.nanos / nanosPerSecond

/-- The nanoseconds beyond the whole seconds. -/
def subsecond (d : Duration) : Nat := d.nanos % nanosPerSecond

/-- The sum, or the longest span if it is longer. -/
def add (a b : Duration) : Duration := ⟨min (a.nanos + b.nanos) (bound - 1)⟩

/-- Milliseconds, a begun one counted in full. -/
def millisUp (d : Duration) : Nat := (d.nanos + nanosPerMilli - 1) / nanosPerMilli

end Duration

end AccessLog.Time

import AccessLog.Numeric.Double
import AccessLog.Time.Duration

/-! # Backoff

The wait before each further attempt at a lookup: a base wait times a power of the multiplier. It
is computed in doubles; the same computation can be carried out in any other numbers that have what
`DelayNumber` asks for. -/

namespace AccessLog.Enrich
open AccessLog.Time

/-- Numbers in which a delay can be computed. -/
class DelayNumber (α : Type) where
  one : α
  mul : α → α → α
  div : α → α → α
  ofNanos : Nat → α
  /-- The nearest whole number of nanoseconds, a half going up, within the range of 64 bits. -/
  toNanos : α → Nat

instance : DelayNumber Float where
  one := 1.0
  mul a b := a * b
  div a b := a / b
  ofNanos := Numeric.ofNat
  toNanos f := f.round.toUInt64.toNat

section Power
variable {α : Type} [DelayNumber α]

/-- Continue a power by repeated squaring: `result * square ^ exponent`. -/
def powerFrom (result square : α) (exponent : Nat) : α :=
  let result := if exponent % 2 = 1 then DelayNumber.mul result square else result
  if h : exponent / 2 = 0 then result
  else powerFrom result (DelayNumber.mul square square) (exponent / 2)
termination_by exponent
decreasing_by omega

/-- A power with a signed exponent. -/
def power (base : α) (exponent : Int) : α :=
  let value := powerFrom DelayNumber.one base exponent.natAbs
  if exponent < 0 then DelayNumber.div DelayNumber.one value else value

/-- The index of an attempt as a signed exponent of 32 bits; the upper half of the range turns
negative. -/
def exponentOf (index : UInt32) : Int := index.toInt32.toInt

/-- The wait in nanoseconds after the attempt with the given index. -/
def delayNanos (baseNanos : Nat) (multiplier : α) (index : UInt32) : Nat :=
  DelayNumber.toNanos
    (DelayNumber.mul (DelayNumber.ofNanos baseNanos) (power multiplier (exponentOf index)))

end Power

structure BackoffPolicy where
  maxAttempts : UInt32
  baseWait : Duration
  multiplier : Float
  deriving DecidableEq

namespace BackoffPolicy

def defaultMultiplier : Float := 2.0

/-- At least one attempt, and a multiplier that is finite and not below one. -/
def of (maxAttempts : UInt32) (baseWait : Duration) (multiplier : Float) : BackoffPolicy :=
  { maxAttempts := max maxAttempts 1
    baseWait
    multiplier :=
      if multiplier.isFinite && multiplier >= 1.0 then multiplier else defaultMultiplier }

/-- Three attempts, half a second, doubled each time. -/
def standard : BackoffPolicy := of 3 (.ofMillis 500) defaultMultiplier

/-- The wait after the attempt with the given index, counted from zero. -/
def delay (p : BackoffPolicy) (index : UInt32) : Duration :=
  ⟨delayNanos p.baseWait.nanos p.multiplier index⟩

/-- The attempts that are made at most. -/
def attempts (p : BackoffPolicy) : Nat := max p.maxAttempts.toNat 1

/-- All waits together when every attempt is made and fails. -/
def totalDelay (p : BackoffPolicy) : Duration :=
  ((List.range (p.maxAttempts.toNat - 1)).map fun i => p.delay (UInt32.ofNat i)).foldl
    Duration.add .zero

end BackoffPolicy

end AccessLog.Enrich

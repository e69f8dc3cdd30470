/-! Doubles as 64-bit patterns: the nearest double of a quotient and of a decimal number, a half
going to the even neighbour. All arithmetic here is exact. -/

namespace AccessLog.Numeric

/-- The quotient rounded to the nearest whole number, a half to the even one. -/
def roundHalfEven (num den : Nat) : Nat :=
  let q := num / den
  let r := num % den
  if 2 * r > den || (2 * r == den && q % 2 == 1) then q + 1 else q

/-- The quotient in units of two to the power `k`. -/
def scaled (num den : Nat) (k : Int) : Nat × Nat :=
  if 0 ≤ k then (num, den <<< k.toNat) else (num <<< (-k).toNat, den)

/-- The pattern of positive infinity. -/
def infinityBits : Nat := 0x7FF <<< 52

/-- The pattern of the double nearest to `num / den`. The unit in the last place is chosen so that
the significand has 53 bits, or fewer below the normal range; a significand that rounds up to the
next power of two carries into the exponent by itself. -/
def nearestBits (num den : Nat) : Nat :=
  if num = 0 then 0
  else
    let guess : Int := (num.log2 : Int) - den.log2 - 52
    let (n, d) := scaled num den guess
    let k := max (if n / d < Nat.pow 2 52 then guess - 1 else guess) (-1074)
    let (n, d) := scaled num den k
    min ((k + 1074).toNat <<< 52 + roundHalfEven n d) infinityBits

def ofBits (negative : Bool) (bits : Nat) : Float :=
  Float.ofBits (UInt64.ofNat (if negative then bits + Nat.pow 2 63 else bits))

/-- The double nearest to a natural number. -/
def ofNat (n : Nat) : Float := ofBits false (nearestBits n 1)

/-- The double nearest to `coefficient * 10 ^ exponent`. Exponents far outside the range of
doubles are settled without computing the power. -/
def ofDecimal (negative : Bool) (coefficient : Nat) (exponent : Int) : Float :=
  let magnitude := exponent + coefficient.log2 / 3
  ofBits negative <|
    if coefficient = 0 then 0
    else if 400 < exponent then infinityBits
    else if magnitude < -400 then 0
    else if 0 ≤ exponent then nearestBits (coefficient * Nat.pow 10 exponent.toNat) 1
    else nearestBits coefficient (Nat.pow 10 (-exponent).toNat)

end AccessLog.Numeric

import AccessLog.Numeric.Double
import AccessLog.Text.Integer

/-! Doubles in decimal text: an optional sign, then `inf`, `infinity` or `nan` in any case, or
digits with an optional point and an optional exponent. At least one digit stands beside the point,
and at least one follows the exponent mark. -/

namespace AccessLog.Numeric
open AccessLog.Text

/-- An unsigned decimal number: `coefficient * 10 ^ exponent`. -/
structure Decimal where
  coefficient : Nat
  exponent : Int

/-- The exponent after its mark. -/
def exponent? (cs : List Char) : Option Int :=
  match cs with
  | '-' :: rest => (digits? rest).map fun n => -(n : Int)
  | '+' :: rest => (digits? rest).map Int.ofNat
  | cs => (digits? cs).map Int.ofNat

/-- Digits, a point, digits and an exponent, of which much may be left out. -/
def decimal? (cs : List Char) : Option Decimal := do
  let whole := cs.takeWhile Char.isDigit
  let rest := cs.dropWhile Char.isDigit
  let (fraction, rest) := match rest with
    | '.' :: tail => (tail.takeWhile Char.isDigit, tail.dropWhile Char.isDigit)
    | rest => ([], rest)
  let coefficient ← digits? (whole ++ fraction)
  let shift : Int := -(fraction.length : Int)
  match rest with
  | [] => some ⟨coefficient, shift⟩
  | mark :: tail =>
    if mark = 'e' ∨ mark = 'E' then (exponent? tail).map fun e => ⟨coefficient, e + shift⟩
    else none

/-- Whether the two texts agree up to the case of ASCII letters. -/
def sameLetters (a b : List Char) : Bool := a.map Char.toLower == b.map Char.toLower

/-- The double that a text denotes. -/
def double? (cs : List Char) : Option Float :=
  let (negative, body) := match cs with
    | '-' :: rest => (true, rest)
    | '+' :: rest => (false, rest)
    | cs => (false, cs)
  if sameLetters body "inf".toList || sameLetters body "infinity".toList then
    some (ofBits negative infinityBits)
  else if sameLetters body "nan".toList then some (ofBits negative (infinityBits + Nat.pow 2 51))
  else (decimal? body).map fun d => ofDecimal negative d.coefficient d.exponent

end AccessLog.Numeric

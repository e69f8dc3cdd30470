import AccessLog.Json.Token
import AccessLog.Numeric.Double
import AccessLog.Text.Integer

/-! What the literals of strings and numbers denote. -/

namespace AccessLog.Json
open AccessLog.Text AccessLog.Numeric

def hexValue (c : Char) : Nat :=
  if '0' ≤ c && c ≤ '9' then c.toNat - 48
  else if 'a' ≤ c && c ≤ 'f' then c.toNat - 87
  else c.toNat - 55

def hexValues (cs : List Char) : Nat := cs.foldl (fun n c => 16 * n + hexValue c) 0

/-- The character that a short escape stands for. -/
def shortEscape (c : Char) : Char :=
  if c = 'b' then Char.ofNat 8
  else if c = 'f' then Char.ofNat 12
  else if c = 'n' then '\n'
  else if c = 'r' then '\r'
  else if c = 't' then '\t'
  else c

/-- The code point of a pair of surrogates. -/
def paired (high low : Nat) : Char :=
  Char.ofNat (0x10000 + (high - 0xD800) * 0x400 + (low - 0xDC00))

def isHighSurrogate (n : Nat) : Bool := 0xD800 ≤ n && n ≤ 0xDBFF

def isLowSurrogate (n : Nat) : Bool := 0xDC00 ≤ n && n ≤ 0xDFFF

/-- The text of a string literal; an unpaired surrogate has none. -/
def unescape : List Char → Option (List Char)
  | [] => some []
  | '\\' :: 'u' :: a :: b :: c :: d :: rest =>
    let n := hexValues [a, b, c, d]
    if isLowSurrogate n then none
    else if isHighSurrogate n then
      match rest with
      | '\\' :: 'u' :: e :: f :: g :: h :: rest =>
        let low := hexValues [e, f, g, h]
        if isLowSurrogate low then (unescape rest).map (paired n low :: ·) else none
      | _ => none
    else (unescape rest).map (Char.ofNat n :: ·)
  | '\\' :: e :: rest => (unescape rest).map (shortEscape e :: ·)
  | c :: rest => (unescape rest).map (c :: ·)

def unescape? (literal : String) : Option String := (unescape literal.toList).map String.ofList

/-- A number without a point and an exponent; a negative zero is not an integer. -/
def integer? (literal : List Char) : Option Int :=
  match literal with
  | '-' :: rest => (digits? rest).bind fun n => if n = 0 then none else some (-(n : Int))
  | cs => (digits? cs).map Int.ofNat

/-- The digits that fit 64 bits, and the digits that were dropped after them. -/
def takeDigits (value : Nat) : List Char → Nat × List Char
  | [] => (value, [])
  | c :: cs =>
    let next := 10 * value + (c.toNat - 48)
    if next < UInt64.size then takeDigits next cs else (value, c :: cs)

/-- Multiply or divide by a power of ten in double arithmetic, in steps of at most 308; a result
past the largest double is refused. -/
def scaleByTen (f : Float) (exponent : Int) : Nat → Option Float
  | 0 => none
  | fuel + 1 =>
    if exponent.natAbs ≤ 308 then
      let power := ofDecimal false 1 exponent.natAbs
      if 0 ≤ exponent then
        let product := f * power
        if product.isInf then none else some product
      else some (f / power)
    else if f == 0.0 then some f
    else if 0 ≤ exponent then none
    else scaleByTen (f / ofDecimal false 1 308) (exponent + 308) fuel

/-- The double that a number literal denotes. As many digits as fit 64 bits are read, the rest only
counted; exponents saturate at 31 bits. -/
def double? (literal : List Char) : Option Float := do
  let (negative, body) := match literal with
    | '-' :: rest => (true, rest)
    | cs => (false, cs)
  let sign (f : Float) := if negative then -f else f
  let whole := body.takeWhile Char.isDigit
  let rest := body.dropWhile Char.isDigit
  let (fraction, rest) := match rest with
    | '.' :: tail => (tail.takeWhile Char.isDigit, tail.dropWhile Char.isDigit)
    | rest => ([], rest)
  let (value, dropped) := takeDigits 0 whole
  let (value, places) :=
    if dropped.isEmpty then
      let (value, unread) := takeDigits value fraction
      (value, (fraction.length : Int) - unread.length)
    else
      let (value, unread) := takeDigits value fraction
      (value, (fraction.length : Int) - unread.length - dropped.length)
  let (downward, digits) := match rest.drop 1 with
    | '-' :: tail => (true, tail)
    | '+' :: tail => (false, tail)
    | tail => (false, tail)
  let exponent := (digits? digits).getD 0
  if 2147483647 < exponent then
    if value = 0 || downward then some (sign 0.0) else none
  else
    let shift : Int := (if downward then -(exponent : Int) else exponent) - places
    if fraction.isEmpty && rest.isEmpty && dropped.isEmpty then some (sign (ofNat value))
    else (scaleByTen (ofNat value) shift (shift.natAbs / 308 + 2)).map sign

end AccessLog.Json

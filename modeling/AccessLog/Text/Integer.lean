/-! Whole numbers in decimal text. A sign is optional, at least one ASCII digit follows it, leading
zeros do not matter, and a value outside the stated range is refused. -/

namespace AccessLog.Text

/-- The value of an ASCII digit. -/
def digit? (c : Char) : Option Nat :=
  if '0' ≤ c ∧ c ≤ '9' then some (c.toNat - 48) else none

/-- Continue reading digits after a number worth `value`. -/
def moreDigits (value : Nat) : List Char → Option Nat
  | [] => some value
  | c :: cs => (digit? c).bind fun d => moreDigits (10 * value + d) cs

/-- One or more digits. -/
def digits? : List Char → Option Nat
  | [] => none
  | c :: cs => moreDigits 0 (c :: cs)

/-- An optional plus and digits, for a value below `bound`. -/
def unsigned? (bound : Nat) (cs : List Char) : Option Nat :=
  let body := match cs with
    | '+' :: rest => rest
    | cs => cs
  (digits? body).filter (· < bound)

/-- The least and the greatest number of 64 bits with a sign. -/
def least64 : Int := -9223372036854775808

def greatest64 : Int := 9223372036854775807

/-- An optional sign and digits, for a value of 64 bits. -/
def signed64? (cs : List Char) : Option Int :=
  let value : Option Int := match cs with
    | '+' :: rest => (digits? rest).map Int.ofNat
    | '-' :: rest => (digits? rest).map fun n => -(n : Int)
    | cs => (digits? cs).map Int.ofNat
  value.filter fun v => least64 ≤ v && v ≤ greatest64

/-- Why a text is not a whole number of 64 bits. -/
inductive IntegerFault
  | empty
  | invalidDigit
  | tooLarge
  | tooSmall
  deriving DecidableEq, Repr

namespace IntegerFault

def message : IntegerFault → String
  | empty => "cannot parse integer from empty string"
  | invalidDigit => "invalid digit found in string"
  | tooLarge => "number too large to fit in target type"
  | tooSmall => "number too small to fit in target type"

end IntegerFault

/-- The fault of a text that `signed64?` refuses. The digits are read from the left, so a value
that is already out of range wins over a bad character further on. -/
def signedFault (cs : List Char) : IntegerFault :=
  let (negative, body) := match cs with
    | '+' :: rest => (false, rest)
    | '-' :: rest => (true, rest)
    | cs => (false, cs)
  let leading := body.takeWhile Char.isDigit
  let limit := if negative then least64.natAbs else greatest64.natAbs
  if cs.isEmpty then .empty
  else if ((digits? leading).getD 0) > limit then if negative then .tooSmall else .tooLarge
  else .invalidDigit

end AccessLog.Text

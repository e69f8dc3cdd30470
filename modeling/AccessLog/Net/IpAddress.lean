import AccessLog.Text.Integer

/-! # Internet addresses in text

An address of version 4 is four numbers up to 255 between dots, without leading zeros. One of
version 6 is eight groups of up to four hexadecimal digits between colons; the last two groups may
be written as an address of version 4, and one run of zero groups as a double colon. The longest run is
written so where an address is written anew. -/

namespace AccessLog.Net
open AccessLog.Text

/-- An address, by its value as a number of 32 or of 128 bits. -/
inductive IpAddress where
  | v4 (value : Nat)
  | v6 (value : Nat)
  deriving DecidableEq, Repr

namespace IpAddress

def isHexDigit (c : Char) : Bool :=
  ('0' ≤ c && c ≤ '9') || ('a' ≤ c && c ≤ 'f') || ('A' ≤ c && c ≤ 'F')

def hexDigitValue (c : Char) : Nat :=
  if '0' ≤ c && c ≤ '9' then c.toNat - 48
  else if 'a' ≤ c && c ≤ 'f' then c.toNat - 87
  else c.toNat - 55

/-- A number up to 255 at the front of a text. -/
def octet? (cs : List Char) : Option (Nat × List Char) :=
  let digits := cs.takeWhile Char.isDigit
  let plain := digits.length = 1 || digits.head? != some '0'
  if digits.length ≤ 3 && plain then
    ((digits? digits).filter (· ≤ 255)).map fun n => (n, cs.dropWhile Char.isDigit)
  else none

/-- Exactly the character `c` at the front of a text. -/
def skip? (c : Char) : List Char → Option (List Char)
  | [] => none
  | d :: rest => if d = c then some rest else none

/-- An address of version 4 at the front of a text. -/
def front4? (cs : List Char) : Option (Nat × List Char) := do
  let (a, cs) ← octet? cs
  let (b, cs) ← octet? (← skip? '.' cs)
  let (c, cs) ← octet? (← skip? '.' cs)
  let (d, cs) ← octet? (← skip? '.' cs)
  some (((a * 256 + b) * 256 + c) * 256 + d, cs)

/-- A group of one to four hexadecimal digits at the front of a text. -/
def group? (cs : List Char) : Option (Nat × List Char) :=
  let digits := cs.takeWhile isHexDigit
  if digits.isEmpty || 4 < digits.length then none
  else some (digits.foldl (fun n c => 16 * n + hexDigitValue c) 0, cs.dropWhile isHexDigit)

/-- The text behind the colon that separates a group from the one before it. -/
def behindColon? (first : Bool) (cs : List Char) : Option (List Char) :=
  if first then some cs else skip? ':' cs

/-- Groups at the front of a text. -/
structure Groups where
  values : List Nat
  /-- Whether they end with an address of version 4. -/
  dotted : Bool
  rest : List Char

/-- At most `room` groups, of which the first is not preceded by a colon. -/
def groups (first : Bool) (cs : List Char) : Nat → Groups
  | 0 => ⟨[], false, cs⟩
  | room + 1 =>
    let tail := behindColon? first cs
    match if room = 0 then none else tail.bind front4? with
    | some (value, rest) => ⟨[value / 65536, value % 65536], true, rest⟩
    | none =>
      match tail.bind group? with
      | some (value, rest) =>
        let more := groups false rest room
        { more with values := value :: more.values }
      | none => ⟨[], false, cs⟩

/-- The value of eight groups. -/
def joinGroups (values : List Nat) : Nat := values.foldl (fun n g => 65536 * n + g) 0

/-- An address of version 6 at the front of a text. A double colon stands for one group at
least. -/
def front6? (cs : List Char) : Option (Nat × List Char) :=
  let head := groups true cs 8
  if head.values.length = 8 then some (joinGroups head.values, head.rest)
  else if head.dotted then none
  else do
    let rest ← skip? ':' (← skip? ':' head.rest)
    let tail := groups true rest (7 - head.values.length)
    let zeros := 8 - head.values.length - tail.values.length
    some (joinGroups (head.values ++ List.replicate zeros 0 ++ tail.values), tail.rest)

/-- What stands at the front of a text, if nothing follows it. -/
def whole {α : Type} : Option (α × List Char) → Option α
  | some (a, []) => some a
  | _ => none

def parse4? (cs : List Char) : Option Nat := whole (front4? cs)

def parse6? (cs : List Char) : Option Nat := whole (front6? cs)

/-- The address that a text denotes. -/
def parse? (s : String) : Option IpAddress :=
  match parse4? s.toList with
  | some value => some (.v4 value)
  | none => (parse6? s.toList).map .v6

/-! ## Writing -/

def render4 (value : Nat) : String :=
  ".".intercalate ([3, 2, 1, 0].map fun i => toString (value / Nat.pow 256 i % 256))

/-- The first of the longest runs of zeros, by its place and its length. -/
def longestZeros (values : List Nat) : Nat × Nat :=
  (List.range values.length).foldl (fun (best : Nat × Nat) i =>
    let length := ((values.drop i).takeWhile (· == 0)).length
    if best.2 < length then (i, length) else best) (0, 0)

def render6 (value : Nat) : String :=
  let values := [7, 6, 5, 4, 3, 2, 1, 0].map fun i => value / Nat.pow 65536 i % 65536
  let (place, length) := longestZeros values
  let written (values : List Nat) : String :=
    ":".intercalate (values.map fun n => String.ofList (Nat.toDigits 16 n))
  if length < 2 then written values
  else written (values.take place) ++ "::" ++ written (values.drop (place + length))

end IpAddress

end AccessLog.Net

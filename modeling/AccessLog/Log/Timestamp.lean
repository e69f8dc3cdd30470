import AccessLog.Text.Blank
import AccessLog.Text.Integer

/-! # Timestamps

A timestamp is written `month/day/year, hour:minute:second.millisecond marker` with a twelve-hour
clock. The reader is lenient: blanks may stand before every number, between the comma and the hour
and before the marker; the fraction may be left out; a year may carry a sign and then have any
number of digits. Second 60 is the leap second, told as the 59th second with a thousand extra
milliseconds. -/

namespace AccessLog.Log
open AccessLog.Text

structure Timestamp where
  year : Int
  month : Nat
  day : Nat
  hour : Nat
  minute : Nat
  second : Nat
  nanosecond : Nat
  deriving DecidableEq, Repr

namespace Timestamp

def isLeapYear (year : Int) : Bool :=
  year % 4 == 0 && (year % 100 != 0 || year % 400 == 0)

def daysInMonth (year : Int) (month : Nat) : Nat :=
  if month = 2 then if isLeapYear year then 29 else 28
  else if month = 4 || month = 6 || month = 9 || month = 11 then 30
  else 31

def minYear : Int := -262143

def maxYear : Int := 262142

/-- At most `width` digits at the front of a text, and the rest. -/
def takeDigits : Nat → List Char → List Char × List Char
  | 0, cs => ([], cs)
  | _ + 1, [] => ([], [])
  | width + 1, c :: cs =>
    if c.isDigit then
      let (digits, rest) := takeDigits width cs
      (c :: digits, rest)
    else ([], c :: cs)

/-- One to `width` digits, after blanks. -/
def number? (width : Nat) (cs : List Char) : Option (Nat × List Char) :=
  let (digits, rest) := takeDigits width (trimStart cs)
  (digits? digits).map fun n => (n, rest)

/-- A number within bounds. -/
def bounded? (width low high : Nat) (cs : List Char) : Option (Nat × List Char) :=
  (number? width cs).filter fun (n, _) => low ≤ n && n ≤ high

/-- One to four digits, or a sign and any number of digits. -/
def year? (cs : List Char) : Option (Int × List Char) :=
  let read : Option (Int × List Char) := match trimStart cs with
    | '-' :: rest =>
      (digits? (rest.takeWhile Char.isDigit)).map fun n => (-(n : Int), rest.dropWhile Char.isDigit)
    | '+' :: rest =>
      (digits? (rest.takeWhile Char.isDigit)).map fun n => ((n : Int), rest.dropWhile Char.isDigit)
    | cs => (number? 4 cs).map fun (n, rest) => ((n : Int), rest)
  read.filter fun (y, _) => minYear ≤ y && y ≤ maxYear

/-- Exactly the character `c`. -/
def mark? (c : Char) : List Char → Option (List Char)
  | [] => none
  | d :: rest => if d = c then some rest else none

/-- The nanoseconds of a point and exactly three digits, or nothing at all. -/
def fraction? : List Char → Option (Nat × List Char)
  | '.' :: rest =>
    let (digits, rest) := takeDigits 3 rest
    if digits.length = 3 then (digits? digits).map fun n => (n * 1000000, rest) else none
  | cs => some (0, cs)

/-- Whether it is the second half of the day. -/
def afternoon? : List Char → Option (Bool × List Char)
  | a :: m :: rest =>
    if m.toLower = 'm' then
      if a.toLower = 'a' then some (false, rest)
      else if a.toLower = 'p' then some (true, rest)
      else none
    else none
  | _ => none

/-- The hour of the day from the hour on the dial. -/
def hourOfDay (dial : Nat) (afternoon : Bool) : Nat := dial % 12 + if afternoon then 12 else 0

/-- The timestamp that a text denotes. -/
def parse? (s : String) : Option Timestamp := do
  let (month, cs) ← bounded? 2 1 12 s.toList
  let cs ← mark? '/' cs
  let (day, cs) ← bounded? 2 1 31 cs
  let cs ← mark? '/' cs
  let (year, cs) ← year? cs
  let cs ← mark? ',' cs
  let (dial, cs) ← bounded? 2 1 12 cs
  let cs ← mark? ':' cs
  let (minute, cs) ← bounded? 2 0 59 cs
  let cs ← mark? ':' cs
  let (second, cs) ← bounded? 2 0 60 cs
  let (nanosecond, cs) ← fraction? cs
  let (afternoon, cs) ← afternoon? (trimStart cs)
  if cs.isEmpty && day ≤ daysInMonth year month then
    some {
      year, month, day, minute
      hour := hourOfDay dial afternoon
      second := min second 59
      nanosecond := if second = 60 then nanosecond + 1000000000 else nanosecond }
  else none

end Timestamp

end AccessLog.Log

/-! # Sets of characters

A set of characters is given by ranges of code points. In writing, the ranges stand one behind
another in hexadecimal digits: `41` is one code point, `41-5a` are all from the one to the other,
and `100/12e` is every second of them. -/

namespace AccessLog.Text

/-- The code points from `first` to `last`, `step` apart. -/
structure CharRange where
  first : Nat
  last : Nat
  step : Nat
  deriving DecidableEq, Repr

def CharRange.contains (r : CharRange) (c : Char) : Bool :=
  r.first ≤ c.toNat && c.toNat ≤ r.last && (c.toNat - r.first) % r.step == 0

/-- The number that hexadecimal digits in lower case write. -/
def hexNumber (s : String) : Nat :=
  s.toList.foldl (fun n c => 16 * n + (if c.isDigit then c.toNat - 48 else c.toNat - 87)) 0

/-- The range that a word writes. -/
def CharRange.ofWord (word : String) : CharRange :=
  match word.splitOn "-", word.splitOn "/" with
  | [first, last], _ => ⟨hexNumber first, hexNumber last, 1⟩
  | _, [first, last] => ⟨hexNumber first, hexNumber last, 2⟩
  | _, _ => ⟨hexNumber word, hexNumber word, 1⟩

structure CharSet where
  ranges : List CharRange
  deriving DecidableEq, Repr

namespace CharSet

/-- The set that is written in lines. -/
def ofLines (lines : List String) : CharSet :=
  ⟨lines.flatMap fun line => (line.splitOn " ").map CharRange.ofWord⟩

def contains (s : CharSet) (c : Char) : Bool := s.ranges.any (·.contains c)

end CharSet

end AccessLog.Text

/-! # Names in digits

A label outside ASCII can be written in ASCII: first its characters of ASCII, then a dash, then
numbers that tell which characters to insert where. A number is written in digits of base 36 from
the least one on; a digit below a threshold is the last one, and the thresholds adapt to the size of
the numbers so far. -/

namespace AccessLog.Net.HostName.Punycode

def digit? (c : Char) : Option Nat :=
  if c.isDigit then some (c.toNat - 22) else if c.isLower then some (c.toNat - 97) else none

/-- The least digit at a place that does not end a number. -/
def threshold (place bias : Nat) : Nat := min 26 (max 1 (place - bias))

/-- How often a number is divided before it is small, and what is left of it. -/
def shrink (delta steps : Nat) : Nat × Nat :=
  if 455 < delta then shrink (delta / 35) (steps + 1) else (delta, steps)
termination_by delta
decreasing_by exact Nat.div_lt_self (by omega) (by omega)

/-- The bias after a number, of which `count` characters are known with it. -/
def adapt (delta count : Nat) (isFirst : Bool) : Nat :=
  let delta := if isFirst then delta / 700 else delta / 2
  let (delta, steps) := shrink (delta + delta / count) 0
  36 * steps + 36 * delta / (delta + 38)

/-- The number at the front of a text, with the sum so far and the weight of its next digit, and
what follows it. -/
def number? (bias : Nat) : List Char → (place weight sum : Nat) → Option (Nat × List Char)
  | [], _, _, _ => none
  | c :: rest, place, weight, sum =>
    match digit? c with
    | none => none
    | some d =>
      let t := threshold place bias
      if d < t then some (sum + d * weight, rest)
      else number? bias rest (place + 36) (weight * (36 - t)) (sum + d * weight)

theorem length_lt_of_number? {bias : Nat} {cs : List Char} {place weight sum n : Nat}
    {rest : List Char} (h : number? bias cs place weight sum = some (n, rest)) :
    rest.length < cs.length := by
  induction cs generalizing place weight sum with
  | nil => simp [number?] at h
  | cons c cs ih =>
    simp only [number?] at h
    split at h
    · simp at h
    · split at h
      · simp only [Option.some.injEq, Prod.mk.injEq] at h
        simp [← h.2]
      · exact Nat.lt_succ_of_lt (ih h)

/-- Insert the characters that numbers tell, from a code point and a place on. -/
def insertAll (bias code place : Nat) (known : List Char) (cs : List Char) : Option (List Char) :=
  match cs with
  | [] => some known
  | c :: rest =>
    match h : number? bias (c :: rest) 36 1 0 with
    | none => none
    | some (delta, behind) =>
      let count := known.length + 1
      let code := code + (place + delta) / count
      let at' := (place + delta) % count
      if code.isValidChar then
        insertAll (adapt delta count (place == 0)) code (at' + 1)
          (known.insertIdx at' (Char.ofNat code)) behind
      else none
termination_by cs.length
decreasing_by exact length_lt_of_number? h

/-- The label that a text without the mark of labels in digits writes. -/
def decode? (cs : List Char) : Option (List Char) :=
  let digits := (cs.reverse.takeWhile (· != '-')).reverse
  let known := cs.take (cs.length - digits.length - 1)
  if known.all (·.toNat < 0x80) then insertAll 72 128 0 known digits else none

/-! ## Writing -/

def digit (n : Nat) : Char := if n < 26 then Char.ofNat (97 + n) else Char.ofNat (22 + n)

/-- A number in digits, from the one at a place on. -/
def digits (bias place n : Nat) : List Char :=
  let t := threshold place bias
  if n < t then [digit n]
  else digit (t + (n - t) % (36 - t)) :: digits bias (place + 36) ((n - t) / (36 - t))
termination_by n
decreasing_by
  have hpos : 0 < threshold place bias := by unfold threshold; omega
  have hdiv := Nat.div_le_self (n - threshold place bias) (36 - threshold place bias)
  omega

/-- A label that is being written: its digits so far, the number that tells of the next character,
the bias for it, and how many characters are written. -/
structure Progress where
  written : List Char
  delta : Nat
  bias : Nat
  count : Nat

/-- Go past a character of the label where those of a code point are written next. -/
def Progress.pass (code : Nat) (isFirst : Bool) (w : Progress) (c : Char) : Progress :=
  if c.toNat < code then { w with delta := w.delta + 1 }
  else if c.toNat = code then
    { written := w.written ++ digits w.bias 36 w.delta
      delta := 0
      bias := adapt w.delta (w.count + 1) (isFirst && w.written.isEmpty)
      count := w.count + 1 }
  else w

/-- Write the characters of these code points, after those below `next`. -/
def writeAll (label : List Char) (next : Nat) (w : Progress) : List Nat → Progress
  | [] => w
  | code :: rest =>
    let w := { w with delta := w.delta + (code - next) * (w.count + 1) }
    let w := label.foldl (Progress.pass code (next == 128)) w
    writeAll label (code + 1) { w with delta := w.delta + 1 } rest

/-- The text that writes a label. -/
def encode (label : List Char) : List Char :=
  let known := label.filter (·.toNat < 0x80)
  let codes := ((label.map Char.toNat).filter (0x80 ≤ ·)).eraseDups.mergeSort
  let digits := (writeAll label 128 ⟨[], 0, 72, known.length⟩ codes).written
  if known.isEmpty then digits else known ++ '-' :: digits

end AccessLog.Net.HostName.Punycode

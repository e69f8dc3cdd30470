import AccessLog.Numeric.Double

/-! The shortest decimal text that reads back as a double. A finite double is `m * 2 ^ q`; the reals
that round to it form an interval around it, whose ends belong to it when `m` is even. For one
digit, two digits and so on, the two neighbours of the double on that decimal grid are tested, and
the first grid with a hit wins; of two hits the nearer is taken. -/

namespace AccessLog.Numeric

/-- A positive finite double `m * 2 ^ q`. -/
structure Binary where
  m : Nat
  q : Int

def binary (bits : Nat) : Binary :=
  let fraction : Nat := bits % Nat.pow 2 52
  let exponent : Nat := bits / Nat.pow 2 52 % Nat.pow 2 11
  if exponent = 0 then ⟨fraction, -1074⟩ else ⟨fraction + Nat.pow 2 52, (exponent : Int) - 1075⟩

/-- The double, half the gap to the next one below and half the gap above, as numerators over one
denominator: `(value, below, above, denominator)`. The gap below a power of two is half as wide. -/
def Binary.interval (b : Binary) : Nat × Nat × Nat × Nat :=
  let narrow := b.m == Nat.pow 2 52 && b.q > -1074
  let below := if narrow then 1 else 2
  if 0 ≤ b.q then
    let unit := Nat.pow 2 b.q.toNat
    (4 * b.m * unit, below * unit, 2 * unit, 4)
  else (4 * b.m, below, 2, 4 * Nat.pow 2 (-b.q).toNat)

/-- Decimal digits and the place of the point: `0.d₁d₂… * 10 ^ point`. -/
structure Digits where
  digits : Nat
  count : Nat
  point : Int

/-- The number of decimal digits of `n`. -/
def digitCount (n : Nat) : Nat := (Nat.toDigits 10 n).length

/-- The place of the point of `num / den`: the least `p` with `num / den < 10 ^ p`. -/
def pointPlace (num den : Nat) : Int :=
  if den ≤ num then digitCount (num / den)
  else
    let above := (den + num - 1) / num
    let p := 1 - (digitCount above : Int)
    if num * Nat.pow 10 (1 - p).toNat < den then p - 1
    else if num * Nat.pow 10 (-p).toNat < den then p else p + 1

/-- Try the grid of `count` digits, and finer ones while `fuel` lasts. -/
def shortestFrom (value below above den : Nat) (even : Bool) (point : Int) : Nat → Nat → Digits
  | 0, count => ⟨0, count, point⟩
  | fuel + 1, count =>
    let shift := (count : Int) - point
    let (n, d) := if 0 ≤ shift then (Nat.pow 10 shift.toNat, 1) else (1, Nat.pow 10 (-shift).toNat)
    let low := value * n / (den * d)
    let gapLow := value * n - low * den * d
    let gapHigh := (low + 1) * den * d - value * n
    let fits (gap width : Nat) := if even then gap ≤ width * n else gap < width * n
    let hitLow := fits gapLow below && low != 0
    let hitHigh := fits gapHigh above
    if hitLow && (!hitHigh || gapLow < gapHigh || (gapLow == gapHigh && low % 2 == 0)) then
      ⟨low, count, point⟩
    else if hitHigh then ⟨low + 1, count, point⟩
    else shortestFrom value below above den even point fuel (count + 1)

/-- Drop zeros at the end, and carry a digit past the point. -/
def Digits.normal (d : Digits) : Digits :=
  let text := (Nat.toDigits 10 d.digits).reverse.dropWhile (· == '0')
  let width := digitCount d.digits
  { digits := d.digits / Nat.pow 10 (width - text.length)
    count := text.length
    point := d.point + ((width : Int) - d.count) }

/-- The shortest digits of a positive finite double. -/
def shortest (bits : Nat) : Digits :=
  let b := binary bits
  let (value, below, above, den) := b.interval
  (shortestFrom value below above den (b.m % 2 == 0) (pointPlace value den) 18 1).normal

/-- Where the positional form ends, and how the exponent form looks. -/
structure FloatFormat where
  /-- Positional while the point stands at most this far right of the first digit. -/
  widest : Int
  /-- Positional while the point stands at least this far right of the first digit. -/
  narrowest : Int

/-- Numbers in JSON: positional from five leading zeros up to sixteen whole digits, always with a
fraction; otherwise one digit, the rest after a point, and a bare exponent. -/
def jsonFormat : FloatFormat := ⟨16, -4⟩

def FloatFormat.render (f : FloatFormat) (d : Digits) : String :=
  let text := Nat.toDigits 10 d.digits
  let count : Int := d.count
  if f.narrowest ≤ d.point && d.point ≤ f.widest then
    if d.point ≤ 0 then
      "0." ++ String.ofList (List.replicate (-d.point).toNat '0' ++ text)
    else if count ≤ d.point then
      String.ofList (text ++ List.replicate (d.point - count).toNat '0') ++ ".0"
    else
      String.ofList (text.take d.point.toNat) ++ "." ++ String.ofList (text.drop d.point.toNat)
  else
    let exponent := toString (d.point - 1)
    match text with
    | [] => ""
    | [c] => String.ofList [c] ++ "e" ++ exponent
    | c :: rest => String.ofList (c :: '.' :: rest) ++ "e" ++ exponent

/-- The text of a finite double; a zero keeps its sign. -/
def renderBits (f : FloatFormat) (bits : Nat) : String :=
  let magnitude := bits % Nat.pow 2 63
  let sign := if Nat.pow 2 63 ≤ bits then "-" else ""
  if magnitude = 0 then sign ++ "0.0" else sign ++ f.render (shortest magnitude)

end AccessLog.Numeric

import AccessLog.Text.Marks

/-! # Directions of writing

A name whose labels run in both directions can look like another one. So where a label runs from
right to left, each label has to begin with a letter, to hold to the direction of that letter, and
to end in a letter or a number. -/

namespace AccessLog.Net.HostName
open AccessLog.Text

/-- The direction in which a character runs. -/
inductive Direction where
  | leftToRight
  | rightToLeft
  | arabicNumber
  | number
  | neutral
  /-- That of the character before it. -/
  | inherited
  deriving DecidableEq, Repr

/-- Characters of scripts that run from right to left. -/
def rightward : CharSet := .ofLines
  ["5be-5f4 608 60b 60d 61b-64a 66d-6d5 6e5-6e6 6ee-6ef 6fa-7f5 7fa-8c9 2135-2138 fb1d-fbc2",
   "fbd3-fd3d fd50-fd8f fd92-fdc7 fdf0-fdfc fe71-fefc 10800-1091b 10920-10b35 10b40-10d23",
   "10d4a-10d65 10d6f-10d8f 10e80-10ec7 10f00-10ff6 1e800-1eebb"]

def arabicNumbers : CharSet := .ofLines ["660-669 66b-66c 10d30-10d49 10e60-10e7e"]

/-- Digits that run as those of ASCII do. -/
def otherNumbers : CharSet := .ofLines ["6f0-6f9 102e1-102fb"]

/-- Symbols that run as the text around them does. -/
def neutrals : CharSet := .ofLines
  ["a1-b1 b6-bf d7 f7 2b9-2ba 2c2-2cf 2d2-2df 2e5-2ed 2ef-2ff 374-375 387 3f6 58a-58f",
   "606-607 609-60a 60c 60e-60f 66a 6de 6e9 7f6-7f9 9f2-9f3 9fb af1 bf3-bfa c78-c7e e3f",
   "f3a-f3d 1390-1399 1400 169b-169c 17db 17f0-180a 1940-1945 19de-19ff 200c-208b 20a0-2104",
   "2108 2114-2125 2127-2129 212e 213a 2140-214d 218a-2335 237b-2394 2396-26ab 26ad-27ff",
   "2900-2bff 2ce5-2cea 2cf9-2cff 2e00-2e9e 2ea0-2ef2 3001-3004 3008-3020 3030 3036-3037",
   "303d-303f 30a0 30fb 31c0-31e5 4dc0-4dff a490-a4c6 a60d-a60f a673-a67f a700-a721 a788",
   "a828-a82b a838-a839 a874-a877 ab6a-ab6b fbc3-fbd2 fd3e-fd4f fd90-fd91 fdc8-fdcf",
   "fdfd-fe5e ff5f-ff65 ffe0-ffee 10101 10140-1018c 10190-101a0 1091f 10b39-10b3f 10d6e",
   "10ed0-10ed8 11052-11065 11660-1166c 11fd5-11ff1 16fe2 1cc00-1cccf 1ccfa-1cef0",
   "1d1e9-1d245 1d300-1d356 1d6c1 1d6db 1d6fb 1d715 1d735 1d74f 1d76f 1d789 1d7a9 1d7c3",
   "1e2ff 1eef0-1f12f 1f16d-1f16f 1f1ad 1f260-1fbfa"]

def Direction.of (c : Char) : Direction :=
  if c.toNat < 0x80 then
    if c.isDigit then number else if c.isAlpha then leftToRight else neutral
  else if nonspacingMarks.contains c then inherited
  else if arabicNumbers.contains c then arabicNumber
  else if otherNumbers.contains c then number
  else if rightward.contains c then rightToLeft
  else if neutrals.contains c then neutral
  else leftToRight

/-- Whether a label runs from right to left somewhere. -/
def runsBack (label : List Char) : Bool :=
  label.any fun c => Direction.of c == .rightToLeft || Direction.of c == .arabicNumber

/-- Whether the last direction that is not inherited is one of the given. -/
def endsIn (directions : List Direction) (label : List Direction) : Bool :=
  (label.reverse.dropWhile (· == .inherited)).head?.all directions.contains

/-- Whether a label holds to one direction. -/
def holdsDirection (label : List Char) : Bool :=
  let directions := label.map Direction.of
  match directions with
  | [] => true
  | .leftToRight :: _ =>
    directions.all [.leftToRight, .number, .neutral, .inherited].contains &&
      endsIn [.leftToRight, .number] directions
  | .rightToLeft :: _ =>
    !directions.contains .leftToRight &&
      endsIn [.rightToLeft, .number, .arabicNumber] directions &&
      !(directions.contains .number && directions.contains .arabicNumber)
  | _ => false

end AccessLog.Net.HostName

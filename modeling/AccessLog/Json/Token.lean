/-! The tokens of JSON text. A string token holds the characters between its quotation marks as
written; its escapes are checked for form only, so that an unpaired surrogate passes here. -/

namespace AccessLog.Json

inductive Token
  | openArray
  | closeArray
  | openObject
  | closeObject
  | comma
  | colon
  | null
  | bool (value : Bool)
  | number (literal : List Char)
  | string (literal : List Char)
  deriving DecidableEq, Repr

def isSpace (c : Char) : Bool := c == ' ' || c == '\t' || c == '\n' || c == '\r'

def isHex (c : Char) : Bool :=
  ('0' ≤ c && c ≤ '9') || ('a' ≤ c && c ≤ 'f') || ('A' ≤ c && c ≤ 'F')

/-- The characters that a backslash may stand before, `u` apart. -/
def isShortEscape (c : Char) : Bool :=
  c == '"' || c == '\\' || c == '/' || c == 'b' || c == 'f' || c == 'n' || c == 'r' || c == 't'

def prepend (written : List Char) :
    Option (List Char × List Char) → Option (List Char × List Char)
  | none => none
  | some (literal, rest) => some (written ++ literal, rest)

/-- The rest of a string, up to its closing quotation mark, and what follows it. -/
def stringTail : List Char → Option (List Char × List Char)
  | [] => none
  | '"' :: rest => some ([], rest)
  | '\\' :: 'u' :: a :: b :: c :: d :: rest =>
    if isHex a && isHex b && isHex c && isHex d then
      prepend ['\\', 'u', a, b, c, d] (stringTail rest)
    else none
  | '\\' :: e :: rest => if isShortEscape e then prepend ['\\', e] (stringTail rest) else none
  | c :: rest => if c.toNat < 0x20 || c == '\\' then none else prepend [c] (stringTail rest)

/-- At least one digit, and what follows the digits. -/
def someDigits (cs : List Char) : Option (List Char × List Char) :=
  match cs.takeWhile Char.isDigit with
  | [] => none
  | digits => some (digits, cs.dropWhile Char.isDigit)

/-- A zero, or digits that do not begin with one. -/
def wholePart (cs : List Char) : Option (List Char × List Char) :=
  match cs with
  | '0' :: rest => some (['0'], rest)
  | cs => someDigits cs

/-- The fraction with its point, empty where there is none. -/
def fractionPart (cs : List Char) : Option (List Char × List Char) :=
  match cs with
  | '.' :: rest => prepend ['.'] (someDigits rest)
  | cs => some ([], cs)

/-- The exponent with its mark and sign, empty where there is none. -/
def exponentPart (cs : List Char) : Option (List Char × List Char) :=
  match cs with
  | mark :: rest =>
    if mark == 'e' || mark == 'E' then
      match rest with
      | sign :: more =>
        if sign == '+' || sign == '-' then prepend [mark, sign] (someDigits more)
        else prepend [mark] (someDigits rest)
      | [] => none
    else some ([], cs)
  | [] => some ([], [])

def unsignedNumber (cs : List Char) : Option (List Char × List Char) := do
  let (whole, rest) ← wholePart cs
  let (fraction, rest) ← fractionPart rest
  let (exponent, rest) ← exponentPart rest
  some (whole ++ fraction ++ exponent, rest)

def numberLiteral (cs : List Char) : Option (List Char × List Char) :=
  match cs with
  | '-' :: rest => prepend ['-'] (unsignedNumber rest)
  | cs => unsignedNumber cs

/-- The token at the front of a text that begins with no space. -/
def token? (cs : List Char) : Option (Token × List Char) :=
  match cs with
  | '[' :: rest => some (.openArray, rest)
  | ']' :: rest => some (.closeArray, rest)
  | '{' :: rest => some (.openObject, rest)
  | '}' :: rest => some (.closeObject, rest)
  | ',' :: rest => some (.comma, rest)
  | ':' :: rest => some (.colon, rest)
  | 'n' :: 'u' :: 'l' :: 'l' :: rest => some (.null, rest)
  | 't' :: 'r' :: 'u' :: 'e' :: rest => some (.bool true, rest)
  | 'f' :: 'a' :: 'l' :: 's' :: 'e' :: rest => some (.bool false, rest)
  | '"' :: rest => (stringTail rest).map fun (literal, rest) => (.string literal, rest)
  | cs => (numberLiteral cs).map fun (literal, rest) => (.number literal, rest)

/-- Read tokens while `fuel` lasts; every token takes at least one character. -/
def tokensFrom : Nat → List Char → Option (List Token)
  | 0, _ => none
  | fuel + 1, cs =>
    match cs.dropWhile isSpace with
    | [] => some []
    | cs => do
      let (t, rest) ← token? cs
      let more ← tokensFrom fuel rest
      some (t :: more)

/-- The tokens of a text, or none if some part of it is no token. -/
def tokens (cs : List Char) : Option (List Token) := tokensFrom (cs.length + 1) cs

end AccessLog.Json

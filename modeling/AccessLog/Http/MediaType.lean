/-! # Media types

A media type has two names with a slash between them, and parameters behind semicolons. The second
name may end in a plus sign and a suffix. The value of a parameter is a word, or stands in quotes.
Names are read without regard to case. -/

namespace AccessLog.Http

/-- Characters of a word. -/
def isWordChar (c : Char) : Bool :=
  c.isAlphanum || c.toNat == 39 || c.toNat == 96 || "!#$%&*+-.^_|~".toList.contains c

structure MediaType where
  main : String
  /-- The second name, without its suffix. -/
  sub : String
  parameters : List (String × String)
  deriving DecidableEq, Repr

namespace MediaType

/-- Characters that may stand in quotes. -/
def isQuotable (c : Char) : Bool := 0x20 ≤ c.toNat && c.toNat != 0x7F

/-- What stands in quotes, from behind the opening quote, and what follows the closing one. A quote
that would leave nothing in between does not close; a backslash is a character as any other. -/
def quoted? (opening : Bool) : List Char → Option (List Char × List Char)
  | [] => none
  | c :: rest =>
    if c == '"' && !opening then some ([], rest)
    else if isQuotable c then (quoted? false rest).map fun (cs, rest) => (c :: cs, rest)
    else none

/-- What follows the value of a parameter, which has to be a semicolon or nothing. -/
def behindValue? : List Char → Option (List Char)
  | [] => some []
  | ';' :: rest => some rest
  | _ => none

/-- The value of a parameter, and what follows its semicolon. -/
def value? (cs : List Char) : Option (List Char × List Char) :=
  match cs with
  | '"' :: rest => do
    let (value, rest) ← quoted? true rest
    some (value, ← behindValue? (rest.dropWhile (· == ' ')))
  | cs => do
    let value := cs.takeWhile isWordChar
    let rest := cs.dropWhile isWordChar
    if value.isEmpty && !rest.isEmpty then none else some (value, ← behindValue? rest)

/-- A parameter, and what follows its semicolon. -/
def parameter? (cs : List Char) : Option ((String × String) × List Char) :=
  match cs.takeWhile isWordChar, cs.dropWhile isWordChar with
  | c :: name, '=' :: rest => do
    let (value, rest) ← value? rest
    some (((String.ofList (c :: name)).toLower, String.ofList value), rest)
  | _, _ => none

/-- At most `bound` parameters. -/
def parameters? : Nat → List Char → Option (List (String × String))
  | 0, _ => some []
  | bound + 1, cs =>
    match cs.dropWhile (· == ' ') with
    | [] => some []
    | cs => do
      let (p, rest) ← parameter? cs
      some (p :: (← parameters? bound rest))

/-- A name without its suffix: the last plus sign, unless it comes first, and what follows it. -/
def withoutSuffix (name : List Char) : List Char :=
  match (name.reverse.dropWhile (· != '+')).drop 1 with
  | [] => name
  | kept => kept.reverse

def parse? (s : String) : Option MediaType := do
  let cs := s.toList
  let main := cs.takeWhile isWordChar
  let behind ← match cs.dropWhile isWordChar with
    | '/' :: rest => some rest
    | _ => none
  let sub := behind.takeWhile isWordChar
  let rest ← behindValue? (behind.dropWhile isWordChar)
  if main.isEmpty || sub.isEmpty then none
  else some {
    main := (String.ofList main).toLower
    sub := (String.ofList (withoutSuffix sub)).toLower
    parameters := ← parameters? rest.length rest }

/-- Whether a text can be the value of a header and be read as one. -/
def isPlain (s : String) : Bool :=
  s.toList.all fun c => c == '\t' || (0x20 ≤ c.toNat && c.toNat ≤ 0x7E)

/-- The boundary between the parts of a form, from the media type of the form. -/
def formBoundary? (s : String) : Option String := do
  let m ← if isPlain s then parse? s else none
  if m.main == "multipart" && m.sub == "form-data" then m.parameters.lookup "boundary" else none

end MediaType

end AccessLog.Http

import AccessLog.Text.Quoted
import AccessLog.Text.Utf8

/-! # Forms in parts

A form consists of parts, each behind a line with the boundary; a line with the boundary and two
dashes ends it. A part begins with headers, of which one gives its name; an empty line separates
them from its bytes. The part that is asked for ends the reading, and what follows it is not
looked at. -/

namespace AccessLog.Http.Form
open AccessLog.Text

inductive Fault where
  | tooLarge
  | incomplete
  | unreadableHeaders
  | incompletePart (name : Option String)
  deriving DecidableEq, Repr

def Fault.message : Fault → String
  | tooLarge => "Request payload is too large"
  | incomplete => "incomplete multipart stream"
  | unreadableHeaders => "failed to read headers"
  | incompletePart name => "field " ++ quoted (name.getD "<unknown>") ++
      " received with incomplete data"

/-! ## Cutting bytes -/

/-- What stands before a mark, last byte first and put in front of `seen`, and what stands behind
it. -/
def cutOnto (mark seen : List UInt8) : List UInt8 → Option (List UInt8 × List UInt8)
  | [] => if mark.isEmpty then some (seen, []) else none
  | b :: rest =>
    if mark.isPrefixOf (b :: rest) then some (seen, (b :: rest).drop mark.length)
    else cutOnto mark (b :: seen) rest

/-- What stands before the first occurrence of a mark, and what stands behind it. -/
def cut? (mark bytes : List UInt8) : Option (List UInt8 × List UInt8) :=
  (cutOnto mark [] bytes).map fun (before, rest) => (before.reverse, rest)

def lineEnd : List UInt8 := [13, 10]

/-- The mark that a line with the boundary begins with. -/
def dashed (boundary : String) : List UInt8 := 45 :: 45 :: encode boundary

def isPadding (b : UInt8) : Bool := b == 32 || b == 9

/-! ## Headers -/

/-- Bytes of the name of a header. -/
def isNameByte (b : UInt8) : Bool :=
  let c := Char.ofNat b.toNat
  c.isAlphanum || b == 39 || b == 96 || "!#$%&*+-.^_|~".toList.contains c

def isValueByte (b : UInt8) : Bool := b == 9 || (0x20 ≤ b && b != 0x7F)

/-- One header, in a line without its end. -/
def header? (line : List UInt8) : Option (String × List UInt8) :=
  let name := line.takeWhile isNameByte
  match line.dropWhile isNameByte with
  | 58 :: value =>
    if name.isEmpty || !value.all isValueByte then none
    else
      let value := ((value.dropWhile isPadding).reverse.dropWhile isPadding).reverse
      some ((decodeLenient name).toLower, value)
  | _ => none

/-- A line without a carriage return at its end. -/
def withoutReturn (line : List UInt8) : List UInt8 :=
  if line.getLast? == some 13 then line.dropLast else line

/-- The headers in a block of lines, up to thirty-two, to an empty line or to the end. -/
def headers? (block : List UInt8) : Option (List (String × List UInt8)) :=
  let lines := ((block.splitOn 10).map withoutReturn).takeWhile fun line => !line.isEmpty
  if lines.length ≤ 32 then lines.mapM header? else none

/-! ## Names of parts -/

/-- Blanks around the mark of a parameter. -/
def isBlankByte (b : UInt8) : Bool := b == 32 || (9 ≤ b && b ≤ 13 && b != 11)

/-- What stands before the closing quote, where a quote behind a backslash is one of the text. -/
def upToQuote? : List UInt8 → Option (List UInt8)
  | [] => none
  | 34 :: _ => some []
  | 92 :: 34 :: rest => (upToQuote? rest).map (34 :: ·)
  | b :: rest => (upToQuote? rest).map (b :: ·)

/-- The value of a parameter, in quotes or up to a semicolon or a space. -/
def parameterValue? (bytes : List UInt8) : Option (List UInt8) :=
  match bytes.dropWhile isBlankByte with
  | 34 :: rest => upToQuote? rest
  | rest => some (rest.takeWhile fun b => b != 59 && b != 32)

/-- The value of the parameter `name`, which stands at the front or behind a blank or a semicolon;
`free` says whether the bytes do. Where these letters end another word, the search begins anew
behind them. -/
def nameValue? (free : Bool) : List UInt8 → Option (List UInt8)
  | [] => none
  | b :: rest =>
    if (encode "name").isPrefixOf (b :: rest) then
      if free then
        match (rest.drop 3).dropWhile isBlankByte with
        | 61 :: value => parameterValue? value
        | _ => none
      else nameValue? true (rest.drop 3)
    else nameValue? (b == 59 || isBlankByte b) rest
termination_by bytes => bytes.length
decreasing_by
  · simp only [List.length_drop, List.length_cons]; omega
  · simp

/-- The name of a part with the given headers. Of several headers that give one, the last counts. -/
def partName? (headers : List (String × List UInt8)) : Option String := do
  decode? (← nameValue? true (← headers.reverse.lookup "content-disposition"))

/-! ## Parts -/

/-- The name of the part that begins behind a boundary, and its bytes with all that follows them;
nothing if the form ends there. -/
def begin (bytes : List UInt8) : Except Fault (Option (Option String × List UInt8)) :=
  match bytes with
  | [] => .error .incomplete
  | [_] => .error .incomplete
  | 45 :: 45 :: _ => .ok none
  | bytes =>
    match bytes.dropWhile isPadding with
    | 13 :: 10 :: rest =>
      match cut? (lineEnd ++ lineEnd) rest with
      | none => .error .incomplete
      | some (block, rest) =>
        match headers? block with
        | none => .error .unreadableHeaders
        | some headers => .ok (some (partName? headers, rest))
    | _ => .error .incomplete

/-- What the search for a part comes to. -/
inductive Search where
  | found (bytes : List UInt8)
  | missing
  /-- The form cannot be read. -/
  | unreadable (fault : Fault)
  /-- The part is there, but not all of it. -/
  | broken (fault : Fault)
  deriving DecidableEq

/-- Search the parts behind a boundary, of which there are at most `bound`. -/
def searchFrom (boundary wanted : String) : Nat → List UInt8 → Search
  | 0, _ => .missing
  | bound + 1, bytes =>
    match begin bytes with
    | .error fault => .unreadable fault
    | .ok none => .missing
    | .ok (some (name, rest)) =>
      match cut? (lineEnd ++ dashed boundary) rest with
      | none =>
        if name = some wanted then .broken (.incompletePart name)
        else .unreadable (.incompletePart name)
      | some (bytes, rest) =>
        if name = some wanted then .found bytes else searchFrom boundary wanted bound rest

/-- The first part with the name `wanted`, in a form of at most `limit` bytes. -/
def search (boundary wanted : String) (limit : Nat) (form : List UInt8) : Search :=
  if limit < form.length then .unreadable .tooLarge
  else match cut? (dashed boundary) form with
    | none => .unreadable .incomplete
    | some (_, rest) => searchFrom boundary wanted form.length rest

end AccessLog.Http.Form

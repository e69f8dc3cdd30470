import AccessLog.Log.Line
import AccessLog.Text.Blank

/-! # Rows of a delimited log

A line is cut at its commas, except at those inside quotation marks. The marks themselves are
dropped, and each field is trimmed. The first line that can be read is the header; lines of blanks
only are passed over. -/

namespace AccessLog.Log
open AccessLog.Text

/-- A line of the log that is neither the header nor blank. -/
structure Row where
  /-- The number of the line, counted from one over the lines that could be read. -/
  line : Nat
  raw : String
  fields : List String
  deriving DecidableEq, Repr

/-- Put a character in front of the first piece. -/
def attach (c : Char) : List (List Char) → List (List Char)
  | [] => [[c]]
  | piece :: pieces => (c :: piece) :: pieces

/-- The pieces of a line between its separating commas, without quotation marks. -/
def pieces (quoted : Bool) : List Char → List (List Char)
  | [] => [[]]
  | c :: rest =>
    if c = '"' then pieces (!quoted) rest
    else if c = ',' && !quoted then [] :: pieces quoted rest
    else attach c (pieces quoted rest)

/-- The fields of a line. -/
def splitFields (line : String) : List String :=
  (pieces false line.toList).map fun piece => String.ofList (trim piece)

/-- The rows of the lines that follow `count` readable ones. A line that cannot be read is reported
and not counted. -/
def rowsFrom (count : Nat) : List (Delivery String) → List (Delivery Row)
  | [] => []
  | .item text :: rest =>
    if count = 0 || allBlank text then rowsFrom (count + 1) rest
    else .item ⟨count + 1, text, splitFields text⟩ :: rowsFrom (count + 1) rest
  | .fault fault :: rest => .fault fault :: rowsFrom count rest
  | .crash message :: _ => [.crash message]

/-- The rows of a source. -/
def rows (reads : List Read) : List (Delivery Row) := rowsFrom 0 (lines reads)

end AccessLog.Log

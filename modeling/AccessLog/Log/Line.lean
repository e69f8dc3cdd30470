import AccessLog.Text.Utf8

/-! # Lines of a byte source

A source delivers its bytes in successive reads, any of which may fail. A line ends at a line feed;
one carriage return before that line feed belongs to the end of the line and not to its text. The
last line may lack its end. A line that is not UTF-8 is lost, and so is what a failed read had
begun; reading goes on behind either. -/

namespace AccessLog.Log
open AccessLog.Text

/-- One attempt to read from a source. -/
inductive Read where
  /-- Bytes; none of them says that the source has ended for now. -/
  | bytes (chunk : List UInt8)
  /-- An interruption, after which the read is simply repeated. -/
  | interrupted
  | failed (message : String)
  /-- The source breaks down and takes its reader along. -/
  | crashed (message : String)
  deriving DecidableEq

/-- What a source delivers, byte by byte. -/
inductive Signal where
  | byte (b : UInt8)
  /-- An empty read. -/
  | pause
  | failed (message : String)
  | crashed (message : String)
  deriving DecidableEq

def Read.signals : Read → List Signal
  | .bytes [] => [.pause]
  | .bytes chunk => chunk.map .byte
  | .interrupted => []
  | .failed message => [.failed message]
  | .crashed message => [.crashed message]

/-- Why a line could not be read. -/
inductive ReadFault where
  | notText
  | failed (message : String)
  deriving DecidableEq, Repr

namespace ReadFault

def message : ReadFault → String
  | notText => "stream did not contain valid UTF-8"
  | failed message => message

end ReadFault

/-- One element of what is read from a source. -/
inductive Delivery (α : Type) where
  | item (value : α)
  | fault (fault : ReadFault)
  /-- The source broke down; nothing follows. -/
  | crash (message : String)
  deriving DecidableEq

/-- The text of a line, from its bytes, last first. -/
def delivered (reversed : List UInt8) : Delivery String :=
  match decode? reversed.reverse with
  | some text => .item text
  | none => .fault .notText

/-- The line that a line feed has just ended. -/
def ended : List UInt8 → Delivery String
  | 13 :: reversed => delivered reversed
  | reversed => delivered reversed

/-- The lines of what remains to be delivered, after `reversed` of the present line has been read,
last byte first. An empty read ends the line that has begun; before any line has begun it ends the
reading. -/
def linesFrom (reversed : List UInt8) : List Signal → List (Delivery String)
  | [] => if reversed.isEmpty then [] else [delivered reversed]
  | .byte b :: rest => if b = 10 then ended reversed :: linesFrom [] rest else linesFrom (b :: reversed) rest
  | .pause :: rest => if reversed.isEmpty then [] else delivered reversed :: linesFrom [] rest
  | .failed message :: rest => .fault (.failed message) :: linesFrom [] rest
  | .crashed message :: _ => [.crash message]

/-- The lines of a source. -/
def lines (reads : List Read) : List (Delivery String) := linesFrom [] (reads.flatMap Read.signals)

end AccessLog.Log

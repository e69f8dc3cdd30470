import AccessLog.Net.HostName.Alphabet
import AccessLog.Net.HostName.Direction
import AccessLog.Net.HostName.Joining
import AccessLog.Net.HostName.Punycode
import AccessLog.Text.Composition

/-! # Names of hosts

The name of a host consists of labels with dots between them. It is read through what its characters
stand for. A label may be written in digits, and then has to write one that stands for itself. No
label begins with a mark, and the labels of a name keep to the rules for joiners and directions. -/

namespace AccessLog.Net.HostName
open AccessLog.Text

/-- Characters of ASCII that no name contains. -/
def isForbidden (c : Char) : Bool :=
  c.toNat ≤ 0x20 || c.toNat == 0x7F || "%#/:<>?@[\\]^|".toList.contains c

/-- Whether a text contains a forbidden character that the next one does not make another of. -/
def hasForbidden : List Char → Bool
  | [] => false
  | [c] => isForbidden c
  | c :: d :: rest => (isForbidden c && !compose c d) || hasForbidden (d :: rest)

/-- The mark of a label that is written in digits. -/
def digitsMark : List Char := "xn--".toList

/-- The label that is written, if it need not be written otherwise. -/
def label? (written : List Char) : Option (List Char) :=
  if digitsMark.isPrefixOf written then
    match Punycode.decode? (written.drop 4) with
    | some label =>
      if label.any (fun c => 0x80 ≤ c.toNat) && label.all isSettled && isComposed label &&
          !digitsMark.isPrefixOf label then some label
      else none
    | none => none
  else some written

/-- Whether a label of its own may be part of a name. -/
def isLabel (label : List Char) : Bool := !label.head?.any isMark && joinersFit [] label

/-- The name that a text stands for. -/
def read? (text : List Char) : Option (List Char) :=
  let name := text.flatMap folded
  match (name.splitOn '.').mapM label? with
  | none => none
  | some labels =>
    if text.all isAllowed && !hasForbidden name && labels.all isLabel &&
        (labels.any runsBack → labels.all holdsDirection) then some name
    else none

/-- A name in ASCII. A letter that stands for another one is written as it is. -/
def inDigits (name : List Char) : List Char :=
  let written (label : List Char) : List Char :=
    if label.all (·.toNat < 0x80) then label else digitsMark ++ Punycode.encode label
  ['.'].intercalate ((name.splitOn '.').map written)

end AccessLog.Net.HostName

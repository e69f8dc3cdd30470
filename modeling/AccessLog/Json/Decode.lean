import AccessLog.Json.Parser
import AccessLog.Json.Literal

/-! Reading typed values out of JSON. A structure is written as an object, where keys it does not
know are passed over and keys it knows stand at most once, or as an array of its fields in order. -/

namespace AccessLog.Json

/-- The text of a string whose escapes denote characters. -/
def text? : Json → Option String
  | string literal => unescape? literal
  | _ => none

/-- A whole number from `low` to `high`, written without a point and an exponent. -/
def whole? (low high : Int) : Json → Option Int
  | number literal => (integer? literal.toList).filter fun n => low ≤ n && n ≤ high
  | _ => none

def uint64? (v : Json) : Option UInt64 :=
  (whole? 0 (UInt64.size - 1) v).map fun n => UInt64.ofNat n.toNat

def uint16? (v : Json) : Option UInt16 :=
  (whole? 0 (UInt16.size - 1) v).map fun n => UInt16.ofNat n.toNat

def int64? (v : Json) : Option Int64 :=
  (whole? Text.least64 Text.greatest64 v).map Int64.ofInt

def natBelow? (bound : Nat) (v : Json) : Option Nat :=
  (whole? 0 (bound - 1) v).map Int.toNat

/-- A number of any form. -/
def float? : Json → Option Float
  | number literal => double? literal.toList
  | _ => none

/-- Every item of an array. -/
def items? {α : Type} (item? : Json → Option α) : Json → Option (List α)
  | array vs => vs.mapM item?
  | _ => none

/-- The members whose key is `name`, in order. -/
def named (name : String) (members : List (String × Json)) : List Json :=
  members.filterMap fun (k, v) => if unescape? k == some name then some v else none

/-- The values of the fields `names`, in that order, absent where the object does not have them. -/
def members? (names : List String) (members : List (String × Json)) :
    Option (List (Option Json)) :=
  if members.all fun (k, _) => (unescape? k).isSome then
    names.mapM fun name =>
      match named name members with
      | [] => some none
      | [v] => some (some v)
      | _ => none
  else none

/-- The fields of a structure, from an object or from an array of exactly as many items. -/
def fields? (names : List String) : Json → Option (List (Option Json))
  | object members => members? names members
  | array vs => if vs.length = names.length then some (vs.map some) else none
  | _ => none

/-- A field that has to be there. -/
def required {α : Type} (value? : Json → Option α) (field : Option Json) : Option α :=
  field.bind value?

/-- A field that may be absent or null. -/
def optional {α : Type} (value? : Json → Option α) : Option Json → Option (Option α)
  | none => some none
  | some null => some none
  | some v => (value? v).map some

end AccessLog.Json

/-! # Records of a geo database

A record is a tree of maps, arrays and plain values, whose parts are stored one behind another. What
a reader expects of it is a shape: a field that is there must have the shape asked for, a field that
is not asked for is passed over.

Instead of a map, a record may be an array of its fields in the order of the shape. Its reader stops
behind the last field that it knows; what the array still holds is then what is read next. -/

namespace AccessLog.Geo

inductive Value where
  | map (members : List (String × Value))
  | array (items : List Value)
  | text (s : String)
  | flag (b : Bool)
  | whole (n : Int)
  | double
  deriving Inhabited

namespace Value

def text? : Value → Option String
  | text s => some s
  | _ => none

def whole? : Value → Option Int
  | whole n => some n
  | _ => none

/-- The first item of an array. -/
def first? : Value → Option Value
  | array (v :: _) => some v
  | _ => none

/-- The value at the end of a path of names. -/
def at? (v : Value) : List String → Option Value
  | [] => some v
  | name :: path => match v with
    | map members => (members.lookup name).bind fun v => v.at? path
    | _ => none

def textAt? (v : Value) (path : List String) : Option String := (v.at? path).bind text?

end Value

/-! ## Reading what is stored -/

/-- Reads the value at the front of what is stored, and gives what stands behind it. -/
abbrev Reader : Type := List Value → Option (Value × List Value)

namespace Reader

/-- A plain value that is accepted. -/
def plain (accepts : Value → Bool) : Reader
  | v :: stored => if accepts v then some (v, stored) else none
  | [] => none

/-- Values of one kind, of the given number. -/
def times (item : Reader) : Nat → List Value → Option (List Value × List Value)
  | 0, stored => some ([], stored)
  | count + 1, stored => do
    let (v, stored) ← item stored
    let (vs, stored) ← times item count stored
    some (v :: vs, stored)

/-- An array of values of one kind. -/
def list (item : Reader) : Reader
  | .array items :: stored =>
    (times item items.length (items ++ stored)).map fun (vs, stored) => (.array vs, stored)
  | _ => none

/-- The fields of a record that is an array of `count` values, at least `least` of them. -/
def inOrder (least : Nat) :
    List (String × Reader) → Nat → List Value → Option (List (String × Value) × List Value)
  | [], _, stored => some ([], stored)
  | _ :: _, 0, stored => if least = 0 then some ([], stored) else none
  | (name, field) :: fields, count + 1, stored => do
    let (v, stored) ← field stored
    let (vs, stored) ← inOrder (least - 1) fields count stored
    some ((name, v) :: vs, stored)

/-- Whether a value may stand before a member of a map. -/
def isKey : Value → Bool
  | .text _ => true
  | .whole n => 0 ≤ n
  | _ => false

/-- The field that a key means, by its name or by its place among the fields. -/
def field? (fields : List (String × Reader)) : Value → Option (String × Reader)
  | .text name => fields.find? fun f => f.1 == name
  | .whole place => fields[place.toNat]?
  | _ => none

/-- The fields of a record that is a map of `count` members. No field is given twice. -/
def byKey (fields : List (String × Reader)) (found : List (String × Value)) :
    Nat → List Value → Option (List (String × Value) × List Value)
  | 0, stored => some (found, stored)
  | _ + 1, [] => none
  | count + 1, key :: stored =>
    if !isKey key then none
    else match field? fields key with
      | none => byKey fields found count (stored.drop 1)
      | some (name, field) =>
        if (found.lookup name).isSome then none
        else do
          let (v, stored) ← field stored
          byKey fields ((name, v) :: found) count stored

/-- The members of a map as they are stored, each behind its name. -/
def laidOut (members : List (String × Value)) : List Value :=
  members.flatMap fun (name, v) => [.text name, v]

/-- A record, as a map of the fields that are there. -/
def record (least : Nat) (fields : List (String × Reader)) : Reader
  | .map members :: stored =>
    (byKey fields [] members.length (laidOut members ++ stored)).map fun (vs, stored) =>
      (.map vs, stored)
  | .array items :: stored =>
    (inOrder least fields items.length (items ++ stored)).map fun (vs, stored) => (.map vs, stored)
  | _ => none

end Reader

/-! ## Shapes -/

inductive Shape where
  | text
  | flag
  /-- A natural number below the bound. -/
  | natBelow (bound : Nat)
  | number
  /-- A record with the given fields, of which an array holds at least `least`. -/
  | record (least : Nat) (fields : List (String × Shape))
  | list (item : Shape)
  deriving Inhabited

namespace Shape

/-- Whether a plain value is of a plain shape. -/
def accepts : Shape → Value → Bool
  | text, .text _ => true
  | flag, .flag _ => true
  | natBelow bound, .whole n => 0 ≤ n && n < bound
  | number, .whole _ => true
  | number, .double => true
  | _, _ => false

mutual

def reader : Shape → Reader
  | record least fields => .record least (readers fields)
  | list item => .list item.reader
  | shape => .plain shape.accepts

def readers : List (String × Shape) → List (String × Reader)
  | [] => []
  | (name, shape) :: fields => (name, shape.reader) :: readers fields

end

/-- What a value holds of the shape; nothing if it is of another shape. -/
def read? (shape : Shape) (v : Value) : Option Value := (shape.reader [v]).map Prod.fst

end Shape

/-! ## The records of city and network databases -/

def uint32 : Shape := .natBelow UInt32.size

/-- A name in eight languages. -/
def names : Shape :=
  .record 0 (["de", "en", "es", "fr", "ja", "pt-BR", "ru", "zh-CN"].map fun l => (l, .text))

def continent : Shape := .record 0 [("code", .text), ("geoname_id", uint32), ("names", names)]

def countryFields : List (String × Shape) :=
  [("geoname_id", uint32), ("is_in_european_union", .flag), ("iso_code", .text), ("names", names)]

def country : Shape := .record 0 countryFields

def representedCountry : Shape := .record 0 (countryFields ++ [("type", .text)])

def subdivision : Shape :=
  .record 0 [("geoname_id", uint32), ("iso_code", .text), ("names", names)]

def traits : Shape := .record 0 [("is_anycast", .flag)]

def location : Shape :=
  .record 0 [("accuracy_radius", .natBelow UInt16.size), ("latitude", .number),
    ("longitude", .number), ("metro_code", .natBelow UInt16.size), ("time_zone", .text)]

def cityRecord : Shape :=
  .record 0 [("city", .record 0 [("geoname_id", uint32), ("names", names)]),
    ("continent", continent), ("country", country), ("location", location),
    ("postal", .record 0 [("code", .text)]), ("registered_country", country),
    ("represented_country", representedCountry), ("subdivisions", .list subdivision),
    ("traits", traits)]

def countryRecord : Shape :=
  .record 0 [("continent", continent), ("country", country), ("registered_country", country),
    ("represented_country", representedCountry), ("traits", traits)]

/-- The record of a network, of which an array holds both fields. -/
def networkRecord : Shape :=
  .record 2 [("autonomous_system_number", uint32), ("autonomous_system_organization", .text)]

end AccessLog.Geo

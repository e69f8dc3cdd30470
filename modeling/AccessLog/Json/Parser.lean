import AccessLog.Json.Basic
import AccessLog.Json.Token

/-! From tokens to a value. The containers that are still open are kept in a list of frames, so
nesting may be of any depth. -/

namespace AccessLog.Json

/-- A container that is still open, with what it holds so far, last first. An object may have read
the key of its next member. -/
inductive Frame
  | items (done : List Json)
  | members (done : List (String × Json)) (key : Option String)

/-- What may come next. -/
inductive Expect
  /-- A value. -/
  | value
  /-- A value, or the end of an array that has no items yet. -/
  | firstItem
  /-- A key, or the end of an object that has no members yet. -/
  | firstKey
  | key
  | colon
  /-- A comma, or the end of the innermost container. -/
  | more
  /-- Nothing: the value is complete. -/
  | nothing
  deriving DecidableEq

structure Machine where
  frames : List Frame
  expect : Expect
  result : Option Json

namespace Machine

def start : Machine := ⟨[], .value, none⟩

/-- Put a finished value where it belongs. -/
def put (v : Json) : List Frame → Option Machine
  | [] => some ⟨[], .nothing, some v⟩
  | .items done :: outer => some ⟨.items (v :: done) :: outer, .more, none⟩
  | .members done (some k) :: outer => some ⟨.members ((k, v) :: done) none :: outer, .more, none⟩
  | .members _ none :: _ => none

def wantsValue : Expect → Bool
  | .value => true
  | .firstItem => true
  | _ => false

def step (m : Machine) (t : Token) : Option Machine :=
  match t, m.expect, m.frames with
  | .closeArray, .firstItem, .items _ :: outer => put (.array []) outer
  | .closeArray, .more, .items done :: outer => put (.array done.reverse) outer
  | .closeObject, .firstKey, .members _ _ :: outer => put (.object []) outer
  | .closeObject, .more, .members done _ :: outer => put (.object done.reverse) outer
  | .comma, .more, .items done :: outer => some ⟨.items done :: outer, .value, none⟩
  | .comma, .more, .members done _ :: outer => some ⟨.members done none :: outer, .key, none⟩
  | .colon, .colon, frames => some ⟨frames, .value, none⟩
  | .string k, .key, .members done _ :: outer =>
    some ⟨.members done (some (String.ofList k)) :: outer, .colon, none⟩
  | .string k, .firstKey, .members done _ :: outer =>
    some ⟨.members done (some (String.ofList k)) :: outer, .colon, none⟩
  | t, e, frames =>
    if wantsValue e then
      match t with
      | .openArray => some ⟨.items [] :: frames, .firstItem, none⟩
      | .openObject => some ⟨.members [] none :: frames, .firstKey, none⟩
      | .null => put .null frames
      | .bool b => put (.bool b) frames
      | .number literal => put (.number (String.ofList literal)) frames
      | .string literal => put (.string (String.ofList literal)) frames
      | _ => none
    else none

def run (m : Machine) : List Token → Option Machine
  | [] => some m
  | t :: rest => (m.step t).bind fun m => m.run rest

end Machine

def ofTokens? (ts : List Token) : Option Json := (Machine.start.run ts).bind Machine.result

/-- The value that a text denotes, if the text is JSON and nothing else. -/
def parse? (s : String) : Option Json := (tokens s.toList).bind ofTokens?

end AccessLog.Json

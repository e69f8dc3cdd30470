/-! JSON values. Strings, keys and numbers are kept as they are written between their delimiters, so
that a reader can tell a plain key from one with escapes and an integer from a number with a point;
what they denote is worked out by whoever asks for it. -/

namespace AccessLog

inductive Json
  | null
  | bool (value : Bool)
  | number (literal : String)
  | string (literal : String)
  | array (items : List Json)
  | object (members : List (String × Json))
  deriving Inhabited

namespace Json

def hexDigit (n : Nat) : Char := if n < 10 then Char.ofNat (48 + n) else Char.ofNat (87 + n)

/-- A quotation mark, a backslash and the control characters are escaped, the latter by a short
form where there is one; everything else stands for itself. -/
def escapeChar (c : Char) : List Char :=
  if c = '"' then ['\\', '"']
  else if c = '\\' then ['\\', '\\']
  else if c.toNat = 8 then ['\\', 'b']
  else if c = '\t' then ['\\', 't']
  else if c = '\n' then ['\\', 'n']
  else if c.toNat = 12 then ['\\', 'f']
  else if c = '\r' then ['\\', 'r']
  else if c.toNat < 0x20 then
    ['\\', 'u', '0', '0', hexDigit (c.toNat / 16), hexDigit (c.toNat % 16)]
  else [c]

def escape (s : String) : String := String.ofList (s.toList.flatMap escapeChar)

def text (s : String) : Json := string (escape s)

def nat (n : Nat) : Json := number (toString n)

def int (n : Int) : Json := number (toString n)

/-- Absence is written as null. -/
def ofOption {α : Type} (f : α → Json) : Option α → Json
  | none => null
  | some a => f a

def optionalText (s : Option String) : Json := ofOption text s

/-- An object with the given keys, which are escaped. -/
def record (members : List (String × Json)) : Json :=
  object (members.map fun (k, v) => (escape k, v))

def quoted (literal : String) : String := "\"" ++ literal ++ "\""

mutual

/-- The text of a value, without blanks. -/
def compact : Json → String
  | null => "null"
  | bool true => "true"
  | bool false => "false"
  | number literal => literal
  | string literal => quoted literal
  | array items => "[" ++ compactItems items ++ "]"
  | object members => "\x7b" ++ compactMembers members ++ "\x7d"

def compactItems : List Json → String
  | [] => ""
  | [v] => v.compact
  | v :: w :: rest => v.compact ++ "," ++ compactItems (w :: rest)

def compactMembers : List (String × Json) → String
  | [] => ""
  | [(k, v)] => quoted k ++ ":" ++ v.compact
  | (k, v) :: m :: rest => quoted k ++ ":" ++ v.compact ++ "," ++ compactMembers (m :: rest)

end

def indent (depth : Nat) : String := "\n" ++ String.ofList (List.replicate (2 * depth) ' ')

mutual

/-- The text of a value on several lines, two blanks for each level. -/
def prettyAt (depth : Nat) : Json → String
  | array [] => "[]"
  | object [] => "\x7b\x7d"
  | array items => "[" ++ prettyItems (depth + 1) items ++ indent depth ++ "]"
  | object members => "\x7b" ++ prettyMembers (depth + 1) members ++ indent depth ++ "\x7d"
  | null => "null"
  | bool true => "true"
  | bool false => "false"
  | number literal => literal
  | string literal => quoted literal

def prettyItems (depth : Nat) : List Json → String
  | [] => ""
  | [v] => indent depth ++ prettyAt depth v
  | v :: w :: rest => indent depth ++ prettyAt depth v ++ "," ++ prettyItems depth (w :: rest)

def prettyMembers (depth : Nat) : List (String × Json) → String
  | [] => ""
  | [(k, v)] => indent depth ++ quoted k ++ ": " ++ prettyAt depth v
  | (k, v) :: m :: rest =>
    indent depth ++ quoted k ++ ": " ++ prettyAt depth v ++ "," ++ prettyMembers depth (m :: rest)

end

def pretty (v : Json) : String := prettyAt 0 v

end Json

end AccessLog

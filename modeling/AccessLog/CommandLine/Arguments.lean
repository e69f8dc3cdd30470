import AccessLog.Text.Integer

/-! # Arguments

The one command analyzes a file. Its options may stand before and behind the file, their values as
words of their own or behind an equals sign; two dashes end the options. Arguments are read from
left to right, and a fault or a request for help ends the reading. -/

namespace AccessLog.CommandLine
open AccessLog.Text

inductive Command where
  | help
  | analyze (file : String) (top waitMs : UInt64)
  deriving DecidableEq, Repr

/-- What has been read of the arguments of the command. -/
structure Partial where
  file : Option String
  top : Option UInt64
  waitMs : Option UInt64
  deriving DecidableEq, Repr

inductive Choice where
  | top
  | waitMs
  deriving DecidableEq, Repr

namespace Choice

def ofName? : String → Option Choice
  | "--top" => some top
  | "--wait-ms" => some waitMs
  | _ => none

/-- The smallest value. -/
def least : Choice → Nat
  | top => 1
  | waitMs => 0

/-- The value that a word denotes. -/
def value? (c : Choice) (word : String) : Option UInt64 :=
  ((unsigned? UInt64.size word.toList).filter (c.least ≤ ·)).map UInt64.ofNat

end Choice

namespace Partial

def start : Partial := ⟨none, none, none⟩

/-- Set an option that has not been set yet. -/
def set? (p : Partial) (c : Choice) (word : String) : Option Partial := do
  let value ← c.value? word
  match c with
  | .top => if p.top.isSome then none else some { p with top := value }
  | .waitMs => if p.waitMs.isSome then none else some { p with waitMs := value }

def setFile? (p : Partial) (file : String) : Option Partial :=
  if p.file.isSome || file.isEmpty then none else some { p with file }

def defaultTop : UInt64 := 10

def finish? (p : Partial) : Option Command :=
  p.file.map fun file => .analyze file (p.top.getD defaultTop) (p.waitMs.getD 0)

end Partial

/-- Whether a word is an option and no value. A dash alone is a value. -/
def isOption (word : String) : Bool := word.startsWith "-" && word != "-"

/-- An option and its value, joined by an equals sign. -/
def joined? (word : String) : Option (Choice × String) :=
  let cs := word.toList
  match cs.dropWhile (· != '=') with
  | _ :: value =>
    (Choice.ofName? (String.ofList (cs.takeWhile (· != '=')))).map fun c => (c, String.ofList value)
  | [] => none

/-- Whether a word asks for help: by its name, or as the first of several letters. -/
def asksForHelp (word : String) : Bool :=
  word == "--help" || (word.startsWith "-h")

/-- Read the words behind the end of the options. -/
def readFiles (p : Partial) : List String → Option Command
  | [] => p.finish?
  | word :: rest => (p.setFile? word).bind fun p => readFiles p rest

/-- Read the arguments of the command. -/
def readAnalyze (p : Partial) : List String → Option Command
  | [] => p.finish?
  | word :: rest =>
    if word == "--" then readFiles p rest
    else if !isOption word then (p.setFile? word).bind fun p => readAnalyze p rest
    else if asksForHelp word then some .help
    else match Choice.ofName? word with
      | some c =>
        match rest with
        | value :: rest =>
          if isOption value then none else (p.set? c value).bind fun p => readAnalyze p rest
        | [] => none
      | none => do
        let (c, value) ← joined? word
        readAnalyze (← p.set? c value) rest

namespace Command

/-- The command that the arguments give, if they give one. -/
def parse? : List String → Option Command
  | "analyze" :: rest => readAnalyze .start rest
  | ["help"] => some help
  | ["help", "analyze"] => some help
  | ["help", "help"] => some help
  | word :: _ => if asksForHelp word then some help else none
  | [] => none

end Command

end AccessLog.CommandLine

/-! # Request methods -/

namespace AccessLog.Log

inductive Method where
  | get
  | post
  | put
  | delete
  | patch
  | head
  | options
  | trace
  deriving DecidableEq, Repr

namespace Method

/-- The written form of a method. -/
def name : Method → String
  | get => "GET"
  | post => "POST"
  | put => "PUT"
  | delete => "DELETE"
  | patch => "PATCH"
  | head => "HEAD"
  | options => "OPTIONS"
  | trace => "TRACE"

def all : List Method := [get, post, put, delete, patch, head, options, trace]

/-- The method that a text names; upper case only. -/
def ofName? (s : String) : Option Method := all.find? fun m => m.name == s

theorem ofName?_name (m : Method) : ofName? m.name = some m := by cases m <;> decide

theorem name_of_ofName? {s : String} {m : Method} (h : ofName? s = some m) : m.name = s := by
  simpa using List.find?_some h

end Method

/-- What is said of a text that names no method. -/
def unrecognizedMethod (token : String) : String := s!"unrecognized HTTP method '{token}'"

end AccessLog.Log

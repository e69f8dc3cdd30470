import AccessLog.Json.Basic

/-! # Requests and responses -/

namespace AccessLog.Http

/-- A request, with its target split into the path and the query, neither of them decoded. -/
structure Request where
  method : String
  path : String
  query : String
  headers : List (String × String)
  body : List UInt8
  deriving DecidableEq

namespace Request

/-- The first value of a header, whose name may be in upper or lower case. -/
def header? (r : Request) (name : String) : Option String :=
  (r.headers.find? fun (n, _) => n.toLower == name).map Prod.snd

/-- Characters of the scheme of a target. -/
def isSchemeChar (c : Char) : Bool := c.isAlphanum || "+-.~".toList.contains c

/-- A target without the scheme and the host that may precede its path. -/
def localPart (target : List Char) : List Char :=
  match target.dropWhile isSchemeChar with
  | ':' :: '/' :: '/' :: rest =>
    match rest.dropWhile fun c => c != '/' && c != '?' with
    | '/' :: path => '/' :: path
    | query => '/' :: query
  | _ => target

/-- A request for a target, which may have a query and a fragment. -/
def ofTarget (method target : String) (headers : List (String × String)) (body : List UInt8) :
    Request :=
  let cs := localPart (target.toList.takeWhile (· != '#'))
  { method, headers, body
    path := String.ofList (cs.takeWhile (· != '?'))
    query := String.ofList ((cs.dropWhile (· != '?')).drop 1) }

end Request

inductive Body where
  | empty
  | text (s : String)
  | json (v : Json)

structure Response where
  status : Nat
  headers : List (String × String)
  body : Body

namespace Response

def empty (status : Nat) (headers : List (String × String)) : Response := ⟨status, headers, .empty⟩

def text (status : Nat) (s : String) : Response :=
  ⟨status, [("content-type", "text/plain; charset=utf-8")], .text s⟩

def json (status : Nat) (headers : List (String × String)) (v : Json) : Response :=
  ⟨status, ("content-type", "application/json") :: headers, .json v⟩

def withHeaders (r : Response) (headers : List (String × String)) : Response :=
  { r with headers := r.headers ++ headers }

def withoutBody (r : Response) : Response := { r with body := .empty }

end Response

end AccessLog.Http

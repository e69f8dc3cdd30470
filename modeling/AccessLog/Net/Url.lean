import AccessLog.Net.HostName.Basic
import AccessLog.Net.Percent
import AccessLog.Net.WebAddress

/-! # Web addresses as they are read

A web address has a scheme and either an opaque path, or an optional authority and a path of
segments; a query and a fragment may follow. Some schemes always have an authority, whose host has
to be a name or an address and is written in one way. Text outside ASCII and characters with a
meaning of their own are written as percent-encoded bytes. -/

namespace AccessLog.Net
open AccessLog.Text

inductive UrlPath where
  | opaquePath (text : String)
  | segments (parts : List String)
  deriving DecidableEq, Repr

/-- Who is asked where. A user without a name and a password goes unwritten. -/
structure Authority where
  name : String
  password : Option String
  host : String
  port : Option Nat
  deriving DecidableEq, Repr

/-- A web address in its written parts. -/
structure Url where
  scheme : String
  authority : Option Authority
  path : UrlPath
  query : Option String
  fragment : Option String
  deriving DecidableEq, Repr

namespace Authority

def render (a : Authority) : String :=
  (if a.name = "" ∧ a.password = none then "" else a.name ++ marked ":" a.password ++ "@") ++
    a.host ++ marked ":" (a.port.map toString)

/-- The text that a written name or password stands for. -/
def plainText? (written : String) : Option String := decode? (percentDecode (encode written))

/-- The user, if the name is text. -/
def user? (a : Authority) : Option (String × Option String) := do
  let name ← plainText? a.name
  let password := a.password.bind plainText?
  if name = "" ∧ password = none then none else some (name, password)

def withoutUser (a : Authority) : Authority :=
  if a.user?.isSome then { a with name := "", password := none } else a

end Authority

namespace Url

/-- Tabs and line ends, which are passed over anywhere in a web address. -/
def isIgnored (c : Char) : Bool := c == '\t' || c == '\n' || c == '\r'

/-- A text without control characters and spaces at its ends, and without tabs and line ends. -/
def tidy (s : String) : List Char :=
  let inner := s.toList.dropWhile (·.toNat ≤ 0x20)
  (inner.reverse.dropWhile (·.toNat ≤ 0x20)).reverse.filter fun c => !isIgnored c

def isControl (c : Char) : Bool := c.toNat < 0x20 || 0x7E < c.toNat

/-- Characters that are encoded in a query, a fragment and a path. -/
def inQuery (c : Char) : Bool := isControl c || " \"#<>".toList.contains c

def inFragment (c : Char) : Bool := isControl c || " \"<>`".toList.contains c

def inPath (c : Char) : Bool := inQuery c || "?`^\x7b\x7d".toList.contains c

/-- Characters that are encoded in the name and the password of a user. -/
def inUser (c : Char) : Bool := inPath c || "/:;=@[\\]^|".toList.contains c

/-- Characters that are encoded in a segment which is added to a path. -/
def inSegment (special : Bool) (c : Char) : Bool :=
  inPath c || c == '/' || c == '%' || (special && c == '\\')

/-! ## Schemes -/

/-- The scheme at the front of a text, in lower case, and what follows its colon. -/
def scheme? (cs : List Char) : Option (String × List Char) :=
  let inName (c : Char) := c.isAlphanum || c == '+' || c == '-' || c == '.'
  match cs with
  | c :: _ =>
    match cs.dropWhile inName with
    | ':' :: rest =>
      if c.isAlpha then some ((String.ofList (cs.takeWhile inName)).toLower, rest) else none
    | _ => none
  | [] => none

/-- The port that goes without saying. -/
def defaultPort? (scheme : String) : Option Nat :=
  [("http", 80), ("ws", 80), ("https", 443), ("wss", 443), ("ftp", 21)].lookup scheme

/-- Schemes that always have an authority. -/
def needsHost (scheme : String) : Bool := (defaultPort? scheme).isSome

def isSpecial (scheme : String) : Bool := needsHost scheme || scheme == "file"

/-! ## Hosts -/

/-- One part of an address of version 4, in decimal, octal or hexadecimal digits. -/
def number4? (part : List Char) : Option Nat :=
  let ofDigits (radix : Nat) (cs : List Char) : Option Nat :=
    if cs.all fun c => IpAddress.isHexDigit c && IpAddress.hexDigitValue c < radix then
      some (cs.foldl (fun n c => radix * n + IpAddress.hexDigitValue c) 0)
    else none
  match part with
  | [] => none
  | '0' :: 'x' :: rest => ofDigits 16 rest
  | '0' :: 'X' :: rest => ofDigits 16 rest
  | '0' :: d :: rest => ofDigits 8 (d :: rest)
  | cs => ofDigits 10 cs

/-- The parts of a name between dots; an empty last part does not count. -/
def labels (name : List Char) : List (List Char) :=
  let parts := name.splitOn '.'
  if parts.length > 1 && parts.getLast? == some [] then parts.dropLast else parts

/-- Whether a name has to be read as an address of version 4. -/
def endsInNumber (name : List Char) : Bool :=
  match (labels name).getLast? with
  | some last => (!last.isEmpty && last.all Char.isDigit) || (number4? last).isSome
  | none => false

/-- The value of a name that is an address of version 4: up to four numbers, of which the last
fills all the bytes that the others leave. -/
def address4? (name : List Char) : Option Nat := do
  let numbers ← (labels name).mapM number4?
  let last ← numbers.getLast?
  let front := numbers.dropLast
  if numbers.length ≤ 4 && front.all (· ≤ 255) && last < Nat.pow 256 (4 - front.length) then
    some (front.foldl (fun n b => 256 * n + b) 0 * Nat.pow 256 (4 - front.length) + last)
  else none

/-- The written form of an address of version 6 between brackets. -/
def bracketed? (inner : List Char) : Option String :=
  if inner.getLast? == some ']' then
    (IpAddress.parse6? inner.dropLast).map fun value => "[" ++ IpAddress.render6 value ++ "]"
  else none

/-- The written form of a host that is a name or an address. -/
def nameHost? (cs : List Char) : Option String :=
  match cs with
  | '[' :: inner => bracketed? inner
  | _ =>
    match decode? (percentDecode (encode (String.ofList cs))) with
    | none => none
    | some text =>
      match HostName.read? text.toList with
      | none => none
      | some name =>
        if name.isEmpty then none
        else if endsInNumber name then (address4? name).map IpAddress.render4
        else some (String.ofList (HostName.inDigits name))

/-- The written form of a host of a scheme without rules of its own. -/
def opaqueHost? (cs : List Char) : Option String :=
  match cs with
  | '[' :: inner => bracketed? inner
  | _ =>
    if cs.any fun c => c.toNat == 0 || c == ' ' || "#/:<>?@[\\]^|".toList.contains c then none
    else some (String.ofList (percentEncode isControl cs))

/-! ## Authorities -/

/-- Whether a character ends an authority. -/
def endsAuthority (special : Bool) (c : Char) : Bool :=
  c == '/' || c == '?' || c == '#' || (special && c == '\\')

/-- What precedes the last `@`, if there is one, and what follows it. -/
def splitUser (cs : List Char) : Option (List Char) × List Char :=
  let after := (cs.reverse.takeWhile (· != '@')).reverse
  if after.length = cs.length then (none, cs) else (some (cs.take (cs.length - after.length - 1)), after)

/-- The host at the front of an authority, up to a colon outside brackets. -/
def takeHost (bracketed : Bool) : List Char → List Char × List Char
  | [] => ([], [])
  | c :: rest =>
    if c == ':' && !bracketed then ([], c :: rest)
    else
      let (host, rest) := takeHost (if c == '[' then true else if c == ']' then false else bracketed) rest
      (c :: host, rest)

/-- The text of an authority, and what follows it. A backslash behind a port ends an authority of
any scheme. -/
def takeAuthority (special : Bool) (cs : List Char) : List Char × List Char :=
  let text := cs.takeWhile fun c => !endsAuthority special c
  let behind := (((takeHost false (splitUser text).2).2).drop 1).dropWhile Char.isDigit
  let length := if behind.head? == some '\\' then text.length - behind.length else text.length
  (cs.take length, cs.drop length)

/-- The port behind a host, with its colon; none where it goes without saying. -/
def port? (scheme : String) (cs : List Char) : Option (Option Nat) :=
  match cs with
  | [] => some none
  | _ :: [] => some none
  | _ :: digits => do
    let port ← (digits? digits).filter (· < 65536)
    some (if defaultPort? scheme == some port then none else some port)

/-- The written name of a user, and the password where one follows the colon. -/
def user (cs : List Char) : String × Option String :=
  let written (cs : List Char) : String := String.ofList (percentEncode inUser cs)
  let behind := (cs.dropWhile (· != ':')).drop 1
  (written (cs.takeWhile (· != ':')), if behind.isEmpty then none else some (written behind))

/-- The authority that a text denotes, where `atEnd` says whether it ends the web address. A host
may be empty only without a user and a port, and behind the mark of a user only at the end. -/
def authority? (scheme : String) (atEnd : Bool) (cs : List Char) : Option Authority := do
  let (before, rest) := splitUser cs
  let (host, port) := takeHost false rest
  if needsHost scheme && host.isEmpty then none
  let host ← if needsHost scheme then nameHost? host else opaqueHost? host
  let (name, password) := user (before.getD [])
  let named := !(name.isEmpty && password.isNone)
  if host.isEmpty && (named || !port.isEmpty || !(atEnd || before != some [])) then none
  some ⟨name, password, host, ← port? scheme port⟩

/-! ## Paths -/

/-- Whether a segment stands for the segment before it, or for nothing. -/
def isDouble (s : String) : Bool :=
  ["..", ".%2e", "%2e.", "%2e%2e"].contains s.toLower

def isSingle (s : String) : Bool := [".", "%2e"].contains s.toLower

/-- Add the segments of a path to those before, last first. -/
def normalize (before : List String) : List String → List String
  | [] => before.reverse
  | [last] =>
    if isDouble last then ("" :: before.drop 1).reverse
    else if isSingle last then ("" :: before).reverse
    else (last :: before).reverse
  | s :: rest =>
    if isDouble s then normalize (before.drop 1) rest
    else if isSingle s then normalize before rest
    else normalize (s :: before) rest

/-- The segments of a path. -/
def segmentsOf (special : Bool) (cs : List Char) : List String :=
  let cs := if special then cs.map fun c => if c == '\\' then '/' else c else cs
  let parts := match cs with
    | '/' :: rest => rest.splitOn '/'
    | [] => if special then [[]] else []
    | cs => cs.splitOn '/'
  normalize [] (parts.map fun p => String.ofList (percentEncode inPath p))

/-- The parts of a text before a query, of the query, and of the fragment. -/
def splitTail (cs : List Char) : List Char × Option (List Char) × Option (List Char) :=
  let upToFragment := cs.takeWhile (· != '#')
  let fragment := match cs.dropWhile (· != '#') with
    | _ :: f => some f
    | [] => none
  let query := match upToFragment.dropWhile (· != '?') with
    | _ :: q => some q
    | [] => none
  (upToFragment.takeWhile (· != '?'), query, fragment)

/-- Assemble a web address whose authority, if any, has been read. -/
def assemble (scheme : String) (authority : Option Authority) (path : UrlPath)
    (query fragment : Option (List Char)) : Url :=
  let quoted (c : Char) := inQuery c || (isSpecial scheme && c.toNat == 39)
  { scheme := scheme
    authority := authority
    path := path
    query := query.map fun q => String.ofList (percentEncode quoted q)
    fragment := fragment.map fun f => String.ofList (percentEncode inFragment f) }

/-- A web address after its scheme and two slashes. -/
def withAuthority? (scheme : String) (cs : List Char) : Option Url := do
  let special := isSpecial scheme
  let (authority, behind) := takeAuthority special cs
  let authority ← authority? scheme behind.isEmpty authority
  let (path, query, fragment) := splitTail behind
  some (assemble scheme (some authority) (.segments (segmentsOf special path)) query fragment)

/-- The host of a file and what follows it. Two slashes introduce the host, which may be missing. -/
def takeFileHost (cs : List Char) : List Char × List Char :=
  let slash (c : Char) := c == '/' || c == '\\'
  match cs with
  | a :: b :: rest =>
    if slash a && slash b then
      (rest.takeWhile fun c => !endsAuthority true c, rest.dropWhile fun c => !endsAuthority true c)
    else ([], cs)
  | cs => ([], cs)

/-- The mark of a drive, which is no host. -/
def isDrive : List Char → Bool
  | [d, m] => d.isAlpha && (m == ':' || m == '|')
  | _ => false

def fileHost? (host : List Char) : Option String :=
  if host.isEmpty || isDrive host then some "" else nameHost? host

/-- A file after its scheme. -/
def file? (cs : List Char) : Option Url := do
  let (host, rest) := takeFileHost cs
  let written ← fileHost? host
  let (path, query, fragment) := splitTail (if isDrive host then '/' :: host ++ rest else rest)
  some (assemble "file" (some ⟨"", none, if written == "localhost" then "" else written, none⟩)
    (.segments (segmentsOf true path)) query fragment)

/-- The web address that a text denotes on its own. -/
def parse? (s : String) : Option Url := do
  let (scheme, rest) ← scheme? (tidy s)
  if scheme == "file" then file? rest
  else if needsHost scheme then
    withAuthority? scheme (rest.dropWhile fun c => c == '/' || c == '\\')
  else match rest with
    | '/' :: '/' :: rest => withAuthority? scheme rest
    | _ =>
      let (path, query, fragment) := splitTail rest
      let path := match path with
        | '/' :: _ => .segments (segmentsOf false path)
        | _ => .opaquePath (String.ofList (percentEncode isControl path))
      some (assemble scheme none path query fragment)

def segments? (u : Url) : Option (List String) :=
  match u.path with
  | .opaquePath _ => none
  | .segments parts => some parts

/-- The written form of a path. Without an authority a path must not begin with two slashes. -/
def renderPath (authority : Option Authority) : UrlPath → String
  | .opaquePath text => text
  | .segments parts =>
    (if authority.isNone ∧ parts.head? = some "" ∧ 1 < parts.length then "/." else "") ++
      renderSegments parts

/-- The written form. -/
def render (u : Url) : String :=
  u.scheme ++ ":" ++ marked "//" (u.authority.map Authority.render) ++
    renderPath u.authority u.path ++ marked "?" u.query ++ marked "#" u.fragment

/-! ## Paths that go on -/

/-- A segment in its written form. Tabs and line ends are passed over. -/
def segmentText (special : Bool) (segment : String) : String :=
  String.ofList
    (percentEncode (inSegment special) (segment.toList.filter fun c => !isIgnored c))

/-- A path without an empty last segment. -/
def popIfEmpty : UrlPath → UrlPath
  | .opaquePath text => .opaquePath text
  | .segments parts => .segments (withoutClosing parts)

/-- A path that goes on with a segment. The names of the own and of the upper level are passed
over. -/
def push (special : Bool) (segment : String) : UrlPath → UrlPath
  | .opaquePath text => .opaquePath text
  | .segments parts =>
    .segments (if segment = "." ∨ segment = ".." then parts
      else extendedBy parts (segmentText special segment))

@[default_instance]
instance : WebAddress Url where
  parse? := parse?
  render := render
  scheme u := u.scheme
  authority? u := u.authority.map Authority.render
  host? u := u.authority.map Authority.host
  port? u := u.authority.bind Authority.port
  segments? := segments?
  query? u := u.query
  fragment? u := u.fragment
  popIfEmpty u := { u with path := popIfEmpty u.path }
  push u segment := { u with path := push (isSpecial u.scheme) segment u.path }

/-! ## Requests -/

/-- Characters of a name that may not stand in the target of a request. -/
def bars (c : Char) : Bool := "\"`\x7b\x7d".toList.contains c

/-- The greatest length of the target of a request. -/
def maxTarget : Nat := 65534

/-- Whether a text can be sent in a header. -/
def isHeaderText (s : String) : Bool :=
  (encode s).all fun b => b == 9 || (0x20 ≤ b && b != 0x7F)

instance : HttpClient Url where
  user? u := u.authority.bind Authority.user?
  withoutUser u := { u with authority := u.authority.map Authority.withoutUser }
  accepts u := (u.scheme == "http" || u.scheme == "https") &&
    !(u.authority.any fun a => a.host.toList.any bars) && u.render.utf8ByteSize ≤ maxTarget
  isHeaderText := isHeaderText

end Url

end AccessLog.Net

import AccessLog.Enrich.Lookup
import AccessLog.Net.IpAddress
import AccessLog.Net.WebAddress
import AccessLog.Text.Blank
import AccessLog.Text.Utf8

/-! # Lookups at a web service

A lookup asks a web service for an address: the address is one more segment of the path of the
service's own web address. Only what reads as an address is asked for, so text from a log reaches
the request in no other way. The answer is a JSON object with some of the fields country, region,
city and org; a field that is null or blank says nothing.

Web addresses and requests are the business of libraries, and a service does with any. -/

namespace AccessLog.Enrich
open AccessLog.Net AccessLog.Text

section
variable {U : Type}

/-- Why a text cannot be the web address of a service. -/
inductive BaseFault (U : Type) where
  | malformed (given : String)
  /-- It is a web address, but one that has no path to extend. -/
  | pathless (base : U)
  deriving DecidableEq, Repr

def BaseFault.message [WebAddress U] : BaseFault U → String
  | malformed given => "invalid lookup base URL '" ++ given ++ "'"
  | pathless base => "lookup base URL '" ++ WebAddress.render base ++ "' cannot carry a path"

structure InfoService (U : Type) where
  base : U
  token : Option String
  deriving DecidableEq, Repr

namespace InfoService

/-- The service at a web address. -/
def of [WebAddress U] (base : String) (token : Option String) :
    Except (BaseFault U) (InfoService U) :=
  match WebAddress.parse? base with
  | none => .error (.malformed base)
  | some url =>
    match WebAddress.segments? url with
    | none => .error (.pathless url)
    | some _ => .ok ⟨url, token⟩

/-- A request for what is known about an address, with what its headers tell: a user and a token. -/
structure Request (U : Type) where
  url : U
  user : Option (String × Option String)
  token : Option String
  deriving DecidableEq, Repr

/-- What comes of a request. -/
inductive Exchange where
  | refused
  | timedOut
  | broken
  /-- An answer, whose body is missing if it broke off. -/
  | answered (status : UInt16) (body : Option (List UInt8))
  deriving DecidableEq, Repr

/-- The web address of the service that goes on with an address. -/
def lookupUrl [WebAddress U] (s : InfoService U) (address : String) : U :=
  WebAddress.push (WebAddress.popIfEmpty s.base) address

/-- The web address that a request for an address goes to. -/
def target [WebAddress U] [HttpClient U] (s : InfoService U) (address : String) : U :=
  HttpClient.withoutUser (s.lookupUrl address)

/-- The request for an address, if the text is one. -/
def request? [WebAddress U] [HttpClient U] (s : InfoService U) (address : String) :
    Option (Request U) :=
  (IpAddress.parse? address).map fun _ =>
    ⟨s.target address, HttpClient.user? (s.lookupUrl address), s.token⟩

/-- Why a request is not sent at all. -/
def Request.fault? [WebAddress U] [HttpClient U] (r : Request U) : Option String :=
  if !r.token.all (HttpClient.isHeaderText U) then some "builder error"
  else if HttpClient.accepts r.url then none
  else some ("builder error for url (" ++ WebAddress.render r.url ++ ")")

/-! ## Answers

Strings that nobody asks for need not be text, so an answer is read byte for byte: a character
stands for the byte of its number. -/

def bytewise (bytes : List UInt8) : String :=
  String.ofList (bytes.map fun b => Char.ofNat b.toNat)

/-- The text that stands behind the bytes of a string. -/
def textOf? (bytewise : String) : Option String :=
  decode? (bytewise.toList.map fun c => UInt8.ofNat c.toNat)

/-- The text of a string of an answer. -/
def wireText? : Json → Option String
  | .string literal => (textOf? literal).bind Json.unescape?
  | _ => none

/-- The fields of an answer: of an object, or of an array of at most as many items. -/
def fields? (names : List String) : Json → Option (List (Option Json))
  | .object members => do
    Json.members? names (← members.mapM fun (k, v) => (textOf? k).map fun k => (k, v))
  | .array items =>
    if items.length ≤ names.length then
      some (items.map some ++ List.replicate (names.length - items.length) none)
    else none
  | _ => none

def unlessBlank (s : Option String) : Option String := s.filter fun s => !allBlank s

/-- What an answer says about the address that was asked for. -/
def info? (address : String) (body : List UInt8) : Option AddressInfo := do
  match ← fields? ["country", "region", "city", "org"] (← Json.parse? (bytewise body)) with
  | [country, region, city, org] =>
    some {
      address
      country := unlessBlank (← Json.optional wireText? country)
      region := unlessBlank (← Json.optional wireText? region)
      city := unlessBlank (← Json.optional wireText? city)
      organization := unlessBlank (← Json.optional wireText? org) }
  | _ => none

def unreadable : LookupError := .decode "error decoding response body"

/-- How the lookup of an address ends when its request has come to something. -/
def conclude [WebAddress U] (address : String) (r : Request U) :
    Exchange → Except LookupError AddressInfo
  | .refused =>
    .error (.connect ("error sending request for url (" ++ WebAddress.render r.url ++ ")"))
  | .timedOut => .error .timeout
  | .broken =>
    .error (.transport ("error sending request for url (" ++ WebAddress.render r.url ++ ")"))
  | .answered status body =>
    if 200 ≤ status && status ≤ 299 then
      match body.bind (info? address) with
      | some info => .ok info
      | none => .error unreadable
    else .error (.status status (decodeLenient (body.getD [])))

/-- Look an address up, where `exchange` tells what comes of a request. Also the request that was
sent, if any. -/
def resolve [WebAddress U] [HttpClient U] (s : InfoService U) (exchange : Request U → Exchange)
    (address : String) : Except LookupError AddressInfo × Option (Request U) :=
  match s.request? address with
  | none => (.error .notFound, none)
  | some r =>
    match r.fault? with
    | some fault => (.error (.transport fault), none)
    | none => (conclude address r (exchange r), some r)

end InfoService

end

end AccessLog.Enrich

/-! # Web addresses and the clients for them

Web addresses are read, written and extended by a library, and another one sends the requests. What
is used of the two libraries is listed here, and with it what they say of themselves as far as it is
relied on. -/

namespace AccessLog.Net

/-- A library of web addresses. -/
class WebAddress (U : Type) where
  /-- The web address that a text denotes on its own. -/
  parse? : String → Option U
  /-- The written form. -/
  render : U → String
  scheme : U → String
  /-- The user, the host and the port, as they are written. -/
  authority? : U → Option String
  host? : U → Option String
  port? : U → Option Nat
  /-- The segments of the path; none if it is not made of segments. -/
  segments? : U → Option (List String)
  query? : U → Option String
  fragment? : U → Option String
  /-- Leave an empty last segment out, but not that of the root. -/
  popIfEmpty : U → U
  /-- Let the path go on with a segment. -/
  push : U → String → U

/-- A client that sends requests to web addresses. -/
class HttpClient (U : Type) where
  /-- The user, with the password if there is one, that is named in a header and not in the web
  address. -/
  user? : U → Option (String × Option String)
  /-- The web address without that user. -/
  withoutUser : U → U
  /-- Whether a request can be made of a web address. -/
  accepts : U → Bool
  /-- Whether a text can be sent in a header. -/
  isHeaderText : String → Bool

/-- A path without its last segment, if that is empty. The root, a lone slash, stays. -/
def withoutClosing (parts : List String) : List String :=
  if parts.getLast? = some "" ∧ parts ≠ [""] then parts.dropLast else parts

/-- A path that goes on with one more segment. It is the first one behind the root. -/
def extendedBy (parts : List String) (segment : String) : List String :=
  if parts = [""] then [segment] else parts ++ [segment]

/-- Whether a character has no meaning of its own in a segment, so that it need not be encoded. -/
def isPlain (c : Char) : Bool := c.isAlphanum || "-._~!$&'()*+,;=:@".toList.contains c

/-- A part of a web address behind its mark, if it is there. -/
def marked (mark : String) : Option String → String
  | some part => mark ++ part
  | none => ""

/-- The written form of a path. -/
def renderSegments (parts : List String) : String := String.join (parts.map ("/" ++ ·))

/-- The web address of a request is at the same place as this one. -/
structure SamePlace {U : Type} [WebAddress U] (u v : U) : Prop where
  scheme : WebAddress.scheme v = WebAddress.scheme u
  host : WebAddress.host? v = WebAddress.host? u
  port : WebAddress.port? v = WebAddress.port? u
  query : WebAddress.query? v = WebAddress.query? u
  fragment : WebAddress.fragment? v = WebAddress.fragment? u

/-- What the library of web addresses says of itself. -/
class LawfulWebAddress (U : Type) [WebAddress U] : Prop where
  /-- Web addresses of these schemes have an authority and a path of segments. -/
  parts_of_parse? {text : String} {u : U} (read : WebAddress.parse? text = some u)
    (web : WebAddress.scheme u = "http" ∨ WebAddress.scheme u = "https") :
    (∃ authority, WebAddress.authority? u = some authority) ∧
      ∃ parts, WebAddress.segments? u = some parts
  /-- The parts are written one after the other, each behind its mark. -/
  render_eq {u : U} {authority : String} {parts : List String}
    (place : WebAddress.authority? u = some authority)
    (path : WebAddress.segments? u = some parts) :
    WebAddress.render u = WebAddress.scheme u ++ "://" ++ authority ++ renderSegments parts ++
      marked "?" (WebAddress.query? u) ++ marked "#" (WebAddress.fragment? u)
  segments?_popIfEmpty {u : U} {parts : List String} (path : WebAddress.segments? u = some parts) :
    WebAddress.segments? (WebAddress.popIfEmpty u) = some (withoutClosing parts)
  /-- A segment is added as it is if nothing in it has to be encoded and it names no level. -/
  segments?_push {u : U} {parts : List String} {segment : String}
    (path : WebAddress.segments? u = some parts) (plain : ∀ c ∈ segment.toList, isPlain c = true)
    (own : segment ≠ ".") (upper : segment ≠ "..") :
    WebAddress.segments? (WebAddress.push u segment) = some (extendedBy parts segment)
  /-- Beside the path nothing changes. -/
  samePlace_popIfEmpty (u : U) : SamePlace u (WebAddress.popIfEmpty u)
  samePlace_push (u : U) (segment : String) : SamePlace u (WebAddress.push u segment)
  authority?_popIfEmpty (u : U) :
    WebAddress.authority? (WebAddress.popIfEmpty u) = WebAddress.authority? u
  authority?_push (u : U) (segment : String) :
    WebAddress.authority? (WebAddress.push u segment) = WebAddress.authority? u

/-- What the client says of itself: the user goes from the web address into a header, whatever the
path is, and beside it nothing changes. -/
class LawfulHttpClient (U : Type) [WebAddress U] [HttpClient U] : Prop where
  samePlace_withoutUser (u : U) : SamePlace u (HttpClient.withoutUser u)
  segments?_withoutUser (u : U) :
    WebAddress.segments? (HttpClient.withoutUser u) = WebAddress.segments? u
  authority?_withoutUser {u : U} {authority : String}
    (place : WebAddress.authority? u = some authority) :
    ∃ rest, WebAddress.authority? (HttpClient.withoutUser u) = some rest
  withoutUser_popIfEmpty (u : U) : HttpClient.withoutUser (WebAddress.popIfEmpty u) =
    WebAddress.popIfEmpty (HttpClient.withoutUser u)
  withoutUser_push (u : U) (segment : String) : HttpClient.withoutUser (WebAddress.push u segment) =
    WebAddress.push (HttpClient.withoutUser u) segment
  user?_popIfEmpty (u : U) : HttpClient.user? (WebAddress.popIfEmpty u) = HttpClient.user? u
  user?_push (u : U) (segment : String) :
    HttpClient.user? (WebAddress.push u segment) = HttpClient.user? u

end AccessLog.Net

import AccessLog.Http.Form
import AccessLog.Http.MediaType
import AccessLog.Http.Message
import AccessLog.Net.Percent
import AccessLog.Service.Answer

/-! # The service over HTTP

There are three resources: the state of the service, the place to upload batches to, and the results
of stored analyses. A request comes down to one action: a response that needs no service, a batch to
take in, or a result to look up. -/

namespace AccessLog.Http
open AccessLog.Log AccessLog.Net AccessLog.Service AccessLog.Stats AccessLog.Store AccessLog.Text

inductive Route where
  | health
  | analyze
  /-- The result of an analysis, by its identity as it stands in the path. -/
  | analysis (id : String)
  deriving DecidableEq, Repr

namespace Route

def ofPath? (path : String) : Option Route :=
  match (path.toList.splitOn '/').map String.ofList with
  | ["", "health"] => some health
  | ["", "api", "logs", "analyze"] => some analyze
  | ["", "api", "logs", "analysis", id] => if id.isEmpty then none else some (analysis id)
  | _ => none

/-- The methods of a resource. -/
def methods : Route → List String
  | health => ["GET", "HEAD"]
  | analyze => ["POST"]
  | analysis _ => ["GET", "HEAD"]

/-- The header that names the methods. -/
def allow (route : Route) : String × String := ("allow", ",".intercalate route.methods)

end Route

inductive Action where
  | respond (response : Response)
  | takeIn (batch : List UInt8)
  | lookUp (id topN : UInt64)

def ofFailure (f : Failure) : Response := .json f.status [] (Envelope.ofFailure f).toJson

def invalid (detail : String) : Action := .respond (ofFailure (.validation detail))

/-! ## Uploads -/

/-- The name of the part that holds the batch. -/
def batchPart : String := "file"

/-- The batch in an upload of at most `limit` bytes. -/
def upload (limit : UInt64) (r : Request) : Action :=
  match (r.header? "content-type").bind MediaType.formBoundary? with
  | none => .respond (.text 400 "Invalid `boundary` for `multipart/form-data` request")
  | some boundary =>
    match Form.search boundary batchPart limit.toNat r.body with
    | .found batch => .takeIn batch
    | .missing => invalid ("missing multipart part '" ++ batchPart ++ "'")
    | .unreadable fault => invalid ("invalid multipart body: " ++ fault.message)
    | .broken fault => .respond (ofFailure (.batchRead (.failed fault.message)))

/-! ## Results -/

/-- The identity that a segment of a path denotes. -/
def identity (segment : String) : Except String UInt64 :=
  match decode? (percentDecode (encode segment)) with
  | none => .error "Invalid URL: Invalid UTF-8 in `id`"
  | some text =>
    match unsigned? UInt64.size text.toList with
    | some n => .ok (UInt64.ofNat n)
    | none => .error ("Invalid URL: Cannot parse `" ++ text ++ "` to a `u64`")

def defaultTopN : Int := 10

/-- The length of rankings that a query asks for. A fault of the first value is reported before a
second value. -/
def topN (query : String) : Except String Int :=
  match Query.values "topN" query with
  | [] => .ok defaultTopN
  | value :: more =>
    match signed64? value.toList with
    | none => .error ("Failed to deserialize query string: topN: " ++
        (signedFault value.toList).message)
    | some n =>
      if more.isEmpty then .ok n
      else .error "Failed to deserialize query string: duplicate field `topN`"

/-- The result that a request asks for. A fault of the identity is reported before one of the
query. -/
def analysisAction (segment : String) (r : Request) : Action :=
  match identity segment, topN r.query with
  | .error fault, _ => invalid ("invalid analysis id: " ++ fault)
  | .ok _, .error fault => invalid ("invalid query: " ++ fault)
  | .ok id, .ok n =>
    if n < 1 then invalid s!"topN must be at least 1, got {n}"
    else .lookUp id (UInt64.ofNat n.toNat)

/-! ## Requests -/

/-- What a request to a resource comes down to, if the resource has its method. -/
def Route.action (limit : UInt64) (r : Request) : Route → Action
  | health => .respond (.json 200 [] Envelope.empty.toJson)
  | analyze => upload limit r
  | analysis id => analysisAction id r

/-- What a request comes down to. -/
def Request.action (limit : UInt64) (r : Request) : Action :=
  match Route.ofPath? r.path with
  | none => .respond (.empty 404 [])
  | some route =>
    if route.methods.contains r.method then route.action limit r
    else .respond (.empty 405 [route.allow])

/-- The response to a batch that was taken in. -/
def accepted (id : UInt64) (a : Analysis) : Response :=
  .json 202 [("location", s!"/api/logs/analysis/{id.toNat}")] (Envelope.success (summary id a)).toJson

def ofIngest : Except Failure Analysis → Response
  | .error f => ofFailure f
  | .ok a =>
    match a.id with
    | some id => accepted id a
    | none => ofFailure missingId

def ofResult : Except Failure AnalysisResult → Response
  | .error f => ofFailure f
  | .ok a => .json 200 [] (Envelope.success a.toResponse).toJson

/-- Every origin may use the service. -/
def anyOrigin : String × String := ("access-control-allow-origin", "*")

/-- The answer to the question of a browser what it may do at a path. Only a resource has methods to
name. -/
def permissions (path : String) : Response :=
  .empty 200 (anyOrigin :: ("access-control-allow-methods", "*") ::
    ("access-control-allow-headers", "*") :: ((Route.ofPath? path).map Route.allow).toList)

/-- The response as it is sent. -/
def finish (r : Request) (response : Response) : Response :=
  let response := if r.method == "HEAD" then response.withoutBody else response
  response.withHeaders [anyOrigin, ("access-control-expose-headers", "*")]

/-- The pieces that a batch is read in. -/
def readsOf (batch : List UInt8) : List Read := if batch.isEmpty then [] else [.bytes batch]

/-- Answer a request, where `state` is all there is, and `takeIn` and `lookUp` do the work. -/
def answer {σ : Type} (takeIn : List Read → Except Failure Analysis × σ)
    (lookUp : UInt64 → UInt64 → Except Failure AnalysisResult × σ) (state : σ) (limit : UInt64)
    (r : Request) : Response × σ :=
  if r.method == "OPTIONS" then (permissions r.path, state)
  else match r.action limit with
    | .respond response => (finish r response, state)
    | .takeIn batch =>
      let (taken, state) := takeIn (readsOf batch)
      (finish r (ofIngest taken), state)
    | .lookUp id topN =>
      let (found, state) := lookUp id topN
      (finish r (ofResult found), state)

/-- Answer a request to a service that takes uploads of at most `limit` bytes. -/
def handle {σ : Type} [AnalysisStore σ] (s : Service σ) (createdAt : Int64) (limit : UInt64)
    (r : Request) : Response × Service σ :=
  answer (s.ingest createdAt) s.result s limit r

end AccessLog.Http

import AccessLog.Http.Routes
import AccessLog.Service.Dialogue

/-! # Requests side by side

Requests arrive at any time, also while earlier ones are still worked on. A request has its response
at once, or it makes a call, whose reply becomes the response. How the batch of an upload is
delivered to its reader is given from outside, as that reader may break down. So is what becomes of
the store between the steps of calls, as a store may fail for a while: a look does not change it, but
between two looks its disk can fill up, or its table be gone and come back. -/

namespace AccessLog.Http
open AccessLog.Enrich AccessLog.Service AccessLog.Store
open AccessLog.Log (Read)

/-- What becomes of a request: a response that needs no service, or a call. -/
def Request.course (pieces : List UInt8 → List Read) (createdAt : Int64) (limit : UInt64)
    (r : Request) : Response ⊕ Call :=
  if r.method == "OPTIONS" then .inl (permissions r.path)
  else match r.action limit with
    | .respond response => .inl (finish r response)
    | .takeIn batch => .inr (.ingest createdAt (pieces batch))
    | .lookUp id topN => .inr (.result id topN)

/-- The response that a reply becomes. No request asks for infos alone. -/
def ofReply? : Reply → Option Response
  | .accepted saved => some (ofIngest (.ok saved))
  | .result r => some (ofResult (.ok r))
  | .failed f => some (ofFailure f)
  | .infos _ => none

/-- The response to a request whose call has this reply. -/
def Request.response? (r : Request) (reply : Reply) : Option Response :=
  (ofReply? reply).map (finish r)

/-- A request with its response, or with the number of its call. -/
structure Exchange where
  request : Request
  outcome : Response ⊕ Nat

/-- The service and the requests that have arrived. -/
structure Server (σ : Type) where
  dialogue : Dialogue σ
  exchanges : List Exchange

/-- A request arrives, something happens inside, or the store changes by itself. -/
inductive Incident (ω : Type) where
  | request (createdAt : Int64) (r : Request)
  | inside (e : Event)
  | outside (change : ω)

/-- What a client has got, or nothing while its call is under way. -/
def Exchange.response? {σ : Type} (d : Dialogue σ) (x : Exchange) : Option Response :=
  match x.outcome with
  | .inl response => some response
  | .inr number => (d.reply? number).bind x.request.response?

namespace Server
variable {σ : Type}

def start (store : σ) (cache : Cache) (eagerTopN : UInt64) : Server σ :=
  ⟨.start store cache eagerTopN, []⟩

/-- The responses to all requests so far, in the order in which the requests arrived. -/
def responses (s : Server σ) : List (Option Response) :=
  s.exchanges.map (Exchange.response? s.dialogue)

variable {ω : Type} [SharedStore σ] (pieces : List UInt8 → List Read) (limit : UInt64)
  (changed : ω → σ → σ)

def next (s : Server σ) : Incident ω → Server σ
  | .request createdAt r =>
    match r.course pieces createdAt limit with
    | .inl response => { s with exchanges := s.exchanges ++ [⟨r, .inl response⟩] }
    | .inr c =>
      ⟨s.dialogue.next (.call c), s.exchanges ++ [⟨r, .inr s.dialogue.sessions.length⟩]⟩
  | .inside e => { s with dialogue := s.dialogue.next e }
  | .outside change =>
    let service := s.dialogue.service
    { s with dialogue.service.store := changed change service.store }

def run (s : Server σ) (incidents : List (Incident ω)) : Server σ :=
  incidents.foldl (next pieces limit changed) s

end Server

end AccessLog.Http

import AccessLog.Service.Interleaving
import AccessLog.Store.Memory

/-! # Calls and their replies

Clients call a service whose store is in memory, and each call goes on until it has a reply. Saving
is two steps here, the choice of an identity and the insertion, and other calls may choose or insert
in between. A result is put together from the analysis that was found, once its ranked addresses
have been read. -/

namespace AccessLog.Service
open AccessLog.Enrich AccessLog.Stats AccessLog.Store

/-- What a call comes back with. -/
inductive Reply where
  | infos (infos : List (String × AddressInfo))
  | accepted (saved : Analysis)
  | result (r : AnalysisResult)
  | failed (f : Failure)

/-- What a call is going to reply once it has read or offered its addresses. -/
inductive Goal where
  | infos
  | accepted (saved : Analysis)
  | result (id topN : UInt64) (a : Analysis)

def Goal.reply (infos : List (String × AddressInfo)) : Goal → Reply
  | Goal.infos => .infos infos
  | Goal.accepted saved => .accepted saved
  | Goal.result id topN a => .result (AnalysisResult.of id a topN infos)

/-- Where a call stands between two of its steps. -/
inductive Stage where
  /-- A batch has been aggregated. -/
  | saving (a : Analysis)
  /-- The identity has been chosen, and nothing is inserted yet. -/
  | keeping (id : UInt64) (a : Analysis)
  | finding (id topN : UInt64)
  | working (goal : Goal) (t : Task)
  | done (reply : Reply)

namespace Stage

def ofCall : Call → Stage
  | .read address => .working .infos (.ofCall (.read address))
  | .readAll addresses => .working .infos (.ofCall (.readAll addresses))
  | .ingest createdAt reads =>
    match aggregate createdAt reads with
    | .error fault => .done (.failed (batchFailure fault))
    | .ok a => .saving a
  | .result id topN => .finding id topN

/-- What follows once an analysis has been inserted. -/
def afterKeep (eagerTopN : UInt64) (saved : Analysis) : Stage :=
  match saved.id with
  | none => .done (.failed missingId)
  | some _ => .working (.accepted saved) ⟨none, (rankedAddresses saved eagerTopN).map .offer, []⟩

/-- What follows once an analysis has been looked for. -/
def afterFind (id topN : UInt64) : Option Analysis → Stage
  | none => .done (.failed (.notFound id))
  | some a => .working (.result id topN a) ⟨none, (rankedAddresses a topN).map .read, []⟩

/-- The next step of a call; none once it has its reply. -/
def step? (s : Service MemoryStore) : Stage → Option (Stage × Service MemoryStore)
  | saving a =>
    let (id, a, store) := s.store.assign a
    some (.keeping id a, { s with store })
  | keeping id a => some (afterKeep s.eagerTopN a, { s with store := s.store.insert id a })
  | finding id topN => some (afterFind id topN (s.store.find id), s)
  | working goal t =>
    match t.step? s with
    | some (t, s) => some (.working goal t, s)
    | none => some (.done (goal.reply t.infos), s)
  | done _ => none

/-- The identity that an ingest has been given. -/
def id? : Stage → Option UInt64
  | saving _ => none
  | keeping id _ => some id
  | finding _ _ => none
  | working goal _ =>
    match goal with
    | .accepted saved => saved.id
    | _ => none
  | done reply =>
    match reply with
    | .accepted saved => saved.id
    | _ => none

end Stage

/-- A call and where it stands. -/
structure Session where
  call : Call
  stage : Stage

/-- The service, its worker, and the calls that have been made. -/
structure Traffic where
  service : Service MemoryStore
  worker : Worker
  sessions : List Session

namespace Traffic

/-- A service with nothing stored, this cache, an empty queue, and a worker about to start. -/
def start (cache : Cache) (eagerTopN : UInt64) : Traffic :=
  ⟨⟨.empty, .start cache, eagerTopN⟩, .start, []⟩

def next (s : Traffic) : Event → Traffic
  | .call c => { s with sessions := s.sessions ++ [⟨c, .ofCall c⟩] }
  | .task number =>
    match s.sessions[number]? with
    | none => s
    | some x =>
      match x.stage.step? s.service with
      | none => s
      | some (stage, service) =>
        { s with service, sessions := s.sessions.set number { x with stage } }
  | .worker =>
    match s.worker.step? s.service.pipeline with
    | none => s
    | some (worker, pipeline) => { s with worker, service := { s.service with pipeline } }
  | .settle result => { s with worker := s.worker.deliver result }
  | .stop => { s with worker := s.worker.tellToStop }
  | .forget address =>
    let cache := s.service.pipeline.cache.forget address
    { s with service := { s.service with pipeline := { s.service.pipeline with cache } } }

/-- Let the events of a schedule happen in turn. -/
def run (s : Traffic) (events : List Event) : Traffic := events.foldl next s

/-- The identity that an event draws from the store, with the number of the call that draws it. -/
def draw? (s : Traffic) : Event → Option (Nat × UInt64)
  | .task number =>
    match s.sessions[number]? with
    | some ⟨_, .saving a⟩ => if a.id.isNone then some (number, s.service.store.draw.1) else none
    | _ => none
  | _ => none

/-- The identities drawn in the course of a schedule, in order. -/
def draws (s : Traffic) : List Event → List (Nat × UInt64)
  | [] => []
  | e :: rest => (s.draw? e).toList ++ draws (s.next e) rest

end Traffic

end AccessLog.Service

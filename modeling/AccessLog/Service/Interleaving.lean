import AccessLog.Enrich.Worker
import AccessLog.Service.Ingest

/-! # Calls and the worker side by side

Clients call the service at the same time, and the worker runs beside them. What they share they
touch in single steps: a look into the cache, making an address pending, queueing it, taking it off
the queue, caching it, completing it, and each access to the store. A call is a task that stands
between two of its steps; between these anything else may happen. A schedule is the order in which
the steps are made, and every list of events is one: an event that cannot happen changes nothing. -/

namespace AccessLog.Service
open AccessLog.Enrich AccessLog.Log AccessLog.Stats AccessLog.Store

/-- What a client may call. -/
inductive Call where
  | read (address : String)
  | readAll (addresses : List String)
  | ingest (createdAt : Int64) (reads : List Read)
  | result (id topN : UInt64)

/-- Something that a task has still to do. -/
inductive Action where
  | save (a : Analysis)
  | find (id topN : UInt64)
  | read (address : String)
  | offer (address : String)

/-- A call under way. -/
structure Task where
  /-- The address that has been made pending and waits to be queued. -/
  claimed : Option String
  ahead : List Action
  /-- What has been read so far. -/
  infos : List (String × AddressInfo)

namespace Task

def ofCall : Call → Task
  | .read address => ⟨none, [.read address], []⟩
  | .readAll addresses => ⟨none, addresses.map .read, []⟩
  | .ingest createdAt reads =>
    match aggregate createdAt reads with
    | .error _ => ⟨none, [], []⟩
    | .ok a => ⟨none, [.save a], []⟩
  | .result id topN => ⟨none, [.find id topN], []⟩

/-- Do these actions first. -/
def first (t : Task) (actions : List Action) : Task := { t with ahead := actions ++ t.ahead }

def learn (t : Task) (address : String) (info : AddressInfo) : Task :=
  { t with infos := t.infos ++ [(address, info)] }

variable {σ : Type}

/-- Look an address up in the cache; a miss is offered for a lookup next. Nothing is read twice. -/
def read (t : Task) (s : Service σ) (address : String) : Task × Service σ :=
  if t.infos.any (·.1 = address) then (t, s)
  else
    match s.pipeline.cache.get address with
    | (some info, cache) =>
      (t.learn address info, { s with pipeline := { s.pipeline with cache } })
    | (none, cache) =>
      ((t.learn address (.unknown address)).first [.offer address],
        { s with pipeline := { s.pipeline with cache } })

/-- Make an address pending, unless it is; it is queued next. -/
def offer (t : Task) (s : Service σ) (address : String) : Task × Service σ :=
  match s.pipeline.queue.claim? address with
  | some queue =>
    ({ t with claimed := some address }, { s with pipeline := { s.pipeline with queue } })
  | none => (t, s)

/-- What follows once an analysis has been stored. -/
def afterSave (eagerTopN : UInt64) : Except StoreError Analysis → List Action
  | .error _ => []
  | .ok saved =>
    match saved.id with
    | none => []
    | some _ => (rankedAddresses saved eagerTopN).map .offer

/-- What follows once an analysis has been looked for. -/
def afterFind (topN : UInt64) : Except StoreError (Option Analysis) → List Action
  | .ok (some a) => (rankedAddresses a topN).map .read
  | _ => []

variable [AnalysisStore σ]

def perform (t : Task) (s : Service σ) : Action → Task × Service σ
  | .save a =>
    let (answer, store) := AnalysisStore.save s.store a
    (t.first (afterSave s.eagerTopN answer), { s with store })
  | .find id topN => (t.first (afterFind topN (AnalysisStore.find s.store id)), s)
  | .read address => t.read s address
  | .offer address => t.offer s address

/-- The next step of a task; none once it has done everything. -/
def step? (t : Task) (s : Service σ) : Option (Task × Service σ) :=
  match t.claimed with
  | some address =>
    some ({ t with claimed := none },
      { s with pipeline := { s.pipeline with queue := s.pipeline.queue.push address } })
  | none =>
    match t.ahead with
    | [] => none
    | action :: ahead => some (({ t with ahead } : Task).perform s action)

end Task

/-- The service, its worker, and the calls that have been made. -/
structure System (σ : Type) where
  service : Service σ
  worker : Worker
  tasks : List Task

inductive Event where
  /-- A client makes a call. -/
  | call (c : Call)
  /-- The call of a number makes its next step. -/
  | task (number : Nat)
  /-- The worker makes its next step. -/
  | worker
  /-- The lookup under way ends. -/
  | settle (result : BackoffPolicy.Resolution)
  /-- The worker is told to stop. -/
  | stop
  /-- The entry of an address leaves the cache. -/
  | forget (address : String)

namespace System
variable {σ : Type}

/-- A service with this store and cache, an empty queue, and a worker that is about to start. -/
def start (store : σ) (cache : Cache) (eagerTopN : UInt64) : System σ :=
  ⟨⟨store, .start cache, eagerTopN⟩, .start, []⟩

def queue (s : System σ) : WorkQueue String := s.service.pipeline.queue

def cache (s : System σ) : Cache := s.service.pipeline.cache

/-- The addresses that calls have made pending and not queued yet. -/
def claimed (s : System σ) : List String := s.tasks.filterMap Task.claimed

variable [AnalysisStore σ]

def next (s : System σ) : Event → System σ
  | .call c => { s with tasks := s.tasks ++ [.ofCall c] }
  | .task number =>
    match (s.tasks[number]?).bind (·.step? s.service) with
    | none => s
    | some (t, service) => { s with service, tasks := s.tasks.set number t }
  | .worker =>
    match s.worker.step? s.service.pipeline with
    | none => s
    | some (worker, pipeline) => { s with worker, service := { s.service with pipeline } }
  | .settle result => { s with worker := s.worker.deliver result }
  | .stop => { s with worker := s.worker.tellToStop }
  | .forget address =>
    let cache := s.service.pipeline.cache.forget address
    { s with service := { s.service with pipeline := { s.service.pipeline with cache } } }

/-- Let the events of a schedule happen in turn. -/
def run (s : System σ) (events : List Event) : System σ := events.foldl next s

end System

end AccessLog.Service

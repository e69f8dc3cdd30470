import AccessLog.Service.Sessions
import AccessLog.Store.Shared

/-! # Calls upon any store

Clients call a service at the same time, whatever its store is. Each access to the store is a step
of its own, and so are those to the cache and to the queue; the store says itself in how many steps
it saves. -/

namespace AccessLog.Service
open AccessLog.Enrich AccessLog.Stats AccessLog.Store

namespace Stage
variable {σ : Type} [SharedStore σ]

/-- What follows once a save has been answered. -/
def afterSave (eagerTopN : UInt64) : Except StoreError Analysis → Stage
  | .error e => .done (.failed (.storage e))
  | .ok saved => afterKeep eagerTopN saved

/-- What follows the first step of a save. -/
def afterBegin (eagerTopN : UInt64) : Except StoreError Analysis ⊕ UInt64 × Analysis → Stage
  | .inl answer => afterSave eagerTopN answer
  | .inr (id, a) => .keeping id a

/-- What follows once a query has been answered. -/
def afterQuery (id topN : UInt64) : Except StoreError (Option Analysis) → Stage
  | .error e => .done (.failed (.storage e))
  | .ok found => afterFind id topN found

/-- The next access of a call to the store; none once the store has told it everything. -/
def consult? (eagerTopN : UInt64) (store : σ) : Stage → Option (Stage × σ)
  | saving a =>
    let (begun, store) := SharedStore.begin store a
    some (afterBegin eagerTopN begun, store)
  | keeping id a =>
    let (answer, store) := SharedStore.finish store id a
    some (afterSave eagerTopN answer, store)
  | finding id topN => some (afterQuery id topN (AnalysisStore.find store id), store)
  | working _ _ => none
  | done _ => none

/-- The next step of a call; none once it has its reply. -/
def proceed? (s : Service σ) : Stage → Option (Stage × Service σ)
  | working goal t =>
    match t.step? s with
    | some (t, s) => some (.working goal t, s)
    | none => some (.done (goal.reply t.infos), s)
  | stage =>
    (stage.consult? s.eagerTopN s.store).map fun (stage, store) => (stage, { s with store })

/-- With the store in memory these are the steps of its traffic. -/
theorem proceed?_memory (s : Service MemoryStore) (stage : Stage) :
    stage.proceed? s = stage.step? s := by
  cases stage with
  | saving a | keeping id a | finding id topN | done reply => rfl
  | working goal t =>
    simp only [proceed?, step?]
    cases t.step? s <;> rfl

end Stage

/-- The reply of a call that is over. -/
def Session.reply? (x : Session) : Option Reply :=
  match x.stage with
  | .done reply => some reply
  | _ => none

/-- The service, its worker, and the calls that have been made. -/
structure Dialogue (σ : Type) where
  service : Service σ
  worker : Worker
  sessions : List Session

namespace Dialogue
variable {σ : Type}

/-- A service with this store and cache, an empty queue, and a worker that is about to start. -/
def start (store : σ) (cache : Cache) (eagerTopN : UInt64) : Dialogue σ :=
  ⟨⟨store, .start cache, eagerTopN⟩, .start, []⟩

def cache (s : Dialogue σ) : Cache := s.service.pipeline.cache

/-- What the call of a number has come back with. -/
def reply? (s : Dialogue σ) (number : Nat) : Option Reply :=
  s.sessions[number]?.bind Session.reply?

variable [SharedStore σ]

def next (s : Dialogue σ) : Event → Dialogue σ
  | .call c => { s with sessions := s.sessions ++ [⟨c, .ofCall c⟩] }
  | .task number =>
    match s.sessions[number]? with
    | none => s
    | some x =>
      match x.stage.proceed? s.service with
      | none => s
      | some (stage, service) =>
        { s with service, sessions := s.sessions.set number { x with stage } }
  | .worker =>
    match s.worker.step? s.service.pipeline with
    | none => s
    | some (worker, pipeline) => { s with worker, service := { s.service with pipeline } }
  | .settle result => { s with worker := s.worker.deliver result }
  | .stop => { s with worker := s.worker.tellToStop }
  | .forget address =>
    let cache := s.service.pipeline.cache.forget address
    { s with service := { s.service with pipeline := { s.service.pipeline with cache } } }

/-- Let the events of a schedule happen in turn. -/
def run (s : Dialogue σ) (events : List Event) : Dialogue σ := events.foldl next s

end Dialogue

/-! ## Lookups

Under a policy the worker makes one or more calls to look an address up, and it is the outcomes of
these calls that are given from outside. -/

def Event.isSettle : Event → Bool
  | settle _ => true
  | call _ | task _ | worker | stop | forget _ => false

/-- What happens next: anything but the end of a lookup, or the whole lookup under way, the call of
index `i` ending as `outcomes i`. -/
inductive Turn where
  | event (e : Event) (h : e.isSettle = false)
  | lookup (outcomes : Nat → Outcome)

namespace Dialogue
variable {σ : Type}

/-- The address of which a lookup is under way. -/
def resolving? (s : Dialogue σ) : Option String :=
  match s.worker.phase with
  | .resolving address => some address
  | _ => none

/-- The calls that are made at a turn, each with its address and its outcome. -/
def asked (p : BackoffPolicy) (s : Dialogue σ) : Turn → List (String × Outcome)
  | .event _ _ => []
  | .lookup outcomes =>
    match s.resolving? with
    | none => []
    | some address =>
      (List.range (p.trace address outcomes).calls).map fun i => (address, outcomes i)

variable [SharedStore σ]

def turn (p : BackoffPolicy) (s : Dialogue σ) : Turn → Dialogue σ
  | .event e _ => s.next e
  | .lookup outcomes =>
    match s.resolving? with
    | none => s
    | some address => s.next (.settle (p.trace address outcomes).result)

def play (p : BackoffPolicy) (s : Dialogue σ) (turns : List Turn) : Dialogue σ :=
  turns.foldl (turn p) s

/-- All the calls that are made in the course of some turns. -/
def calls (p : BackoffPolicy) (s : Dialogue σ) : List Turn → List (String × Outcome)
  | [] => []
  | t :: rest => s.asked p t ++ calls p (s.turn p t) rest

/-- A client looks, after each of these stretches of turns, whether an address is still pending,
until none is or its time is up. The turns that have passed when it sees that none is. -/
def await? (p : BackoffPolicy) (s : Dialogue σ) : List (List Turn) → Option (List Turn)
  | [] => none
  | stretch :: rest =>
    let s := s.play p stretch
    if s.service.pipeline.queue.pendingCount = 0 then some stretch
    else (await? p s rest).map (stretch ++ ·)

end Dialogue

/-! ## The store in memory -/

/-- The traffic of a store in memory, as that of any store. -/
def Traffic.dialogue (s : Traffic) : Dialogue MemoryStore := ⟨s.service, s.worker, s.sessions⟩

theorem Traffic.dialogue_next (s : Traffic) (e : Event) :
    s.dialogue.next e = (s.next e).dialogue := by
  cases e with
  | call | settle | stop | forget => rfl
  | worker =>
    cases hstep : s.worker.step? s.service.pipeline <;>
      simp only [Dialogue.next, next, dialogue, hstep]
  | task number =>
    cases hx : s.sessions[number]? with
    | none => simp only [Dialogue.next, next, dialogue, hx]
    | some x =>
      cases hstep : x.stage.step? s.service <;>
        simp only [Dialogue.next, next, dialogue, hx, Stage.proceed?_memory, hstep]

end AccessLog.Service

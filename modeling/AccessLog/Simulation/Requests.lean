import AccessLog.Http.Routes
import AccessLog.Service.Backends
import AccessLog.Simulation.Run

/-! # A running service

The caller of a run starts and stops its workers, waits for what is pending, takes batches in and
asks for results. A run that begins with the settings has its worker from the start; requests over
HTTP are answered in it one after the other. -/

namespace AccessLog.Simulation.Run
open AccessLog.Enrich AccessLog.Log AccessLog.Service AccessLog.Stats AccessLog.Store
variable {σ : Type}

/-- Tell the worker to stop, and do not wait for it. -/
def dropHandle (r : Run σ) : Run σ :=
  match r.handle with
  | none => r
  | some number =>
    { r with workers := r.workers.modify number Worker.tellToStop, handle := none }.wakeWorkers

/-- Start a worker; the handle of an earlier one is dropped. -/
def spawn (r : Run σ) : Run σ :=
  let r := r.dropHandle
  let number := r.workers.length
  { r with workers := r.workers ++ [Worker.start], handle := some number }.wakeTask
    (.worker number)

/-- Tell the worker to stop, and wait until it has. -/
def shutdown (r : Run σ) : Run σ :=
  match r.handle with
  | none => r
  | some number =>
    r.dropHandle.await fun r => r.workers[number]?.all fun w => w.phase == .stopped

/-- Wait until no address is pending, but not longer than `ms` milliseconds, and say whether it
has come to that. The caller looks at once, and then every ten milliseconds. -/
def settleFor (r : Run σ) (ms : Nat) : Nat → Bool × Run σ
  | 0 => (false, r)
  | fuel + 1 =>
    if r.pipeline.queue.pendingCount = 0 then (true, r)
    else if ms < 10 then (false, r.sleep ms)
    else
      let r := r.sleep 10
      if ms = 10 then (r.pipeline.queue.pendingCount == 0, r) else settleFor r (ms - 10) fuel

def settle (r : Run σ) (ms : Nat) : Bool × Run σ := r.settleFor ms (ms / 10 + 1)

/-- Take a batch in. Aggregating it lets the tasks that can run at this moment do so. -/
def ingest [AnalysisStore σ] (r : Run σ) (createdAt : Int64) (reads : List Read) :
    Except Failure Analysis × Run σ :=
  let r := r.drain
  let (answer, service) := r.service.ingest createdAt reads
  (answer, { r with service }.wakeWorkers)

def result [AnalysisStore σ] (r : Run σ) (id topN : UInt64) :
    Except Failure AnalysisResult × Run σ :=
  let (answer, service) := r.service.result id topN
  (answer, { r with service }.wakeWorkers)

/-- The lookups made since the last report, in order. -/
def takeCalls (r : Run σ) : List (String × Nat) × Run σ := (r.calls.reverse, { r with calls := [] })

/-- Start the service that the settings describe, with its worker. -/
def ofSettings (store : σ) (script : Script) (s : Settings) : Run σ :=
  (start (Service.ofSettings store s) script s.retry.policy).spawn

/-- Answer a request. -/
def request [AnalysisStore σ] (r : Run σ) (createdAt : Int64) (limit : UInt64)
    (request : Http.Request) : Http.Response × Run σ :=
  Http.answer (r.ingest createdAt) r.result r limit request

end AccessLog.Simulation.Run

import AccessLog.Enrich.Worker
import AccessLog.Service.Ingest
import AccessLog.Simulation.Script

/-! # Runs in virtual time

A caller works with the service step by step. Workers and lookups are tasks of their own; they run
in turn whenever the caller waits. Time, in milliseconds, stands still while anything can run, and
then jumps to the next moment for which somebody waits. The caller goes on before the tasks that
wait for the same moment, and these go on in the order in which they began to wait. -/

namespace AccessLog.Simulation
open AccessLog.Enrich AccessLog.Service

/-- How far a lookup is. -/
inductive Stage where
  /-- About to make its next attempt. -/
  | ready
  /-- The attempt has been made; its outcome comes at the given moment. -/
  | calling (outcome : Outcome) (due : Nat)
  /-- The next attempt is made at the given moment. -/
  | backingOff (due : Nat)
  | ended (result : BackoffPolicy.Resolution)
  deriving DecidableEq

/-- A lookup of an address, started by a worker or by the caller. -/
structure Job where
  address : String
  attempt : Nat
  stage : Stage
  worker : Option Nat
  deriving DecidableEq

inductive Task where
  | worker (number : Nat)
  | lookup (number : Nat)
  deriving DecidableEq, Repr

structure Run (σ : Type) where
  now : Nat
  service : Service σ
  script : Script
  policy : BackoffPolicy
  workers : List Worker
  /-- The worker that the caller can still tell to stop. -/
  handle : Option Nat
  jobs : List Job
  /-- The lookups that wait for a moment, in the order in which they began to. -/
  waits : List Nat
  /-- The tasks that can run, in turn. -/
  ready : List Task
  /-- The lookups that were made and have not been reported yet, the last first. -/
  calls : List (String × Nat)

namespace Run
variable {σ : Type}

def start (service : Service σ) (script : Script) (policy : BackoffPolicy) : Run σ :=
  { now := 0, service, script, policy, workers := [], handle := none, jobs := [], waits := [],
    ready := [], calls := [] }

def pipeline (r : Run σ) : Pipeline := r.service.pipeline

def setPipeline (r : Run σ) (pipeline : Pipeline) : Run σ :=
  { r with service := { r.service with pipeline } }

/-- Let a task run when its turn comes. -/
def wakeTask (r : Run σ) (t : Task) : Run σ :=
  if r.ready.contains t then r else { r with ready := r.ready ++ [t] }

/-- Whether a worker that waits has something to wake up for. -/
def hasCall (p : Pipeline) (w : Worker) : Bool :=
  match w.phase with
  | .waiting ticket => w.stopping || p.queue.isNotified ticket
  | _ => false

/-- Wake the workers whose wait is over. -/
def wakeWorkers (r : Run σ) : Run σ :=
  (r.workers.zipIdx.filter fun (w, _) => hasCall r.pipeline w).foldl
    (fun r (_, n) => r.wakeTask (.worker n)) r

/-- Change the pipeline on behalf of the caller. -/
def withPipeline {α : Type} (r : Run σ) (f : Pipeline → α × Pipeline) : α × Run σ :=
  let (a, pipeline) := f r.pipeline
  (a, (r.setPipeline pipeline).wakeWorkers)

/-- Start a lookup. -/
def addJob (r : Run σ) (address : String) (worker : Option Nat) : Run σ :=
  let job : Job := { address, attempt := 0, stage := .ready, worker }
  ({ r with jobs := r.jobs ++ [job] } : Run σ).wakeTask (.lookup r.jobs.length)

/-- Let a worker go on until it has to wait. -/
def runWorker (number : Nat) (w : Worker) (r : Run σ) : Nat → Run σ
  | 0 => r
  | fuel + 1 =>
    match w.step? r.pipeline with
    | none => { r with workers := r.workers.set number w }
    | some (w, pipeline) =>
      let r := r.setPipeline pipeline
      match w.phase with
      | .resolving address =>
        { r with workers := r.workers.set number w }.addJob address (some number)
      | _ => runWorker number w r fuel

/-- The longest wait, of thirty years. -/
def longestWait : Nat := 30 * 365 * 86400 * 1000

/-- The moment at which a wait of `ms` milliseconds ends that begins now. -/
def dueAfter (r : Run σ) (ms : Nat) : Nat := r.now + min ms longestWait

/-- Let a lookup go on with attempt `attempt` until it has to wait. -/
def runAttempts (job : Job) (r : Run σ) (attempt : Nat) : Nat → Job × Run σ
  | 0 => (job, r)
  | fuel + 1 =>
    let (reply, script) := r.script.call job.address
    let r := { r with script, calls := (job.address, r.now) :: r.calls }
    if reply.delay = 0 then
      match r.policy.next job.address attempt reply.outcome with
      | .finished info => ({ job with stage := .ended (.resolved info) }, r)
      | .crashed message => ({ job with stage := .ended (.crashed message) }, r)
      | .retryAfter wait =>
        if wait.millisUp = 0 then runAttempts job r (attempt + 1) fuel
        else
          ({ job with attempt := attempt + 1, stage := .backingOff (r.dueAfter wait.millisUp) }, r)
    else ({ job with attempt, stage := .calling reply.outcome (r.dueAfter reply.delay) }, r)

/-- The attempts that a lookup can still make. -/
def attemptsLeft (r : Run σ) (job : Job) : Nat := r.policy.attempts - job.attempt

/-- Let a lookup go on until it has to wait, or to its end. -/
def runJob (job : Job) (r : Run σ) : Job × Run σ :=
  match job.stage with
  | .ready => runAttempts job r job.attempt (r.attemptsLeft job)
  | .backingOff _ => runAttempts job r job.attempt (r.attemptsLeft job)
  | .calling outcome _ =>
    match r.policy.next job.address job.attempt outcome with
    | .finished info => ({ job with stage := .ended (.resolved info) }, r)
    | .crashed message => ({ job with stage := .ended (.crashed message) }, r)
    | .retryAfter wait =>
      if wait.millisUp = 0 then
        runAttempts job r (job.attempt + 1) (r.attemptsLeft job)
      else
        ({ job with attempt := job.attempt + 1, stage := .backingOff (r.dueAfter wait.millisUp) }, r)
  | .ended _ => (job, r)

/-- Hand the end of a lookup to the worker that waits for it. -/
def report (job : Job) (r : Run σ) : Run σ :=
  match job.stage, job.worker with
  | .ended result, some number =>
    { r with workers := r.workers.modify number fun w => w.deliver result }.wakeTask
      (.worker number)
  | _, _ => r

/-- Items and tasks that can still keep a run busy at one moment. -/
def load (r : Run σ) : Nat :=
  r.pipeline.queue.size + r.ready.length + r.workers.length + r.jobs.length

/-- The moment for which a lookup waits. -/
def Stage.due? : Stage → Option Nat
  | .calling _ due => some due
  | .backingOff due => some due
  | _ => none

/-- Take down how far a lookup has come. If it waits, it does so behind those that wait already. -/
def keepJob (r : Run σ) (number : Nat) (job : Job) : Run σ :=
  let others := r.waits.filter (· != number)
  { r with
    jobs := r.jobs.set number job
    waits := if (Stage.due? job.stage).isSome then others ++ [number] else others }

def runTask (t : Task) (r : Run σ) : Run σ :=
  let r := match t with
    | .worker number =>
      match r.workers[number]? with
      | some w => runWorker number w r (4 * r.load + 8)
      | none => r
    | .lookup number =>
      match r.jobs[number]? with
      | some job =>
        let (job, r) := runJob job r
        report job (r.keepJob number job)
      | none => r
  r.wakeWorkers

/-- Let tasks run that can, each in its turn, at most so many. -/
def drainFor (r : Run σ) : Nat → Run σ
  | 0 => r
  | fuel + 1 =>
    match r.ready with
    | [] => r
    | t :: ready => drainFor (runTask t { r with ready }) fuel

/-- Let everything run that can. -/
def drain (r : Run σ) : Run σ := r.drainFor (4 * r.load + 8)

/-- How many tasks run before the caller gets a turn. -/
def tasksPerTurn : Nat := 61

/-- Let everything run that can, unless the caller finds at one of its turns that `done` holds. -/
def drainUntil (done : Run σ → Bool) (r : Run σ) : Nat → Run σ
  | 0 => r
  | fuel + 1 =>
    if r.ready.isEmpty then r
    else
      let r := r.drainFor tasksPerTurn
      if done r then r else drainUntil done r fuel

/-- The moment for which the lookup of a number waits. -/
def dueOf? (r : Run σ) (number : Nat) : Option Nat :=
  (r.jobs[number]?).bind fun job => Stage.due? job.stage

/-- The next moment for which somebody waits. -/
def nextDue? (r : Run σ) : Option Nat := (r.waits.filterMap r.dueOf?).min?

/-- Set the time, and wake those that waited for it. -/
def setTime (r : Run σ) (now : Nat) : Run σ :=
  (r.waits.filter fun n => (r.dueOf? n).any (· ≤ now)).foldl
    (fun r n => r.wakeTask (.lookup n)) { r with now }

/-- Let time go on, to the moment `target` at most, until `done` holds or nobody waits for
anything. -/
def runUntil (done : Run σ → Bool) (target : Option Nat) (r : Run σ) : Nat → Run σ
  | 0 => r
  | fuel + 1 =>
    let r := r.drainUntil done (4 * r.load + 8)
    if done r then r
    else
      let next := match r.nextDue?, target with
        | some due, some target => some (min due target)
        | some due, none => some due
        | none, target => target
      match next with
      | none => r
      | some next =>
        let r := r.setTime next
        if target = some next then r else runUntil done target r fuel

/-- More waits than lookups of everything there is can take. -/
def patience (r : Run σ) : Nat := (2 * r.policy.attempts + 2) * (r.load + 2)

/-- The caller waits for `ms` milliseconds. -/
def sleep (r : Run σ) (ms : Nat) : Run σ :=
  if ms = 0 then r else r.runUntil (fun _ => false) (some (r.dueAfter ms)) r.patience

/-- The caller waits until `done` holds. -/
def await (r : Run σ) (done : Run σ → Bool) : Run σ := r.runUntil done none r.patience

/-- The result of a lookup that has ended. -/
def ended? (r : Run σ) (number : Nat) : Option BackoffPolicy.Resolution :=
  match r.jobs[number]? with
  | some ⟨_, _, .ended result, _⟩ => some result
  | _ => none

/-- The caller looks an address up and waits for the end of it. -/
def resolve (r : Run σ) (address : String) : Option BackoffPolicy.Resolution × Run σ :=
  let number := r.jobs.length
  let r := (r.addJob address none).await fun r => (r.ended? number).isSome
  (r.ended? number, r)

/-- The caller processes an address as a worker would. -/
def process (r : Run σ) (address : String) : Run σ :=
  let (known, r) := r.withPipeline (Pipeline.check · address)
  let r :=
    if known then r
    else
      match r.resolve address with
      | (some result, r) => r.setPipeline (r.pipeline.record address (result.settled address))
      | (none, r) => r
  (r.withPipeline fun p => ((), p.release address)).2

end Run

end AccessLog.Simulation

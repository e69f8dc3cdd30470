import AccessLog.Proofs.Retries
import AccessLog.Simulation.Run

/-! # Lookups in virtual time

A caller who looks an address up in a run without workers gets what the trace of the policy tells.
The calls are made as often and with the waits between them that the trace has; the clock of the run
shows each wait rounded up to milliseconds, behind the delay of the reply before it. -/

namespace AccessLog.Simulation
open AccessLog.Enrich AccessLog.Time

/-! ## The replies of a script -/

namespace Script

/-- What is left of the script after so many lookups of an address. -/
def afterCalls (s : Script) (address : String) : Nat → Script
  | 0 => s
  | count + 1 => ((s.afterCalls address count).call address).2

/-- The reply to the lookup of an address with the given index, counted from zero. -/
def replyTo (s : Script) (address : String) (index : Nat) : Reply :=
  ((s.afterCalls address index).call address).1

end Script

namespace Run
variable {σ : Type} {r : Run σ} {number fuel : Nat} {job : Job}

/-! ## What a lookup does -/

/-- What a lookup does when the outcome of the attempt with the given index has come. -/
def conclude (job : Job) (r : Run σ) (index : Nat) (outcome : Outcome) (fuel : Nat) :
    Job × Run σ :=
  match r.policy.next job.address index outcome with
  | .finished info => ({ job with stage := .ended (.resolved info) }, r)
  | .crashed message => ({ job with stage := .ended (.crashed message) }, r)
  | .retryAfter wait =>
    if wait.millisUp = 0 then runAttempts job r (index + 1) fuel
    else
      ({ job with attempt := index + 1, stage := .backingOff (r.dueAfter wait.millisUp) }, r)

theorem runAttempts_succ (job : Job) (r : Run σ) (index fuel : Nat) :
    runAttempts job r index (fuel + 1) =
      let reply := (r.script.call job.address).1
      let r : Run σ :=
        { r with
          script := (r.script.call job.address).2
          calls := (job.address, r.now) :: r.calls }
      if reply.delay = 0 then conclude job r index reply.outcome fuel
      else
        ({ job with attempt := index, stage := .calling reply.outcome (r.dueAfter reply.delay) },
          r) :=
  rfl

theorem runJob_calling (job : Job) (r : Run σ) {outcome : Outcome} {due : Nat}
    (h : job.stage = .calling outcome due) :
    runJob job r = conclude job r job.attempt outcome (r.attemptsLeft job) := by
  rw [runJob, h]
  rfl

/-- Only the script and the calls differ, and how far the lookup is. -/
def Advances (job : Job) (r : Run σ) (pair : Job × Run σ) : Prop :=
  ∃ attempt stage script calls, pair = ({ job with attempt, stage }, { r with script, calls })

theorem advances_conclude {index : Nat} (outcome : Outcome)
    (hlater : Advances job r (runAttempts job r (index + 1) fuel)) :
    Advances job r (conclude job r index outcome fuel) := by
  unfold conclude
  split
  · exact ⟨_, _, _, _, rfl⟩
  · exact ⟨_, _, _, _, rfl⟩
  · split
    · exact hlater
    · exact ⟨_, _, _, _, rfl⟩

theorem advances_runAttempts (job : Job) (r : Run σ) (index fuel : Nat) :
    Advances job r (runAttempts job r index fuel) := by
  induction fuel generalizing r index with
  | zero => exact ⟨_, _, _, _, rfl⟩
  | succ fuel ih =>
    rw [runAttempts_succ]
    dsimp only
    split
    · obtain ⟨attempt, stage, script, calls, heq⟩ := advances_conclude _ (ih _ _)
      exact ⟨attempt, stage, script, calls, heq⟩
    · exact ⟨_, _, _, _, rfl⟩

theorem advances_runJob (job : Job) (r : Run σ) : Advances job r (runJob job r) := by
  cases hstage : job.stage with
  | ready | backingOff =>
    rw [runJob, hstage]
    exact advances_runAttempts ..
  | calling =>
    rw [runJob_calling job r hstage]
    exact advances_conclude _ (advances_runAttempts ..)
  | ended =>
    rw [runJob, hstage]
    exact ⟨_, _, _, _, rfl⟩

/-! ## A run with one lookup -/

/-- Nobody but the lookup of the given number waits, nothing can run, and there is no worker. -/
structure Sole (r : Run σ) (number : Nat) : Prop where
  workers : r.workers = []
  ready : r.ready = []
  waits : ∀ n ∈ r.waits, n = number
  known : number < r.jobs.length

theorem Sole.runJob (h : r.Sole number) (job : Job) : (runJob job r).2.Sole number := by
  obtain ⟨attempt, stage, script, calls, heq⟩ := advances_runJob job r
  rw [heq]
  exact ⟨h.workers, h.ready, h.waits, h.known⟩

theorem Sole.keepJob (h : r.Sole number) (job : Job) : (r.keepJob number job).Sole number := by
  refine ⟨h.workers, h.ready, ?_, ?_⟩
  · intro n hn
    simp only [Run.keepJob] at hn
    split at hn
    · rcases List.mem_append.1 hn with hn | hn
      · exact h.waits n (List.mem_of_mem_filter hn)
      · exact List.mem_singleton.1 hn
    · exact h.waits n (List.mem_of_mem_filter hn)
  · show number < (r.jobs.set number job).length
    rw [List.length_set]
    exact h.known

/-- So the run stays when the clock has gone on. -/
theorem Sole.later (h : r.Sole number) (job : Job) (due : Nat) :
    ({ r.keepJob number job with now := due } : Run σ).Sole number := by
  obtain ⟨workers, ready, waits, known⟩ := h.keepJob job
  exact ⟨workers, ready, waits, known⟩

theorem getElem?_keepJob (h : r.Sole number) (job : Job) :
    (r.keepJob number job).jobs[number]? = some job :=
  List.getElem?_set_self h.known

theorem drainUntil_of_ready_eq_nil (done : Run σ → Bool) (h : r.ready = []) (fuel : Nat) :
    r.drainUntil done fuel = r := by
  cases fuel with
  | zero => rfl
  | succ fuel => simp [drainUntil, h]

theorem drainFor_of_ready_eq_nil (h : r.ready = []) (fuel : Nat) : r.drainFor fuel = r := by
  cases fuel with
  | zero => rfl
  | succ fuel => simp [drainFor, h]

theorem wakeWorkers_of_workers_eq_nil (h : r.workers = []) : r.wakeWorkers = r := by
  simp [wakeWorkers, h]

theorem report_of_worker_eq_none (h : job.worker = none) (r : Run σ) : report job r = r := by
  simp [report, h]

theorem runTask_lookup (h : r.Sole number) (hjob : r.jobs[number]? = some job)
    (hworker : job.worker = none) :
    runTask (.lookup number) r = (runJob job r).2.keepJob number (runJob job r).1 := by
  have hended : (runJob job r).1.worker = none := by
    obtain ⟨attempt, stage, script, calls, heq⟩ := advances_runJob job r
    rw [heq]
    exact hworker
  simp only [runTask, hjob]
  rw [report_of_worker_eq_none hended,
    wakeWorkers_of_workers_eq_nil ((h.runJob job).keepJob _).workers]

/-- When its turn comes the lookup goes on until it has to wait; then nothing can run. -/
theorem drainUntil_lookup (done : Run σ → Bool) (h : r.Sole number)
    (hjob : r.jobs[number]? = some job) (hworker : job.worker = none) (fuel : Nat) :
    ({ r with ready := [.lookup number] } : Run σ).drainUntil done (fuel + 1) =
      (runJob job r).2.keepJob number (runJob job r).1 := by
  have hready := ((h.runJob job).keepJob (runJob job r).1).ready
  have hrest : ({ r with ready := [] } : Run σ) = r := by rw [← h.ready]
  have hturn : ({ r with ready := [.lookup number] } : Run σ).drainFor tasksPerTurn =
      (runJob job r).2.keepJob number (runJob job r).1 := by
    show (runTask (.lookup number) { r with ready := [] }).drainFor 60 = _
    rw [hrest, runTask_lookup h hjob hworker, drainFor_of_ready_eq_nil hready]
  rw [drainUntil, if_neg (by simp), hturn]
  simp only [drainUntil_of_ready_eq_nil done hready, ite_self]

/-- Whether the lookup of a number has ended. -/
def hasEnded (number : Nat) (r : Run σ) : Bool := (r.ended? number).isSome

theorem hasEnded_keepJob (h : r.Sole number) (job : Job) :
    hasEnded number (r.keepJob number job) = true ↔ ∃ result, job.stage = .ended result := by
  simp only [hasEnded, ended?, getElem?_keepJob h]
  obtain ⟨address, attempt, stage, worker⟩ := job
  cases stage <;> simp

theorem waits_keepJob (h : r.Sole number) (job : Job) :
    (r.keepJob number job).waits = if (Stage.due? job.stage).isSome then [number] else [] := by
  have hothers : r.waits.filter (· != number) = [] := by
    rw [List.filter_eq_nil_iff]
    intro n hn
    simp [h.waits n hn]
  simp only [keepJob, hothers, List.nil_append]

theorem dueOf?_keepJob (h : r.Sole number) (job : Job) :
    (r.keepJob number job).dueOf? number = Stage.due? job.stage := by
  rw [dueOf?, getElem?_keepJob h]
  rfl

theorem nextDue?_keepJob (h : r.Sole number) (job : Job) :
    (r.keepJob number job).nextDue? = Stage.due? job.stage := by
  have hdueOf := dueOf?_keepJob h job
  rw [nextDue?, waits_keepJob h]
  cases hdue : Stage.due? job.stage with
  | none => rfl
  | some due =>
    rw [hdue] at hdueOf
    simp [hdueOf]

theorem setTime_keepJob (h : r.Sole number) {due : Nat} (hdue : Stage.due? job.stage = some due) :
    (r.keepJob number job).setTime due =
      { r.keepJob number job with now := due, ready := [.lookup number] } := by
  have hdueOf : (r.keepJob number job).dueOf? number = some due := (dueOf?_keepJob h job).trans hdue
  have hready := (h.keepJob job).ready
  have hwaits : (r.keepJob number job).waits = [number] := by
    rw [waits_keepJob h, hdue]
    rfl
  simp [setTime, hwaits, hdueOf, wakeTask, hready]

/-- What becomes of a run when its one lookup has gone on as far as it can: the lookup has ended, or
the clock goes on to the moment for which it waits. -/
def onward (number : Nat) (pair : Job × Run σ) (fuel : Nat) : Run σ :=
  let r := pair.2.keepJob number pair.1
  match Stage.due? pair.1.stage with
  | none => r
  | some due =>
    runUntil (hasEnded number) none { r with now := due, ready := [.lookup number] } fuel

theorem runUntil_succ (done : Run σ → Bool) (r : Run σ) (fuel : Nat) :
    r.runUntil done none (fuel + 1) =
      let r := r.drainUntil done (4 * r.load + 8)
      if done r then r
      else match r.nextDue? with
        | none => r
        | some due => (r.setTime due).runUntil done none fuel := by
  rw [runUntil.eq_def]
  dsimp only
  split
  · rfl
  · cases (r.drainUntil done (4 * r.load + 8)).nextDue? with
    | none => rfl
    | some due => rfl

theorem runUntil_lookup (h : r.Sole number) (hjob : r.jobs[number]? = some job)
    (hworker : job.worker = none) (fuel : Nat) :
    ({ r with ready := [.lookup number] } : Run σ).runUntil (hasEnded number) none (fuel + 1) =
      onward number (runJob job r) fuel := by
  have hsole := h.runJob job
  rw [runUntil_succ, drainUntil_lookup (hasEnded number) h hjob hworker, onward]
  simp only [nextDue?_keepJob hsole]
  cases hdue : Stage.due? (runJob job r).1.stage with
  | none => simp only [ite_self]
  | some due =>
    have hrunning :
        ¬ hasEnded number ((runJob job r).2.keepJob number (runJob job r).1) = true := by
      rw [hasEnded_keepJob hsole]
      rintro ⟨result, hended⟩
      rw [hended] at hdue
      cases hdue
    rw [if_neg hrunning]
    exact congrArg (runUntil _ _ · fuel) (setTime_keepJob hsole hdue)

/-! ## The course of a lookup -/

/-- How long a wait of so many milliseconds takes. -/
def pause (ms : Nat) : Nat := min ms longestWait

/-- The moments of the calls with the indices from `index` on, the first of them now, when the reply
to the call with index `i` takes `delays i` milliseconds and the given waits lie between them. -/
def callMoments (delays : Nat → Nat) (index now : Nat) : List Duration → List Nat
  | [] => [now]
  | wait :: waits =>
    now :: callMoments delays (index + 1) (now + pause (delays index) + pause wait.millisUp) waits

/-- The moment of the reply to the last of these calls. -/
def lastMoment (delays : Nat → Nat) (index now : Nat) : List Duration → Nat
  | [] => now + pause (delays index)
  | wait :: waits =>
    lastMoment delays (index + 1) (now + pause (delays index) + pause wait.millisUp) waits

theorem onward_of_due (job : Job) {due : Nat} (h : r.Sole number) (hworker : job.worker = none)
    (hdue : Stage.due? job.stage = some due) (fuel : Nat) :
    onward number (job, r) (fuel + 1) =
      onward number (runJob job { r.keepJob number job with now := due }) fuel := by
  rw [← runUntil_lookup (h.later job due) (getElem?_keepJob h job) hworker, onward]
  simp only [hdue]

/-- The one lookup of a run that began as `start` is under way, and `count` calls have been made. -/
structure Amid (start : Run σ) (number : Nat) (address : String) (count : Nat) (job : Job)
    (r : Run σ) : Prop where
  sole : r.Sole number
  worker : job.worker = none
  asked : job.address = address
  service : r.service = start.service
  policy : r.policy = start.policy
  script : r.script = start.script.afterCalls address count

/-- The one lookup of a run that began as `start` has ended as `t` tells, where the attempts of `t`
are those from `index` on, the first of them made `now`, and `calls` lie before. -/
structure Finished (start : Run σ) (number : Nat) (address : String) (index now : Nat)
    (calls : List (String × Nat)) (t : BackoffPolicy.Trace) (r : Run σ) : Prop where
  sole : r.Sole number
  waits : r.waits = []
  service : r.service = start.service
  policy : r.policy = start.policy
  script : r.script = start.script.afterCalls address (index + t.calls)
  result : r.ended? number = some t.result
  made : r.calls = ((callMoments (fun i => (start.script.replyTo address i).delay) index now
    t.waits).map (address, ·)).reverse ++ calls
  moment : r.now = lastMoment (fun i => (start.script.replyTo address i).delay) index now t.waits

variable {start : Run σ} {address : String} {count index now : Nat} {calls : List (String × Nat)}

theorem Amid.next (h : Amid start number address count job r) :
    r.policy.next job.address = start.policy.next address := by
  rw [h.policy, h.asked]

theorem Amid.later (h : Amid start number address count job r) {job' : Job} (due : Nat)
    (hworker : job'.worker = job.worker) (haddress : job'.address = job.address) :
    Amid start number address count job' { r.keepJob number job' with now := due } :=
  ⟨h.sole.later job' due, hworker.trans h.worker, haddress.trans h.asked, h.service, h.policy,
    h.script⟩

theorem Amid.call (h : Amid start number address count job r) :
    Amid start number address (count + 1) job
      { r with
        script := (r.script.call job.address).2
        calls := (job.address, r.now) :: r.calls } := by
  refine ⟨⟨h.sole.workers, h.sole.ready, h.sole.waits, h.sole.known⟩, h.worker, h.asked,
    h.service, h.policy, ?_⟩
  show (r.script.call job.address).2 = _
  rw [h.script, h.asked]
  rfl

/-- An attempt is made, and its outcome comes after the delay of the reply. -/
theorem onward_attempt (h : Amid start number address index job r) {inner : Nat}
    (hinner : start.policy.attempts ≤ index + 1 + inner) (fuel : Nat) :
    ∃ job' r' inner' fuel',
      onward number (runAttempts job r index (inner + 1)) (fuel + 1) =
        onward number
          (conclude job' r' index (start.script.replyTo address index).outcome inner') fuel' ∧
      Amid start number address (index + 1) job' r' ∧
      r'.now = r.now + pause (start.script.replyTo address index).delay ∧
      r'.calls = (address, r.now) :: r.calls ∧
      start.policy.attempts ≤ index + 1 + inner' ∧ fuel ≤ fuel' := by
  have hreply : (r.script.call job.address).1 = start.script.replyTo address index := by
    rw [h.script, h.asked]
    rfl
  have hcall := h.call
  have hcalls : (job.address, r.now) :: r.calls = (address, r.now) :: r.calls := by rw [h.asked]
  rw [runAttempts_succ, hreply]
  dsimp only
  split
  · rename_i hdelay
    refine ⟨_, _, _, _, rfl, hcall, ?_, hcalls, hinner, Nat.le_succ fuel⟩
    rw [hdelay]
    rfl
  · rw [onward_of_due { job with attempt := index, stage := .calling _ _ } hcall.sole h.worker rfl]
    refine ⟨_, _, _, _, rfl, hcall.later _ rfl rfl, rfl, hcalls, ?_, Nat.le_refl fuel⟩
    show _ ≤ index + 1 + (r.policy.attempts - index)
    rw [h.policy]
    omega

/-- After an error that may pass the next attempt is made when the wait is over. -/
theorem onward_retry (h : Amid start number address count job r) {outcome : Outcome}
    {wait : Duration} {inner : Nat} (hinner : start.policy.attempts ≤ index + 1 + inner)
    (hnext : start.policy.next address index outcome = .retryAfter wait) (fuel : Nat) :
    ∃ job' r' inner' fuel',
      onward number (conclude job r index outcome inner) (fuel + 1) =
        onward number (runAttempts job' r' (index + 1) inner') fuel' ∧
      Amid start number address count job' r' ∧
      r'.now = r.now + pause wait.millisUp ∧
      r'.calls = r.calls ∧
      start.policy.attempts ≤ index + 1 + inner' ∧ fuel ≤ fuel' := by
  rw [conclude, h.next, hnext]
  dsimp only
  split
  · rename_i hwait
    refine ⟨_, _, _, _, rfl, h, ?_, rfl, hinner, Nat.le_succ fuel⟩
    rw [hwait]
    rfl
  · rw [onward_of_due { job with attempt := index + 1, stage := .backingOff _ } h.sole h.worker rfl]
    refine ⟨_, _, _, _, rfl, h.later _ rfl rfl, rfl, rfl, ?_, Nat.le_refl fuel⟩
    show _ ≤ index + 1 + (r.policy.attempts - (index + 1))
    rw [h.policy]
    omega

/-- A lookup that ends with the outcome of the attempt with the given index. -/
theorem finished_last {stage : Stage} {result : BackoffPolicy.Resolution}
    (h : Amid start number address (index + 1) job r)
    (hnow : r.now = now + pause (start.script.replyTo address index).delay)
    (hcalls : r.calls = (address, now) :: calls) (hstage : stage = .ended result) :
    Finished start number address index now calls ⟨result, 1, []⟩
      (onward number ({ job with stage }, r) fuel) := by
  subst hstage
  have hsole := h.sole.keepJob { job with stage := .ended result }
  refine ⟨hsole, waits_keepJob h.sole _, h.service, h.policy, h.script, ?_, hcalls, hnow⟩
  show (r.keepJob number { job with stage := .ended result }).ended? number = _
  simp only [ended?, getElem?_keepJob h.sole]

/-- Earlier attempts go before. -/
theorem Finished.before {wait : Duration} {rest : BackoffPolicy.Trace}
    (h : Finished start number address (index + 1)
      (now + pause (start.script.replyTo address index).delay + pause wait.millisUp)
      ((address, now) :: calls) rest r) :
    Finished start number address index now calls
      ⟨rest.result, rest.calls + 1, wait :: rest.waits⟩ r := by
  refine ⟨h.sole, h.waits, h.service, h.policy, ?_, h.result, ?_, h.moment⟩
  · rw [h.script]
    congr 1
    show index + 1 + rest.calls = index + (rest.calls + 1)
    omega
  · rw [h.made]
    simp [callMoments]

/-- From an outcome on the lookup goes as the trace tells. -/
theorem finished_conclude {left inner : Nat} (h : Amid start number address (index + 1) job r)
    (hleft : start.policy.attempts = index + left + 1)
    (hinner : start.policy.attempts ≤ index + 1 + inner) (hfuel : 2 * left ≤ fuel)
    (hnow : r.now = now + pause (start.script.replyTo address index).delay)
    (hcalls : r.calls = (address, now) :: calls) :
    Finished start number address index now calls
      (start.policy.traceFrom address (fun i => (start.script.replyTo address i).outcome) index left)
      (onward number
        (conclude job r index (start.script.replyTo address index).outcome inner) fuel) := by
  -- the clock jumps at most twice for each attempt that is left: for the wait and for the reply
  induction left using Nat.strongRecOn generalizing job r index now calls inner fuel with
  | ind left ih =>
    cases hnext : start.policy.next address index (start.script.replyTo address index).outcome with
    | finished info =>
      rw [BackoffPolicy.Course.traceFrom_eq (.finished hnext) hleft, conclude, h.next, hnext]
      exact finished_last h hnow hcalls rfl
    | crashed message =>
      rw [BackoffPolicy.Course.traceFrom_eq (.crashed hnext) hleft, conclude, h.next, hnext]
      exact finished_last h hnow hcalls rfl
    | retryAfter wait =>
      have hmore := BackoffPolicy.lt_attempts_of_retryAfter hnext
      obtain ⟨left, rfl⟩ : ∃ fewer, left = fewer + 1 := ⟨left - 1, by omega⟩
      obtain ⟨fuel, rfl⟩ : ∃ less, fuel = less + 1 := ⟨fuel - 1, by omega⟩
      obtain ⟨job₁, r₁, inner₁, fuel₁, hretry, h₁, hnow₁, hcalls₁, hinner₁, hfuel₁⟩ :=
        onward_retry h hinner hnext fuel
      obtain ⟨inner₁, rfl⟩ : ∃ less, inner₁ = less + 1 := ⟨inner₁ - 1, by omega⟩
      obtain ⟨fuel₁, rfl⟩ : ∃ less, fuel₁ = less + 1 := ⟨fuel₁ - 1, by omega⟩
      have hleast : start.policy.attempts ≤ index + 1 + 1 + inner₁ := by omega
      obtain ⟨job₂, r₂, inner₂, fuel₂, hattempt, h₂, hnow₂, hcalls₂, hinner₂, hfuel₂⟩ :=
        onward_attempt h₁ hleast fuel₁
      rw [hretry, hattempt, BackoffPolicy.traceFrom, hnext]
      refine Finished.before (ih left (Nat.lt_succ_self left) h₂ (by omega) hinner₂ (by omega) ?_ ?_)
      · rw [hnow₂, hnow₁, hnow]
      · rw [hcalls₂, hcalls₁, hcalls, hnow₁, hnow]

/-! ## A caller's lookup -/

/-- Nothing is under way, and there is no worker. -/
structure Idle (r : Run σ) : Prop where
  workers : r.workers = []
  ready : r.ready = []
  waits : r.waits = []

theorem attempts_le_patience (r : Run σ) : 2 * r.policy.attempts + 2 ≤ r.patience :=
  Nat.le_mul_of_pos_right _ (Nat.succ_pos _)

theorem finished_resolve (h : r.Idle) (address : String) :
    ∃ r', r.resolve address = (r'.ended? r.jobs.length, r') ∧
      Finished r r.jobs.length address 0 r.now r.calls
        (r.policy.trace address fun i => (r.script.replyTo address i).outcome) r' := by
  let job : Job := { address, attempt := 0, stage := .ready, worker := none }
  let asked : Run σ := { r with jobs := r.jobs ++ [job] }
  let waiting : Run σ := { asked with ready := [.lookup r.jobs.length] }
  have hsole : asked.Sole r.jobs.length := by
    refine ⟨h.workers, h.ready, ?_, ?_⟩
    · intro n hn
      rw [show asked.waits = [] from h.waits] at hn
      cases hn
    · simp [asked]
  have hjob : asked.jobs[r.jobs.length]? = some job := by simp [asked]
  have hamid : Amid r r.jobs.length address 0 job asked := ⟨hsole, rfl, rfl, rfl, rfl, rfl⟩
  have hstart : r.addJob address none = waiting := by
    simp [addJob, wakeTask, h.ready, waiting, asked, job]
  obtain ⟨left, hleft⟩ : ∃ left, r.policy.attempts = left + 1 := ⟨_, r.policy.attempts_eq⟩
  obtain ⟨fuel, hfuel⟩ : ∃ fuel, waiting.patience = fuel + 1 + 1 :=
    ⟨waiting.patience - 2, by have := waiting.attempts_le_patience; omega⟩
  have henough : 2 * left ≤ fuel := by
    have hpatience : 2 * r.policy.attempts + 2 ≤ waiting.patience := waiting.attempts_le_patience
    omega
  have hrun : waiting.runUntil (hasEnded r.jobs.length) none (fuel + 1 + 1) =
      onward r.jobs.length (runAttempts job asked 0 (left + 1)) (fuel + 1) := by
    rw [runUntil_lookup hsole hjob rfl, ← hleft]
    rfl
  have hinner : r.policy.attempts ≤ 0 + 1 + left := by omega
  obtain ⟨job₁, r₁, inner₁, fuel₁, hattempt, h₁, hnow₁, hcalls₁, hinner₁, hfuel₁⟩ :=
    onward_attempt hamid hinner fuel
  have hlast : r.policy.attempts - 1 = left := by omega
  refine ⟨waiting.runUntil (hasEnded r.jobs.length) none waiting.patience, ?_, ?_⟩
  · rw [resolve, hstart]
    rfl
  · rw [hfuel, hrun, hattempt, BackoffPolicy.trace, hlast]
    exact finished_conclude h₁ (by omega) hinner₁ (by omega) hnow₁ hcalls₁

/-- A caller's lookup in a run without workers has the result and the calls of the trace, at the
moments that the delays of the replies and the waits of the policy make. -/
theorem resolve_eq_trace (h : r.Idle) (address : String) :
    let delays := fun i => (r.script.replyTo address i).delay
    let t := r.policy.trace address fun i => (r.script.replyTo address i).outcome
    let r' := (r.resolve address).2
    (r.resolve address).1 = some t.result ∧
    r'.calls = ((callMoments delays 0 r.now t.waits).map (address, ·)).reverse ++ r.calls ∧
    r'.now = lastMoment delays 0 r.now t.waits ∧
    r'.script = r.script.afterCalls address t.calls ∧
    r'.service = r.service ∧ r'.policy = r.policy ∧ r'.Idle := by
  obtain ⟨r', hresolve, hfinished⟩ := finished_resolve h address
  have hscript := hfinished.script
  rw [Nat.zero_add] at hscript
  rw [hresolve]
  exact ⟨hfinished.result, hfinished.made, hfinished.moment, hscript, hfinished.service,
    hfinished.policy, hfinished.sole.workers, hfinished.sole.ready, hfinished.waits⟩

end Run

end AccessLog.Simulation

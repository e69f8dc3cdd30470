import AccessLog.Proofs.CacheBounds
import AccessLog.Proofs.LookupResults
import AccessLog.Proofs.LookupRuns
import AccessLog.Proofs.ReadPath

/-! # Processing an address

An address that is cached needs no lookup. Any other is looked up, with the attempts and waits of
the policy, and what the last attempt has told is cached: the info that was found, or that nothing
is known, after an error as well as after a breakdown. Either way the address is completed, and all
other work is left as it is. -/

namespace AccessLog.Enrich
open AccessLog.Time

/-! ## The attempts of a lookup -/

namespace BackoffPolicy
variable {p : BackoffPolicy} {address : String} {outcome : Outcome} {index : Nat}

theorem not_passing_of_next (hmore : index + 1 < p.attempts)
    (h : ∀ wait, p.next address index outcome ≠ .retryAfter wait) : ¬ outcome.Passing :=
  fun hpassing => h _ (next_of_passing hpassing hmore)

/-- The attempt with the index `last` is the last one of a trace: errors that may pass have led to
it, it has had another outcome unless no attempt was left, and the waits of the policy lie between
the attempts. -/
structure Trace.EndsAt (t : Trace) (p : BackoffPolicy) (outcomes : Nat → Outcome) (last : Nat) :
    Prop where
  calls : t.calls = last + 1
  within : last < p.attempts
  earlier : ∀ i < last, (outcomes i).Passing
  final : last + 1 < p.attempts → ¬ (outcomes last).Passing
  waits : t.waits = (List.range last).map fun i => p.delay (UInt32.ofNat i)

theorem endsAt_traceFrom (p : BackoffPolicy) (address : String) (outcomes : Nat → Outcome)
    (left index : Nat) (hleft : p.attempts = index + left + 1) :
    let t := p.traceFrom address outcomes index left
    ∃ more ≤ left, t.calls = more + 1 ∧ (∀ i < more, (outcomes (index + i)).Passing) ∧
      (more < left → ¬ (outcomes (index + more)).Passing) ∧
      t.waits = (List.range' index more).map fun i => p.delay (UInt32.ofNat i) := by
  induction left generalizing index with
  | zero =>
    refine ⟨0, Nat.le_refl 0, ?_, nofun, nofun, ?_⟩
    all_goals
      simp only [traceFrom]
      split <;> rfl
  | succ left ih =>
    have hstop (hnext : ∀ wait, p.next address index (outcomes index) ≠ .retryAfter wait) :
        ∃ more ≤ left + 1, 1 = more + 1 ∧ (∀ i < more, (outcomes (index + i)).Passing) ∧
          (more < left + 1 → ¬ (outcomes (index + more)).Passing) ∧
          [] = (List.range' index more).map fun i => p.delay (UInt32.ofNat i) :=
      ⟨0, Nat.zero_le _, rfl, nofun, fun _ => not_passing_of_next (by omega) hnext, rfl⟩
    simp only [traceFrom]
    split
    · rename_i hnext
      exact hstop (by simp [hnext])
    · rename_i hnext
      exact hstop (by simp [hnext])
    · rename_i wait hnext
      obtain ⟨hpassing, -, rfl⟩ := next_eq_retryAfter_iff.1 hnext
      obtain ⟨more, hmore, hcalls, hearlier, hfinal, hwaits⟩ := ih (index + 1) (by omega)
      have hshift (i : Nat) : index + (i + 1) = index + 1 + i := by omega
      refine ⟨more + 1, by omega, by rw [hcalls], ?_, ?_, ?_⟩
      · intro i hi
        cases i with
        | zero => exact hpassing
        | succ i =>
          rw [hshift]
          exact hearlier i (Nat.lt_of_succ_lt_succ hi)
      · intro hlt
        rw [hshift]
        exact hfinal (Nat.lt_of_succ_lt_succ hlt)
      · rw [List.range'_succ, List.map_cons, hwaits]

/-- However the attempts of a lookup end, it keeps to the policy. -/
theorem endsAt_trace (p : BackoffPolicy) (address : String) (outcomes : Nat → Outcome) :
    ∃ last, (p.trace address outcomes).EndsAt p outcomes last ∧
      (p.trace address outcomes).result.settled address =
        Service.told address (outcomes last) := by
  have hattempts := p.attempts_eq
  obtain ⟨last, hlast, hcalls, hearlier, hfinal, hwaits⟩ :=
    endsAt_traceFrom p address outcomes (p.attempts - 1) 0 (by omega)
  simp only [Nat.zero_add] at hearlier hfinal
  have hsettled := Service.settled_trace_eq p address outcomes
  have hcount : (p.trace address outcomes).calls = last + 1 := hcalls
  rw [hcount, Nat.add_sub_cancel] at hsettled
  refine ⟨last, ⟨hcount, by omega, hearlier, fun hmore => hfinal (by omega), ?_⟩, hsettled⟩
  rw [List.range_eq_range']
  exact hwaits

end BackoffPolicy

/-! ## The worker -/

namespace Pipeline
variable {p : Pipeline} {address : String}

theorem check_of_hit {info : AddressInfo} (h : p.cache.peek? address = some info) :
    p.check address = (true, { p with cache := (p.cache.get address).2 }) := by
  simp only [check, Cache.get_fst, h, Option.isSome_some]

theorem check_of_miss (h : p.cache.peek? address = none) : p.check address = (false, p) := by
  simp only [check, Cache.get, h, Option.isSome_none]

theorem process_of_hit {info : AddressInfo} (h : p.cache.peek? address = some info)
    (result : BackoffPolicy.Resolution) :
    p.process address result =
      { queue := p.queue.complete address, cache := (p.cache.get address).2 } := by
  simp only [process, check_of_hit h, if_true]
  rfl

theorem process_of_miss (h : p.cache.peek? address = none) (result : BackoffPolicy.Resolution) :
    p.process address result =
      { queue := p.queue.complete address
        cache := p.cache.put address (result.settled address) } := by
  simp only [process, check_of_miss h, Bool.false_eq_true, if_false]
  rfl

theorem queue_process (p : Pipeline) (address : String) (result : BackoffPolicy.Resolution) :
    (p.process address result).queue = p.queue.complete address := by
  cases h : p.cache.peek? address with
  | some info => rw [process_of_hit h]
  | none => rw [process_of_miss h]

theorem peek?_process_of_hit {info : AddressInfo} (h : p.cache.peek? address = some info)
    (result : BackoffPolicy.Resolution) (other : String) :
    (p.process address result).cache.peek? other = p.cache.peek? other := by
  rw [process_of_hit h]
  exact p.cache.peek?_get address other

/-- What a lookup has come to is cached, and at most one other entry makes way for it. -/
theorem peek?_process_of_miss (h : p.cache.peek? address = none)
    (hroom : 0 < p.cache.capacity.toNat) (hlives : 0 < p.cache.ttl.nanos)
    (result : BackoffPolicy.Resolution) :
    (p.process address result).cache.peek? address = some (result.settled address) ∧
      (p.cache.Fits → ∀ other, other ≠ address →
        (p.process address result).cache.peek? other =
          if p.cache.MakesWay other then none else p.cache.peek? other) := by
  have hlives : p.cache.ttl.nanos ≠ 0 := Nat.ne_of_gt hlives
  rw [process_of_miss h]
  exact ⟨Cache.peek?_put_self hlives hroom _, fun hfits other hother =>
    hfits.peek?_put hlives hroom h _ hother⟩

theorem fits_process (h : p.cache.Fits) (address : String) (result : BackoffPolicy.Resolution) :
    (p.process address result).cache.Fits := by
  cases hknown : p.cache.peek? address with
  | some info =>
    rw [process_of_hit hknown]
    exact h.get address
  | none =>
    rw [process_of_miss hknown]
    exact h.put address _

end Pipeline

/-- Left to itself, the worker comes from one state to another when the lookup that it starts ends
with this result. -/
inductive Worker.Reaches (result : BackoffPolicy.Resolution) :
    Worker → Pipeline → Worker → Pipeline → Prop
  | done {w p} : Reaches result w p w p
  | step {w p w' p' w'' p''} (made : w.step? p = some (w', p'))
      (rest : Reaches result w' p' w'' p'') : Reaches result w p w'' p''
  | lookup {w p w' p' address} (underWay : w.phase = .resolving address)
      (rest : Reaches result (w.deliver result) p w' p') : Reaches result w p w' p'

/-- From the address that it has taken on, the worker processes it. -/
theorem Worker.reaches_process (p : Pipeline) (address : String)
    (result : BackoffPolicy.Resolution) (stopping : Bool) :
    Worker.Reaches result ⟨.taken address, stopping⟩ p ⟨.idle, stopping⟩
      (p.process address result) := by
  cases h : p.cache.peek? address with
  | some info =>
    rw [Pipeline.process_of_hit h]
    have hcheck : Worker.step? ⟨.taken address, stopping⟩ p =
        some (⟨.cached address, stopping⟩, { p with cache := (p.cache.get address).2 }) := by
      simp only [step?, Pipeline.check_of_hit h, if_true]
    exact .step hcheck (.step rfl .done)
  | none =>
    rw [Pipeline.process_of_miss h]
    have hcheck : Worker.step? ⟨.taken address, stopping⟩ p =
        some (⟨.resolving address, stopping⟩, p) := by
      simp only [step?, Pipeline.check_of_miss h, Bool.false_eq_true, if_false]
    exact .step hcheck (.lookup rfl (.step rfl (.step rfl .done)))

end AccessLog.Enrich

namespace AccessLog.Simulation.Run
open AccessLog.Enrich
variable {σ : Type} {r : Run σ} {address : String}

/-! ## A caller that processes an address -/

theorem withPipeline_of_workers_eq_nil {α : Type} (h : r.workers = [])
    (f : Pipeline → α × Pipeline) :
    r.withPipeline f = ((f r.pipeline).1, r.setPipeline (f r.pipeline).2) := by
  have hquiet : (r.setPipeline (f r.pipeline).2).wakeWorkers = r.setPipeline (f r.pipeline).2 :=
    wakeWorkers_of_workers_eq_nil h
  simp only [withPipeline, hquiet]

theorem process_of_hit (h : r.Idle) {info : AddressInfo}
    (hknown : r.pipeline.cache.peek? address = some info) (result : BackoffPolicy.Resolution) :
    r.process address = r.setPipeline (r.pipeline.process address result) := by
  have hchecked (p : Pipeline) : (r.setPipeline p).workers = [] := h.workers
  rw [Pipeline.process_of_hit hknown]
  simp only [process, withPipeline_of_workers_eq_nil h.workers, Pipeline.check_of_hit hknown,
    if_true, withPipeline_of_workers_eq_nil (hchecked _)]
  rfl

/-- What becomes of a caller who processes an address that is not cached is what becomes of it
after its lookup, but for the pipeline. -/
theorem process_of_miss (h : r.Idle) (hmiss : r.pipeline.cache.peek? address = none) :
    let t := r.policy.trace address fun i => (r.script.replyTo address i).outcome
    r.process address =
      (r.resolve address).2.setPipeline (r.pipeline.process address t.result) := by
  intro t
  obtain ⟨hresult, -, -, -, hservice, -, hidle⟩ := r.resolve_eq_trace h address
  have hresolve : r.resolve address = (some t.result, (r.resolve address).2) :=
    Prod.ext hresult rfl
  have hpipeline : (r.resolve address).2.pipeline = r.pipeline := congrArg Service.pipeline hservice
  have hchecked : r.withPipeline (Pipeline.check · address) = (false, r) := by
    rw [withPipeline_of_workers_eq_nil h.workers, Pipeline.check_of_miss hmiss]
    rfl
  have hrecorded (p : Pipeline) : ((r.resolve address).2.setPipeline p).workers = [] :=
    hidle.workers
  simp only [process, hchecked, Bool.false_eq_true, if_false]
  rw [hresolve]
  simp only [withPipeline_of_workers_eq_nil (hrecorded _), hpipeline,
    Pipeline.process_of_miss hmiss]
  rfl

/-- Nothing is under way when an address has been processed, and its lookup has ended as the trace
of the policy tells. -/
theorem process_spec (h : r.Idle) (address : String) :
    let t := r.policy.trace address fun i => (r.script.replyTo address i).outcome
    (r.process address).Idle ∧ (r.process address).service.store = r.service.store ∧
      (r.process address).pipeline = r.pipeline.process address t.result := by
  intro t
  cases hknown : r.pipeline.cache.peek? address with
  | some info =>
    rw [process_of_hit h hknown t.result]
    exact ⟨⟨h.workers, h.ready, h.waits⟩, rfl, rfl⟩
  | none =>
    obtain ⟨-, -, -, -, hservice, -, hidle⟩ := r.resolve_eq_trace h address
    have hstore : (r.resolve address).2.service.store = r.service.store := by rw [hservice]
    rw [process_of_miss h hknown]
    exact ⟨⟨hidle.workers, hidle.ready, hidle.waits⟩, hstore, rfl⟩

/-- Whatever its lookups come to, an address that has been processed is not pending, and what is
queued and pending besides is left as it was. Nothing is looked up if the address was cached, and
what is cached stays the same. Otherwise it is looked up under the policy, and what the last attempt
has told is cached: the info it has found, or that nothing is known. Only if the cache was full the
entry that was not used for the longest time has made way. The worker does just that with an address
that it has taken. -/
theorem process_settles (r : Run σ) (address : String) (hidle : r.Idle) :
    let before := r.pipeline
    let after := r.process address
    let reply := r.script.replyTo address
    let t := r.policy.trace address fun i => (reply i).outcome
    (after.Idle ∧ after.service.store = r.service.store ∧
      (before.cache.Fits → after.pipeline.cache.Fits)) ∧
    (address ∉ after.pipeline.queue.pending ∧
      after.pipeline.queue.items = before.queue.items ∧
      after.pipeline.queue.pending = before.queue.pending.filter (· ≠ address)) ∧
    (∀ info, before.cache.peek? address = some info →
      r.WithoutLookup after ∧
      ∀ other, after.pipeline.cache.peek? other = before.cache.peek? other) ∧
    (before.cache.peek? address = none →
      after.calls = ((callMoments (fun i => (reply i).delay) 0 r.now t.waits).map
        (address, ·)).reverse ++ r.calls ∧
      after.script = r.script.afterCalls address t.calls ∧
      after.now = lastMoment (fun i => (reply i).delay) 0 r.now t.waits ∧
      ∃ last, t.EndsAt r.policy (fun i => (reply i).outcome) last ∧
        (0 < before.cache.capacity.toNat → 0 < before.cache.ttl.nanos →
          after.pipeline.cache.peek? address = some (Service.told address (reply last).outcome) ∧
          (before.cache.Fits → ∀ other, other ≠ address →
            after.pipeline.cache.peek? other =
              if before.cache.MakesWay other then none else before.cache.peek? other))) ∧
    ∀ stopping, Worker.Reaches t.result ⟨.taken address, stopping⟩ before ⟨.idle, stopping⟩
      after.pipeline := by
  intro before after reply t
  obtain ⟨hquiet, hstore, hpipeline⟩ : after.Idle ∧ after.service.store = r.service.store ∧
      after.pipeline = before.process address t.result := process_spec hidle address
  have hqueue : after.pipeline.queue = before.queue.complete address := by
    rw [hpipeline, Pipeline.queue_process]
  refine ⟨⟨hquiet, hstore, ?_⟩, ⟨?_, ?_, ?_⟩, ?_, ?_, ?_⟩
  · intro hfits
    rw [hpipeline]
    exact Pipeline.fits_process hfits address t.result
  · rw [hqueue]
    simp [WorkQueue.complete]
  · rw [hqueue]
    rfl
  · rw [hqueue]
    rfl
  · intro info hknown
    have hafter : after = r.setPipeline (before.process address t.result) :=
      process_of_hit hidle hknown t.result
    refine ⟨?_, fun other => ?_⟩
    · rw [hafter]
      exact ⟨rfl, rfl, rfl, rfl, rfl⟩
    · rw [hpipeline]
      exact Pipeline.peek?_process_of_hit hknown t.result other
  · intro hmiss
    have hafter : after = (r.resolve address).2.setPipeline (before.process address t.result) :=
      process_of_miss hidle hmiss
    obtain ⟨-, hcalls, hnow, hscript, -, -, -⟩ := r.resolve_eq_trace hidle address
    obtain ⟨last, hends, hsettled⟩ := r.policy.endsAt_trace address fun i => (reply i).outcome
    refine ⟨?_, ?_, ?_, last, hends, fun hroom hlives => ?_⟩
    · rw [hafter]
      exact hcalls
    · rw [hafter]
      exact hscript
    · rw [hafter]
      exact hnow
    · rw [hpipeline, ← hsettled]
      exact Pipeline.peek?_process_of_miss hmiss hroom hlives t.result
  · intro stopping
    rw [hpipeline]
    exact Worker.reaches_process before address t.result stopping

/-- A full cache, an address that has been taken, and another one that is queued. The lookup of the
address fails once, and then breaks down. -/
def crowded : Run Unit :=
  .start
    ⟨(), ⟨⟨["2.2.2.2", "8.8.8.8"], ["2.2.2.2"], false, [], 0⟩,
      ⟨2, .ofSeconds 60, [("1.1.1.1", ⟨"1.1.1.1", some "AU", none, none, none⟩),
        ("9.9.9.9", .unknown "9.9.9.9")]⟩⟩, 10⟩
    (.ofList [("8.8.8.8", [⟨20, .failed (.connect "refused")⟩, ⟨0, .crashed "lookup exploded"⟩])])
    .standard

theorem process_settles_crowded :
    let before := crowded.pipeline
    let after := crowded.process "8.8.8.8"
    crowded.Idle ∧ before.cache.Fits ∧
    before.cache.peek? "1.1.1.1" = some ⟨"1.1.1.1", some "AU", none, none, none⟩ ∧
    crowded.WithoutLookup (crowded.process "1.1.1.1") ∧
    before.cache.peek? "8.8.8.8" = none ∧
    0 < before.cache.capacity.toNat ∧ 0 < before.cache.ttl.nanos ∧
    after.pipeline.queue.pending = ["2.2.2.2"] ∧ after.pipeline.queue.items = ["2.2.2.2"] ∧
    after.pipeline.cache.peek? "8.8.8.8" = some (.unknown "8.8.8.8") ∧
    after.pipeline.cache.peek? "1.1.1.1" = some ⟨"1.1.1.1", some "AU", none, none, none⟩ ∧
    after.pipeline.cache.peek? "9.9.9.9" = none := by
  intro before after
  have hidle : crowded.Idle := ⟨rfl, rfl, rfl⟩
  have hfits : before.cache.Fits := ⟨by decide, by decide⟩
  have hknown : before.cache.peek? "1.1.1.1" = some ⟨"1.1.1.1", some "AU", none, none, none⟩ := rfl
  have hmiss : before.cache.peek? "8.8.8.8" = none := rfl
  have hroom : 0 < before.cache.capacity.toNat := by decide
  have hlives : 0 < before.cache.ttl.nanos := by decide
  obtain ⟨-, -, hhit, -, -⟩ := process_settles crowded "1.1.1.1" hidle
  obtain ⟨-, ⟨-, hitems, hpending⟩, -, hlookup, -⟩ := process_settles crowded "8.8.8.8" hidle
  obtain ⟨-, -, -, last, hends, hcached⟩ := hlookup hmiss
  -- the second attempt breaks down and is the last
  obtain rfl : last = 1 := Nat.succ.inj hends.calls.symm
  obtain ⟨hown, hothers⟩ := hcached hroom hlives
  refine ⟨hidle, hfits, hknown, (hhit _ hknown).1, hmiss, hroom, hlives, ?_, ?_, hown, ?_, ?_⟩
  · rw [hpending]
    decide
  · rw [hitems]
    rfl
  · rw [hothers hfits "1.1.1.1" (by decide)]
    decide
  · rw [hothers hfits "9.9.9.9" (by decide)]
    decide

end AccessLog.Simulation.Run

import AccessLog.Enrich.Retry
import Mathlib.Data.List.Range

/-! # Attempts and the waits between them

A lookup is tried again while its outcome is an error that may pass and attempts are left. What is
done is then one call after the other, with the wait of the policy between two of them and nowhere
else, and all waits together stay within what the policy foretells. -/

namespace AccessLog.Time.Duration

/-- A sum is not shorter than what it begins with, and no longer than the longest span. -/
theorem nanos_foldl_add {d : Duration} (h : d.nanos ≤ bound - 1) (more : List Duration) :
    d.nanos ≤ (more.foldl add d).nanos ∧ (more.foldl add d).nanos ≤ bound - 1 := by
  induction more generalizing d with
  | nil => exact ⟨Nat.le_refl _, h⟩
  | cons e more ih =>
    have hsum : (d.add e).nanos = min (d.nanos + e.nanos) (bound - 1) := rfl
    obtain ⟨hleast, hgreatest⟩ := ih (d := d.add e) (by omega)
    exact ⟨by rw [List.foldl_cons]; omega, hgreatest⟩

theorem foldl_add_append_le (ds more : List Duration) :
    (ds.foldl add zero).nanos ≤ ((ds ++ more).foldl add zero).nanos := by
  rw [List.foldl_append]
  exact (nanos_foldl_add (nanos_foldl_add (Nat.zero_le _) ds).2 more).1

end AccessLog.Time.Duration

namespace AccessLog.Enrich
open AccessLog.Time

/-! ## Errors that may pass -/

/-- A failure on the way, or a service that is overloaded or failing. -/
inductive Outcome.Passing : Outcome → Prop
  | timeout : Passing (.failed .timeout)
  | connect (detail : String) : Passing (.failed (.connect detail))
  | transport (detail : String) : Passing (.failed (.transport detail))
  | overloaded (body : String) : Passing (.failed (.status 429 body))
  | failing {code : UInt16} (body : String) (least : 500 ≤ code) (greatest : code ≤ 599) :
      Passing (.failed (.status code body))

theorem Outcome.passing_failed_iff (error : LookupError) :
    Passing (.failed error) ↔ error.isRetryable = true := by
  constructor
  · intro h
    cases h with
    | timeout | connect | transport | overloaded => rfl
    | failing body least greatest => simp [LookupError.isRetryable, least, greatest]
  · intro h
    cases error with
    | timeout => exact .timeout
    | connect detail => exact .connect detail
    | transport detail => exact .transport detail
    | status code body =>
      simp only [LookupError.isRetryable, Bool.or_eq_true, beq_iff_eq, Bool.and_eq_true,
        decide_eq_true_eq] at h
      rcases h with rfl | ⟨least, greatest⟩
      · exact .overloaded body
      · exact .failing body least greatest
    | decode | notFound => cases h

theorem Outcome.Passing.exists_failed {outcome : Outcome} (h : outcome.Passing) :
    ∃ error, outcome = .failed error ∧ error.isRetryable = true := by
  cases outcome with
  | failed error => exact ⟨error, rfl, (passing_failed_iff error).1 h⟩
  | found | crashed => cases h

/-- The first outcome that calls for no further attempt. -/
def FirstFinal (outcomes : Nat → Outcome) (j : Nat) : Prop :=
  ¬ (outcomes j).Passing ∧ ∀ i < j, (outcomes i).Passing

theorem FirstFinal.unique {outcomes : Nat → Outcome} {j k : Nat} (hj : FirstFinal outcomes j)
    (hk : FirstFinal outcomes k) : k = j := by
  rcases Nat.lt_trichotomy k j with hlt | rfl | hlt
  · exact absurd (hj.2 k hlt) hk.1
  · rfl
  · exact absurd (hk.2 j hlt) hj.1

/-- Where no outcome up to some attempt is the first final one, all of them may pass. -/
theorem passing_of_not_firstFinal {outcomes : Nat → Outcome} {n : Nat}
    (h : ∀ j < n, ¬ FirstFinal outcomes j) (i : Nat) (hi : i < n) : (outcomes i).Passing := by
  induction i using Nat.strongRecOn with
  | ind i ih =>
    refine Classical.byContradiction fun hnot => ?_
    exact h i hi ⟨hnot, fun k hk => ih k hk (Nat.lt_trans hk hi)⟩

namespace BackoffPolicy
variable {p : BackoffPolicy} {address : String} {outcomes : Nat → Outcome} {outcome : Outcome}
  {index : Nat}

theorem next_eq_retryAfter_iff {wait : Duration} :
    p.next address index outcome = .retryAfter wait ↔
      outcome.Passing ∧ index + 1 < p.attempts ∧ p.delay (UInt32.ofNat index) = wait := by
  cases outcome with
  | found | crashed => exact ⟨nofun, fun ⟨hpassing, _⟩ => nomatch hpassing⟩
  | failed error =>
    simp only [next, Outcome.passing_failed_iff, Bool.and_eq_true, decide_eq_true_eq, ← and_assoc]
    split
    · rename_i hretry
      rw [Next.retryAfter.injEq, and_iff_right hretry]
    · rename_i hretry
      exact ⟨nofun, fun hand => absurd hand.1 hretry⟩

theorem next_of_passing (h : outcome.Passing) (hmore : index + 1 < p.attempts) :
    p.next address index outcome = .retryAfter (p.delay (UInt32.ofNat index)) :=
  next_eq_retryAfter_iff.2 ⟨h, hmore, rfl⟩

theorem next_of_last (h : outcome.Passing) (hlast : p.attempts ≤ index + 1) :
    p.next address index outcome = .finished (.unknown address) := by
  obtain ⟨error, rfl, hretry⟩ := h.exists_failed
  simp [next, hretry, Nat.not_lt.2 hlast]

theorem next_of_failed {error : LookupError} (h : ¬ (Outcome.failed error).Passing) :
    p.next address index (.failed error) = .finished (.unknown address) := by
  rw [Outcome.passing_failed_iff] at h
  simp [next, h]

/-! ## What is done -/

/-- A call with its outcome, or a wait. -/
inductive Action where
  | call (outcome : Outcome)
  | sleep (wait : Duration)

/-- What is done from the attempt of an index on, when the attempt with index `i` ends as
`outcomes i`, and how it ends. -/
inductive Course (p : BackoffPolicy) (address : String) (outcomes : Nat → Outcome) :
    Nat → List Action → Resolution → Prop
  | finished {index info} (ends : p.next address index (outcomes index) = .finished info) :
      Course p address outcomes index [.call (outcomes index)] (.resolved info)
  | crashed {index message} (ends : p.next address index (outcomes index) = .crashed message) :
      Course p address outcomes index [.call (outcomes index)] (.crashed message)
  | retried {index wait rest result}
      (again : p.next address index (outcomes index) = .retryAfter wait)
      (later : Course p address outcomes (index + 1) rest result) :
      Course p address outcomes index (.call (outcomes index) :: .sleep wait :: rest) result

/-- An attempt, and so many after it, each behind the wait that follows the one before. -/
def schedule (p : BackoffPolicy) (outcomes : Nat → Outcome) (index : Nat) : Nat → List Action
  | 0 => [.call (outcomes index)]
  | more + 1 =>
    .call (outcomes index) :: .sleep (p.delay (UInt32.ofNat index)) ::
      p.schedule outcomes (index + 1) more

/-- There is one course. -/
theorem Course.unique {actions others : List Action} {result result' : Resolution}
    (h : p.Course address outcomes index actions result)
    (h' : p.Course address outcomes index others result') : others = actions ∧ result' = result := by
  induction h generalizing others with
  | finished ends | crashed ends =>
    cases h' with
    | finished ends' | crashed ends' | retried ends' => simp_all
  | retried again later ih =>
    cases h' with
    | finished ends' | crashed ends' => rw [ends'] at again; cases again
    | retried again' later' =>
      rw [again] at again'
      cases again'
      obtain ⟨rfl, rfl⟩ := ih later'
      exact ⟨rfl, rfl⟩

/-- Errors that may pass are followed up to an outcome that finishes. -/
theorem course_schedule {info : AddressInfo} {more : Nat}
    (hpassing : ∀ i < more, (outcomes (index + i)).Passing) (hmore : index + more < p.attempts)
    (ends : p.next address (index + more) (outcomes (index + more)) = .finished info) :
    p.Course address outcomes index (p.schedule outcomes index more) (.resolved info) := by
  induction more generalizing index with
  | zero => exact .finished ends
  | succ more ih =>
    have hnow : (outcomes index).Passing := hpassing 0 (Nat.succ_pos more)
    have hshift (i : Nat) : index + 1 + i = index + (i + 1) := by omega
    refine .retried (next_of_passing hnow (by omega)) (ih ?_ (by omega) ?_)
    · intro i hi
      rw [hshift]
      exact hpassing (i + 1) (Nat.succ_lt_succ hi)
    · rw [hshift]
      exact ends

/-! ## The trace of a course -/

def callsIn : List Action → Nat
  | [] => 0
  | .call _ :: rest => callsIn rest + 1
  | .sleep _ :: rest => callsIn rest

def waitsIn : List Action → List Duration
  | [] => []
  | .call _ :: rest => waitsIn rest
  | .sleep wait :: rest => wait :: waitsIn rest

theorem lt_attempts_of_retryAfter {wait : Duration}
    (h : p.next address index outcome = .retryAfter wait) : index + 1 < p.attempts :=
  (next_eq_retryAfter_iff.1 h).2.1

theorem Course.traceFrom_eq {actions : List Action} {result : Resolution} {left : Nat}
    (h : p.Course address outcomes index actions result) (hleft : p.attempts = index + left + 1) :
    p.traceFrom address outcomes index left =
      ⟨result, callsIn actions, waitsIn actions⟩ := by
  induction h generalizing left with
  | finished ends | crashed ends => cases left <;> simp [traceFrom, ends, callsIn, waitsIn]
  | retried again later ih =>
    have hmore := lt_attempts_of_retryAfter again
    obtain ⟨left, rfl⟩ : ∃ fewer, left = fewer + 1 := ⟨left - 1, by omega⟩
    have hlater := @ih left (by omega)
    simp [traceFrom, again, hlater, callsIn, waitsIn]

theorem callsIn_schedule (p : BackoffPolicy) (outcomes : Nat → Outcome) (index more : Nat) :
    callsIn (p.schedule outcomes index more) = more + 1 := by
  induction more generalizing index with
  | zero => rfl
  | succ more ih => rw [schedule, callsIn, callsIn, ih]

theorem waitsIn_schedule (p : BackoffPolicy) (outcomes : Nat → Outcome) (index more : Nat) :
    waitsIn (p.schedule outcomes index more) =
      (List.range' index more).map fun i => p.delay (UInt32.ofNat i) := by
  induction more generalizing index with
  | zero => rfl
  | succ more ih => rw [schedule, waitsIn, waitsIn, ih, List.range'_succ, List.map_cons]

theorem attempts_eq (p : BackoffPolicy) : p.attempts = p.maxAttempts.toNat - 1 + 1 := by
  unfold attempts
  omega

theorem trace_of_course {info : AddressInfo} {more : Nat}
    (h : p.Course address outcomes 0 (p.schedule outcomes 0 more) (.resolved info)) :
    p.trace address outcomes =
      ⟨.resolved info, more + 1, (List.range more).map fun i => p.delay (UInt32.ofNat i)⟩ := by
  have hattempts : p.attempts = 0 + (p.attempts - 1) + 1 := by
    rw [attempts_eq]
    omega
  rw [trace, h.traceFrom_eq hattempts, callsIn_schedule, waitsIn_schedule, List.range_eq_range']

/-! ## The attempts of a lookup -/

theorem attempts_lt (p : BackoffPolicy) : p.attempts < UInt32.size := by
  have hlt : p.maxAttempts.toNat < UInt32.size := p.maxAttempts.toNat_lt_size
  have hone : 1 < UInt32.size := by decide
  unfold attempts
  omega

/-- The waits of a lookup are the first of those that are added up in advance. -/
theorem waits_le_totalDelay {more : Nat} (h : more + 1 ≤ p.attempts) :
    (((List.range more).map fun i => p.delay (UInt32.ofNat i)).foldl Duration.add .zero).nanos ≤
      p.totalDelay.nanos := by
  obtain ⟨others, hothers⟩ : ∃ others, p.maxAttempts.toNat - 1 = more + others :=
    ⟨p.maxAttempts.toNat - 1 - more, by rw [attempts_eq] at h; omega⟩
  rw [totalDelay, hothers, List.range_add, List.map_append]
  exact Duration.foldl_add_append_le _ _

theorem waits_eq_totalDelay {more : Nat} (h : more + 1 = p.attempts) :
    ((List.range more).map fun i => p.delay (UInt32.ofNat i)).foldl Duration.add .zero =
      p.totalDelay := by
  have hmore : more = p.maxAttempts.toNat - 1 := by
    rw [attempts_eq] at h
    omega
  rw [hmore, totalDelay]

/-- A trace in which one call follows the other, each behind the wait that is due, and the numbers
of the attempts stay within their 32 bits. -/
structure Trace.Orderly (t : Trace) (p : BackoffPolicy) (address : String)
    (outcomes : Nat → Outcome) : Prop where
  course (actions : List Action) (result : Resolution) :
    p.Course address outcomes 0 actions result ↔
      actions = p.schedule outcomes 0 (t.calls - 1) ∧ result = t.result
  waits : t.waits = (List.range (t.calls - 1)).map fun i => p.delay (UInt32.ofNat i)
  total_le : (t.waits.foldl Duration.add .zero).nanos ≤ p.totalDelay.nanos
  total_eq (hall : t.calls = p.attempts) : t.waits.foldl Duration.add .zero = p.totalDelay
  number (i : Nat) (hi : i < t.calls) :
    (UInt32.ofNat i).toNat = i ∧ (UInt32.ofNat i + 1).toNat = i + 1

theorem orderly_of_course {info : AddressInfo} {more : Nat} (hmore : more + 1 ≤ p.attempts)
    (h : p.Course address outcomes 0 (p.schedule outcomes 0 more) (.resolved info)) :
    (p.trace address outcomes).Orderly p address outcomes := by
  rw [trace_of_course h]
  refine ⟨fun actions result => ⟨h.unique, ?_⟩, rfl, waits_le_totalDelay hmore,
    waits_eq_totalDelay, ?_⟩
  · rintro ⟨rfl, rfl⟩
    exact h
  · intro i hi
    have hattempts := p.attempts_lt
    have hi : i < more + 1 := hi
    have hlt : i + 1 < UInt32.size := by omega
    have hof : UInt32.ofNat i + 1 = UInt32.ofNat (i + 1) := by simp [UInt32.ofNat_add]
    exact ⟨UInt32.toNat_ofNat_of_lt' (by omega), by rw [hof, UInt32.toNat_ofNat_of_lt' hlt]⟩

/-- The attempts go on to the first final outcome, and to what it has told. -/
theorem course_of_firstFinal {j : Nat} (hcalm : ∀ message, outcomes j ≠ .crashed message)
    (hfinal : FirstFinal outcomes j) (hj : j < p.attempts) :
    ∃ info, p.Course address outcomes 0 (p.schedule outcomes 0 j) (.resolved info) ∧
      (∀ found, outcomes j = .found found → info = found) ∧
      ((∀ found, outcomes j ≠ .found found) → info = .unknown address) := by
  have hcourse (info : AddressInfo) (ends : p.next address j (outcomes j) = .finished info) :
      p.Course address outcomes 0 (p.schedule outcomes 0 j) (.resolved info) := by
    refine course_schedule ?_ ?_ ?_
    · intro i hi
      rw [Nat.zero_add]
      exact hfinal.2 i hi
    · rw [Nat.zero_add]
      exact hj
    · rw [Nat.zero_add]
      exact ends
  cases houtcome : outcomes j with
  | crashed message => exact absurd houtcome (hcalm message)
  | found info =>
    refine ⟨info, hcourse info (by rw [houtcome]; rfl), ?_, fun hnone => absurd rfl (hnone info)⟩
    rintro found ⟨⟩
    rfl
  | failed error =>
    have herror : ¬ (Outcome.failed error).Passing := houtcome ▸ hfinal.1
    exact ⟨_, hcourse _ (by rw [houtcome, next_of_failed herror]), nofun, fun _ => rfl⟩

/-- All attempts are made where none of them has a final outcome. -/
theorem course_of_passing (h : ∀ i < p.attempts, (outcomes i).Passing) :
    p.Course address outcomes 0 (p.schedule outcomes 0 (p.attempts - 1))
      (.resolved (.unknown address)) := by
  have hattempts := p.attempts_eq
  refine course_schedule ?_ (by omega) ?_
  · intro i hi
    rw [Nat.zero_add]
    exact h i (by omega)
  · rw [Nat.zero_add]
    exact next_of_last (h _ (by omega)) (by omega)

/-- However the attempts end without a breakdown, as many are made as it takes to a final outcome,
but no more than the policy allows, which are all if there is no final outcome. What has been found
by then is returned, and else that nothing is known. Between the calls, and nowhere else, lie the
waits of the policy; their sum keeps to the total that was foretold, and comes to it if all attempts
are made. -/
theorem attempts_and_waits (p : BackoffPolicy) (address : String) (outcomes : Nat → Outcome)
    (hcalm : ∀ i message, outcomes i ≠ .crashed message) :
    let most := max p.maxAttempts.toNat 1
    let t := p.trace address outcomes
    (∀ j, FirstFinal outcomes j → t.calls = min (j + 1) most ∧
      (∀ info, j < most → outcomes j = .found info → t.result = .resolved info) ∧
      ((∀ info, j < most → outcomes j ≠ .found info) →
        t.result = .resolved (.unknown address))) ∧
    ((∀ i, (outcomes i).Passing) → t.calls = most ∧ t.result = .resolved (.unknown address)) ∧
    t.Orderly p address outcomes := by
  intro most t
  have hmost : p.attempts = most := rfl
  have hpos := p.attempts_eq
  by_cases hfinal : ∃ j, j < p.attempts ∧ FirstFinal outcomes j
  · obtain ⟨j, hj, hfinal⟩ := hfinal
    obtain ⟨info, hcourse, hfound, hnone⟩ := course_of_firstFinal (hcalm j) hfinal hj
    have ht : t = ⟨.resolved info, j + 1, _⟩ := trace_of_course hcourse
    refine ⟨fun k hk => ?_, fun hall => absurd (hall j) hfinal.1, orderly_of_course hj hcourse⟩
    obtain rfl := hfinal.unique hk
    rw [ht]
    refine ⟨?_, fun found _ houtcome => ?_, fun hnot => ?_⟩
    · show k + 1 = min (k + 1) most
      omega
    · rw [hfound found houtcome]
    · rw [hnone fun found => hnot found (hmost ▸ hj)]
  · have hpassing : ∀ i < p.attempts, (outcomes i).Passing :=
      passing_of_not_firstFinal fun j hj hfirst => hfinal ⟨j, hj, hfirst⟩
    have hcourse : p.Course address outcomes 0 _ _ := course_of_passing hpassing
    have ht : t = ⟨.resolved (.unknown address), p.attempts - 1 + 1, _⟩ := trace_of_course hcourse
    refine ⟨fun k hk => ?_, fun _ => ?_, orderly_of_course (by omega) hcourse⟩
    · have hbeyond : p.attempts ≤ k := Nat.le_of_not_lt fun hlt => hfinal ⟨k, hlt, hk⟩
      rw [ht]
      refine ⟨?_, fun found hlt => absurd hlt (by omega), fun _ => rfl⟩
      show p.attempts - 1 + 1 = min (k + 1) most
      omega
    · rw [ht]
      refine ⟨?_, rfl⟩
      show p.attempts - 1 + 1 = most
      omega

/-- Two errors that may pass, and then an info at each further attempt. -/
def thirdTime : Nat → Outcome
  | 0 => .failed (.connect "refused")
  | 1 => .failed (.status 503 "")
  | _ => .found ⟨"8.8.8.8", some "US", none, none, none⟩

theorem firstFinal_thirdTime : FirstFinal thirdTime 2 := by
  refine ⟨nofun, fun i hi => ?_⟩
  obtain rfl | rfl : i = 0 ∨ i = 1 := by omega
  · exact .connect "refused"
  · exact .failing "" (by decide) (by decide)

/-- Five attempts are more than it takes, two are too few, and none is one. -/
theorem attempts_and_waits_thirdTime :
    (∀ i message, thirdTime i ≠ .crashed message) ∧ FirstFinal thirdTime 2 ∧
    (let p : BackoffPolicy := ⟨5, .ofMillis 500, 2.0⟩
      let t := p.trace "8.8.8.8" thirdTime
      t.calls = 3 ∧ t.result = .resolved ⟨"8.8.8.8", some "US", none, none, none⟩ ∧
        t.waits = [p.delay 0, p.delay 1]) ∧
    (let p : BackoffPolicy := ⟨2, .ofMillis 500, 2.0⟩
      let t := p.trace "8.8.8.8" thirdTime
      t.calls = 2 ∧ t.result = .resolved (.unknown "8.8.8.8") ∧
        t.waits.foldl Duration.add .zero = p.totalDelay) ∧
    (let p : BackoffPolicy := ⟨0, .zero, 0.0⟩
      let t := p.trace "8.8.8.8" thirdTime
      t.calls = 1 ∧ t.result = .resolved (.unknown "8.8.8.8")) := by
  have hcalm (i : Nat) (message : String) : thirdTime i ≠ .crashed message := by
    unfold thirdTime
    split <;> exact nofun
  have hfinal := firstFinal_thirdTime
  refine ⟨hcalm, hfinal, ?_, ?_, ?_⟩
  · obtain ⟨hfirst, -, horderly⟩ :=
      attempts_and_waits ⟨5, .ofMillis 500, 2.0⟩ "8.8.8.8" thirdTime hcalm
    obtain ⟨hcalls, hfound, -⟩ := hfirst 2 hfinal
    refine ⟨hcalls, hfound _ (by decide) rfl, ?_⟩
    rw [horderly.waits, hcalls]
    rfl
  · obtain ⟨hfirst, -, horderly⟩ :=
      attempts_and_waits ⟨2, .ofMillis 500, 2.0⟩ "8.8.8.8" thirdTime hcalm
    obtain ⟨hcalls, -, hnone⟩ := hfirst 2 hfinal
    exact ⟨hcalls, hnone fun _ hlt => absurd hlt (by decide), horderly.total_eq hcalls⟩
  · obtain ⟨hfirst, -, -⟩ := attempts_and_waits ⟨0, .zero, 0.0⟩ "8.8.8.8" thirdTime hcalm
    obtain ⟨hcalls, -, hnone⟩ := hfirst 2 hfinal
    exact ⟨hcalls, hnone fun _ hlt => absurd hlt (by decide)⟩

end BackoffPolicy

end AccessLog.Enrich

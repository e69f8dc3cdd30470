import AccessLog.Stats.Aggregator

/-! # What counters and aggregators hold

A counter tells for every key how often it was counted. An aggregator describes the events and the
failures that it was given, whatever their order: each event is counted once by its path, by its
address and by its status, and each failure once, the first ten of them in full. Counts are numbers
of 64 bits, so all equations here are between such numbers. -/

namespace AccessLog.Stats
open AccessLog.Log

section Order
variable {κ : Type} [Ord κ]

/-- Entries with ascending keys are settled by what they are. -/
theorem Ascending.eq_of_perm [Std.TransOrd κ] {entries others : List (κ × UInt64)}
    (h : Ascending entries) (h' : Ascending others) (hperm : entries.Perm others) :
    entries = others := by
  refine hperm.eq_of_pairwise ?_ h h'
  intro a b _ _ hab hba
  have hgt : compare b.1 a.1 = .gt := Std.OrientedCmp.gt_iff_lt.2 hab
  rw [hgt] at hba
  cases hba

theorem Ascending.nodup_keys [Std.TransOrd κ] [Std.LawfulEqOrd κ] {entries : List (κ × UInt64)}
    (h : Ascending entries) : (entries.map Prod.fst).Nodup := by
  refine List.pairwise_map.2 (h.imp ?_)
  intro a b hab heq
  have heq' : compare b.1 b.1 = .eq := Std.ReflCmp.compare_self
  rw [heq, heq'] at hab
  cases hab

/-- A new key goes among the entries, and changes none of them. -/
theorem setEntry_perm [Std.LawfulEqOrd κ] {key : κ} (count : UInt64) {entries : List (κ × UInt64)}
    (h : key ∉ entries.map Prod.fst) :
    (setEntry key count entries).Perm ((key, count) :: entries) := by
  induction entries with
  | nil => exact .refl _
  | cons e rest ih =>
    obtain ⟨k, n⟩ := e
    simp only [List.map_cons, List.mem_cons, not_or] at h
    simp only [setEntry]
    split
    · exact .refl _
    · rename_i heq
      exact absurd (Std.LawfulEqOrd.eq_of_compare heq) h.1
    · exact ((ih h.2).cons (k, n)).trans (.swap _ _ _)

/-- Counters are equal when they have the same entries and the same total. -/
theorem Counter.eq_of_perm [Std.TransOrd κ] {c d : Counter κ}
    (hcounts : c.counts.Perm d.counts) (htotal : c.total = d.total) : c = d := by
  have heq := c.ascending.eq_of_perm d.ascending hcounts
  cases c
  cases d
  obtain rfl := heq
  obtain rfl := htotal
  rfl

theorem Counter.ranking_perm (c : Counter κ) : c.ranking.Perm c.counts := List.mergeSort_perm _ _

theorem Counter.nodup_ranking [Std.TransOrd κ] [Std.LawfulEqOrd κ] (c : Counter κ) :
    (c.ranking.map Prod.fst).Nodup :=
  (c.ranking_perm.map Prod.fst).nodup_iff.2 c.ascending.nodup_keys

/-- A longer ranking begins with the shorter one. -/
theorem Counter.top_prefix [CounterKey κ] (c : Counter κ) {limit more : Nat} (h : limit ≤ more) :
    c.top limit <+: c.top more :=
  (List.take_prefix_take_left h).map _

end Order

section Counters
variable {κ : Type} [Ord κ] [Std.LawfulEqOrd κ] [DecidableEq κ]

theorem countOf_cons (key other : κ) (n : UInt64) (entries : List (κ × UInt64)) :
    countOf other ((key, n) :: entries) = if other = key then n else countOf other entries := by
  simp [countOf]

theorem countOf_setEntry (key other : κ) (n : UInt64) (entries : List (κ × UInt64)) :
    countOf other (setEntry key n entries) = if other = key then n else countOf other entries := by
  induction entries with
  | nil => exact countOf_cons key other n []
  | cons entry rest ih =>
    obtain ⟨k, m⟩ := entry
    simp only [setEntry]
    split
    · rw [countOf_cons]
    · rename_i heq
      obtain rfl := Std.LawfulEqOrd.eq_of_compare heq
      rw [countOf_cons, countOf_cons]
      by_cases hk : other = key <;> simp [hk]
    · rename_i hgt
      have hne : k ≠ key := by
        rintro rfl
        simp at hgt
      rw [countOf_cons, countOf_cons, ih]
      by_cases hk : other = k
      · simp [hk, hne]
      · simp [hk]

theorem Counter.count_increment [Std.TransOrd κ] (c : Counter κ) (key other : κ) :
    (c.increment key).count other = c.count other + UInt64.ofNat (if key = other then 1 else 0) := by
  have hset : (c.increment key).count other =
      if other = key then c.count key + 1 else c.count other :=
    countOf_setEntry key other _ c.counts
  rw [hset]
  by_cases h : other = key
  · subst h
    simp
  · have hne : ¬ key = other := fun he => h he.symm
    simp [h, hne]

end Counters

/-- A collector keeps the first failures, up to its limit. -/
theorem FailureSamples.samples_add (s : FailureSamples) {failures : List ParseFailure} {n : Nat}
    (hsamples : s.samples = failures.take n) (hlimit : s.limit.toNat = n)
    (failure : ParseFailure) :
    (s.add failure).samples = (failures ++ [failure]).take n := by
  by_cases hfull : failures.length < n
  · have hkept : s.samples = failures := by
      rw [hsamples, List.take_of_length_le (Nat.le_of_lt hfull)]
    have hadd : (s.add failure).samples = s.samples ++ [failure] := by
      simp [add, hlimit, hkept, hfull]
    rw [hadd, hkept, List.take_of_length_le (by simp; omega)]
  · have hlength : ¬ s.samples.length < n := by
      rw [hsamples, List.length_take]
      omega
    have hadd : (s.add failure).samples = s.samples := by
      simp only [add, hlimit, hlength, if_false]
    rw [hadd, hsamples, List.take_append_of_le_length (Nat.le_of_not_lt hfull)]

@[simp] theorem StatusClasses.bump_codes (s : StatusClasses) (c : Option StatusClass) :
    (s.bump c).codes = s.codes := by
  cases c with
  | none => rfl
  | some c => cases c <;> rfl

@[simp] theorem StatusClasses.increment_codes (s : StatusClasses) (code : UInt16) :
    (s.increment code).codes = s.codes.increment code := by
  simp [increment]

/-- The analysis tells of just these events and failures. -/
structure Analysis.Describes (a : Analysis) (events : List Event) (failures : List ParseFailure) :
    Prop where
  total : a.totalRequests = UInt64.ofNat events.length
  pathTotal : a.paths.total = UInt64.ofNat events.length
  addressTotal : a.addresses.total = UInt64.ofNat events.length
  path (path : String) :
    a.paths.count path = UInt64.ofNat (events.countP fun e => e.path = path)
  address (address : String) :
    a.addresses.count address = UInt64.ofNat (events.countP fun e => e.clientAddress = address)
  status (code : UInt16) :
    a.statuses.count code = UInt64.ofNat (events.countP fun e => e.status = code)
  failureTotal : a.failures.total = UInt64.ofNat failures.length
  limit : a.failures.limit = FailureSamples.defaultLimit
  samples : a.failures.samples = failures.take 10

theorem ofNat_length_append {α : Type} (xs : List α) (x : α) :
    UInt64.ofNat (xs ++ [x]).length = UInt64.ofNat xs.length + 1 := by
  rw [List.length_append, UInt64.ofNat_add]
  rfl

theorem ofNat_countP_append {α : Type} (p : α → Bool) (xs : List α) (x : α) :
    UInt64.ofNat ((xs ++ [x]).countP p) =
      UInt64.ofNat (xs.countP p) + UInt64.ofNat (if p x then 1 else 0) := by
  rw [List.countP_append, UInt64.ofNat_add]
  simp [List.countP_cons]

namespace Aggregator
variable {a : Aggregator} {events : List Event} {failures : List ParseFailure} (createdAt : Int64)

theorem describes_empty : (empty.finish createdAt).Describes [] [] where
  total := rfl
  pathTotal := rfl
  addressTotal := rfl
  path _ := rfl
  address _ := rfl
  status _ := rfl
  failureTotal := rfl
  limit := rfl
  samples := rfl

theorem describes_accumulate (h : (a.finish createdAt).Describes events failures) (e : Event) :
    ((a.accumulate e).finish createdAt).Describes (events ++ [e]) failures where
  total := by
    have hstep : ((a.accumulate e).finish createdAt).totalRequests =
        (a.finish createdAt).totalRequests + 1 := by
      simp [Analysis.totalRequests, StatusClasses.total, finish, accumulate, count,
        Counter.increment]
    rw [hstep, h.total, ofNat_length_append]
  pathTotal := by
    rw [ofNat_length_append, ← h.pathTotal]
    rfl
  addressTotal := by
    rw [ofNat_length_append, ← h.addressTotal]
    rfl
  path path := by
    rw [ofNat_countP_append, ← h.path]
    simp only [decide_eq_true_eq]
    exact a.paths.count_increment e.path path
  address address := by
    rw [ofNat_countP_append, ← h.address]
    simp only [decide_eq_true_eq]
    exact a.addresses.count_increment e.clientAddress address
  status code := by
    rw [ofNat_countP_append, ← h.status]
    simp only [decide_eq_true_eq]
    have hcodes := a.statuses.codes.count_increment e.status code
    rw [← StatusClasses.increment_codes] at hcodes
    exact hcodes
  failureTotal := h.failureTotal
  limit := h.limit
  samples := h.samples

theorem describes_recordFailure (h : (a.finish createdAt).Describes events failures)
    (failure : ParseFailure) :
    ((a.recordFailure failure).finish createdAt).Describes events (failures ++ [failure]) where
  total := h.total
  pathTotal := h.pathTotal
  addressTotal := h.addressTotal
  path := h.path
  address := h.address
  status := h.status
  failureTotal := by
    rw [ofNat_length_append, ← h.failureTotal]
    rfl
  limit := h.limit
  samples := by
    have hlimit : a.failures.limit.toNat = 10 := congrArg UInt64.toNat h.limit
    exact a.failures.samples_add h.samples hlimit failure

end Aggregator

end AccessLog.Stats

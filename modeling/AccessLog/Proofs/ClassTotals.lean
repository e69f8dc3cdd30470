import AccessLog.Proofs.PayloadRoundTrip
import AccessLog.Proofs.Rankings
import Mathlib.Algebra.BigOperators.Intervals
import Mathlib.Order.Interval.Finset.Nat

/-! # Class totals and the counts of codes

The totals of the four classes are counted up beside the counts of the codes and never looked up in
them. Still they say what going through all codes of a class would say, whatever has been counted,
and also after the counter has been written down and read back. -/

namespace AccessLog.Stats

/-! ## The codes of a class -/

/-- The least code of a class; its hundred codes begin there. -/
def StatusClass.least : StatusClass → Nat
  | success => 200
  | redirect => 300
  | clientError => 400
  | serverError => 500

/-- The last code of a class. -/
def StatusClass.greatest (k : StatusClass) : Nat := k.least + 99

theorem StatusClass.of?_eq_some_iff (code : UInt16) (k : StatusClass) :
    of? code = some k ↔ k.least ≤ code.toNat ∧ code.toNat ≤ k.greatest := by
  simp only [of?, UInt16.le_iff_toNat_le]
  cases k <;> simp only [greatest, least] <;> grind

namespace StatusClasses

/-- The total that is kept for a class. -/
def inClass (s : StatusClasses) : StatusClass → UInt64
  | .success => s.success
  | .redirect => s.redirect
  | .clientError => s.clientError
  | .serverError => s.serverError

theorem inClass_bump (s : StatusClasses) (c : Option StatusClass) (k : StatusClass) :
    (s.bump c).inClass k = s.inClass k + UInt64.ofNat (if c = some k then 1 else 0) := by
  cases c with
  | none => cases k <;> simp [bump, inClass]
  | some c => cases c <;> cases k <;> simp [bump, inClass]

theorem inClass_increment (s : StatusClasses) (code : UInt16) (k : StatusClass) :
    (s.increment code).inClass k =
      s.inClass k + UInt64.ofNat (if StatusClass.of? code = some k then 1 else 0) :=
  inClass_bump _ _ k

/-! ## Counters that are written down and read back -/

/-- The counter that a text tells of. -/
def deserialize? (text : String) : Option StatusClasses := (Json.parse? text).bind ofJson?

theorem deserialize?_compact {s : StatusClasses} {v : Json} (h : s.IsWrittenAs v) :
    deserialize? v.compact = some s := by
  rw [deserialize?, Json.parse?_compact h.legible, Option.bind_some, h.read]

/-- A new counter after increments by these codes. It may have been written down at any time, its
codes in any order, and have been read back. -/
inductive Counted : List UInt16 → StatusClasses → Prop
  | empty : Counted [] empty
  | increment {codes s} (past : Counted codes s) (code : UInt16) :
      Counted (codes ++ [code]) (s.increment code)
  | reload {codes s s' v} (past : Counted codes s) (written : s.IsWrittenAs v)
      (read : deserialize? v.compact = some s') : Counted codes s'

theorem eq_of_reload {s s' : StatusClasses} {v : Json} (written : s.IsWrittenAs v)
    (read : deserialize? v.compact = some s') : s' = s := by
  rw [deserialize?_compact written] at read
  exact (Option.some.inj read).symm

section Counted
variable {codes : List UInt16} {s : StatusClasses}

theorem Counted.codes_eq (h : Counted codes s) : s.codes = Counter.tally codes := by
  induction h with
  | empty => rfl
  | increment past code ih => rw [increment_codes, ih, Counter.tally_snoc]
  | reload past written read ih => rw [eq_of_reload written read, ih]

theorem Counted.inClass (h : Counted codes s) (k : StatusClass) :
    s.inClass k = UInt64.ofNat (codes.countP fun code => StatusClass.of? code = some k) := by
  induction h with
  | empty => cases k <;> rfl
  | increment past code ih =>
    rw [inClass_increment, ih, ofNat_countP_append]
    simp only [decide_eq_true_eq]
  | reload past written read ih => rw [eq_of_reload written read, ih]

theorem Counted.toNat_count (h : Counted codes s) (hfew : codes.length < UInt64.size)
    (code : UInt16) : (s.count code).toNat = codes.count code := by
  rw [count, h.codes_eq, Counter.toNat_count_tally hfew]

theorem Counted.toNat_total (h : Counted codes s) (hfew : codes.length < UInt64.size) :
    s.total.toNat = codes.length := by
  rw [total, h.codes_eq, Counter.total_tally, UInt64.toNat_ofNat_of_lt' hfew]

end Counted

/-! ## Going through the counts of the codes -/

/-- The sum of the counts of all codes from one to another. -/
def countsFrom (s : StatusClasses) (low high : Nat) : Nat :=
  ∑ code ∈ Finset.Icc low high, (s.count (UInt16.ofNat code)).toNat

/-- The shares of the classes, from the counts of the codes alone. -/
def rescanned (s : StatusClasses) : StatusDistribution :=
  let share (low high : Nat) : Float :=
    percentage (UInt64.ofNat (s.countsFrom low high)) (UInt64.ofNat (s.countsFrom 0 65535))
  ⟨share 200 299, share 300 399, share 400 499, share 500 599⟩

theorem countsFrom_append (s : StatusClasses) {low middle high : Nat} (hlow : low ≤ middle + 1)
    (hhigh : middle ≤ high) :
    s.countsFrom low high = s.countsFrom low middle + s.countsFrom (middle + 1) high := by
  simp only [countsFrom, ← Finset.Ico_add_one_right_eq_Icc]
  exact (Finset.sum_Ico_consecutive _ hlow (by omega)).symm

/-- Of the numbers of a range at most one is the number of a code. -/
theorem sum_ofNat_eq (code : UInt16) {low high : Nat} (hhigh : high < UInt16.size) :
    (∑ n ∈ Finset.Icc low high, if code = UInt16.ofNat n then 1 else 0) =
      if low ≤ code.toNat ∧ code.toNat ≤ high then 1 else 0 := by
  have hof (n : Nat) (hn : n ∈ Finset.Icc low high) : code = UInt16.ofNat n ↔ code.toNat = n := by
    have hlt : n < UInt16.size := Nat.lt_of_le_of_lt (Finset.mem_Icc.1 hn).2 hhigh
    rw [← UInt16.toNat_inj, UInt16.toNat_ofNat_of_lt' hlt]
  rw [Finset.sum_congr rfl fun n hn => if_congr (hof n hn) rfl rfl, Finset.sum_ite_eq]
  simp only [Finset.mem_Icc]

theorem sum_count_eq_countP (codes : List UInt16) {low high : Nat} (hhigh : high < UInt16.size) :
    ∑ n ∈ Finset.Icc low high, codes.count (UInt16.ofNat n) =
      codes.countP fun code => low ≤ code.toNat ∧ code.toNat ≤ high := by
  induction codes with
  | nil => simp
  | cons code codes ih =>
    simp only [List.count_cons, beq_iff_eq, Finset.sum_add_distrib, ih, sum_ofNat_eq code hhigh,
      List.countP_cons, decide_eq_true_eq]

section Rescan
variable {codes : List UInt16} {s : StatusClasses} (h : Counted codes s)
  (hfew : codes.length < UInt64.size)
include h hfew

theorem Counted.countsFrom {low high : Nat} (hhigh : high < UInt16.size) :
    s.countsFrom low high =
      codes.countP fun code => low ≤ code.toNat ∧ code.toNat ≤ high := by
  rw [StatusClasses.countsFrom, ← sum_count_eq_countP codes hhigh]
  exact Finset.sum_congr rfl fun n _ => h.toNat_count hfew _

/-- The total of a class is the sum of the counts of its codes. -/
theorem Counted.toNat_inClass (k : StatusClass) :
    (s.inClass k).toNat = s.countsFrom k.least k.greatest := by
  have hhigh : k.greatest < UInt16.size := by cases k <;> decide
  have hclass : (codes.countP fun code => StatusClass.of? code = some k) =
      codes.countP fun code => k.least ≤ code.toNat ∧ code.toNat ≤ k.greatest :=
    List.countP_congr fun code _ => by simp only [StatusClass.of?_eq_some_iff]
  rw [h.inClass, h.countsFrom hfew hhigh, hclass,
    UInt64.toNat_ofNat_of_lt' (Nat.lt_of_le_of_lt List.countP_le_length hfew)]

theorem Counted.countsFrom_all : s.countsFrom 0 65535 = s.total.toNat := by
  rw [h.countsFrom hfew (by decide), h.toNat_total hfew, List.countP_eq_length]
  intro code _
  have hlt : code.toNat < 65536 := code.toNat_lt_size
  simp only [decide_eq_true_eq]
  omega

end Rescan

/-- All codes are those below the classes, those of the classes and those above them. -/
theorem countsFrom_classes (s : StatusClasses) :
    s.countsFrom 0 65535 = s.countsFrom 0 199 + s.countsFrom 200 299 + s.countsFrom 300 399 +
      s.countsFrom 400 499 + s.countsFrom 500 599 + s.countsFrom 600 65535 := by
  have hupTo599 : s.countsFrom 0 65535 = s.countsFrom 0 599 + s.countsFrom 600 65535 :=
    s.countsFrom_append (by decide) (by decide)
  have hupTo499 : s.countsFrom 0 599 = s.countsFrom 0 499 + s.countsFrom 500 599 :=
    s.countsFrom_append (by decide) (by decide)
  have hupTo399 : s.countsFrom 0 499 = s.countsFrom 0 399 + s.countsFrom 400 499 :=
    s.countsFrom_append (by decide) (by decide)
  have hupTo299 : s.countsFrom 0 399 = s.countsFrom 0 299 + s.countsFrom 300 399 :=
    s.countsFrom_append (by decide) (by decide)
  have hupTo199 : s.countsFrom 0 299 = s.countsFrom 0 199 + s.countsFrom 200 299 :=
    s.countsFrom_append (by decide) (by decide)
  omega

/-- Below 2^64 increments, with reloads in between, the total of each class is the sum of the counts
of its codes, the totals and the counts of all other codes make up the number of increments, and the
distribution is that of a rescan. The counts are the numbers of occurrences, and whatever is written
down is read back. -/
theorem class_totals_rescanned {codes : List UInt16} {s : StatusClasses} (h : Counted codes s)
    (hfew : codes.length < UInt64.size) :
    (s.success.toNat = s.countsFrom 200 299 ∧ s.redirect.toNat = s.countsFrom 300 399 ∧
      s.clientError.toNat = s.countsFrom 400 499 ∧ s.serverError.toNat = s.countsFrom 500 599) ∧
    s.success.toNat + s.redirect.toNat + s.clientError.toNat + s.serverError.toNat +
      (s.countsFrom 0 199 + s.countsFrom 600 65535) = s.total.toNat ∧
    s.distribution = s.rescanned ∧
    (s.total.toNat = codes.length ∧ ∀ code, (s.count code).toNat = codes.count code) ∧
    ∀ v, s.IsWrittenAs v → deserialize? v.compact = some s := by
  have hsuccess : s.success.toNat = s.countsFrom 200 299 := h.toNat_inClass hfew .success
  have hredirect : s.redirect.toNat = s.countsFrom 300 399 := h.toNat_inClass hfew .redirect
  have hclient : s.clientError.toNat = s.countsFrom 400 499 := h.toNat_inClass hfew .clientError
  have hserver : s.serverError.toNat = s.countsFrom 500 599 := h.toNat_inClass hfew .serverError
  have hall : s.countsFrom 0 65535 = s.total.toNat := h.countsFrom_all hfew
  refine ⟨⟨hsuccess, hredirect, hclient, hserver⟩, ?_, ?_,
    ⟨h.toNat_total hfew, h.toNat_count hfew⟩, fun v => deserialize?_compact⟩
  · have hclasses := s.countsFrom_classes
    omega
  · simp only [distribution, rescanned, ← hsuccess, ← hredirect, ← hclient, ← hserver, hall,
      UInt64.ofNat_toNat]

/-- Codes at the borders of the first class and below it. -/
def lowBorders : StatusClasses := [199, 200, (299 : UInt16)].foldl increment empty

/-- They are written down with the codes in another order. -/
def reorderedBorders : Json :=
  .record [("codes", .record
      [("counts", Counter.countsJson [((299 : UInt16), 1), (199, 1), (200, 1)]),
        ("total", .nat 3)]),
    ("success", .nat 2), ("redirect", .nat 0), ("client_error", .nat 0), ("server_error", .nat 0)]

/-- After a reload the codes at the other end follow. -/
theorem class_totals_rescanned_borders :
    let s := (lowBorders.increment 599).increment 600
    Counted [199, 200, 299, 599, 600] s ∧
    [199, 200, 299, 599, (600 : UInt16)].length < UInt64.size ∧
    lowBorders.IsWrittenAs reorderedBorders ∧
    (s.success = 2 ∧ s.success.toNat = s.countsFrom 200 299) ∧
    2 + 0 + 0 + 1 + (s.countsFrom 0 199 + s.countsFrom 600 65535) = 5 ∧
    s.distribution = s.rescanned := by
  intro s
  have hwritten : lowBorders.IsWrittenAs reorderedBorders :=
    ⟨_, ⟨_, List.isPerm_iff.1 (by decide), rfl⟩, rfl⟩
  have hlow : Counted [199, 200, 299] lowBorders :=
    ((Counted.empty.increment 199).increment 200).increment 299
  have hcounted : Counted [199, 200, 299, 599, 600] s :=
    ((hlow.reload hwritten (deserialize?_compact hwritten)).increment 599).increment 600
  obtain ⟨⟨hsuccess, -, -, -⟩, htotal, hdistribution, -, -⟩ :=
    class_totals_rescanned hcounted (by decide)
  exact ⟨hcounted, by decide, hwritten, ⟨rfl, hsuccess⟩, htotal, hdistribution⟩

end StatusClasses

end AccessLog.Stats

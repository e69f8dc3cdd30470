import AccessLog.Enrich.Backoff
import Mathlib.Algebra.Order.Round
import Mathlib.Data.Rat.Floor
import Mathlib.Tactic.NormNum
import Mathlib.Tactic.Positivity

/-! # Delays in exact numbers

The delay computed in rational numbers in place of doubles. It is the base wait times the
multiplier to the power of the signed exponent, in whole nanoseconds of 64 bits. In the lower half
of the indices it grows with the index and stays at the greatest value once it is there. In the
upper half the exponent is negative: there the delay is at most the base wait and grows towards it
again. -/

namespace AccessLog.Numeric
open Float.Model

/-! ## The value of a double -/

/-- The number that a finite double stands for; zero for any other. -/
def exactValue (f : Float) : ℚ :=
  match f.toModel.unpack with
  | .finite sign mantissa exponent _ => (sign.apply (mantissa : ℤ) : ℚ) * 2 ^ exponent
  | _ => 0

theorem exactValue_two : exactValue 2.0 = 2 := by
  have hunpack : (2.0 : Float).toModel.unpack = .finite .positive (2 ^ 52) (-51) (by decide) := rfl
  calc exactValue 2.0 = ((2 ^ 52 : ℕ) : ℤ) * 2 ^ (-51 : ℤ) := by
        unfold exactValue
        rw [hunpack]
        rfl
    _ = 2 := by norm_num

/-- Above the least exponent the leading bit of the significand is set. -/
theorem leadingBit_of_exponent {f : Float.Model} {sign : UnpackedFloat.Sign} {mantissa : ℕ}
    {exponent : ℤ} {pos : 0 < mantissa} (hf : f.unpack = .finite sign mantissa exponent pos)
    (hexp : -1074 < exponent) : 2 ^ 52 ≤ mantissa := by
  delta Float.Model.unpack UnpackedFloat.unpack at hf
  obtain ⟨-, hspecial⟩ | ⟨-, hfinite⟩ := ite_eq_iff.1 hf
  · obtain ⟨-, h⟩ | ⟨-, h⟩ := ite_eq_iff.1 hspecial <;> cases h
  · obtain ⟨hzero, hsmall⟩ | ⟨-, hnormal⟩ := ite_eq_iff.1 hfinite
    · obtain ⟨_, h⟩ | ⟨_, h⟩ := dite_eq_iff.1 hsmall
      · cases h
      · -- an exponent field of zero is the least exponent
        obtain ⟨-, -, rfl⟩ := h
        rw [hzero] at hexp
        simp [Format.exponentBias] at hexp
    · obtain ⟨-, rfl, -⟩ := hnormal
      rw [BitVec.toNat_append]
      exact Nat.left_le_or

/-- Positive doubles are compared by their exponents first, which orders their values because the
significands of all exponents but the least have the leading bit. -/
theorem one_le_exactValue {f : Float} (hfinite : f.isFinite = true) (hone : f ≥ 1.0) :
    1 ≤ exactValue f := by
  have hunpack : (1.0 : Float).toModel.unpack = .finite .positive (2 ^ 52) (-52) (by decide) := rfl
  have hle : (1.0 : Float).toModel.unpack.le f.toModel.unpack = true := of_decide_eq_true hone
  have hfin : f.toModel.unpack.isFinite = true := hfinite
  rw [hunpack] at hle
  unfold exactValue
  cases hf : f.toModel.unpack with
  | notANumber | infinity =>
    rw [hf] at hfin
    exact absurd hfin Bool.false_ne_true
  | zero =>
    rw [hf] at hle
    exact absurd hle Bool.false_ne_true
  | finite sign mantissa exponent pos =>
    rw [hf] at hle
    cases sign with
    | negative => exact absurd hle Bool.false_ne_true
    | positive =>
      have hcompare : ((compare (-52) exponent).then (compare (2 ^ 52) mantissa)).isLE = true := hle
      rw [Ordering.isLE_then_iff_or, Int.compare_eq_lt, Int.compare_eq_eq, Nat.isLE_compare]
        at hcompare
      have hbit : 2 ^ 52 ≤ mantissa :=
        hcompare.elim (fun h => leadingBit_of_exponent hf (by omega)) And.right
      have hexp : -52 ≤ exponent := hcompare.elim Int.le_of_lt fun h => h.1.le
      calc (1 : ℚ) = 2 ^ 52 * 2 ^ (-52 : ℤ) := by norm_num
        _ ≤ mantissa * 2 ^ exponent := by
          gcongr
          · exact_mod_cast hbit
          · norm_num

end AccessLog.Numeric

namespace AccessLog.Enrich
open AccessLog.Time
open AccessLog.Numeric (exactValue)

/-! ## Whole nanoseconds -/

/-- The nearest whole number, a half going up, within the range of 64 bits. -/
def wholeNanos (q : ℚ) : ℕ := min (round q).toNat (UInt64.size - 1)

theorem wholeNanos_mono {q r : ℚ} (h : q ≤ r) : wholeNanos q ≤ wholeNanos r := by
  have hround : round q ≤ round r := by
    rw [round_eq, round_eq]
    exact Int.floor_le_floor (by linarith)
  unfold wholeNanos
  omega

theorem wholeNanos_natCast {n : ℕ} (h : n < UInt64.size) : wholeNanos (n : ℚ) = n := by
  rw [wholeNanos, round_natCast, Int.toNat_natCast]
  omega

theorem wholeNanos_of_size_le {q : ℚ} (h : (UInt64.size : ℕ) ≤ q) :
    wholeNanos q = UInt64.size - 1 := by
  refine Nat.le_antisymm (min_le_right _ _) ?_
  calc UInt64.size - 1 = wholeNanos (UInt64.size - 1 : ℕ) :=
        (wholeNanos_natCast (Nat.sub_lt (by decide) Nat.one_pos)).symm
    _ ≤ wholeNanos q := wholeNanos_mono (le_trans (by exact_mod_cast Nat.sub_le _ _) h)

theorem wholeNanos_of_lt_half {q : ℚ} (h : q < 1 / 2) : wholeNanos q = 0 := by
  have hround : round q ≤ 0 := by
    rw [round_eq, ← Int.lt_add_one_iff, Int.floor_lt]
    push_cast
    linarith
  rw [wholeNanos, Int.toNat_of_nonpos hround, Nat.zero_min]

instance : DelayNumber ℚ where
  one := 1
  mul a b := a * b
  div a b := a / b
  ofNanos n := n
  toNanos := wholeNanos

/-! ## The power -/

/-- Halving the exponent squares the base; the bit that is lost has gone into the result. -/
theorem powerFrom_rat (result square : ℚ) (exponent : ℕ) :
    powerFrom result square exponent = result * square ^ exponent := by
  have hbit : ∀ result square : ℚ, ∀ exponent : ℕ,
      (if exponent % 2 = 1 then DelayNumber.mul result square else result) =
        result * square ^ (exponent % 2) := by
    intro result square exponent
    rcases Nat.mod_two_eq_zero_or_one exponent with h | h
    · rw [h, if_neg Nat.zero_ne_one, pow_zero, mul_one]
    · rw [h, if_pos rfl, pow_one]
      rfl
  fun_induction powerFrom result square exponent with
  | case1 result square exponent result' hlast =>
    have hlow : exponent % 2 = exponent := by omega
    calc result' = result * square ^ (exponent % 2) := hbit result square exponent
      _ = result * square ^ exponent := by rw [hlow]
  | case2 result square exponent result' hmore ih =>
    calc powerFrom result' (DelayNumber.mul square square) (exponent / 2)
        = result' * (square * square) ^ (exponent / 2) := ih
      _ = result * square ^ (exponent % 2) * (square * square) ^ (exponent / 2) :=
        congrArg (· * _) (hbit result square exponent)
      _ = result * square ^ (exponent % 2 + 2 * (exponent / 2)) := by
        rw [← pow_two, ← pow_mul, mul_assoc, ← pow_add]
      _ = result * square ^ exponent := by rw [Nat.mod_add_div]

theorem power_rat (base : ℚ) (exponent : ℤ) : power base exponent = base ^ exponent := by
  have hvalue : powerFrom (DelayNumber.one : ℚ) base exponent.natAbs = base ^ exponent.natAbs :=
    (powerFrom_rat 1 base _).trans (one_mul _)
  rw [power, hvalue]
  split
  · rename_i hneg
    calc 1 / base ^ exponent.natAbs = base ^ (-(exponent.natAbs : ℤ)) := by
          rw [zpow_neg, zpow_natCast, one_div]
      _ = base ^ exponent := by rw [Int.ofNat_natAbs_of_nonpos hneg.le, neg_neg]
  · rename_i hnonneg
    rw [← zpow_natCast, Int.natAbs_of_nonneg (Int.not_lt.1 hnonneg)]

/-- The exponent is the index itself below two to the power 31, and from there on the index less
two to the power 32. -/
theorem exponentOf_eq (index : UInt32) :
    exponentOf index =
      if index.toNat < 2 ^ 31 then (index.toNat : ℤ) else (index.toNat : ℤ) - 2 ^ 32 := by
  have hbits : exponentOf index = index.toBitVec.toInt := rfl
  rw [hbits, BitVec.toInt_eq_toNat_cond, UInt32.toNat_toBitVec]
  split <;> split <;> omega

/-! ## The delay -/

namespace BackoffPolicy

/-- The wait after the attempt with the given index as rational numbers have it. -/
def exactDelay (p : BackoffPolicy) (index : UInt32) : Duration :=
  ⟨delayNanos p.baseWait.nanos (exactValue p.multiplier) index⟩

theorem exactDelay_eq (p : BackoffPolicy) (index : UInt32) :
    p.exactDelay index =
      ⟨wholeNanos (p.baseWait.nanos * exactValue p.multiplier ^ exponentOf index)⟩ := by
  rw [exactDelay, delayNanos, power_rat]
  rfl

theorem exactDelay_le {p : BackoffPolicy} (hone : 1 ≤ exactValue p.multiplier) {i j : UInt32}
    (h : exponentOf i ≤ exponentOf j) : (p.exactDelay i).nanos ≤ (p.exactDelay j).nanos := by
  rw [exactDelay_eq, exactDelay_eq]
  exact wholeNanos_mono (mul_le_mul_of_nonneg_left (zpow_le_zpow_right₀ hone h) (Nat.cast_nonneg _))

theorem one_le_multiplier (maxAttempts : UInt32) (baseWait : Duration) (multiplier : Float) :
    1 ≤ exactValue (of maxAttempts baseWait multiplier).multiplier := by
  simp only [of]
  split
  · rename_i h
    obtain ⟨hfinite, hone⟩ := Bool.and_eq_true_iff.1 h
    exact Numeric.one_le_exactValue hfinite (of_decide_eq_true hone)
  · rw [defaultMultiplier, Numeric.exactValue_two]
    norm_num

/-- The delays grow within each half of the indices, and a delay of the upper half is never longer
than one of the lower half. -/
theorem exactDelay_le_iff (maxAttempts : UInt32) (baseWait : Duration) (multiplier : Float) :
    let p := BackoffPolicy.of maxAttempts baseWait multiplier
    let q := exactValue p.multiplier
    1 ≤ q ∧
    (∀ i : UInt32, i.toNat < 2 ^ 31 →
      p.exactDelay i = ⟨wholeNanos (baseWait.nanos * q ^ i.toNat)⟩) ∧
    (∀ i : UInt32, 2 ^ 31 ≤ i.toNat →
      p.exactDelay i = ⟨wholeNanos (baseWait.nanos / q ^ (2 ^ 32 - i.toNat))⟩) ∧
    ∀ i j : UInt32, i ≤ j →
      ((p.exactDelay i).nanos ≤ (p.exactDelay j).nanos ↔
        j.toNat < 2 ^ 31 ∨ 2 ^ 31 ≤ i.toNat ∨ p.exactDelay i = p.exactDelay j) := by
  intro p q
  have hone : 1 ≤ q := one_le_multiplier maxAttempts baseWait multiplier
  refine ⟨hone, fun i hi => ?_, fun i hi => ?_, fun i j hij => ⟨fun h => ?_, ?_⟩⟩
  · rw [exactDelay_eq, exponentOf_eq, if_pos hi, zpow_natCast]
    rfl
  · have hlt : i.toNat < 2 ^ 32 := i.toNat_lt_size
    have hexp : exponentOf i = -((2 ^ 32 - i.toNat : ℕ) : ℤ) := by
      rw [exponentOf_eq, if_neg (Nat.not_lt.2 hi)]
      omega
    rw [exactDelay_eq, hexp, zpow_neg, zpow_natCast, ← div_eq_mul_inv]
    rfl
  · by_cases hj : j.toNat < 2 ^ 31
    · exact .inl hj
    · by_cases hi : 2 ^ 31 ≤ i.toNat
      · exact .inr (.inl hi)
      · -- the exponent of `j` is negative and that of `i` is not
        have hexp : exponentOf j ≤ exponentOf i := by
          have hlt : j.toNat < 2 ^ 32 := j.toNat_lt_size
          rw [exponentOf_eq, exponentOf_eq, if_neg hj, if_pos (Nat.not_le.1 hi)]
          omega
        exact .inr (.inr (congrArg Duration.mk (Nat.le_antisymm h (exactDelay_le hone hexp))))
  · have hle : i.toNat ≤ j.toNat := UInt32.le_iff_toNat_le.1 hij
    rintro (hj | hi | heq)
    · refine exactDelay_le hone ?_
      rw [exponentOf_eq, exponentOf_eq, if_pos hj, if_pos (Nat.lt_of_le_of_lt hle hj)]
      omega
    · refine exactDelay_le hone ?_
      rw [exponentOf_eq, exponentOf_eq, if_neg (by omega), if_neg (by omega)]
      omega
    · rw [heq]

/-- Two indices of the lower half, two of the upper half, and one of each. -/
theorem exactDelay_le_iff_halves :
    let p := BackoffPolicy.of 3 (.ofMillis 500) 2.0
    ((0 : UInt32) ≤ 2 ∧ (p.exactDelay 0).nanos ≤ (p.exactDelay 2).nanos) ∧
    ((2147483648 : UInt32) ≤ 4294967295 ∧
      (p.exactDelay 2147483648).nanos ≤ (p.exactDelay 4294967295).nanos) ∧
    ((2 : UInt32) ≤ 4294967295 ∧
      ((p.exactDelay 2).nanos ≤ (p.exactDelay 4294967295).nanos →
        p.exactDelay 2 = p.exactDelay 4294967295)) := by
  intro p
  obtain ⟨-, -, -, hiff⟩ := exactDelay_le_iff 3 (.ofMillis 500) 2.0
  refine ⟨⟨by decide, ?_⟩, ⟨by decide, ?_⟩, ⟨by decide, fun hle => ?_⟩⟩
  · exact (hiff 0 2 (by decide)).2 (.inl (by decide))
  · exact (hiff 2147483648 4294967295 (by decide)).2 (.inr (.inl (by decide)))
  · exact ((hiff 2 4294967295 (by decide)).1 hle).resolve_left (by decide) |>.resolve_left (by decide)

/-- Half a second doubled: the greatest delay is followed by none. -/
theorem exactDelay_collapses :
    let p := BackoffPolicy.of 4294967295 (.ofMillis 500) 2.0
    p.exactDelay 0 = .ofMillis 500 ∧
    p.exactDelay 2147483647 = ⟨UInt64.size - 1⟩ ∧
    p.exactDelay 2147483648 = .zero ∧
    p.exactDelay 4294967295 = .ofMillis 250 ∧
    ¬ ∀ i j : UInt32, i ≤ j → (p.exactDelay i).nanos ≤ (p.exactDelay j).nanos := by
  intro p
  have hdelay : ∀ index, p.exactDelay index = ⟨wholeNanos (500000000 * 2 ^ exponentOf index)⟩ := by
    intro index
    have hmultiplier : p.multiplier = 2.0 := by decide +kernel
    have hbase : p.baseWait = ⟨500000000⟩ := rfl
    rw [exactDelay_eq, hmultiplier, hbase, Numeric.exactValue_two]
    norm_num
  have hfirst : p.exactDelay 0 = .ofMillis 500 := by
    rw [hdelay, show exponentOf 0 = 0 by decide, zpow_zero, mul_one]
    exact congrArg Duration.mk (wholeNanos_natCast (n := 500000000) (by decide))
  have hgreatest : p.exactDelay 2147483647 = ⟨UInt64.size - 1⟩ := by
    have hexp : 64 ≤ exponentOf 2147483647 := by decide
    rw [hdelay, wholeNanos_of_size_le]
    calc ((UInt64.size : ℕ) : ℚ) = 1 * 2 ^ (64 : ℤ) := by norm_num [UInt64.size]
      _ ≤ 500000000 * 2 ^ exponentOf 2147483647 := by
        gcongr
        · norm_num
        · norm_num
  have hnone : p.exactDelay 2147483648 = .zero := by
    have hexp : exponentOf 2147483648 ≤ -64 := by decide
    rw [hdelay, wholeNanos_of_lt_half]
    · rfl
    calc 500000000 * (2 : ℚ) ^ exponentOf 2147483648 ≤ 500000000 * 2 ^ (-64 : ℤ) := by
          gcongr
          norm_num
      _ < 1 / 2 := by norm_num
  have hlast : p.exactDelay 4294967295 = .ofMillis 250 := by
    have hhalf : (500000000 : ℚ) * 2 ^ (-1 : ℤ) = (250000000 : ℕ) := by norm_num
    rw [hdelay, show exponentOf 4294967295 = -1 by decide, hhalf]
    exact congrArg Duration.mk (wholeNanos_natCast (by decide))
  refine ⟨hfirst, hgreatest, hnone, hlast, fun h => ?_⟩
  have hle := h 0 2147483648 (by decide)
  rw [hfirst, hnone] at hle
  exact absurd hle (by decide)

end BackoffPolicy

end AccessLog.Enrich

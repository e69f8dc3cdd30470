import AccessLog.Text.Integer

/-! # Decimal numbers

A numeral is one ASCII digit or more, with any number of zeros in front. The readers of whole
numbers accept a numeral behind a sign that they know, as long as its value is within their bounds,
and nothing else. -/

namespace AccessLog.Text

/-- The text consists of digits, at least one, and denotes the number. -/
structure Numeral (cs : List Char) (n : Nat) : Prop where
  nonempty : cs ≠ []
  digits : ∀ c ∈ cs, c.isDigit = true
  value : Nat.ofDigitChars 10 cs 0 = n

/-- A numeral, perhaps behind a plus. -/
inductive Unsigned : List Char → Nat → Prop
  | bare {cs : List Char} {n : Nat} : Numeral cs n → Unsigned cs n
  | plus {cs : List Char} {n : Nat} : Numeral cs n → Unsigned ('+' :: cs) n

/-- A numeral, perhaps behind a sign. -/
inductive Signed : List Char → Int → Prop
  | bare {cs : List Char} {n : Nat} : Numeral cs n → Signed cs n
  | plus {cs : List Char} {n : Nat} : Numeral cs n → Signed ('+' :: cs) n
  | minus {cs : List Char} {n : Nat} : Numeral cs n → Signed ('-' :: cs) (-n)

theorem digit?_eq_some_iff {c : Char} {d : Nat} :
    digit? c = some d ↔ c.isDigit = true ∧ c.toNat - 48 = d := by
  unfold digit?
  by_cases h : '0' ≤ c ∧ c ≤ '9'
  · have hdigit : c.isDigit = true := by
      simp only [Char.isDigit, Bool.and_eq_true, decide_eq_true_eq]
      exact h
    simp [h, hdigit]
  · have hdigit : ¬ c.isDigit = true := by
      simp only [Char.isDigit, Bool.and_eq_true, decide_eq_true_eq]
      exact h
    simp [h, hdigit]

theorem moreDigits_eq_some_iff {cs : List Char} {value n : Nat} :
    moreDigits value cs = some n ↔
      (∀ c ∈ cs, c.isDigit = true) ∧ Nat.ofDigitChars 10 cs value = n := by
  induction cs generalizing value with
  | nil => simp [moreDigits]
  | cons c cs ih =>
    simp only [moreDigits, Option.bind_eq_some_iff, digit?_eq_some_iff, ih, Nat.ofDigitChars_cons,
      List.forall_mem_cons]
    constructor
    · rintro ⟨_, ⟨hc, rfl⟩, hcs, hvalue⟩
      exact ⟨⟨hc, hcs⟩, hvalue⟩
    · rintro ⟨⟨hc, hcs⟩, hvalue⟩
      exact ⟨_, ⟨hc, rfl⟩, hcs, hvalue⟩

theorem digits?_eq_some_iff {cs : List Char} {n : Nat} : digits? cs = some n ↔ Numeral cs n := by
  cases cs with
  | nil => exact iff_of_false (by simp [digits?]) fun h => h.nonempty rfl
  | cons c cs =>
    rw [digits?, moreDigits_eq_some_iff]
    exact ⟨fun h => ⟨List.cons_ne_nil _ _, h.1, h.2⟩, fun h => ⟨h.digits, h.value⟩⟩

theorem isDigit_toDigits (n : Nat) : ∀ c ∈ Nat.toDigits 10 n, c.isDigit = true :=
  fun _ hc => Nat.isDigit_of_mem_toDigits (by decide) (by decide) hc

theorem not_numeral_of_sign {c : Char} {cs : List Char} {n : Nat} (hc : c.isDigit = false) :
    ¬ Numeral (c :: cs) n := by
  intro h
  have hdigit := h.digits c List.mem_cons_self
  simp [hc] at hdigit

theorem unsigned?_eq_some_iff {bound n : Nat} {cs : List Char} :
    unsigned? bound cs = some n ↔ Unsigned cs n ∧ n < bound := by
  unfold unsigned?
  rw [Option.filter_eq_some_iff, decide_eq_true_eq, digits?_eq_some_iff]
  refine and_congr_left fun _ => ?_
  constructor
  · intro h
    split at h
    · exact .plus h
    · exact .bare h
  · intro h
    cases h with
    | bare h =>
      split
      · exact absurd h (not_numeral_of_sign rfl)
      · exact h
    | plus h => exact h

theorem signed64?_eq_some_iff {cs : List Char} {v : Int} :
    signed64? cs = some v ↔ Signed cs v ∧ least64 ≤ v ∧ v ≤ greatest64 := by
  unfold signed64?
  simp only [Option.filter_eq_some_iff, Bool.and_eq_true, decide_eq_true_eq]
  refine and_congr_left fun _ => ?_
  constructor
  · intro h
    split at h
    · obtain ⟨n, hn, rfl⟩ := Option.map_eq_some_iff.1 h
      exact .plus (digits?_eq_some_iff.1 hn)
    · obtain ⟨_, hvalue, rfl⟩ := Option.map_eq_some_iff.1 h
      obtain ⟨n, hn, hcast⟩ := Option.bind_eq_some_iff.1 hvalue
      obtain rfl := Option.some.inj hcast
      exact .minus (digits?_eq_some_iff.1 hn)
    · obtain ⟨n, hn, rfl⟩ := Option.map_eq_some_iff.1 h
      exact .bare (digits?_eq_some_iff.1 hn)
  · intro h
    cases h with
    | bare h =>
      split
      · exact absurd h (not_numeral_of_sign rfl)
      · exact absurd h (not_numeral_of_sign rfl)
      · exact Option.map_eq_some_iff.2 ⟨_, digits?_eq_some_iff.2 h, rfl⟩
    | plus h => exact Option.map_eq_some_iff.2 ⟨_, digits?_eq_some_iff.2 h, rfl⟩
    | minus h =>
      refine Option.map_eq_some_iff.2 ⟨_, ?_, rfl⟩
      exact Option.bind_eq_some_iff.2 ⟨_, digits?_eq_some_iff.2 h, rfl⟩

end AccessLog.Text

import AccessLog.Json.Decode
import AccessLog.Proofs.DecimalNumbers

/-! # Literals read back

What is written between quotation marks, and every whole number that is written, is found again in
a text and denotes what was written. A string ends at its quotation mark, since none stands inside
it without a backslash. A number ends where neither a digit, a point nor an exponent goes on. -/

namespace AccessLog.Text

/-- The digits of a number denote it. -/
theorem digits?_toDigits (n : Nat) : digits? (Nat.toDigits 10 n) = some n :=
  digits?_eq_some_iff.2 ⟨Nat.toDigits_ne_nil, isDigit_toDigits n, Nat.ofDigitChars_ten_toDigits⟩

theorem digitChar_ne_zero : ∀ n < 10, 0 < n → Nat.digitChar n ≠ '0' := by decide

/-- Only zero begins with a zero. -/
theorem head_toDigits {n : Nat} (h : 0 < n) :
    ∃ c cs, Nat.toDigits 10 n = c :: cs ∧ c ≠ '0' := by
  induction n using Nat.strongRecOn with
  | ind n ih =>
    rw [Nat.toDigits_eq_if (by decide)]
    split
    · rename_i hlt
      exact ⟨_, _, rfl, digitChar_ne_zero n hlt h⟩
    · obtain ⟨c, cs, hcs, hc⟩ := ih (n / 10) (by omega) (by omega)
      exact ⟨c, cs ++ [(n % 10).digitChar], by rw [hcs]; rfl, hc⟩

theorem toList_toString_ofNat (n : Nat) :
    (toString (Int.ofNat n)).toList = Nat.toDigits 10 n := by
  show (Nat.repr n).toList = _
  rw [Nat.repr_eq_ofList_toDigits, String.toList_ofList]

theorem toList_toString_negSucc (n : Nat) :
    (toString (Int.negSucc n)).toList = '-' :: Nat.toDigits 10 (n + 1) := by
  show ("-" ++ Nat.repr (n + 1)).toList = _
  rw [Nat.repr_eq_ofList_toDigits, String.toList_append, String.toList_ofList]
  simp

end AccessLog.Text

namespace AccessLog.Json
open AccessLog.Text

/-! ## Strings -/

theorem isHex_hexDigit : ∀ n < 16, isHex (hexDigit n) = true := by decide

theorem hexValue_hexDigit : ∀ n < 16, hexValue (hexDigit n) = n := by decide

/-- How a character is written: as itself, in a short form, or by its code point. -/
theorem escapeChar_cases (c : Char) :
    (escapeChar c = [c] ∧ c ≠ '"' ∧ c ≠ '\\' ∧ 0x20 ≤ c.toNat) ∨
    (∃ e, escapeChar c = ['\\', e] ∧ isShortEscape e = true ∧ e ≠ 'u' ∧ shortEscape e = c) ∨
    (c.toNat < 0x20 ∧ escapeChar c =
      ['\\', 'u', '0', '0', hexDigit (c.toNat / 16), hexDigit (c.toNat % 16)]) := by
  have hshort {d e : Char} (h : isShortEscape e = true ∧ e ≠ 'u' ∧ shortEscape e = d) (hc : c = d) :
      ∃ e', ['\\', e] = ['\\', e'] ∧ isShortEscape e' = true ∧ e' ≠ 'u' ∧ shortEscape e' = c :=
    ⟨e, rfl, h.1, h.2.1, h.2.2.trans hc.symm⟩
  have hcode {n : Nat} (h : c.toNat = n) : c = Char.ofNat n := by rw [← h, Char.ofNat_toNat]
  unfold escapeChar
  split
  · rename_i h; exact .inr (.inl (hshort (by decide) h))
  split
  · rename_i h; exact .inr (.inl (hshort (by decide) h))
  split
  · rename_i h; exact .inr (.inl (hshort (by decide) (hcode h)))
  split
  · rename_i h; exact .inr (.inl (hshort (by decide) h))
  split
  · rename_i h; exact .inr (.inl (hshort (by decide) h))
  split
  · rename_i h; exact .inr (.inl (hshort (by decide) (hcode h)))
  split
  · rename_i h; exact .inr (.inl (hshort (by decide) h))
  split
  · rename_i h; exact .inr (.inr ⟨h, rfl⟩)
  · rename_i hquote hbackslash _ _ _ _ _ h
    exact .inl ⟨rfl, hquote, hbackslash, Nat.le_of_not_lt h⟩

/-- Four digits that give the code point of a control character denote it. -/
theorem unescape_control {c : Char} (hc : c.toNat < 0x20) {x y z w : Char}
    (h : hexValues [x, y, z, w] = c.toNat) (rest : List Char) :
    unescape ('\\' :: 'u' :: x :: y :: z :: w :: rest) = (unescape rest).map (c :: ·) := by
  have hlow : isLowSurrogate c.toNat = false := by simp [isLowSurrogate]; omega
  have hhigh : isHighSurrogate c.toNat = false := by simp [isHighSurrogate]; omega
  rw [unescape.eq_def]
  simp only [h, hlow, hhigh, Bool.false_eq_true, if_false, Char.ofNat_toNat]

theorem unescape_escapeChar (c : Char) (rest : List Char) :
    unescape (escapeChar c ++ rest) = (unescape rest).map (c :: ·) := by
  rcases escapeChar_cases c with ⟨heq, -, hbackslash, -⟩ | ⟨e, heq, -, hu, he⟩ | ⟨hc, heq⟩
  · rw [heq]
    simp [unescape, hbackslash]
  · rw [heq]
    simp [unescape, hu, he]
  · rw [heq]
    refine unescape_control hc ?_ rest
    have hfirst := hexValue_hexDigit (c.toNat / 16) (by omega)
    have hsecond := hexValue_hexDigit (c.toNat % 16) (by omega)
    have hzero : hexValue '0' = 0 := rfl
    simp only [hexValues, List.foldl_cons, List.foldl_nil, hfirst, hsecond, hzero]
    omega

theorem stringTail_escapeChar (c : Char) (rest : List Char) :
    stringTail (escapeChar c ++ rest) = prepend (escapeChar c) (stringTail rest) := by
  rcases escapeChar_cases c with ⟨heq, hquote, hbackslash, hc⟩ | ⟨e, heq, hshort, hu, -⟩ | ⟨hc, heq⟩
  · rw [heq]
    simp [stringTail, hbackslash, Nat.not_lt.2 hc]
  · rw [heq]
    simp [stringTail, hu, hshort]
  · rw [heq]
    have hfirst := isHex_hexDigit (c.toNat / 16) (by omega)
    have hsecond := isHex_hexDigit (c.toNat % 16) (by omega)
    have hzero : isHex '0' = true := by decide
    simp [stringTail, hfirst, hsecond, hzero]

/-- A text in quotation marks denotes that text. -/
@[simp] theorem unescape?_escape (s : String) : unescape? (escape s) = some s := by
  have h (cs : List Char) : unescape (cs.flatMap escapeChar) = some cs := by
    induction cs with
    | nil => rfl
    | cons c cs ih => rw [List.flatMap_cons, unescape_escapeChar, ih, Option.map_some]
  simp [unescape?, escape, h]

/-- A text in quotation marks ends at the second of them. -/
theorem stringTail_escape (s : String) (rest : List Char) :
    stringTail ((escape s).toList ++ '"' :: rest) = some ((escape s).toList, rest) := by
  have h (cs : List Char) :
      stringTail (cs.flatMap escapeChar ++ '"' :: rest) = some (cs.flatMap escapeChar, rest) := by
    induction cs with
    | nil => simp [stringTail]
    | cons c cs ih =>
      rw [List.flatMap_cons, List.append_assoc, stringTail_escapeChar, ih]
      rfl
  simp [escape, h]

@[simp] theorem text?_text (s : String) : text? (text s) = some s := unescape?_escape s

/-! ## Whole numbers -/

/-- No number in front of the text goes on into it. -/
def EndsNumber (rest : List Char) : Prop :=
  ∀ c ∈ rest.head?, c.isDigit = false ∧ c ≠ '.' ∧ c ≠ 'e' ∧ c ≠ 'E'

theorem someDigits_append {digits rest : List Char} (hsome : digits ≠ [])
    (hdigits : ∀ c ∈ digits, c.isDigit = true) (hrest : EndsNumber rest) :
    someDigits (digits ++ rest) = some (digits, rest) := by
  have htake : rest.takeWhile Char.isDigit = [] ∧ rest.dropWhile Char.isDigit = rest := by
    cases rest with
    | nil => exact ⟨rfl, rfl⟩
    | cons c rest => simp [(hrest c rfl).1]
  rw [someDigits, List.takeWhile_append_of_pos hdigits, List.dropWhile_append_of_pos hdigits,
    htake.1, htake.2, List.append_nil]
  split
  · contradiction
  · rfl

theorem wholePart_toDigits (n : Nat) {rest : List Char} (hrest : EndsNumber rest) :
    wholePart (Nat.toDigits 10 n ++ rest) = some (Nat.toDigits 10 n, rest) := by
  rcases Nat.eq_zero_or_pos n with rfl | hpos
  · rfl
  · obtain ⟨c, cs, hcs, hc⟩ := head_toDigits hpos
    have hdigits := someDigits_append Nat.toDigits_ne_nil (isDigit_toDigits n) hrest
    rw [hcs] at hdigits ⊢
    simp only [wholePart]
    split
    · rename_i heq
      exact absurd (List.cons.inj heq).1 hc
    · exact hdigits

theorem unsignedNumber_toDigits (n : Nat) {rest : List Char} (hrest : EndsNumber rest) :
    unsignedNumber (Nat.toDigits 10 n ++ rest) = some (Nat.toDigits 10 n, rest) := by
  have hfraction : fractionPart rest = some ([], rest) := by
    unfold fractionPart
    split
    · exact absurd rfl (hrest '.' rfl).2.1
    · rfl
  have hexponent : exponentPart rest = some ([], rest) := by
    unfold exponentPart
    split
    · rename_i c rest
      simp [hrest c rfl]
    · rfl
  simp [unsignedNumber, wholePart_toDigits n hrest, hfraction, hexponent]

theorem ne_minus_of_isDigit {n : Nat} {c : Char} {cs : List Char}
    (h : Nat.toDigits 10 n = c :: cs) : c ≠ '-' := by
  rintro rfl
  have hminus := isDigit_toDigits n '-' (h ▸ List.mem_cons_self)
  cases hminus

theorem numberLiteral_toString (n : Int) {rest : List Char} (hrest : EndsNumber rest) :
    numberLiteral ((toString n).toList ++ rest) = some ((toString n).toList, rest) := by
  cases n with
  | ofNat n =>
    rw [toList_toString_ofNat]
    have hnumber := unsignedNumber_toDigits n hrest
    cases hcs : Nat.toDigits 10 n with
    | nil => exact absurd hcs Nat.toDigits_ne_nil
    | cons c cs =>
      rw [hcs] at hnumber
      simp only [List.cons_append, numberLiteral]
      split
      · rename_i heq
        exact absurd (List.cons.inj heq).1 (ne_minus_of_isDigit hcs)
      · exact hnumber
  | negSucc n =>
    rw [toList_toString_negSucc]
    simp [numberLiteral, unsignedNumber_toDigits (n + 1) hrest, prepend]

theorem integer?_toString (n : Int) : integer? (toString n).toList = some n := by
  cases n with
  | ofNat n =>
    rw [toList_toString_ofNat]
    have hdigits := digits?_toDigits n
    unfold integer?
    split
    · rename_i hcs
      exact absurd rfl (ne_minus_of_isDigit hcs)
    · rw [hdigits, Option.map_some]
  | negSucc n =>
    rw [toList_toString_negSucc]
    simp [integer?, digits?_toDigits, Int.negSucc_eq]

theorem whole?_int {low high n : Int} (hlow : low ≤ n) (hhigh : n ≤ high) :
    whole? low high (int n) = some n := by
  show (integer? (toString n).toList).filter _ = _
  rw [integer?_toString]
  simp [Option.filter, hlow, hhigh]

/-- A natural number is written like the integer that it is. -/
theorem nat_eq_int (n : Nat) : nat n = int n := rfl

@[simp] theorem uint64?_nat (n : UInt64) : uint64? (nat n.toNat) = some n := by
  have hlt : n.toNat < UInt64.size := n.toNat_lt_size
  rw [uint64?, nat_eq_int, whole?_int (by omega) (by omega)]
  simp

@[simp] theorem int64?_int (n : Int64) : int64? (int n.toInt) = some n := by
  have hlow : Text.least64 ≤ n.toInt := n.le_toInt
  have hhigh : n.toInt ≤ Text.greatest64 := n.toInt_le
  rw [int64?, whole?_int hlow hhigh]
  simp

end AccessLog.Json

import AccessLog.Proofs.EncodedLines
import AccessLog.Stats.Counter
import Mathlib.Data.List.Lex

/-! # The order of keys

Texts are compared byte by byte as they are encoded, and numbers as numbers. UTF-8 keeps the order of
the characters, so to compare texts by their characters comes to the same. -/

namespace AccessLog.Text

/-! ## Encoded characters -/

theorem lex_ofNat_cons {m n : Nat} (hm : m < 256) (hn : n < 256) (as bs : List UInt8) :
    List.Lex (· < ·) (UInt8.ofNat m :: as) (UInt8.ofNat n :: bs) ↔
      m < n ∨ m = n ∧ List.Lex (· < ·) as bs := by
  rw [List.cons_lex_cons_iff, UInt8.ofNat_lt_iff_lt hm hn, ← UInt8.toNat_inj,
    UInt8.toNat_ofNat_of_lt' hm, UInt8.toNat_ofNat_of_lt' hn]

theorem val_toNat_lt (c : Char) : c.val.toNat < 0x110000 := by
  have hvalid := c.valid
  simp only [UInt32.isValidChar, Nat.isValidChar] at hvalid
  omega

/-- Of two characters the smaller has the smaller bytes, whatever follows them. -/
theorem lex_utf8EncodeChar {c d : Char} (h : c < d) (as bs : List UInt8) :
    List.Lex (· < ·) (String.utf8EncodeChar c ++ as) (String.utf8EncodeChar d ++ bs) := by
  have hlt : c.val.toNat < d.val.toNat := UInt32.lt_iff_toNat_lt.1 (Char.lt_def.1 h)
  have hbound := val_toNat_lt d
  have hsecond (v : Nat) : v / 4096 = v / 64 / 64 := by omega
  have hthird (v : Nat) : v / 262144 = v / 64 / 64 / 64 := by omega
  -- More bytes have a greater lead byte; as many bytes are the digits to base 64, highest first.
  fun_cases String.utf8EncodeChar c <;> fun_cases String.utf8EncodeChar d <;> try omega
  all_goals
    simp (disch := omega) only [List.cons_append, List.nil_append, lex_ofNat_cons, hsecond, hthird]
    omega

/-! ## Encoded texts -/

theorem lex_encode_of_lt {s t : String} (h : s < t) :
    List.Lex (· < ·) (encode s) (encode t) := by
  have hchars : List.Lex (· < ·) s.toList t.toList := String.lt_iff.1 h
  rw [encode_eq, encode_eq]
  generalize s.toList = as at hchars
  generalize t.toList = bs at hchars
  induction hchars with
  | @nil d ds =>
    obtain ⟨b, bs, hbytes⟩ := List.exists_cons_of_ne_nil (@String.utf8EncodeChar_ne_nil d)
    rw [List.flatMap_nil, List.flatMap_cons, hbytes]
    exact .nil
  | rel hlt => exact lex_utf8EncodeChar hlt _ _
  | cons _ ih => exact List.Lex.append_left _ ih _

/-- Texts stand in the order of their bytes. -/
theorem compare_eq_lt_iff_lex (s t : String) :
    compare s t = .lt ↔ List.Lex (· < ·) (encode s) (encode t) := by
  have hlt (s t : String) : compare s t = .lt ↔ s < t := compareOfLessAndEq_eq_lt
  refine ⟨fun h => lex_encode_of_lt ((hlt s t).1 h), fun h => ?_⟩
  cases hcompare : compare s t with
  | lt => rfl
  | eq =>
    obtain rfl := Std.LawfulEqOrd.eq_of_compare hcompare
    exact absurd h (List.lex_irrefl UInt8.lt_irrefl _)
  | gt =>
    have hback := lex_encode_of_lt ((hlt t s).1 (Std.OrientedCmp.gt_iff_lt.1 hcompare))
    exact absurd hback (List.lex_asymm UInt8.lt_asymm h)

end AccessLog.Text

namespace AccessLog.Stats

/-- Keys with an order of their own, which is the one that they are compared by. -/
class KeyOrder (κ : Type) [Ord κ] where
  Precedes : κ → κ → Prop
  compare_eq_lt_iff (a b : κ) : compare a b = .lt ↔ Precedes a b

/-- Texts in the order of their bytes. -/
instance : KeyOrder String where
  Precedes a b := List.Lex (· < ·) (Text.encode a) (Text.encode b)
  compare_eq_lt_iff := Text.compare_eq_lt_iff_lex

instance : KeyOrder UInt16 where
  Precedes a b := a.toNat < b.toNat
  compare_eq_lt_iff _ _ := Std.compare_eq_lt.trans UInt16.lt_iff_toNat_lt

instance : KeyOrder Int64 where
  Precedes a b := a.toInt < b.toInt
  compare_eq_lt_iff _ _ := Std.compare_eq_lt.trans Int64.lt_iff_toInt_lt

end AccessLog.Stats

/-! Bytes and text. Strict decoding refuses anything that is not UTF-8; lenient decoding puts one
replacement character in the place of each longest piece that can begin no valid sequence. -/

namespace AccessLog.Text

/-- The text that the bytes are the UTF-8 form of. -/
def decode? (bytes : List UInt8) : Option String := String.fromUTF8? bytes.toByteArray

/-- The UTF-8 form of a text. -/
def encode (s : String) : List UInt8 := s.toUTF8.data.toList

/-- What may follow a lead byte: the range of the second byte, the number of plain continuation
bytes after it, and the bits that the lead byte brings. -/
structure Sequence where
  low : UInt8
  high : UInt8
  more : Nat
  bits : Nat

/-- The sequences of two, three and four bytes; overlong forms, surrogates and values past the
last code point have no lead byte or no second byte here. -/
def sequence? (lead : UInt8) : Option Sequence :=
  if 0xC2 ≤ lead && lead ≤ 0xDF then some ⟨0x80, 0xBF, 0, lead.toNat % 32⟩
  else if lead == 0xE0 then some ⟨0xA0, 0xBF, 1, 0⟩
  else if lead == 0xED then some ⟨0x80, 0x9F, 1, 13⟩
  else if 0xE1 ≤ lead && lead ≤ 0xEF then some ⟨0x80, 0xBF, 1, lead.toNat % 16⟩
  else if lead == 0xF0 then some ⟨0x90, 0xBF, 2, 0⟩
  else if lead == 0xF4 then some ⟨0x80, 0x8F, 2, 4⟩
  else if 0xF1 ≤ lead && lead ≤ 0xF3 then some ⟨0x80, 0xBF, 2, lead.toNat % 8⟩
  else none

def replacement : Char := Char.ofNat 0xFFFD

/-- Read `more` continuation bytes onto `value`: the character, or a replacement where the
sequence breaks off, and the bytes that are left. -/
def continuation (value : Nat) : Nat → List UInt8 → Char × List UInt8
  | 0, rest => (Char.ofNat value, rest)
  | _ + 1, [] => (replacement, [])
  | more + 1, b :: rest =>
    if 0x80 ≤ b && b ≤ 0xBF then continuation (value * 64 + b.toNat % 64) more rest
    else (replacement, b :: rest)

theorem length_continuation (value more : Nat) (rest : List UInt8) :
    (continuation value more rest).2.length ≤ rest.length := by
  induction more generalizing value rest with
  | zero => simp [continuation]
  | succ more ih =>
    cases rest with
    | nil => simp [continuation]
    | cons b rest =>
      simp only [continuation]
      split
      · exact Nat.le_trans (ih _ _) (by simp)
      · simp

/-- The first character of a nonempty list of bytes, and the bytes after it. -/
def lenientStep (b : UInt8) (rest : List UInt8) : Char × List UInt8 :=
  if b < 0x80 then (Char.ofNat b.toNat, rest)
  else match sequence? b, rest with
    | some s, c :: rest =>
      if s.low ≤ c && c ≤ s.high then continuation (s.bits * 64 + c.toNat % 64) s.more rest
      else (replacement, c :: rest)
    | _, rest => (replacement, rest)

theorem length_lenientStep (b : UInt8) (rest : List UInt8) :
    (lenientStep b rest).2.length ≤ rest.length := by
  unfold lenientStep
  split
  · simp
  · split
    · split
      · exact Nat.le_trans (length_continuation _ _ _) (by simp)
      · simp
    · simp

/-- Decode with replacement characters. -/
def lenientChars : List UInt8 → List Char
  | [] => []
  | b :: rest =>
    have := length_lenientStep b rest
    (lenientStep b rest).1 :: lenientChars (lenientStep b rest).2
termination_by bytes => bytes.length

def decodeLenient (bytes : List UInt8) : String := String.ofList (lenientChars bytes)

end AccessLog.Text

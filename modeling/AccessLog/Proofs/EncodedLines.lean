import AccessLog.Proofs.PhysicalLines

/-! # Lines of encoded text

A byte below 128 stands for a character of its own and is part of no other. So the line feeds of an
encoded text are its own, and a text that is laid out line by line, each with its end, has these
lines for its physical lines. -/

namespace AccessLog.Text

theorem encode_eq (s : String) : encode s = s.toList.flatMap String.utf8EncodeChar := by
  have hbytes (cs : List Char) :
      encode (String.ofList cs) = cs.flatMap String.utf8EncodeChar := by
    simp [encode, List.utf8Encode]
  rw [← hbytes, String.ofList_toList]

theorem encode_append (s t : String) : encode (s ++ t) = encode s ++ encode t := by
  simp [encode_eq]

theorem decode?_encode (s : String) : decode? (encode s) = some s := by
  have hbytes : (encode s).toByteArray = s.toByteArray := by
    apply ByteArray.ext
    simp [encode]
  unfold decode? String.fromUTF8?
  rw [hbytes, dif_pos s.isValidUTF8]
  rfl

/-- Lead bytes and continuation bytes are marked by their highest bit. -/
theorem ne_marked {b : UInt8} (hb : b.toNat < 128) (n : Nat) {width mark : Nat}
    (hmark : 128 ≤ mark) (hwidth : 0 < width) (hsum : width + mark ≤ 256) :
    b ≠ UInt8.ofNat (n % width + mark) := by
  rintro rfl
  have hlt := Nat.mod_lt n hwidth
  rw [UInt8.toNat_ofNat_of_lt' (by simp only [UInt8.size]; omega)] at hb
  omega

/-- A byte below 128 that is part of a character is all of it. -/
theorem toNat_of_mem_utf8EncodeChar {c : Char} {b : UInt8} (hb : b.toNat < 128) :
    b ∈ String.utf8EncodeChar c → c.toNat = b.toNat := by
  have hrest (n : Nat) : b ≠ UInt8.ofNat (n % 64 + 128) :=
    ne_marked hb n (by decide) (by decide) (by decide)
  fun_cases String.utf8EncodeChar c with
  | case1 v hv =>
    intro h
    obtain rfl := List.mem_singleton.1 h
    rw [UInt8.toNat_ofNat_of_lt' (by simp only [UInt8.size]; omega)]
    rfl
  | case2 v =>
    intro h
    have hlead : b ≠ UInt8.ofNat (v / 64 % 32 + 192) :=
      ne_marked hb _ (by decide) (by decide) (by decide)
    simp only [List.mem_cons, List.not_mem_nil, hlead, hrest, or_self] at h
  | case3 v =>
    intro h
    have hlead : b ≠ UInt8.ofNat (v / 4096 % 16 + 224) :=
      ne_marked hb _ (by decide) (by decide) (by decide)
    simp only [List.mem_cons, List.not_mem_nil, hlead, hrest, or_self] at h
  | case4 v =>
    intro h
    have hlead : b ≠ UInt8.ofNat (v / 262144 % 8 + 240) :=
      ne_marked hb _ (by decide) (by decide) (by decide)
    simp only [List.mem_cons, List.not_mem_nil, hlead, hrest, or_self] at h

theorem eq_ofNat_of_mem_utf8EncodeChar {c : Char} {b : UInt8} (hb : b.toNat < 128)
    (h : b ∈ String.utf8EncodeChar c) : c = Char.ofNat b.toNat := by
  rw [← toNat_of_mem_utf8EncodeChar hb h, Char.ofNat_toNat]

theorem mem_of_mem_encode {s : String} {b : UInt8} (hb : b.toNat < 128) (h : b ∈ encode s) :
    Char.ofNat b.toNat ∈ s.toList := by
  rw [encode_eq] at h
  obtain ⟨c, hc, hbyte⟩ := List.mem_flatMap.1 h
  rwa [← eq_ofNat_of_mem_utf8EncodeChar hb hbyte]

/-- A byte below 128 at the end of a text is its last character. -/
theorem eq_append_of_getLast?_encode {s : String} {b : UInt8} (hb : b.toNat < 128)
    (h : (encode s).getLast? = some b) :
    ∃ front : List Char, s.toList = front ++ [Char.ofNat b.toNat] := by
  rw [encode_eq] at h
  rcases List.eq_nil_or_concat s.toList with hnil | ⟨front, c, hlast⟩
  · rw [hnil] at h
    cases h
  · rw [List.concat_eq_append] at hlast
    rw [hlast, List.flatMap_append, List.flatMap_singleton, List.getLast?_append,
      List.getLast?_eq_some_getLast String.utf8EncodeChar_ne_nil] at h
    have hmem : b ∈ String.utf8EncodeChar c :=
      Option.some.inj h ▸ List.getLast_mem String.utf8EncodeChar_ne_nil
    exact ⟨front, by rw [hlast, eq_ofNat_of_mem_utf8EncodeChar hb hmem]⟩

end AccessLog.Text

namespace AccessLog.Log
open AccessLog.Text

/-! ## Carriage returns -/

theorem withoutReturn_encode {s : String} (h : s.toList.getLast? ≠ some '\r') :
    withoutReturn (encode s) = encode s := by
  apply if_neg
  intro hlast
  obtain ⟨front, hfront⟩ := eq_append_of_getLast?_encode (by decide) hlast
  apply h
  rw [hfront, List.getLast?_concat]
  rfl

/-- What is left of an encoded text is one. -/
theorem exists_withoutReturn_encode (s : String) : ∃ t, withoutReturn (encode s) = encode t := by
  by_cases hlast : (encode s).getLast? = some 13
  · obtain ⟨front, hfront⟩ := eq_append_of_getLast?_encode (by decide) hlast
    refine ⟨String.ofList front, ?_⟩
    rw [withoutReturn, if_pos hlast, encode_eq, encode_eq, String.toList_ofList, hfront,
      List.flatMap_append]
    exact List.dropLast_concat
  · exact ⟨s, if_neg hlast⟩

/-! ## Lines of a text -/

/-- How a line ends. -/
inductive LineEnd where
  | feed
  | returnFeed
  deriving DecidableEq, Repr

def LineEnd.text : LineEnd → String
  | feed => "\n"
  | returnFeed => "\r\n"

/-- A text, line by line, each with its end. -/
def laidOut (lines : List (String × LineEnd)) : String :=
  String.join (lines.map fun line => line.1 ++ line.2.text)

/-- The physical line that a line of a text becomes. -/
def physicalLine (line : String × LineEnd) : List UInt8 :=
  match line.2 with
  | .feed => withoutReturn (encode line.1)
  | .returnFeed => encode line.1

theorem exists_decode?_physicalLine (line : String × LineEnd) :
    ∃ text, decode? (physicalLine line) = some text := by
  obtain ⟨text, lineEnd⟩ := line
  cases lineEnd with
  | feed =>
    obtain ⟨rest, hrest⟩ := exists_withoutReturn_encode text
    exact ⟨rest, (congrArg decode? hrest).trans (decode?_encode rest)⟩
  | returnFeed => exact ⟨text, decode?_encode text⟩

theorem physicalLines_laidOut {lines : List (String × LineEnd)}
    (h : ∀ line ∈ lines, '\n' ∉ line.1.toList) :
    physicalLines (encode (laidOut lines)) = lines.map physicalLine := by
  induction lines with
  | nil => rfl
  | cons line lines ih =>
    obtain ⟨hline, hlines⟩ := List.forall_mem_cons.1 h
    have hfeed : 10 ∉ encode line.1 := fun hmem => hline (mem_of_mem_encode (by decide) hmem)
    obtain ⟨text, lineEnd⟩ := line
    have hencode : encode (laidOut ((text, lineEnd) :: lines)) =
        encode text ++ (encode lineEnd.text ++ encode (laidOut lines)) := by
      simp [laidOut, String.join_cons, encode_append]
    rw [hencode, List.map_cons, ← ih hlines]
    cases lineEnd with
    | feed => exact physicalLines_append hfeed _
    | returnFeed =>
      have hreturn : 10 ∉ encode text ++ [13] := by simp [hfeed]
      have hline := physicalLines_append hreturn (encode (laidOut lines))
      rw [List.append_assoc] at hline
      refine hline.trans (congrArg (· :: _) ?_)
      simp [withoutReturn, physicalLine]

end AccessLog.Log

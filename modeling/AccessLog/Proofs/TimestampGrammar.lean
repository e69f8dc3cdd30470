import AccessLog.Log.Timestamp
import AccessLog.Proofs.DecimalNumbers

/-! # The grammar of timestamps

A timestamp is written as a row of pieces with marks between them. Which texts can stand for a piece
is said here without the reader: how the pieces are told apart, where blanks may stand, how many
digits a number takes. The reader accepts just the texts that are laid out so and whose numbers name
a moment, and it tells this moment. -/

namespace AccessLog.Log.Timestamp
open AccessLog.Text

/-- The numbers of a written timestamp, as they stand there. -/
structure Reading where
  month : Nat
  day : Nat
  year : Int
  dial : Nat
  minute : Nat
  second : Nat
  millisecond : Nat
  afternoon : Bool

namespace Reading

/-- The numbers name a day of the calendar and a time on a clock of twelve hours. Second 60 is a
leap second. -/
structure Valid (r : Reading) : Prop where
  month : 1 ≤ r.month ∧ r.month ≤ 12
  day : 1 ≤ r.day ∧ r.day ≤ daysInMonth r.year r.month
  year : minYear ≤ r.year ∧ r.year ≤ maxYear
  dial : 1 ≤ r.dial ∧ r.dial ≤ 12
  minute : r.minute ≤ 59
  second : r.second ≤ 60

/-- The hours from midnight: the twelfth hour is the first of its half of the day. -/
def hour (r : Reading) : Nat := (if r.dial = 12 then 0 else r.dial) + if r.afternoon then 12 else 0

/-- The nanoseconds by which a leap second lengthens the second before it. -/
def leap (second : Nat) : Nat := if second = 60 then 1000000000 else 0

/-- The moment that the numbers name. -/
def timestamp (r : Reading) : Timestamp where
  year := r.year
  month := r.month
  day := r.day
  hour := r.hour
  minute := r.minute
  second := if r.second = 60 then 59 else r.second
  nanosecond := r.millisecond * 1000000 + leap r.second

end Reading

def Blanks (cs : List Char) : Prop := ∀ c ∈ cs, isBlank c = true

/-- Blanks and then a number of at most `width` digits. -/
def IsNumber (width : Nat) (piece : List Char) (n : Nat) : Prop :=
  ∃ blanks digits, piece = blanks ++ digits ∧ Blanks blanks ∧ Numeral digits n ∧
    digits.length ≤ width

/-- A number of at most four digits, or blanks, a sign and any number of digits. -/
inductive IsYear : List Char → Int → Prop
  | short {piece : List Char} {n : Nat} : IsNumber 4 piece n → IsYear piece n
  | plus {blanks digits : List Char} {n : Nat} : Blanks blanks → Numeral digits n →
      IsYear (blanks ++ '+' :: digits) n
  | minus {blanks digits : List Char} {n : Nat} : Blanks blanks → Numeral digits n →
      IsYear (blanks ++ '-' :: digits) (-n)

/-- A point and three digits, or nothing. -/
inductive IsFraction : List Char → Nat → Prop
  | absent : IsFraction [] 0
  | present {digits : List Char} {n : Nat} : Numeral digits n → digits.length = 3 →
      IsFraction ('.' :: digits) n

/-- Blanks and then the two letters of a half of the day, each in either case. -/
def IsMarker (piece : List Char) (afternoon : Bool) : Prop :=
  ∃ blanks a m, piece = blanks ++ [a, m] ∧ Blanks blanks ∧
    a ∈ (if afternoon then ['p', 'P'] else ['a', 'A']) ∧ m ∈ ['m', 'M']

/-- The pieces of a written timestamp. -/
structure Pieces where
  month : List Char
  day : List Char
  year : List Char
  dial : List Char
  minute : List Char
  second : List Char
  fraction : List Char
  marker : List Char

namespace Pieces

/-- The pieces with the marks between them. -/
def text (p : Pieces) : List Char :=
  p.month ++ '/' :: (p.day ++ '/' :: (p.year ++ ',' :: (p.dial ++ ':' :: (p.minute ++ ':' ::
    (p.second ++ (p.fraction ++ p.marker))))))

/-- Each piece is one that its number can be written as. -/
structure Spell (p : Pieces) (r : Reading) : Prop where
  month : IsNumber 2 p.month r.month
  day : IsNumber 2 p.day r.day
  year : IsYear p.year r.year
  dial : IsNumber 2 p.dial r.dial
  minute : IsNumber 2 p.minute r.minute
  second : IsNumber 2 p.second r.second
  fraction : IsFraction p.fraction r.millisecond
  marker : IsMarker p.marker r.afternoon

end Pieces

/-- The text is a written form of the numbers. -/
def Written (s : String) (r : Reading) : Prop := ∃ p : Pieces, s.toList = p.text ∧ p.Spell r

/-- The text denotes the moment. -/
def Denotes (s : String) (t : Timestamp) : Prop := ∃ r : Reading, Written s r ∧ r.Valid ∧ r.timestamp = t

/-! ## Numbers -/

/-- No digit follows. -/
def EndsNumber (rest : List Char) : Prop := ∀ c ∈ rest.head?, c.isDigit = false

theorem endsNumber_cons {c : Char} {rest : List Char} (h : c.isDigit = false) :
    EndsNumber (c :: rest) := by
  simpa [EndsNumber] using h

theorem isBlank_eq_false_of_isDigit {c : Char} (h : c.isDigit = true) : isBlank c = false := by
  simp only [Char.isDigit, Bool.and_eq_true, decide_eq_true_eq] at h
  obtain ⟨hlow, hhigh⟩ := h
  have hlow : 48 ≤ c.toNat := hlow
  have hhigh : c.toNat ≤ 57 := hhigh
  simp [isBlank]
  omega

theorem trimStart_blanks {blanks : List Char} (h : Blanks blanks) (cs : List Char) :
    trimStart (blanks ++ cs) = trimStart cs :=
  List.dropWhile_append_of_pos h

theorem exists_blanks (cs : List Char) : ∃ blanks, cs = blanks ++ trimStart cs ∧ Blanks blanks :=
  ⟨cs.takeWhile isBlank, List.takeWhile_append_dropWhile.symm, List.all_eq_true.1 List.all_takeWhile⟩

/-- Digits are not blank, so trimming leaves a numeral alone. -/
theorem trimStart_numeral {digits : List Char} {n : Nat} (h : Numeral digits n)
    (rest : List Char) : trimStart (digits ++ rest) = digits ++ rest := by
  apply trimStart_eq_self
  cases digits with
  | nil => exact absurd rfl h.nonempty
  | cons c digits => simpa using isBlank_eq_false_of_isDigit (h.digits c List.mem_cons_self)

theorem takeDigits_spec (width : Nat) (cs : List Char) :
    (takeDigits width cs).1 ++ (takeDigits width cs).2 = cs ∧
    (∀ c ∈ (takeDigits width cs).1, c.isDigit = true) ∧
    (takeDigits width cs).1.length ≤ width := by
  induction width generalizing cs with
  | zero => simp [takeDigits]
  | succ width ih =>
    cases cs with
    | nil => simp [takeDigits]
    | cons c cs =>
      obtain ⟨hparts, hdigits, hlength⟩ := ih cs
      by_cases hc : c.isDigit = true
      · simp only [takeDigits, hc, if_true]
        exact ⟨congrArg (c :: ·) hparts, List.forall_mem_cons.2 ⟨hc, hdigits⟩,
          Nat.succ_le_succ hlength⟩
      · simp [takeDigits, hc]

theorem takeDigits_append {digits rest : List Char} (hdigits : ∀ c ∈ digits, c.isDigit = true)
    {width : Nat} (hlength : digits.length ≤ width)
    (hends : digits.length = width ∨ EndsNumber rest) :
    takeDigits width (digits ++ rest) = (digits, rest) := by
  induction digits generalizing width with
  | nil =>
    cases width with
    | zero => rfl
    | succ width =>
      have hends : EndsNumber rest := hends.resolve_left (by simp)
      cases rest with
      | nil => rfl
      | cons c rest => simp [takeDigits, hends c rfl]
  | cons c digits ih =>
    obtain ⟨hc, hdigits⟩ := List.forall_mem_cons.1 hdigits
    cases width with
    | zero => simp at hlength
    | succ width =>
      have hrest := ih hdigits (Nat.le_of_succ_le_succ hlength) (hends.imp_left Nat.succ.inj)
      simp [takeDigits, hc, hrest]

theorem isNumber_of_number? {width n : Nat} {cs rest : List Char}
    (h : number? width cs = some (n, rest)) :
    ∃ piece, cs = piece ++ rest ∧ IsNumber width piece n := by
  obtain ⟨m, hm, heq⟩ := Option.map_eq_some_iff.1 h
  obtain ⟨rfl, hrest⟩ := Prod.mk.inj heq
  obtain ⟨blanks, hcs, hblanks⟩ := exists_blanks cs
  obtain ⟨hparts, -, hlength⟩ := takeDigits_spec width (trimStart cs)
  refine ⟨blanks ++ (takeDigits width (trimStart cs)).1, ?_, blanks, _, rfl, hblanks,
    digits?_eq_some_iff.1 hm, hlength⟩
  rw [← hrest, List.append_assoc, hparts, ← hcs]

theorem number?_of_isNumber {width n : Nat} {piece rest : List Char}
    (h : IsNumber width piece n) (hrest : EndsNumber rest) :
    number? width (piece ++ rest) = some (n, rest) := by
  obtain ⟨blanks, digits, rfl, hblanks, hnumeral, hlength⟩ := h
  unfold number?
  rw [List.append_assoc, trimStart_blanks hblanks, trimStart_numeral hnumeral,
    takeDigits_append hnumeral.digits hlength (.inr hrest)]
  simp [digits?_eq_some_iff.2 hnumeral]

/-- A reader of one piece: it takes a text that can stand for the piece off the front, and takes all
of it where no digit follows. -/
structure Reads {α : Type} (read : List Char → Option (α × List Char))
    (spelled : List Char → α → Prop) : Prop where
  sound {cs rest : List Char} {a : α} (h : read cs = some (a, rest)) :
    ∃ piece, cs = piece ++ rest ∧ spelled piece a
  complete {piece rest : List Char} {a : α} (h : spelled piece a) (hrest : EndsNumber rest) :
    read (piece ++ rest) = some (a, rest)

theorem reads_bounded? (width low high : Nat) :
    Reads (bounded? width low high) fun piece n => IsNumber width piece n ∧ low ≤ n ∧ n ≤ high where
  sound h := by
    obtain ⟨hnumber, hbounds⟩ := Option.filter_eq_some_iff.1 h
    obtain ⟨piece, hcs, hpiece⟩ := isNumber_of_number? hnumber
    exact ⟨piece, hcs, hpiece, by simpa using hbounds⟩
  complete h hrest :=
    Option.filter_eq_some_iff.2 ⟨number?_of_isNumber h.1 hrest, by simpa using h.2⟩

/-! ## Years -/

theorem span_digits {digits rest : List Char} (hdigits : ∀ c ∈ digits, c.isDigit = true)
    (hrest : EndsNumber rest) :
    (digits ++ rest).takeWhile Char.isDigit = digits ∧
    (digits ++ rest).dropWhile Char.isDigit = rest := by
  rw [List.takeWhile_append_of_pos hdigits, List.dropWhile_append_of_pos hdigits]
  cases rest with
  | nil => simp
  | cons c rest => simp [hrest c rfl]

theorem numeral_append_ne {digits : List Char} {n : Nat} (h : Numeral digits n) {c : Char}
    (hc : c.isDigit = false) (rest rest' : List Char) : digits ++ rest ≠ c :: rest' := by
  intro heq
  cases digits with
  | nil => exact h.nonempty rfl
  | cons d digits =>
    obtain rfl := (List.cons.inj heq).1
    exact not_numeral_of_sign hc h

/-- The digits behind a sign, with the value `f` that the sign gives them. -/
theorem signed_sound {rest after : List Char} {f : Int → Int} {y : Int}
    (h : Option.map (fun n => (f n, rest.dropWhile Char.isDigit))
      (do let n ← digits? (rest.takeWhile Char.isDigit); pure (n : Int)) = some (y, after)) :
    ∃ digits n, rest = digits ++ after ∧ Numeral digits n ∧ f n = y := by
  obtain ⟨_, hvalue, heq⟩ := Option.map_eq_some_iff.1 h
  obtain ⟨n, hn, hcast⟩ := Option.bind_eq_some_iff.1 hvalue
  obtain rfl := Option.some.inj hcast
  obtain ⟨hy, hafter⟩ := Prod.mk.inj heq
  exact ⟨_, n, by rw [← hafter, List.takeWhile_append_dropWhile], digits?_eq_some_iff.1 hn, hy⟩

theorem signed_complete {digits rest : List Char} {n : Nat} (f : Int → Int)
    (h : Numeral digits n) (hrest : EndsNumber rest) :
    Option.map (fun n => (f n, (digits ++ rest).dropWhile Char.isDigit))
      (do let n ← digits? ((digits ++ rest).takeWhile Char.isDigit); pure (n : Int)) =
        some (f n, rest) := by
  obtain ⟨htake, hdrop⟩ := span_digits h.digits hrest
  rw [htake, hdrop, digits?_eq_some_iff.2 h]
  rfl

theorem reads_year? :
    Reads year? fun piece y => IsYear piece y ∧ minYear ≤ y ∧ y ≤ maxYear where
  sound {cs rest y} h := by
    obtain ⟨hread, hbounds⟩ := Option.filter_eq_some_iff.1 h
    obtain ⟨blanks, hcs, hblanks⟩ := exists_blanks cs
    suffices ∃ piece, cs = piece ++ rest ∧ IsYear piece y by
      obtain ⟨piece, hpiece, hyear⟩ := this
      exact ⟨piece, hpiece, hyear, by simpa using hbounds⟩
    split at hread
    · rename_i after hsign
      obtain ⟨digits, n, hdigits, hnumeral, rfl⟩ := signed_sound hread
      exact ⟨blanks ++ '-' :: digits, by rw [hcs, hsign, hdigits]; simp, .minus hblanks hnumeral⟩
    · rename_i after hsign
      obtain ⟨digits, n, hdigits, hnumeral, rfl⟩ := signed_sound hread
      exact ⟨blanks ++ '+' :: digits, by rw [hcs, hsign, hdigits]; simp, .plus hblanks hnumeral⟩
    · obtain ⟨⟨n, after⟩, hnumber, heq⟩ := Option.map_eq_some_iff.1 hread
      obtain ⟨rfl, rfl⟩ := Prod.mk.inj heq
      obtain ⟨piece, hpiece, inner, digits, rfl, hinner, hnumeral⟩ := isNumber_of_number? hnumber
      refine ⟨blanks ++ (inner ++ digits), by rw [hcs, hpiece]; simp, .short ?_⟩
      refine ⟨blanks ++ inner, digits, by simp, ?_, hnumeral⟩
      exact fun c hc => (List.mem_append.1 hc).elim (hblanks c) (hinner c)
  complete {piece rest y} h hrest := by
    refine Option.filter_eq_some_iff.2 ⟨?_, by simpa using h.2⟩
    cases h.1 with
    | short hnumber =>
      obtain ⟨blanks, digits, rfl, hblanks, hnumeral, hlength⟩ := hnumber
      rw [List.append_assoc, trimStart_blanks hblanks, trimStart_numeral hnumeral]
      split
      · rename_i heq
        exact absurd heq (numeral_append_ne hnumeral rfl _ _)
      · rename_i heq
        exact absurd heq (numeral_append_ne hnumeral rfl _ _)
      · have hnumber : IsNumber 4 digits _ := ⟨[], digits, rfl, by simp [Blanks], hnumeral, hlength⟩
        rw [number?_of_isNumber hnumber hrest]
        rfl
    | @plus _ digits _ hblanks hnumeral =>
      have hsign : trimStart ('+' :: (digits ++ rest)) = '+' :: (digits ++ rest) :=
        trimStart_eq_self rfl
      rw [List.append_assoc, trimStart_blanks hblanks, List.cons_append, hsign]
      exact signed_complete id hnumeral hrest
    | @minus _ digits _ hblanks hnumeral =>
      have hsign : trimStart ('-' :: (digits ++ rest)) = '-' :: (digits ++ rest) :=
        trimStart_eq_self rfl
      rw [List.append_assoc, trimStart_blanks hblanks, List.cons_append, hsign]
      exact signed_complete Neg.neg hnumeral hrest

/-! ## Marks, fractions and halves of the day -/

theorem mark?_eq_some_iff {c : Char} {cs rest : List Char} :
    mark? c cs = some rest ↔ cs = c :: rest := by
  cases cs with
  | nil => simp [mark?]
  | cons d cs =>
    by_cases h : d = c <;> simp [mark?, h]

/-- A piece and the mark behind it are read together. -/
theorem Reads.mark_iff {α : Type} {read : List Char → Option (α × List Char)}
    {spelled : List Char → α → Prop} (h : Reads read spelled) {c : Char} (hc : c.isDigit = false)
    {cs : List Char} {next : α → List Char → Prop} :
    (∃ a cs', read cs = some (a, cs') ∧ ∃ rest, mark? c cs' = some rest ∧ next a rest) ↔
      ∃ piece a rest, cs = piece ++ c :: rest ∧ spelled piece a ∧ next a rest := by
  constructor
  · rintro ⟨a, cs', hread, rest, hmark, hnext⟩
    obtain ⟨piece, rfl, hpiece⟩ := h.sound hread
    obtain rfl := mark?_eq_some_iff.1 hmark
    exact ⟨piece, a, rest, rfl, hpiece, hnext⟩
  · rintro ⟨piece, a, rest, rfl, hpiece, hnext⟩
    exact ⟨a, c :: rest, h.complete hpiece (endsNumber_cons hc), rest, mark?_eq_some_iff.2 rfl,
      hnext⟩

theorem isFraction_of_fraction? {cs rest : List Char} {nanosecond : Nat}
    (h : fraction? cs = some (nanosecond, rest)) :
    ∃ piece millisecond, cs = piece ++ rest ∧ IsFraction piece millisecond ∧
      nanosecond = millisecond * 1000000 := by
  unfold fraction? at h
  split at h
  · rename_i digits
    obtain ⟨hparts, -, -⟩ := takeDigits_spec 3 digits
    obtain ⟨hthree, hvalue⟩ := Option.ite_none_right_eq_some.1 h
    obtain ⟨n, hn, heq⟩ := Option.map_eq_some_iff.1 hvalue
    obtain ⟨rfl, rfl⟩ := Prod.mk.inj heq
    exact ⟨'.' :: (takeDigits 3 digits).1, n, congrArg ('.' :: ·) hparts.symm,
      .present (digits?_eq_some_iff.1 hn) hthree, rfl⟩
  · obtain ⟨rfl, rfl⟩ := Prod.mk.inj (Option.some.inj h)
    exact ⟨[], 0, rfl, .absent, rfl⟩

theorem fraction?_of_isFraction {piece rest : List Char} {millisecond : Nat}
    (h : IsFraction piece millisecond) (hrest : ∀ c ∈ rest.head?, c ≠ '.') :
    fraction? (piece ++ rest) = some (millisecond * 1000000, rest) := by
  cases h with
  | absent =>
    unfold fraction?
    split
    · rename_i heq
      exact absurd rfl (hrest '.' (by rw [← List.nil_append rest, heq]; rfl))
    · rfl
  | @present digits _ hnumeral hthree =>
    have htake : takeDigits 3 (digits ++ rest) = (digits, rest) :=
      takeDigits_append hnumeral.digits (Nat.le_of_eq hthree) (.inl hthree)
    simp [fraction?, htake, hthree, digits?_eq_some_iff.2 hnumeral]

/-- A small letter is the small form of itself and of its capital only. -/
theorem toLower_eq_iff (c small capital : Char) (hcapital : capital ∈ ['A', 'P', 'M'])
    (hsmall : small.toNat = capital.toNat + 32) : c.toLower = small ↔ c ∈ [small, capital] := by
  have hrange : 65 ≤ capital.toNat ∧ capital.toNat ≤ 90 := by
    revert hcapital
    simp only [List.mem_cons, List.not_mem_nil, or_false]
    rintro (rfl | rfl | rfl) <;> decide
  rw [List.mem_cons, List.mem_singleton, ← Char.toNat_inj, ← Char.toNat_inj, ← Char.toNat_inj]
  unfold Char.toLower
  split
  · rename_i h
    have hlow : 65 ≤ c.toNat := h.1
    have hhigh : c.toNat ≤ 90 := h.2
    have hlower : (c.val + ('a'.val - 'A'.val)).toNat = c.toNat + 32 := by
      rw [UInt32.toNat_add]
      show (c.toNat + 32) % 2 ^ 32 = _
      omega
    show (c.val + ('a'.val - 'A'.val)).toNat = _ ↔ _
    omega
  · rename_i h
    have hrange' : ¬ (65 ≤ c.toNat ∧ c.toNat ≤ 90) := h
    omega

theorem afternoon?_cons_cons {a m : Char} {rest rest' : List Char} {afternoon : Bool} :
    afternoon? (a :: m :: rest) = some (afternoon, rest') ↔
      (a ∈ (if afternoon then ['p', 'P'] else ['a', 'A']) ∧ m ∈ ['m', 'M']) ∧ rest = rest' := by
  have ha := toLower_eq_iff a 'a' 'A' (by simp) rfl
  have hp := toLower_eq_iff a 'p' 'P' (by simp) rfl
  have hm := toLower_eq_iff m 'm' 'M' (by simp) rfl
  rw [← hm, afternoon?]
  by_cases hmark : m.toLower = 'm'
  · by_cases hfirst : a.toLower = 'a'
    · cases afternoon <;> simp [hmark, hfirst, ← ha, ← hp]
    · cases afternoon <;> simp [hmark, hfirst, ← ha, ← hp]
  · simp [hmark]

theorem isMarker_of_afternoon? {cs rest : List Char} {afternoon : Bool}
    (h : afternoon? (trimStart cs) = some (afternoon, rest)) :
    ∃ piece, cs = piece ++ rest ∧ IsMarker piece afternoon := by
  obtain ⟨blanks, hcs, hblanks⟩ := exists_blanks cs
  match hletters : trimStart cs with
  | [] => simp [hletters, afternoon?] at h
  | [a] => simp [hletters, afternoon?] at h
  | a :: m :: after =>
    rw [hletters, afternoon?_cons_cons] at h
    obtain ⟨⟨ha, hm⟩, rfl⟩ := h
    refine ⟨blanks ++ [a, m], ?_, blanks, a, m, rfl, hblanks, ha, hm⟩
    rw [hcs, hletters]
    simp

/-- The letter that a marker begins with. -/
theorem firstLetter {a : Char} {afternoon : Bool}
    (h : a ∈ (if afternoon then ['p', 'P'] else ['a', 'A'])) :
    isBlank a = false ∧ a.isDigit = false ∧ a ≠ '.' := by
  have ha : a ∈ ['p', 'P', 'a', 'A'] := by
    cases afternoon with
    | true => exact List.mem_append_left ['a', 'A'] h
    | false => exact List.mem_append_right ['p', 'P'] h
  simp only [List.mem_cons, List.not_mem_nil, or_false] at ha
  rcases ha with rfl | rfl | rfl | rfl <;> decide

theorem afternoon?_of_isMarker {piece : List Char} {afternoon : Bool} (h : IsMarker piece afternoon)
    (rest : List Char) : afternoon? (trimStart (piece ++ rest)) = some (afternoon, rest) := by
  obtain ⟨blanks, a, m, rfl, hblanks, ha, hm⟩ := h
  have hstart : trimStart (a :: m :: rest) = a :: m :: rest :=
    trimStart_eq_self (by simp [(firstLetter ha).1])
  rw [List.append_assoc, trimStart_blanks hblanks]
  exact hstart.symm ▸ afternoon?_cons_cons.2 ⟨⟨ha, hm⟩, rfl⟩

/-- Neither a digit nor a point begins a marker. -/
theorem IsMarker.head {piece : List Char} {afternoon : Bool} (h : IsMarker piece afternoon) :
    ∀ c ∈ piece.head?, c.isDigit = false ∧ c ≠ '.' := by
  obtain ⟨blanks, a, m, rfl, hblanks, ha, -⟩ := h
  intro c hc
  cases blanks with
  | nil =>
    obtain rfl : a = c := by simpa using hc
    exact (firstLetter ha).2
  | cons b blanks =>
    obtain rfl : b = c := by simpa using hc
    have hb : isBlank b = true := hblanks b List.mem_cons_self
    refine ⟨?_, by rintro rfl; exact absurd hb (by decide)⟩
    cases hdigit : b.isDigit with
    | false => rfl
    | true => simp [isBlank_eq_false_of_isDigit hdigit] at hb

/-- The seconds, their fraction and the half of the day, up to the end of the text. -/
theorem closing_iff {cs : List Char} {next : Nat → Nat → Bool → Prop} :
    (∃ second cs', bounded? 2 0 60 cs = some (second, cs') ∧
      ∃ nanosecond cs'', fraction? cs' = some (nanosecond, cs'') ∧
        ∃ afternoon rest, afternoon? (trimStart cs'') = some (afternoon, rest) ∧
          rest = [] ∧ next second nanosecond afternoon) ↔
      ∃ piece fraction marker second millisecond afternoon,
        cs = piece ++ (fraction ++ marker) ∧ (IsNumber 2 piece second ∧ second ≤ 60) ∧
        IsFraction fraction millisecond ∧ IsMarker marker afternoon ∧
        next second (millisecond * 1000000) afternoon := by
  have hsecond := reads_bounded? 2 0 60
  constructor
  · rintro ⟨second, cs', hread, nanosecond, cs'', hfraction, afternoon, rest, hmarker, rfl, hnext⟩
    obtain ⟨piece, rfl, hpiece, -, hbound⟩ := hsecond.sound hread
    obtain ⟨fraction, millisecond, rfl, hwritten, rfl⟩ := isFraction_of_fraction? hfraction
    obtain ⟨marker, rfl, hletters⟩ := isMarker_of_afternoon? hmarker
    exact ⟨piece, fraction, marker, second, millisecond, afternoon, by simp, ⟨hpiece, hbound⟩,
      hwritten, hletters, hnext⟩
  · rintro ⟨piece, fraction, marker, second, millisecond, afternoon, rfl, ⟨hpiece, hbound⟩,
      hwritten, hletters, hnext⟩
    have hends : EndsNumber (fraction ++ marker) := by
      cases hwritten with
      | absent => exact fun c hc => (hletters.head c hc).1
      | present => exact endsNumber_cons rfl
    have hmarker := afternoon?_of_isMarker hletters []
    rw [List.append_nil] at hmarker
    exact ⟨second, fraction ++ marker, hsecond.complete ⟨hpiece, Nat.zero_le _, hbound⟩ hends,
      _, marker, fraction?_of_isFraction hwritten fun c hc => (hletters.head c hc).2,
      afternoon, [], hmarker, rfl, hnext⟩

theorem ite_leap (second nanosecond : Nat) [Decidable (second = 60)] :
    (if second = 60 then nanosecond + 1000000000 else nanosecond) =
      nanosecond + Reading.leap second := by
  unfold Reading.leap
  by_cases h : second = 60 <;> simp [h]

theorem daysInMonth_le (year : Int) (month : Nat) : daysInMonth year month ≤ 31 := by
  unfold daysInMonth
  split
  · split <;> decide
  · split <;> decide

theorem Reading.hour_eq {r : Reading} (h : 1 ≤ r.dial ∧ r.dial ≤ 12) :
    r.hour = hourOfDay r.dial r.afternoon := by
  have hdial : (if r.dial = 12 then 0 else r.dial) = r.dial % 12 := by
    split <;> omega
  rw [hour, hdial, hourOfDay]

theorem Reading.second_eq {second : Nat} (h : second ≤ 60) :
    (if second = 60 then 59 else second) = min second 59 := by
  split <;> omega

/-- The reader accepts the written forms of moments and nothing else, and tells the moment. -/
theorem parse?_eq_some_iff {s : String} {t : Timestamp} : parse? s = some t ↔ Denotes s t := by
  have hslash : '/'.isDigit = false := rfl
  have hcomma : ','.isDigit = false := rfl
  have hcolon : ':'.isDigit = false := rfl
  -- The binds are opened from the first to the last.
  simp only [parse?, ↓Option.bind_eq_bind, ↓Option.bind_eq_some_iff, ↓Prod.exists,
    Option.ite_none_right_eq_some, Bool.and_eq_true, List.isEmpty_iff, decide_eq_true_eq, ite_leap,
    and_assoc]
  simp only [(reads_bounded? 2 1 12).mark_iff hslash, (reads_bounded? 2 1 31).mark_iff hslash,
    reads_year?.mark_iff hcomma, (reads_bounded? 2 1 12).mark_iff hcolon,
    (reads_bounded? 2 0 59).mark_iff hcolon, closing_iff]
  constructor
  · rintro ⟨month, m, _, htext, ⟨hmonth, hm⟩, day, d, _, rfl, ⟨hday, hd⟩, year, y, _, rfl,
      ⟨hyear, hy⟩, dial, h, _, rfl, ⟨hdial, hh⟩, minute, i, _, rfl, ⟨hminute, hi⟩, second, fraction,
      marker, n, f, afternoon, rfl, ⟨hsecond, hn⟩, hfraction, hmarker, hcalendar, htimestamp⟩
    refine ⟨⟨m, d, y, h, i, n, f, afternoon⟩,
      ⟨⟨month, day, year, dial, minute, second, fraction, marker⟩, htext,
        ⟨hmonth, hday, hyear, hdial, hminute, hsecond, hfraction, hmarker⟩⟩,
      ⟨hm, ⟨hd.1, hcalendar⟩, hy, hh, hi.2, hn⟩, ?_⟩
    rw [← Option.some.inj htimestamp, Reading.timestamp, Reading.hour_eq hh, Reading.second_eq hn]
  · rintro ⟨r, ⟨p, htext, hspell⟩, hvalid, rfl⟩
    refine ⟨p.month, r.month, _, htext, ⟨hspell.month, hvalid.month⟩,
      p.day, r.day, _, rfl, ⟨hspell.day, hvalid.day.1, ?_⟩,
      p.year, r.year, _, rfl, ⟨hspell.year, hvalid.year⟩,
      p.dial, r.dial, _, rfl, ⟨hspell.dial, hvalid.dial⟩,
      p.minute, r.minute, _, rfl, ⟨hspell.minute, Nat.zero_le _, hvalid.minute⟩,
      p.second, p.fraction, p.marker, r.second, r.millisecond, r.afternoon, rfl,
      ⟨hspell.second, hvalid.second⟩, hspell.fraction, hspell.marker, hvalid.day.2, ?_⟩
    · exact Nat.le_trans hvalid.day.2 (daysInMonth_le _ _)
    · rw [Reading.timestamp, Reading.hour_eq hvalid.dial, Reading.second_eq hvalid.second]

end AccessLog.Log.Timestamp

import AccessLog.Proofs.RowChecks

/-! # The layout of timestamps

Logs lay a timestamp out as `M/d/yyyy, h:mm:ss.SSS AM|PM`. The reader asks for less: a year may be
shorter or carry a sign, minutes and seconds may have one digit, and the fraction may be missing. A
text that it accepts has the layout exactly if nothing is left out of it, and this shows in how many
characters stand between its marks. -/

namespace AccessLog.Log.Timestamp
open AccessLog.Text

/-- Digits, as many as these bounds say. -/
def Digits (least most : Nat) (cs : List Char) : Prop :=
  (∀ c ∈ cs, c.isDigit = true) ∧ least ≤ cs.length ∧ cs.length ≤ most

/-- Two digits, a point and three digits. -/
def Seconds (cs : List Char) : Prop :=
  ∃ second fraction, cs = second ++ '.' :: fraction ∧ Digits 2 2 second ∧ Digits 3 3 fraction

/-- The two letters of a half of the day, each in either case. -/
def Letters (cs : List Char) : Prop :=
  ∃ a m, cs = [a, m] ∧ a ∈ ['a', 'A', 'p', 'P'] ∧ m ∈ ['m', 'M']

/-- Blanks may stand around what the piece has to be. -/
def Amid (core : List Char → Prop) (piece : List Char) : Prop :=
  ∃ before inner after, piece = before ++ (inner ++ after) ∧ Blanks before ∧ core inner ∧
    Blanks after

/-- The text is laid out as `M/d/yyyy, h:mm:ss.SSS AM|PM`, blanks around its pieces aside. -/
def LaidOut (s : String) : Prop :=
  ∃ month day year dial minute seconds letters, s.toList = month ++ '/' :: (day ++ '/' ::
      (year ++ ',' :: (dial ++ ':' :: (minute ++ ':' :: (seconds ++ letters))))) ∧
    Amid (Digits 1 2) month ∧ Amid (Digits 1 2) day ∧ Amid (Digits 4 4) year ∧
    Amid (Digits 1 2) dial ∧ Amid (Digits 2 2) minute ∧ Amid Seconds seconds ∧ Amid Letters letters

/-- A mark between two pieces. -/
def isMark (c : Char) : Bool := c = '/' || c = ',' || c = ':'

/-- The characters that are not blank. -/
def unblanked (cs : List Char) : List Char := cs.filter (!isBlank ·)

/-- What stands between the marks, blanks left out. -/
def cells (s : String) : List (List Char) := (unblanked s.toList).splitOnP isMark

/-- The year has four digits, the minutes have two, and eight characters stand behind them. -/
def fullWidth (s : String) : Bool :=
  match cells s with
  | [_, _, year, _, minute, rest] =>
    year.length == 4 && year.all Char.isDigit && minute.length == 2 && rest.length == 8
  | _ => false

/-! ## Pieces without their blanks -/

theorem unblanked_append (cs ds : List Char) :
    unblanked (cs ++ ds) = unblanked cs ++ unblanked ds :=
  List.filter_append _ _

theorem unblanked_blanks {blanks : List Char} (h : Blanks blanks) : unblanked blanks = [] := by
  simpa [unblanked, Blanks] using h

theorem unblanked_eq_self {cs : List Char} (h : ∀ c ∈ cs, isBlank c = false) :
    unblanked cs = cs := by
  simpa [unblanked, List.filter_eq_self] using h

theorem unblanked_digits {cs : List Char} (h : ∀ c ∈ cs, c.isDigit = true) : unblanked cs = cs :=
  unblanked_eq_self fun c hc => isBlank_eq_false_of_isDigit (h c hc)

theorem isMark_eq_false_of_isDigit {c : Char} (h : c.isDigit = true) : isMark c = false := by
  cases hmark : isMark c with
  | false => rfl
  | true =>
    simp only [isMark, Bool.or_eq_true, decide_eq_true_eq] at hmark
    rcases hmark with (rfl | rfl) | rfl <;> cases h

/-- What stands between the marks of six pieces. -/
theorem cells_eq {s : String} {month day year dial minute rest : List Char}
    (htext : s.toList = month ++ '/' :: (day ++ '/' :: (year ++ ',' ::
      (dial ++ ':' :: (minute ++ ':' :: rest)))))
    (hmarks : ∀ piece ∈ [month, day, year, dial, minute, rest],
      ∀ c ∈ unblanked piece, isMark c = false) :
    cells s = [unblanked month, unblanked day, unblanked year, unblanked dial, unblanked minute,
      unblanked rest] := by
  have hcut {piece : List Char} (hpiece : piece ∈ [month, day, year, dial, minute, rest])
      {mark : Char} (hmark : isMark mark = true) (hblank : isBlank mark = false)
      (others : List Char) :
      (unblanked (piece ++ mark :: others)).splitOnP isMark =
        unblanked piece :: (unblanked others).splitOnP isMark := by
    have hfirst : unblanked (mark :: others) = mark :: unblanked others := by
      simp [unblanked, hblank]
    rw [unblanked_append, hfirst]
    exact List.splitOnP_append_cons_of_forall_mem (hmarks piece hpiece) mark hmark _
  rw [cells, htext, hcut (by simp) rfl rfl, hcut (by simp) rfl rfl, hcut (by simp) rfl rfl,
    hcut (by simp) rfl rfl, hcut (by simp) rfl rfl,
    List.splitOnP_eq_singleton (hmarks rest (by simp))]

/-- A piece is what it has to be once its blanks are taken away, if none are inside. -/
theorem Amid.core {core : List Char → Prop} (hplain : ∀ cs, core cs → unblanked cs = cs)
    {piece : List Char} (h : Amid core piece) : core (unblanked piece) := by
  obtain ⟨before, inner, after, rfl, hbefore, hinner, hafter⟩ := h
  rw [unblanked_append, unblanked_append, unblanked_blanks hbefore, unblanked_blanks hafter,
    hplain inner hinner, List.nil_append, List.append_nil]
  exact hinner

theorem Digits.plain {least most : Nat} {cs : List Char} (h : Digits least most cs) :
    unblanked cs = cs ∧ ∀ c ∈ cs, isMark c = false :=
  ⟨unblanked_digits h.1, fun c hc => isMark_eq_false_of_isDigit (h.1 c hc)⟩

theorem Seconds.plain {cs : List Char} (h : Seconds cs) :
    unblanked cs = cs ∧ (∀ c ∈ cs, isMark c = false) ∧ cs.length = 6 := by
  obtain ⟨second, fraction, rfl, hsecond, hfraction⟩ := h
  have hpoint : unblanked ('.' :: fraction) = '.' :: unblanked fraction := rfl
  refine ⟨?_, ?_, ?_⟩
  · rw [unblanked_append, hpoint, hsecond.plain.1, hfraction.plain.1]
  · intro c hc
    rcases List.mem_append.1 hc with hc | hc
    · exact hsecond.plain.2 c hc
    · rcases List.mem_cons.1 hc with rfl | hc
      · rfl
      · exact hfraction.plain.2 c hc
  · have htwo := hsecond.2
    have hthree := hfraction.2
    simp only [List.length_append, List.length_cons]
    omega

theorem Letters.plain {cs : List Char} (h : Letters cs) :
    unblanked cs = cs ∧ (∀ c ∈ cs, isMark c = false) ∧ cs.length = 2 := by
  obtain ⟨a, m, rfl, ha, hm⟩ := h
  simp only [List.mem_cons, List.not_mem_nil, or_false] at ha hm
  rcases ha with rfl | rfl | rfl | rfl <;> rcases hm with rfl | rfl <;>
    exact ⟨rfl, by simp [isMark], rfl⟩

/-! ## The layout shows in the widths -/

theorem fullWidth_of_laidOut {s : String} (h : LaidOut s) : fullWidth s = true := by
  obtain ⟨month, day, year, dial, minute, seconds, letters, htext, hmonth, hday, hyear, hdial,
    hminute, hseconds, hletters⟩ := h
  have hdigits {least most : Nat} {piece : List Char} (hpiece : Amid (Digits least most) piece) :
      Digits least most (unblanked piece) := hpiece.core fun _ hcs => hcs.plain.1
  have hseconds := (hseconds.core fun _ hcs => hcs.plain.1).plain
  have hletters := (hletters.core fun _ hcs => hcs.plain.1).plain
  have hcells := cells_eq htext (by
    simp only [List.forall_mem_cons, unblanked_append, List.mem_append]
    refine ⟨(hdigits hmonth).plain.2, (hdigits hday).plain.2, (hdigits hyear).plain.2,
      (hdigits hdial).plain.2, (hdigits hminute).plain.2, ?_, by simp⟩
    exact fun c hc => hc.elim (hseconds.2.1 c) (hletters.2.1 c))
  obtain ⟨hall, hfour⟩ := hdigits hyear
  have htwo := (hdigits hminute).2
  simp only [fullWidth, hcells, Bool.and_eq_true, beq_iff_eq]
  refine ⟨⟨⟨by omega, List.all_eq_true.2 hall⟩, by omega⟩, ?_⟩
  rw [unblanked_append, List.length_append, hseconds.2.2, hletters.2.2]

theorem IsNumber.digits {width n : Nat} {piece : List Char} (h : IsNumber width piece n) :
    Digits 1 width (unblanked piece) := by
  obtain ⟨blanks, digits, rfl, hblanks, hnumeral, hlength⟩ := h
  rw [unblanked_append, unblanked_blanks hblanks, unblanked_digits hnumeral.digits]
  exact ⟨hnumeral.digits, List.length_pos_iff.2 hnumeral.nonempty, hlength⟩

theorem IsNumber.amid {width n : Nat} {piece : List Char} (h : IsNumber width piece n)
    {least most : Nat} (hleast : least ≤ (unblanked piece).length)
    (hmost : (unblanked piece).length ≤ most) : Amid (Digits least most) piece := by
  obtain ⟨blanks, digits, rfl, hblanks, hnumeral, -⟩ := h
  rw [unblanked_append, unblanked_blanks hblanks, unblanked_digits hnumeral.digits] at hleast hmost
  exact ⟨blanks, digits, [], by simp, hblanks, ⟨hnumeral.digits, hleast, hmost⟩, by simp [Blanks]⟩

theorem IsNumber.amid_self {width n : Nat} {piece : List Char} (h : IsNumber width piece n) :
    Amid (Digits 1 width) piece :=
  h.amid h.digits.2.1 h.digits.2.2

theorem IsNumber.amid_seconds {n : Nat} {piece fraction : List Char} (h : IsNumber 2 piece n)
    (htwo : 2 ≤ (unblanked piece).length) (hfraction : Digits 3 3 fraction) :
    Amid Seconds (piece ++ '.' :: fraction) := by
  obtain ⟨blanks, digits, rfl, hblanks, hnumeral, hlength⟩ := h
  rw [unblanked_append, unblanked_blanks hblanks, unblanked_digits hnumeral.digits] at htwo
  exact ⟨blanks, digits ++ '.' :: fraction, [], by simp, hblanks,
    ⟨digits, fraction, rfl, ⟨hnumeral.digits, htwo, hlength⟩, hfraction⟩, by simp [Blanks]⟩

/-- A year is a number of at most four digits or begins with its sign. -/
theorem IsYear.cases_sign {piece : List Char} {y : Int} (h : IsYear piece y) :
    (∃ n, IsNumber 4 piece n) ∨ ∃ sign digits, unblanked piece = sign :: digits ∧
      sign.isDigit = false ∧ isMark sign = false ∧ ∀ c ∈ digits, c.isDigit = true := by
  have hsigned {blanks digits : List Char} {n : Nat} (hblanks : Blanks blanks)
      (hnumeral : Numeral digits n) {sign : Char} (hsign : isBlank sign = false) :
      unblanked (blanks ++ sign :: digits) = sign :: digits := by
    have hfirst : unblanked (sign :: digits) = sign :: unblanked digits := by
      simp [unblanked, hsign]
    rw [unblanked_append, unblanked_blanks hblanks, List.nil_append, hfirst,
      unblanked_digits hnumeral.digits]
  cases h with
  | short hnumber => exact .inl ⟨_, hnumber⟩
  | plus hblanks hnumeral =>
    exact .inr ⟨'+', _, hsigned hblanks hnumeral rfl, rfl, rfl, hnumeral.digits⟩
  | minus hblanks hnumeral =>
    exact .inr ⟨'-', _, hsigned hblanks hnumeral rfl, rfl, rfl, hnumeral.digits⟩

theorem IsFraction.cases_point {piece : List Char} {millisecond : Nat}
    (h : IsFraction piece millisecond) :
    piece = [] ∨ ∃ digits, piece = '.' :: digits ∧ Digits 3 3 digits := by
  cases h with
  | absent => exact .inl rfl
  | present hnumeral hthree =>
    exact .inr ⟨_, rfl, hnumeral.digits, Nat.le_of_eq hthree.symm, Nat.le_of_eq hthree⟩

theorem IsMarker.amid {piece : List Char} {afternoon : Bool} (h : IsMarker piece afternoon) :
    Amid Letters piece := by
  obtain ⟨blanks, a, m, rfl, hblanks, ha, hm⟩ := h
  refine ⟨blanks, [a, m], [], by simp, hblanks, ⟨a, m, rfl, ?_, hm⟩, by simp [Blanks]⟩
  cases afternoon with
  | true => exact List.mem_append_right ['a', 'A'] ha
  | false => exact List.mem_append_left ['p', 'P'] ha

/-- What stands behind the minutes: a second, perhaps a fraction, and the half of the day. -/
theorem unblanked_closing {p : Pieces} {r : Reading} (h : p.Spell r) :
    (∀ c ∈ unblanked (p.second ++ (p.fraction ++ p.marker)), isMark c = false) ∧
    (unblanked (p.second ++ (p.fraction ++ p.marker))).length =
      (unblanked p.second).length + (p.fraction.length + 2) ∧
    (p.fraction = [] ∨ ∃ digits, p.fraction = '.' :: digits ∧ Digits 3 3 digits) := by
  have hsecond := h.second.digits.plain.2
  have hletters := (h.marker.amid.core fun _ hcs => hcs.plain.1).plain
  have hfraction : unblanked p.fraction = p.fraction ∧ ∀ c ∈ p.fraction, isMark c = false := by
    rcases h.fraction.cases_point with hnone | ⟨digits, hpoint, hdigits⟩
    · simp [hnone, unblanked]
    · have hfirst : unblanked ('.' :: digits) = '.' :: unblanked digits := rfl
      rw [hpoint, hfirst, hdigits.plain.1]
      exact ⟨rfl, List.forall_mem_cons.2 ⟨rfl, hdigits.plain.2⟩⟩
  rw [unblanked_append, unblanked_append, hfraction.1]
  refine ⟨?_, by simp [hletters.2.2], h.fraction.cases_point⟩
  intro c hc
  rcases List.mem_append.1 hc with hc | hc
  · exact hsecond c hc
  · exact (List.mem_append.1 hc).elim (hfraction.2 c) (hletters.2.1 c)

theorem laidOut_of_fullWidth {s : String} {r : Reading} (h : Written s r) (hfull : fullWidth s = true) :
    LaidOut s := by
  obtain ⟨p, htext, hspell⟩ := h
  obtain ⟨hmarks, hclosing, hpoint⟩ := unblanked_closing hspell
  have hyearMarks : ∀ c ∈ unblanked p.year, isMark c = false := by
    rcases hspell.year.cases_sign with ⟨n, hnumber⟩ | ⟨sign, digits, hsigned, -, hsign, hdigits⟩
    · exact hnumber.digits.plain.2
    · rw [hsigned]
      exact List.forall_mem_cons.2
        ⟨hsign, fun c hc => isMark_eq_false_of_isDigit (hdigits c hc)⟩
  have hcells := cells_eq htext (by
    simp only [List.forall_mem_cons]
    exact ⟨hspell.month.digits.plain.2, hspell.day.digits.plain.2, hyearMarks,
      hspell.dial.digits.plain.2, hspell.minute.digits.plain.2, hmarks, by simp⟩)
  simp only [fullWidth, hcells, Bool.and_eq_true, beq_iff_eq] at hfull
  obtain ⟨⟨⟨hfour, hall⟩, htwo⟩, height⟩ := hfull
  rw [hclosing] at height
  have hsecond := hspell.second.digits.2
  rcases hpoint with hnone | ⟨fraction, hpoint, hfraction⟩
  · rw [hnone, List.length_nil] at height
    omega
  have hthree := hfraction.2
  rw [hpoint, List.length_cons] at height
  refine ⟨p.month, p.day, p.year, p.dial, p.minute, p.second ++ '.' :: fraction, p.marker, ?_,
    hspell.month.amid_self, hspell.day.amid_self, ?_, hspell.dial.amid_self,
    hspell.minute.amid (by omega) (by omega), ?_, hspell.marker.amid⟩
  · simp [htext, Pieces.text, hpoint]
  · rcases hspell.year.cases_sign with ⟨n, hnumber⟩ | ⟨sign, digits, hsigned, hsign, -⟩
    · exact hnumber.amid (by omega) (by omega)
    · simp [hsigned, hsign] at hall
  · exact hspell.second.amid_seconds (by omega) hfraction

end AccessLog.Log.Timestamp

namespace AccessLog.Log

/-- The timestamp of a row that is accepted as an event is written as the grammar has it, and has
the layout of the log if and only if it has its full width. -/
theorem laidOut_iff_fullWidth {row : Row} {event : Event} (h : Event.ofRow row = .ok event) :
    ∃ text, row.fields[0]? = some text ∧ Timestamp.Denotes text event.timestamp ∧
      (Timestamp.LaidOut text ↔ Timestamp.fullWidth text = true) := by
  obtain ⟨text, hfield, hdenotes⟩ := (ofFields_eq_ok_iff.1 h).timestamp
  have hdenotes' := hdenotes
  obtain ⟨r, hwritten, -⟩ := hdenotes'
  exact ⟨text, hfield, hdenotes, Timestamp.fullWidth_of_laidOut,
    Timestamp.laidOut_of_fullWidth hwritten⟩

/-- A row with this timestamp. -/
def rowAt (timestamp : String) : Row :=
  ⟨2, "", [timestamp, "203.0.113.7", "GET", "/", "curl/8.0", "200", "HTTP/1.1", "512", "2048", "37",
    "TLSv1.3", "/"]⟩

/-- Blanks around its pieces do not take a timestamp out of the layout. -/
theorem laidOut_iff_fullWidth_blanks :
    Timestamp.fullWidth "1/ 5/2024,10:30:45.000am" = true ∧
    ∃ event, Event.ofRow (rowAt "1/ 5/2024,10:30:45.000am") = .ok event ∧
      Timestamp.LaidOut "1/ 5/2024,10:30:45.000am" := by
  have hwidth : Timestamp.fullWidth "1/ 5/2024,10:30:45.000am" = true := by
    decide +kernel
  have haccepted : (Event.ofRow (rowAt "1/ 5/2024,10:30:45.000am")).toOption.isSome = true := by
    decide +kernel
  cases hevent : Event.ofRow (rowAt "1/ 5/2024,10:30:45.000am") with
  | error fault =>
    rw [hevent] at haccepted
    cases haccepted
  | ok event =>
    obtain ⟨text, hfield, -, hiff⟩ := laidOut_iff_fullWidth hevent
    obtain rfl := Option.some.inj hfield
    exact ⟨hwidth, event, rfl, hiff.2 hwidth⟩

/-- The reader accepts a time without its fraction. -/
theorem fraction_left_out :
    (Event.ofRow (rowAt "1/15/2024, 10:30:45 AM")).toOption.map Event.timestamp =
      some ⟨2024, 1, 15, 10, 30, 45, 0⟩ ∧
    (rowAt "1/15/2024, 10:30:45 AM").fields[0]? = some "1/15/2024, 10:30:45 AM" ∧
    ¬ Timestamp.LaidOut "1/15/2024, 10:30:45 AM" := by
  refine ⟨by decide +kernel, rfl, ?_⟩
  intro hlaidOut
  exact absurd (Timestamp.fullWidth_of_laidOut hlaidOut) (by decide +kernel)

end AccessLog.Log

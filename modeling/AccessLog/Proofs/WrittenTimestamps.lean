import AccessLog.Proofs.RowChecks
import Std.Time.Date.PlainDate

/-! # Timestamps as they are written

Logs write a moment with a clock of twelve hours, in which midnight and noon are the twelfth hour
before and after noon. Every moment of the years 0 to 9999 that is written so is read back, whether
or not the numbers of one digit carry a zero in front where they may. -/

namespace AccessLog.Log
open AccessLog.Text Std.Time

/-- A moment of the calendar, to the millisecond. -/
structure Moment where
  date : PlainDate
  hour : Fin 24
  minute : Fin 60
  second : Fin 60
  millisecond : Fin 1000

/-- Whether these numbers have two digits throughout. -/
structure Style where
  month : Bool
  day : Bool
  hour : Bool

/-- The least number of digits. -/
def digitsOf (padded : Bool) : Nat := if padded then 2 else 1

/-- A number in decimal, with zeros in front up to a width. -/
def padded (width n : Nat) : String := String.ofList ((Nat.toDigits 10 n).leftpad width '0')

namespace Moment

def month (m : Moment) : Nat := m.date.month.val.toNat

def day (m : Moment) : Nat := m.date.day.val.toNat

def year (m : Moment) : Int := m.date.year.toInt

/-- The hour on a clock that shows twelve in place of zero. -/
def dial (m : Moment) : Nat := if m.hour.val % 12 = 0 then 12 else m.hour.val % 12

def marker (m : Moment) : String := if m.hour.val < 12 then "AM" else "PM"

def timestamp (m : Moment) : Timestamp where
  year := m.year
  month := m.month
  day := m.day
  hour := m.hour.val
  minute := m.minute.val
  second := m.second.val
  nanosecond := m.millisecond.val * 1000000

/-- Month, day and year, a comma, the time to the millisecond and the half of the day. -/
def written (m : Moment) (style : Style) : String :=
  let month := padded (digitsOf style.month) m.month
  let day := padded (digitsOf style.day) m.day
  let year := padded 4 m.year.toNat
  let hour := padded (digitsOf style.hour) m.dial
  let minute := padded 2 m.minute
  let second := padded 2 m.second
  let millisecond := padded 3 m.millisecond
  s!"{month}/{day}/{year}, {hour}:{minute}:{second}.{millisecond} {m.marker}"

end Moment

/-! ## Numbers -/

theorem numeral_padded (width n : Nat) : Numeral (padded width n).toList n := by
  rw [padded, String.toList_ofList, List.leftpad]
  constructor
  case nonempty => exact fun h => Nat.toDigits_ne_nil (List.append_eq_nil_iff.1 h).2
  case digits =>
    intro c hc
    rcases List.mem_append.1 hc with hc | hc
    · rw [List.eq_of_mem_replicate hc]
      rfl
    · exact isDigit_toDigits n c hc
  case value =>
    rw [Nat.ofDigitChars_append, Nat.ofDigitChars_replicate_zero, Nat.mul_zero,
      Nat.ofDigitChars_ten_toDigits]

theorem length_padded (width n : Nat) :
    (padded width n).toList.length = max width (Nat.toDigits 10 n).length := by
  rw [padded, String.toList_ofList, List.length_leftpad]

theorem isNumber_padded {width n most : Nat} (hwidth : width ≤ most)
    (hn : (Nat.toDigits 10 n).length ≤ most) :
    Timestamp.IsNumber most (padded width n).toList n := by
  refine ⟨[], (padded width n).toList, (List.nil_append _).symm, by simp [Timestamp.Blanks],
    numeral_padded width n, ?_⟩
  rw [length_padded]
  exact Nat.max_le.2 ⟨hwidth, hn⟩

theorem digitsOf_le (padded : Bool) : digitsOf padded ≤ 2 := by
  cases padded <;> decide

/-- The numbers with one or two digits. -/
theorem isNumber_two {width n : Nat} (hwidth : width ≤ 2) (hn : n < 100) :
    Timestamp.IsNumber 2 (padded width n).toList n :=
  isNumber_padded hwidth ((Nat.length_toDigits_le_iff (by decide) (by decide)).2 hn)

theorem isNumber_blank {width n : Nat} {piece : List Char} (h : Timestamp.IsNumber width piece n) :
    Timestamp.IsNumber width (' ' :: piece) n := by
  obtain ⟨blanks, digits, rfl, hblanks, hdigits⟩ := h
  exact ⟨' ' :: blanks, digits, rfl, List.forall_mem_cons.2 ⟨rfl, hblanks⟩, hdigits⟩

theorem isYear_padded {year : Int} (h : 0 ≤ year ∧ year ≤ 9999) :
    Timestamp.IsYear (padded 4 year.toNat).toList year := by
  have hlength : (Nat.toDigits 10 year.toNat).length ≤ 4 :=
    (Nat.length_toDigits_le_iff (by decide) (by decide)).2 (by omega)
  have hcast : (year.toNat : Int) = year := Int.toNat_of_nonneg h.1
  rw [← hcast, Int.toNat_natCast]
  exact .short (isNumber_padded (Nat.le_refl 4) hlength)

theorem isFraction_padded {millisecond : Nat} (h : millisecond < 1000) :
    Timestamp.IsFraction ('.' :: (padded 3 millisecond).toList) millisecond := by
  have hlength : (Nat.toDigits 10 millisecond).length ≤ 3 :=
    (Nat.length_toDigits_le_iff (by decide) (by decide)).2 h
  exact .present (numeral_padded 3 millisecond) ((length_padded 3 _).trans (Nat.max_eq_left hlength))

/-! ## The calendar -/

theorem isLeap_eq (year : Year.Offset) : year.isLeap = Timestamp.isLeapYear year.toInt := by
  have htmod (n : Int) : year.toInt.tmod n = 0 ↔ year.toInt % n = 0 := by
    rw [← Int.dvd_iff_tmod_eq_zero, ← Int.dvd_iff_emod_eq_zero]
  rw [Bool.eq_iff_iff]
  simp [Year.Offset.isLeap, Timestamp.isLeapYear, htmod]

theorem days_eq (year : Year.Offset) (month : Month.Ordinal) :
    (month.days year.isLeap).val = Timestamp.daysInMonth year.toInt month.val.toNat := by
  obtain ⟨month, hlow, hhigh⟩ := month
  rw [Timestamp.daysInMonth, ← isLeap_eq]
  have hmonth : month = 1 ∨ month = 2 ∨ month = 3 ∨ month = 4 ∨ month = 5 ∨ month = 6 ∨ month = 7 ∨
      month = 8 ∨ month = 9 ∨ month = 10 ∨ month = 11 ∨ month = 12 := by omega
  rcases hmonth with rfl | rfl | rfl | rfl | rfl | rfl | rfl | rfl | rfl | rfl | rfl | rfl <;>
    cases year.isLeap <;> rfl

namespace Moment
variable (m : Moment)

/-- What is read from the written form. -/
def reading : Timestamp.Reading where
  month := m.month
  day := m.day
  year := m.year
  dial := m.dial
  minute := m.minute.val
  second := m.second.val
  millisecond := m.millisecond.val
  afternoon := 12 ≤ m.hour.val

/-- The pieces of the written form. -/
def pieces (style : Style) : Timestamp.Pieces where
  month := (padded (digitsOf style.month) m.month).toList
  day := (padded (digitsOf style.day) m.day).toList
  year := (padded 4 m.year.toNat).toList
  dial := ' ' :: (padded (digitsOf style.hour) m.dial).toList
  minute := (padded 2 m.minute).toList
  second := (padded 2 m.second).toList
  fraction := '.' :: (padded 3 m.millisecond).toList
  marker := ' ' :: m.marker.toList

theorem month_range : 1 ≤ m.month ∧ m.month ≤ 12 := by
  obtain ⟨hlow, hhigh⟩ := m.date.month.property
  unfold month
  omega

theorem day_range : 1 ≤ m.day ∧ m.day ≤ Timestamp.daysInMonth m.year m.month := by
  have hlow : 1 ≤ m.date.day.val := m.date.day.property.1
  have hhigh : m.date.day.val ≤ (m.date.month.days m.date.year.isLeap).val := m.date.valid
  rw [days_eq] at hhigh
  unfold day year month
  omega

theorem dial_range : 1 ≤ m.dial ∧ m.dial ≤ 12 := by
  unfold dial
  split <;> omega

theorem valid_reading (hyear : 0 ≤ m.year ∧ m.year ≤ 9999) : m.reading.Valid where
  month := m.month_range
  day := m.day_range
  year := by
    unfold Timestamp.minYear Timestamp.maxYear
    show _ ≤ m.year ∧ m.year ≤ _
    omega
  dial := m.dial_range
  minute := Nat.le_of_lt_succ m.minute.isLt
  second := Nat.le_trans (Nat.le_of_lt_succ m.second.isLt) (by decide)

theorem timestamp_reading : m.reading.timestamp = m.timestamp := by
  have hhour : m.reading.hour = m.hour.val := by
    show (if m.dial = 12 then 0 else m.dial) + (if decide (12 ≤ m.hour.val) then 12 else 0) = _
    unfold dial
    simp only [decide_eq_true_eq]
    split <;> split <;> split <;> omega
  have hsecond : m.second.val ≠ 60 := Nat.ne_of_lt m.second.isLt
  rw [Timestamp.Reading.timestamp, hhour]
  simp [timestamp, reading, Timestamp.Reading.leap, hsecond]

theorem isMarker_marker : Timestamp.IsMarker (' ' :: m.marker.toList) (12 ≤ m.hour.val) := by
  have hblank : Timestamp.Blanks [' '] := by
    simp [Timestamp.Blanks, isBlank]
  unfold marker
  split
  · rename_i h
    refine ⟨[' '], 'A', 'M', rfl, hblank, ?_, by simp⟩
    simp [Nat.not_le_of_lt h]
  · rename_i h
    refine ⟨[' '], 'P', 'M', rfl, hblank, ?_, by simp⟩
    simp [Nat.le_of_not_lt h]

theorem spell_pieces (style : Style) (hyear : 0 ≤ m.year ∧ m.year ≤ 9999) :
    (m.pieces style).Spell m.reading := by
  have hmonth : m.month < 100 := Nat.lt_of_le_of_lt m.month_range.2 (by decide)
  have hday : m.day < 100 :=
    Nat.lt_of_le_of_lt (Nat.le_trans m.day_range.2 (Timestamp.daysInMonth_le _ _)) (by decide)
  have hdial : m.dial < 100 := Nat.lt_of_le_of_lt m.dial_range.2 (by decide)
  have hminute : m.minute.val < 100 := Nat.lt_trans m.minute.isLt (by decide)
  have hsecond : m.second.val < 100 := Nat.lt_trans m.second.isLt (by decide)
  -- the fields as terms, so that no text is evaluated to compare it
  constructor <;> dsimp only [pieces, reading]
  case month => exact isNumber_two (digitsOf_le style.month) hmonth
  case day => exact isNumber_two (digitsOf_le style.day) hday
  case year => exact isYear_padded hyear
  case dial => exact isNumber_blank (isNumber_two (digitsOf_le style.hour) hdial)
  case minute => exact isNumber_two (Nat.le_refl 2) hminute
  case second => exact isNumber_two (Nat.le_refl 2) hsecond
  case fraction => exact isFraction_padded m.millisecond.isLt
  case marker => exact m.isMarker_marker

theorem toList_written (style : Style) : (m.written style).toList = (m.pieces style).text := by
  simp [written, pieces, Timestamp.Pieces.text, toString]

theorem denotes_written (style : Style) (hyear : 0 ≤ m.year ∧ m.year ≤ 9999) :
    Timestamp.Denotes (m.written style) m.timestamp :=
  ⟨m.reading, ⟨m.pieces style, m.toList_written style, m.spell_pieces style hyear⟩,
    m.valid_reading hyear, m.timestamp_reading⟩

theorem dial_eq_twelve_iff : m.dial = 12 ↔ m.hour.val = 0 ∨ m.hour.val = 12 := by
  unfold dial
  split <;> omega

theorem marker_eq_am_iff : m.marker = "AM" ↔ m.hour.val < 12 := by
  unfold marker
  split <;> simp_all

theorem marker_eq_pm_iff : m.marker = "PM" ↔ 12 ≤ m.hour.val := by
  unfold marker
  split <;> simp_all

end Moment

/-- A row whose timestamp is a moment of the years 0 to 9999 as it is written, and whose other
fields pass their checks, is the event of this moment. The first hour of the day is written as 12 AM
and the first hour after noon as 12 PM. -/
theorem written_moment_read (m : Moment) (hyear : 0 ≤ m.year ∧ m.year ≤ 9999) (style : Style)
    (row : Row) (htext : row.fields[0]? = some (m.written style))
    (hothers : ∀ check ∈ Check.order, check ≠ .timestamp → check.Passes row.fields) :
    (∃ event, Event.ofRow row = .ok event ∧ event.timestamp = m.timestamp) ∧
    (m.hour = 0 ↔ m.dial = 12 ∧ m.marker = "AM") ∧
    (m.hour = 12 ↔ m.dial = 12 ∧ m.marker = "PM") := by
  have hdenotes := m.denotes_written style hyear
  have hpasses : ∀ check ∈ Check.order, check.Passes row.fields := by
    intro check hcheck
    by_cases htimestamp : check = .timestamp
    · exact htimestamp ▸ ⟨_, _, htext, hdenotes⟩
    · exact hothers check hcheck htimestamp
  obtain ⟨event, hevent⟩ := exists_event_iff.2 hpasses
  refine ⟨⟨event, hevent, ?_⟩, ?_, ?_⟩
  · obtain ⟨text, hfield, htold⟩ := (ofFields_eq_ok_iff.1 hevent).timestamp
    obtain rfl := Option.some.inj (htext.symm.trans hfield)
    -- a text denotes one moment only, since it is read
    have hread := Timestamp.parse?_eq_some_iff.2 htold
    exact Option.some.inj (hread.symm.trans (Timestamp.parse?_eq_some_iff.2 hdenotes))
  · rw [m.dial_eq_twelve_iff, m.marker_eq_am_iff, Fin.ext_iff]
    show m.hour.val = 0 ↔ _
    omega
  · rw [m.dial_eq_twelve_iff, m.marker_eq_pm_iff, Fin.ext_iff]
    show m.hour.val = 12 ↔ _
    omega

/-- The first millisecond of a leap day. -/
def leapDay : Moment := ⟨⟨2024, 2, 29, by decide⟩, 0, 0, 0, 0⟩

def leapDayRow : Row :=
  ⟨2, "", ["2/29/2024, 12:00:00.000 AM", "::1", "GET", "/", "", "0200", "", "+1", "-1", "007", "", ""]⟩

theorem written_moment_read_leapDay :
    (0 ≤ leapDay.year ∧ leapDay.year ≤ 9999) ∧
    leapDayRow.fields[0]? = some (leapDay.written ⟨false, false, true⟩) ∧
    (∀ check ∈ Check.order, check ≠ .timestamp → check.Passes leapDayRow.fields) ∧
    (∃ event, Event.ofRow leapDayRow = .ok event ∧ event.timestamp = ⟨2024, 2, 29, 0, 0, 0, 0⟩) ∧
    leapDay.dial = 12 ∧ leapDay.marker = "AM" := by
  have hyear : 0 ≤ leapDay.year ∧ leapDay.year ≤ 9999 := by
    decide
  have htext : leapDayRow.fields[0]? = some (leapDay.written ⟨false, false, true⟩) := by
    decide +kernel
  have hothers : ∀ check ∈ Check.order, check ≠ .timestamp → check.Passes leapDayRow.fields := by
    intro check hcheck htimestamp
    simp only [Check.order, List.mem_cons, List.not_mem_nil, or_false] at hcheck
    rcases hcheck with rfl | rfl | rfl | rfl | rfl | rfl | rfl
    · rfl
    · exact absurd rfl htimestamp
    · exact (Check.passes_method rfl).2 ⟨.get, by decide⟩
    · exact (Check.passes_status rfl).2 ⟨200, by decide +kernel⟩
    · exact (Check.passes_number rfl).2 ⟨1, by decide +kernel⟩
    · exact (Check.passes_number rfl).2 ⟨-1, by decide +kernel⟩
    · exact (Check.passes_number rfl).2 ⟨7, by decide +kernel⟩
  obtain ⟨hevent, hmidnight, -⟩ :=
    written_moment_read leapDay hyear ⟨false, false, true⟩ leapDayRow htext hothers
  exact ⟨hyear, htext, hothers, hevent, hmidnight.1 rfl⟩

end AccessLog.Log

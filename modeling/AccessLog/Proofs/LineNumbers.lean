import AccessLog.Proofs.BatchAccounting

/-! # Line numbers across unreadable lines

A line that is no text is reported and then left out of the count. The rows of a stream are
therefore those of its readable lines, numbered among these, and the first of these is the header.
They are the rows of its physical lines exactly as long as no unreadable line stands before a row:
from the first such line on numbers fall short, and in front of the header it costs a row as
well. -/

namespace AccessLog.Log
open AccessLog.Text

/-- What has been read, without the faults in between. -/
def Delivery.item? {α : Type} : Delivery α → Option α
  | item value => some value
  | fault _ | crash _ => none

/-- The text of a line that is a row wherever it stands behind the first. -/
def rowText? (line : List UInt8) : Option String := (decode? line).filter fun text => !allBlank text

/-- The row that a line holds, under a number. -/
def rowAt? (number : Nat) (line : List UInt8) : Option Row :=
  (rowText? line).map fun text => ⟨number, text, splitFields text⟩

/-- The rows of lines that are numbered from `first` on, each by its place among all of them. -/
def rowsPlaced (first : Nat) (lines : List (List UInt8)) : List Row :=
  (lines.zipIdx first).filterMap fun line => rowAt? line.2 line.1

/-- Every line that is no text stands behind all rows. -/
def FaultsLast (lines : List (List UInt8)) : Prop :=
  lines.Pairwise fun earlier later => (rowText? later).isSome → (decode? earlier).isSome

instance (lines : List (List UInt8)) : Decidable (FaultsLast lines) :=
  inferInstanceAs (Decidable (lines.Pairwise fun earlier later =>
    (rowText? later).isSome → (decode? earlier).isSome))

/-! ## Rows of readable lines -/

theorem rowsFrom_deliver {count : Nat} (hcount : count ≠ 0) (lines : List (List UInt8)) :
    (rowsFrom count (lines.map deliver)).filterMap Delivery.item? =
      rowsNumbered (count + 1) (lines.filterMap decode?) := by
  induction lines generalizing count with
  | nil => rfl
  | cons line lines ih =>
    cases hline : decode? line with
    | none =>
      rw [List.filterMap_cons_none hline, ← ih hcount]
      simp [deliver, hline, rowsFrom, List.filterMap_cons, Delivery.item?]
    | some text =>
      rw [List.filterMap_cons_some hline, rowsNumbered_cons, ← ih (Nat.succ_ne_zero count)]
      cases hblank : allBlank text <;>
        simp [deliver, hline, rowsFrom, hblank, hcount, Delivery.item?]

/-- The first readable line is passed over, and from there on lines are numbered. -/
theorem rowsFrom_zero (lines : List (List UInt8)) :
    (rowsFrom 0 (lines.map deliver)).filterMap Delivery.item? =
      rowsOf (lines.filterMap decode?) := by
  induction lines with
  | nil => rfl
  | cons line lines ih =>
    cases hline : decode? line with
    | none =>
      rw [List.filterMap_cons_none hline, ← ih]
      simp [deliver, hline, rowsFrom, List.filterMap_cons, Delivery.item?]
    | some text =>
      rw [List.filterMap_cons_some hline, rowsOf, List.drop_one, List.tail_cons,
        ← rowsFrom_deliver Nat.one_ne_zero]
      simp [deliver, hline, rowsFrom]

/-! ## Two ways of numbering

Both ways find the same rows; after a line that is no text the one count stands still. -/

theorem rowsPlaced_cons (first : Nat) (line : List UInt8) (lines : List (List UInt8)) :
    rowsPlaced first (line :: lines) =
      (rowAt? first line).toList ++ rowsPlaced (first + 1) lines := by
  cases hrow : rowAt? first line <;> simp [rowsPlaced, List.zipIdx_cons, hrow]

theorem rowsNumbered_decode?_cons (first : Nat) (line : List UInt8) (lines : List (List UInt8)) :
    rowsNumbered first ((line :: lines).filterMap decode?) =
      (rowAt? first line).toList ++
        rowsNumbered (first + if (decode? line).isSome then 1 else 0) (lines.filterMap decode?) := by
  cases hline : decode? line with
  | none => simp [hline, rowAt?, rowText?]
  | some text =>
    rw [List.filterMap_cons_some hline, rowsNumbered_cons]
    cases hblank : allBlank text <;>
      simp [hline, rowAt?, rowText?, Option.filter, hblank]

/-- The number of rows is the same however they are numbered. -/
theorem length_rowsNumbered (first place : Nat) (lines : List (List UInt8)) :
    (rowsNumbered first (lines.filterMap decode?)).length = (rowsPlaced place lines).length := by
  induction lines generalizing first place with
  | nil => rfl
  | cons line lines ih =>
    have hline : (rowAt? first line).toList.length = (rowAt? place line).toList.length := by
      cases htext : rowText? line <;> simp [rowAt?, htext]
    rw [rowsNumbered_decode?_cons, rowsPlaced_cons, List.length_append, List.length_append, hline,
      ih _ (place + 1)]

/-- Once the count falls short of the place, the next row is numbered wrongly. -/
theorem rowsNumbered_eq_short {first place : Nat} (hshort : first < place)
    (lines : List (List UInt8)) :
    rowsNumbered first (lines.filterMap decode?) = rowsPlaced place lines ↔
      ∀ line ∈ lines, rowText? line = none := by
  induction lines generalizing first place with
  | nil => simp [rowsNumbered, rowsPlaced]
  | cons line lines ih =>
    rw [List.forall_mem_cons, rowsNumbered_decode?_cons, rowsPlaced_cons]
    cases htext : rowText? line with
    | none =>
      have hrest : first + (if (decode? line).isSome then 1 else 0) < place + 1 := by
        split <;> omega
      simpa [rowAt?, htext] using ih hrest
    | some text =>
      -- the next row is this one, and the numbers differ
      simp [rowAt?, htext, Nat.ne_of_lt hshort]

/-- A header that is taken from further down costs a row, or leaves the count short. -/
theorem rowsOf_eq_short {place : Nat} (hplace : 2 ≤ place) (lines : List (List UInt8)) :
    rowsOf (lines.filterMap decode?) = rowsPlaced place lines ↔
      ∀ line ∈ lines, rowText? line = none := by
  induction lines generalizing place with
  | nil => simp [rowsOf, rowsNumbered, rowsPlaced]
  | cons line lines ih =>
    rw [List.forall_mem_cons, rowsPlaced_cons]
    cases hline : decode? line with
    | none =>
      rw [List.filterMap_cons_none hline]
      simpa [rowAt?, rowText?, hline] using ih (Nat.le_succ_of_le hplace)
    | some header =>
      rw [List.filterMap_cons_some hline, rowsOf, List.drop_one, List.tail_cons]
      cases htext : rowText? line with
      | none => simpa [rowAt?, htext] using rowsNumbered_eq_short (Nat.lt_succ_of_le hplace) lines
      | some text =>
        -- the header is a row itself, so that one row is missing
        have hlength := length_rowsNumbered 2 (place + 1) lines
        refine iff_of_false ?_ (by simp)
        intro heq
        rw [heq] at hlength
        simp [rowAt?, htext] at hlength

section FaultsLast
variable {line : List UInt8} {lines : List (List UInt8)}

theorem faultsLast_cons_readable {text : String} (h : decode? line = some text) :
    FaultsLast (line :: lines) ↔ FaultsLast lines := by
  simp [FaultsLast, h]

theorem faultsLast_cons_unreadable (h : decode? line = none) :
    FaultsLast (line :: lines) ↔ ∀ other ∈ lines, rowText? other = none := by
  simp only [FaultsLast, List.pairwise_cons, h, Option.isSome_none, Bool.false_eq_true, imp_false,
    Option.not_isSome_iff_eq_none]
  refine ⟨fun hlast => hlast.1, fun hnone => ⟨hnone, ?_⟩⟩
  apply List.pairwise_of_forall_mem_list
  intro earlier _ later hlater
  simp [hnone later hlater]

end FaultsLast

theorem rowsNumbered_eq_iff (first : Nat) (lines : List (List UInt8)) :
    rowsNumbered first (lines.filterMap decode?) = rowsPlaced first lines ↔ FaultsLast lines := by
  induction lines generalizing first with
  | nil => simp [rowsNumbered, rowsPlaced, FaultsLast]
  | cons line lines ih =>
    rw [rowsNumbered_decode?_cons, rowsPlaced_cons, List.append_cancel_left_eq]
    cases hline : decode? line with
    | none =>
      rw [faultsLast_cons_unreadable hline]
      exact rowsNumbered_eq_short (Nat.lt_succ_self first) lines
    | some text =>
      rw [faultsLast_cons_readable hline]
      exact ih (first + 1)

theorem rowsOf_eq_iff (lines : List (List UInt8)) :
    rowsOf (lines.filterMap decode?) = rowsPlaced 2 (lines.drop 1) ↔ FaultsLast lines := by
  cases lines with
  | nil => simp [rowsOf, rowsNumbered, rowsPlaced, FaultsLast]
  | cons line lines =>
    rw [List.drop_one, List.tail_cons]
    cases hline : decode? line with
    | none =>
      rw [List.filterMap_cons_none hline, faultsLast_cons_unreadable hline]
      exact rowsOf_eq_short (Nat.le_refl 2) lines
    | some text =>
      rw [List.filterMap_cons_some hline, faultsLast_cons_readable hline]
      exact rowsNumbered_eq_iff 2 lines

/-- The rows of a stream are those of its readable lines, numbered among these, whatever is reported
in between. They are the rows of its lines behind the first, each numbered by its place among all
lines, if and only if every line that is no text stands behind all rows. -/
theorem rows_placed_iff {reads : List Read} {bytes : List UInt8} (hreads : Delivers reads bytes) :
    (rows reads).filterMap Delivery.item? = rowsOf ((physicalLines bytes).filterMap decode?) ∧
    ((rows reads).filterMap Delivery.item? = rowsPlaced 2 ((physicalLines bytes).drop 1) ↔
      FaultsLast (physicalLines bytes)) := by
  have hrows : (rows reads).filterMap Delivery.item? =
      rowsOf ((physicalLines bytes).filterMap decode?) := by
    rw [rows, hreads.lines, rowsFrom_zero]
  exact ⟨hrows, by rw [hrows, rowsOf_eq_iff]⟩

/-- A log that breaks off in a line that is no text. -/
def tornLog : List UInt8 := encode "h\na\n\nb\n" ++ [0xFF]

/-- Behind the last row such a line does no harm. -/
theorem rows_placed_iff_tornLog :
    Delivers [.bytes (tornLog.take 3), .bytes (tornLog.drop 3)] tornLog ∧
    FaultsLast (physicalLines tornLog) ∧
    (rows [.bytes (tornLog.take 3), .bytes (tornLog.drop 3)]).filterMap Delivery.item? =
      [⟨2, "a", ["a"]⟩, ⟨4, "b", ["b"]⟩] := by
  have hreads : Delivers [.bytes (tornLog.take 3), .bytes (tornLog.drop 3)] tornLog := by
    decide +kernel
  have hlast : FaultsLast (physicalLines tornLog) := by
    decide +kernel
  refine ⟨hreads, hlast, ?_⟩
  rw [(rows_placed_iff hreads).2.2 hlast]
  decide +kernel

/-- A log whose header is no text. -/
def headlessLog : List UInt8 := 0xFF :: encode "\na,b\nc,d\n"

/-- Its first row is taken for the header, and the second has the number of the first. -/
theorem row_lost :
    Delivers [.bytes headlessLog] headlessLog ∧
    rows [.bytes headlessLog] = [.fault .notText, .item ⟨2, "c,d", ["c", "d"]⟩] ∧
    rowsPlaced 2 ((physicalLines headlessLog).drop 1) =
      [⟨2, "a,b", ["a", "b"]⟩, ⟨3, "c,d", ["c", "d"]⟩] ∧
    (rows [.bytes headlessLog]).filterMap Delivery.item? ≠
      rowsPlaced 2 ((physicalLines headlessLog).drop 1) := by
  decide +kernel

end AccessLog.Log

import AccessLog.Proofs.BatchAccounting
import AccessLog.Proofs.EncodedLines

/-! # Rows in quotation marks

A row whose fields are free of marks and of line feeds can be written on one line, each field in
marks and commas in between. A log that is written this way is read back field by field, whatever
commas its fields contain. -/

namespace AccessLog.Log
open AccessLog.Text

/-- What can be written as a field: a text on one line, without marks, and with no blank at either
end. -/
structure Quotable (field : String) : Prop where
  unmarked : '"' ∉ field.toList
  oneLine : '\n' ∉ field.toList
  opens : field.toList.head?.all (!isBlank ·)
  closes : field.toList.getLast?.all (!isBlank ·)

instance (field : String) : Decidable (Quotable field) :=
  decidable_of_iff
    ('"' ∉ field.toList ∧ '\n' ∉ field.toList ∧ field.toList.head?.all (!isBlank ·) ∧
      field.toList.getLast?.all (!isBlank ·))
    ⟨fun h => ⟨h.1, h.2.1, h.2.2.1, h.2.2.2⟩,
      fun h => ⟨h.unmarked, h.oneLine, h.opens, h.closes⟩⟩

def inMarks (field : String) : String := "\"" ++ field ++ "\""

/-- The line of a row. -/
def quotedLine (fields : List String) : String := ",".intercalate (fields.map inMarks)

theorem quotedLine_singleton (field : String) :
    (quotedLine [field]).toList = '"' :: (field.toList ++ ['"']) := by
  simp [quotedLine, inMarks]

theorem quotedLine_cons_cons (field next : String) (fields : List String) :
    (quotedLine (field :: next :: fields)).toList =
      '"' :: (field.toList ++ '"' :: ',' :: (quotedLine (next :: fields)).toList) := by
  simp only [quotedLine, List.map_cons, String.intercalate_cons_cons, inMarks]
  simp

/-! ## Cutting a line -/

theorem pieces_inMarks {field : List Char} (h : '"' ∉ field) (rest : List Char) :
    pieces false ('"' :: (field ++ '"' :: rest)) = field.foldr attach (pieces false rest) := by
  have hinside : pieces true (field ++ '"' :: rest) = field.foldr attach (pieces false rest) := by
    induction field with
    | nil => rfl
    | cons c field ih =>
      obtain ⟨hc, hfield⟩ := not_or.1 (mt List.mem_cons.2 h)
      rw [List.cons_append, pieces, if_neg (Ne.symm hc), if_neg (by simp), ih hfield,
        List.foldr_cons]
  rw [← hinside]
  rfl

theorem foldr_attach (cs piece : List Char) (found : List (List Char)) :
    cs.foldr attach (piece :: found) = (cs ++ piece) :: found := by
  induction cs with
  | nil => rfl
  | cons c cs ih => rw [List.foldr_cons, ih, List.cons_append, attach]

theorem pieces_quotedLine {fields : List String} (hne : fields ≠ [])
    (h : ∀ field ∈ fields, '"' ∉ field.toList) :
    pieces false (quotedLine fields).toList = fields.map String.toList := by
  induction fields with
  | nil => exact absurd rfl hne
  | cons field fields ih =>
    obtain ⟨hfield, hfields⟩ := List.forall_mem_cons.1 h
    cases fields with
    | nil =>
      rw [quotedLine_singleton, pieces_inMarks hfield, pieces, foldr_attach, List.append_nil]
      rfl
    | cons next fields =>
      have hcomma (rest : List Char) : pieces false (',' :: rest) = [] :: pieces false rest := rfl
      rw [quotedLine_cons_cons, pieces_inMarks hfield, hcomma, foldr_attach, List.append_nil,
        ih (List.cons_ne_nil _ _) hfields]
      rfl

theorem splitFields_quotedLine {fields : List String} (hne : fields ≠ [])
    (h : ∀ field ∈ fields, Quotable field) : splitFields (quotedLine fields) = fields := by
  have hpieces := pieces_quotedLine hne fun field hfield => (h field hfield).unmarked
  rw [splitFields, hpieces, List.map_map]
  have hself : ∀ field ∈ fields, String.ofList (trim field.toList) = field := by
    intro field hfield
    rw [trim_eq_self (h field hfield).opens (h field hfield).closes, String.ofList_toList]
  exact (List.map_congr_left hself).trans (List.map_id _)

/-! ## Written lines

A written line begins and ends with a mark, so it is neither blank nor does a carriage return of
its own stand before its end. -/

theorem allBlank_quotedLine {fields : List String} (hne : fields ≠ []) :
    allBlank (quotedLine fields) = false := by
  match fields with
  | [] => exact absurd rfl hne
  | [field] =>
    rw [allBlank, quotedLine_singleton]
    rfl
  | field :: next :: fields =>
    rw [allBlank, quotedLine_cons_cons]
    rfl

theorem getLast?_quotedLine {fields : List String} (hne : fields ≠ []) :
    (quotedLine fields).toList.getLast? = some '"' := by
  induction fields with
  | nil => exact absurd rfl hne
  | cons field fields ih =>
    cases fields with
    | nil => simp [quotedLine_singleton, List.getLast?_cons]
    | cons next fields =>
      have hnext := ih (List.cons_ne_nil _ _)
      simp [quotedLine_cons_cons, List.getLast?_cons, hnext]

theorem oneLine_quotedLine {fields : List String} (h : ∀ field ∈ fields, Quotable field) :
    '\n' ∉ (quotedLine fields).toList := by
  induction fields with
  | nil => simp [quotedLine]
  | cons field fields ih =>
    obtain ⟨hfield, hfields⟩ := List.forall_mem_cons.1 h
    cases fields with
    | nil => simp [quotedLine_singleton, hfield.oneLine]
    | cons next fields => simp [quotedLine_cons_cons, hfield.oneLine, ih hfields]

theorem physicalLine_quotedLine {fields : List String} (hne : fields ≠ []) (lineEnd : LineEnd) :
    physicalLine (quotedLine fields, lineEnd) = encode (quotedLine fields) := by
  cases lineEnd with
  | feed =>
    apply withoutReturn_encode
    rw [getLast?_quotedLine hne]
    decide
  | returnFeed => rfl

/-- Each written row is read with the number of its line. -/
theorem rowsNumbered_quotedLine (first : Nat) {table : List (List String × LineEnd)}
    (h : ∀ row ∈ table, row.1 ≠ [] ∧ ∀ field ∈ row.1, Quotable field) :
    rowsNumbered first (table.map fun row => quotedLine row.1) =
      (table.zipIdx first).map fun row => ⟨row.2, quotedLine row.1.1, row.1.1⟩ := by
  induction table generalizing first with
  | nil => rfl
  | cons row table ih =>
    obtain ⟨⟨hne, hfields⟩, htable⟩ := List.forall_mem_cons.1 h
    rw [List.map_cons, rowsNumbered_cons, allBlank_quotedLine hne, ih _ htable,
      splitFields_quotedLine hne hfields]
    rfl

/-- A log of a header and of rows in quotation marks, each line with either end, is read row by row:
the row of index `k` has the number `k + 2`, its written line and its fields. -/
theorem rows_of_quotedLines {reads : List Read} {header : String × LineEnd}
    {table : List (List String × LineEnd)} (hheader : '\n' ∉ header.1.toList)
    (htable : ∀ row ∈ table, row.1 ≠ [] ∧ ∀ field ∈ row.1, Quotable field)
    (hreads : Delivers reads
      (encode (laidOut (header :: table.map fun row => (quotedLine row.1, row.2))))) :
    rows reads = table.zipIdx.map fun row =>
      .item ⟨row.2 + 2, quotedLine row.1.1, row.1.1⟩ := by
  have hlines : ∀ line ∈ header :: table.map fun row => (quotedLine row.1, row.2),
      '\n' ∉ line.1.toList := by
    refine List.forall_mem_cons.2 ⟨hheader, List.forall_mem_map.2 ?_⟩
    intro row hrow
    exact oneLine_quotedLine (htable row hrow).2
  obtain ⟨title, htitle⟩ := exists_decode?_physicalLine header
  have hrow : ∀ row ∈ table,
      decode? (physicalLine (quotedLine row.1, row.2)) = some (quotedLine row.1) := by
    intro row hrow
    rw [physicalLine_quotedLine (htable row hrow).1, decode?_encode]
  have htexts : (physicalLines
      (encode (laidOut (header :: table.map fun row => (quotedLine row.1, row.2))))).map decode? =
        (title :: table.map fun row => quotedLine row.1).map some := by
    rw [physicalLines_laidOut hlines, List.map_cons, List.map_cons, htitle, List.map_cons,
      List.map_map, List.map_map, List.map_map]
    exact congrArg (_ :: ·) (List.map_congr_left hrow)
  have hrows := rowsNumbered_quotedLine 2 htable
  rw [rows_of_delivers hreads htexts, rowsOf, List.drop_one, List.tail_cons, hrows,
    List.zipIdx_eq_map_add, List.map_map, List.map_map]
  simp only [Function.comp_def, Nat.add_comm]

/-- Fields with commas and with a carriage return, and fields of nothing. -/
def oddTable : List (List String × LineEnd) :=
  [(["1/15/2024, 10:30", "", "é\rx"], .returnFeed), ([""], .feed)]

/-- The table, behind a header that ends in a carriage return of its own. -/
def quotedLog : List UInt8 :=
  encode (laidOut (("a,\"b\r", .feed) :: oddTable.map fun row => (quotedLine row.1, row.2)))

theorem rows_of_quotedLines_oddTable :
    '\n' ∉ "a,\"b\r".toList ∧
    (∀ row ∈ oddTable, row.1 ≠ [] ∧ ∀ field ∈ row.1, Quotable field) ∧
    Delivers (quotedLog.map fun b => .bytes [b]) quotedLog ∧
    rows (quotedLog.map fun b => .bytes [b]) =
      [.item ⟨2, "\"1/15/2024, 10:30\",\"\",\"é\rx\"", ["1/15/2024, 10:30", "", "é\rx"]⟩,
        .item ⟨3, "\"\"", [""]⟩] := by
  have hheader : '\n' ∉ "a,\"b\r".toList := by decide
  have htable : ∀ row ∈ oddTable, row.1 ≠ [] ∧ ∀ field ∈ row.1, Quotable field := by
    decide +kernel
  have hreads : Delivers (quotedLog.map fun b => .bytes [b]) quotedLog := by
    decide +kernel
  have hrows := @rows_of_quotedLines _ ("a,\"b\r", .feed) oddTable hheader htable hreads
  refine ⟨hheader, htable, hreads, hrows.trans ?_⟩
  decide +kernel

end AccessLog.Log

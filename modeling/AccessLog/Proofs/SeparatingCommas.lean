import AccessLog.Proofs.BatchAccounting

/-! # Fields between separating commas

A comma separates two fields if an even number of quotation marks stands before it in its line,
whether or not the marks come in pairs. Cutting a line in one pass gives what stands between these
commas, without marks and trimmed. -/

namespace AccessLog.Log
open AccessLog.Text

/-- The places of the commas behind an even number of quotation marks, when `marks` of them stand
before the line. -/
def separators (marks : Nat) (cs : List Char) : List Nat :=
  (List.range cs.length).filter fun i =>
    cs[i]? = some ',' ∧ (marks + (cs.take i).count '"') % 2 = 0

/-- What stands before, between and behind these places of a line, from the place `first` on. -/
def between (line : List Char) (first : Nat) : List Nat → List (List Char)
  | [] => [line.drop first]
  | i :: rest => (line.take i).drop first :: between line (i + 1) rest

/-- The fields of a line, as its separating commas lay them down. -/
def fieldsBetween (line : String) : List String :=
  (between line.toList 0 (separators 0 line.toList)).map fun piece =>
    String.ofList (trim (piece.filter (· ≠ '"')))

theorem separators_cons (marks : Nat) (c : Char) (cs : List Char) :
    separators marks (c :: cs) =
      (if c = ',' ∧ marks % 2 = 0 then [0] else []) ++
        (separators (marks + if c = '"' then 1 else 0) cs).map (· + 1) := by
  have hlater : ((fun i => decide ((c :: cs)[i]? = some ',' ∧
      (marks + ((c :: cs).take i).count '"') % 2 = 0)) ∘ Nat.succ) = fun i =>
        decide (cs[i]? = some ',' ∧
          (marks + (if c = '"' then 1 else 0) + (cs.take i).count '"') % 2 = 0) := by
    funext i
    simp only [Function.comp_apply, List.getElem?_cons_succ, List.take_succ_cons, List.count_cons,
      beq_iff_eq, Nat.add_assoc, Nat.add_comm (List.count _ _)]
  unfold separators
  rw [List.length_cons, List.range_succ_eq_map, List.filter_cons, List.filter_map, hlater]
  by_cases hfirst : c = ',' ∧ marks % 2 = 0
  · simp [hfirst]
  · simp [hfirst]

theorem between_shift (c : Char) (line : List Char) (first : Nat) (places : List Nat) :
    between (c :: line) (first + 1) (places.map (· + 1)) = between line first places := by
  induction places generalizing first with
  | nil => rfl
  | cons i places ih => simp [between, ih]

theorem between_front (c : Char) (line : List Char) (places : List Nat) :
    between (c :: line) 0 (places.map (· + 1)) = attach c (between line 0 places) := by
  cases places with
  | nil => rfl
  | cons i places => simp [between, attach, between_shift]

theorem length_between (line : List Char) (first : Nat) (places : List Nat) :
    (between line first places).length = places.length + 1 := by
  induction places generalizing first with
  | nil => rfl
  | cons i places ih => simp [between, ih]

theorem filter_attach (c : Char) {found : List (List Char)} (h : found ≠ []) :
    (attach c found).map (List.filter (· ≠ '"')) =
      if c = '"' then found.map (List.filter (· ≠ '"'))
      else attach c (found.map (List.filter (· ≠ '"'))) := by
  cases found with
  | nil => exact absurd rfl h
  | cons piece found =>
    split
    · rename_i hc
      simp [attach, hc]
    · rename_i hc
      simp [attach, hc]

/-- One pass over a line keeps track of whether the number of marks so far is odd. -/
theorem pieces_eq_between (quoted : Bool) (marks : Nat) (line : List Char)
    (h : marks % 2 = quoted.toNat) :
    pieces quoted line =
      (between line 0 (separators marks line)).map (List.filter (· ≠ '"')) := by
  induction line generalizing quoted marks with
  | nil => rfl
  | cons c line ih =>
    have hfound (places : List Nat) : between line 0 places ≠ [] := by
      rw [← List.length_pos_iff, length_between]
      omega
    rw [separators_cons, pieces]
    by_cases hmark : c = '"'
    · have hmarks : (marks + 1) % 2 = (!quoted).toNat := by
        cases quoted <;> simp at h ⊢ <;> omega
      rw [if_pos hmark, ih _ _ hmarks, if_pos hmark, if_neg (by simp [hmark]), List.nil_append,
        between_front, filter_attach c (hfound _), if_pos hmark]
    · rw [if_neg hmark, if_neg hmark, Nat.add_zero]
      cases quoted with
      | false =>
        by_cases hcomma : c = ','
        · rw [if_pos (by simp [hcomma]), if_pos ⟨hcomma, h⟩, ih _ _ h]
          simp [between, between_shift]
        · rw [if_neg (by simp [hcomma]), if_neg (by simp [hcomma]), List.nil_append, between_front,
            filter_attach c (hfound _), if_neg hmark, ih _ _ h]
      | true =>
        rw [if_neg (by simp), if_neg (by simp [h]), List.nil_append, between_front,
          filter_attach c (hfound _), if_neg hmark, ih _ _ h]

theorem splitFields_eq_fieldsBetween (line : String) : splitFields line = fieldsBetween line := by
  unfold splitFields fieldsBetween
  rw [pieces_eq_between false 0 _ rfl, List.map_map]
  rfl

/-- However a stream of texts is cut into reads, it yields one row for each line behind the first
that is not blank: with the place of the line among all lines, its text, and what stands between its
separating commas, which is one field more than there are such commas. -/
theorem rows_between_commas {reads : List Read} {bytes : List UInt8} {texts : List String}
    (hreads : Delivers reads bytes) (htexts : (physicalLines bytes).map decode? = texts.map some) :
    rows reads = ((((texts.zipIdx 1).drop 1).filter fun line => !allBlank line.1).map fun line =>
      .item ⟨line.2, line.1, fieldsBetween line.1⟩) ∧
    ∀ row, .item row ∈ rows reads →
      row.fields.length = (separators 0 row.raw.toList).length + 1 := by
  have hplaces : (texts.zipIdx 1).drop 1 = (texts.drop 1).zipIdx 2 := by
    cases texts with
    | nil => rfl
    | cons header texts => simp [List.zipIdx_cons]
  have hrows : rows reads =
      ((((texts.zipIdx 1).drop 1).filter fun line => !allBlank line.1).map fun line =>
        .item ⟨line.2, line.1, fieldsBetween line.1⟩) := by
    rw [rows_of_delivers hreads htexts, rowsOf, rowsNumbered, List.map_map, hplaces]
    simp only [Function.comp_def, splitFields_eq_fieldsBetween]
  refine ⟨hrows, ?_⟩
  intro row hrow
  rw [hrows] at hrow
  obtain ⟨line, -, hline⟩ := List.mem_map.1 hrow
  obtain rfl := Delivery.item.inj hline
  simp [fieldsBetween, length_between]

/-- A log with a mark that has no partner, a line of blanks, and no end of its last line. -/
def oddLog : List UInt8 := encode "h\r\n\"a,b\",c\n\u2003\r\né, x\"y,z"

/-- The log, cut between a carriage return and its line feed and within a character. -/
def oddReads : List Read :=
  [.bytes (oddLog.take 2), .interrupted, .bytes ((oddLog.drop 2).take 15), .interrupted,
    .bytes (oddLog.drop 17)]

theorem rows_between_commas_oddLog :
    Delivers oddReads oddLog ∧
    (physicalLines oddLog).map decode? =
      ["h", "\"a,b\",c", "\u2003", "é, x\"y,z"].map some ∧
    rows oddReads =
      [.item ⟨2, "\"a,b\",c", ["a,b", "c"]⟩, .item ⟨4, "é, x\"y,z", ["é", "xy,z"]⟩] := by
  have hreads : Delivers oddReads oddLog := by
    decide +kernel
  have htexts : (physicalLines oddLog).map decode? =
      ["h", "\"a,b\",c", "\u2003", "é, x\"y,z"].map some := by
    decide +kernel
  refine ⟨hreads, htexts, ?_⟩
  rw [(rows_between_commas hreads htexts).1]
  decide +kernel

end AccessLog.Log

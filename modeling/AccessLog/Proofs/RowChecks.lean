import AccessLog.Log.Event
import AccessLog.Proofs.TimestampGrammar

/-! # Rows that are events

A row is an event if it passes seven checks, each of the number of its fields or of one field, and
the fault of any other row is that of the first check that it fails. The remaining six fields are
taken over as they are. -/

namespace AccessLog.Log
open AccessLog.Text

/-- The place of a number among the fields of a row. -/
def NumberField.column : NumberField → Nat
  | receivedBytes => 7
  | sentBytes => 8
  | responseTime => 9

/-- What is asked of a row. -/
inductive Check where
  | columnCount
  | timestamp
  | method
  | status
  | number (field : NumberField)
  deriving DecidableEq

namespace Check

/-- The checks, in the order in which they are made. -/
def order : List Check :=
  [columnCount, timestamp, method, status, number .receivedBytes, number .sentBytes,
    number .responseTime]

/-- The fields pass the check. -/
def Passes (fields : List String) : Check → Prop
  | columnCount => fields.length = 12
  | timestamp => ∃ text t, fields[0]? = some text ∧ Timestamp.Denotes text t
  | method => ∃ text, fields[2]? = some text ∧
      text ∈ ["GET", "POST", "PUT", "DELETE", "PATCH", "HEAD", "OPTIONS", "TRACE"]
  | status => ∃ text n, fields[5]? = some text ∧ Unsigned text.toList n ∧ 100 ≤ n ∧ n ≤ 999
  | number field => ∃ text v, fields[field.column]? = some text ∧ Signed text.toList v ∧
      least64 ≤ v ∧ v ≤ greatest64

/-- What is said of fields that fail the check. -/
def fault (fields : List String) : Check → RowFault
  | columnCount => .columnCount fields.length
  | timestamp => .timestamp (fields.getD 0 "")
  | method => .method (fields.getD 2 "")
  | status => .status (fields.getD 5 "")
  | number field => .number field (fields.getD field.column "")

/-- The check is the first of `checks` that the fields fail. -/
def FirstFailing (fields : List String) (checks : List Check) (check : Check) : Prop :=
  ∃ before after, checks = before ++ check :: after ∧ (∀ earlier ∈ before, earlier.Passes fields) ∧
    ¬ check.Passes fields

end Check

/-- The event has what the fields say: what the typed ones denote, and the text of the others. -/
structure Event.Tells (event : Event) (fields : List String) : Prop where
  columns : fields.length = 12
  timestamp : ∃ text, fields[0]? = some text ∧ Timestamp.Denotes text event.timestamp
  clientAddress : fields[1]? = some event.clientAddress
  method : fields[2]? = some event.method.name
  path : fields[3]? = some event.path
  userAgent : fields[4]? = some event.userAgent
  status : ∃ text, fields[5]? = some text ∧ Unsigned text.toList event.status.toNat ∧
    100 ≤ event.status.toNat ∧ event.status.toNat ≤ 999
  protocol : fields[6]? = some event.protocol
  receivedBytes : ∃ text, fields[7]? = some text ∧ Signed text.toList event.receivedBytes.toInt
  sentBytes : ∃ text, fields[8]? = some text ∧ Signed text.toList event.sentBytes.toInt
  responseTime : ∃ text, fields[9]? = some text ∧ Signed text.toList event.responseTime.toInt
  tlsProtocol : fields[10]? = some event.tlsProtocol
  pathWithArguments : fields[11]? = some event.pathWithArguments

/-! ## Single fields -/

theorem status?_eq_some_iff {s : String} {code : UInt16} :
    status? s = some code ↔
      Unsigned s.toList code.toNat ∧ 100 ≤ code.toNat ∧ code.toNat ≤ 999 := by
  unfold status?
  simp only [Option.map_eq_some_iff, Option.filter_eq_some_iff, unsigned?_eq_some_iff,
    Bool.and_eq_true, decide_eq_true_eq]
  constructor
  · rintro ⟨n, ⟨⟨hn, hbound⟩, hrange⟩, rfl⟩
    rw [UInt16.toNat_ofNat_of_lt' hbound]
    exact ⟨hn, hrange⟩
  · rintro ⟨hn, hrange⟩
    exact ⟨code.toNat, ⟨⟨hn, code.toNat_lt⟩, hrange⟩, UInt16.ofNat_toNat⟩

theorem isSome_status?_iff {s : String} :
    (∃ code, status? s = some code) ↔ ∃ n, Unsigned s.toList n ∧ 100 ≤ n ∧ n ≤ 999 := by
  unfold status?
  simp only [Option.map_eq_some_iff, Option.filter_eq_some_iff, unsigned?_eq_some_iff,
    Bool.and_eq_true, decide_eq_true_eq]
  constructor
  · rintro ⟨_, n, ⟨⟨hn, -⟩, hrange⟩, -⟩
    exact ⟨n, hn, hrange⟩
  · rintro ⟨n, hn, hrange⟩
    exact ⟨_, n, ⟨⟨hn, Nat.lt_of_le_of_lt hrange.2 (by decide)⟩, hrange⟩, rfl⟩

theorem number?_eq_some_iff {s : String} {n : Int64} :
    number? s = some n ↔ Signed s.toList n.toInt := by
  unfold number?
  simp only [Option.map_eq_some_iff, signed64?_eq_some_iff]
  constructor
  · rintro ⟨v, ⟨hv, hlow, hhigh⟩, rfl⟩
    rw [Int64.toInt_ofInt_of_le hlow (Int.lt_add_one_of_le hhigh)]
    exact hv
  · intro hn
    exact ⟨n.toInt, ⟨hn, n.minValue_le_toInt, Int.le_of_lt_add_one n.toInt_lt⟩, n.ofInt_toInt⟩

theorem isSome_number?_iff {s : String} :
    (∃ n, number? s = some n) ↔ ∃ v, Signed s.toList v ∧ least64 ≤ v ∧ v ≤ greatest64 := by
  unfold number?
  simp only [Option.map_eq_some_iff, signed64?_eq_some_iff]
  constructor
  · rintro ⟨_, v, hv, -⟩
    exact ⟨v, hv⟩
  · rintro ⟨v, hv⟩
    exact ⟨_, v, hv, rfl⟩

theorem ofName?_eq_some_iff {s : String} {m : Method} : Method.ofName? s = some m ↔ s = m.name :=
  ⟨fun h => (Method.name_of_ofName? h).symm, fun h => h ▸ Method.ofName?_name m⟩

theorem isSome_ofName?_iff {s : String} :
    (∃ m, Method.ofName? s = some m) ↔
      s ∈ ["GET", "POST", "PUT", "DELETE", "PATCH", "HEAD", "OPTIONS", "TRACE"] := by
  simp only [ofName?_eq_some_iff]
  constructor
  · rintro ⟨m, rfl⟩
    cases m <;> decide
  · intro h
    obtain ⟨m, -, hm⟩ := List.mem_map.1 (show s ∈ Method.all.map Method.name from h)
    exact ⟨m, hm.symm⟩

/-! ## The checks in their order -/

section Checked
variable {α β : Type} {read : String → Option α} {fault : String → RowFault} {s : String}
  {next : α → Except RowFault β}

theorem checked_bind_ok {b : β} :
    (checked read fault s >>= next) = .ok b ↔ ∃ a, read s = some a ∧ next a = .ok b := by
  cases h : read s <;> simp [checked, h, bind, Except.bind]

theorem checked_bind_error {f : RowFault} :
    (checked read fault s >>= next) = .error f ↔
      (¬ (∃ a, read s = some a) ∧ f = fault s) ∨ ∃ a, read s = some a ∧ next a = .error f := by
  cases h : read s <;> simp [checked, h, bind, Except.bind, eq_comm]

end Checked

theorem exists_fields {fields : List String} (h : fields.length = 12) :
    ∃ a b c d e f g i j k l m, fields = [a, b, c, d, e, f, g, i, j, k, l, m] := by
  match fields, h with
  | [a, b, c, d, e, f, g, i, j, k, l, m], _ => exact ⟨a, b, c, d, e, f, g, i, j, k, l, m, rfl⟩

theorem ofFields_of_length_ne {fields : List String} (h : fields.length ≠ 12) :
    Event.ofFields fields = .error (.columnCount fields.length) := by
  unfold Event.ofFields
  split
  · exact absurd rfl h
  · rfl

theorem ofFields_eq_ok_iff {fields : List String} {event : Event} :
    Event.ofFields fields = .ok event ↔ event.Tells fields := by
  by_cases hcolumns : fields.length = 12
  · obtain ⟨a, b, c, d, e, f, g, i, j, k, l, m, rfl⟩ := exists_fields hcolumns
    simp only [Event.ofFields, checked_bind_ok, Timestamp.parse?_eq_some_iff, ofName?_eq_some_iff,
      status?_eq_some_iff, number?_eq_some_iff]
    constructor
    · rintro ⟨t, ht, method, rfl, code, hcode, received, hreceived, sent, hsent, time, htime, heq⟩
      obtain rfl := Except.ok.inj heq
      exact ⟨rfl, ⟨a, rfl, ht⟩, rfl, rfl, rfl, rfl, ⟨f, rfl, hcode⟩, rfl, ⟨i, rfl, hreceived⟩,
        ⟨j, rfl, hsent⟩, ⟨k, rfl, htime⟩, rfl, rfl⟩
    · intro h
      obtain ⟨_, hi, ht⟩ := h.timestamp
      obtain ⟨_, hf, hcode⟩ := h.status
      obtain ⟨_, hr, hreceived⟩ := h.receivedBytes
      obtain ⟨_, hs, hsent⟩ := h.sentBytes
      obtain ⟨_, hd, htime⟩ := h.responseTime
      obtain rfl := Option.some.inj hi
      obtain rfl := Option.some.inj hf
      obtain rfl := Option.some.inj hr
      obtain rfl := Option.some.inj hs
      obtain rfl := Option.some.inj hd
      obtain rfl := Option.some.inj h.clientAddress
      obtain rfl := Option.some.inj h.path
      obtain rfl := Option.some.inj h.userAgent
      obtain rfl := Option.some.inj h.protocol
      obtain rfl := Option.some.inj h.tlsProtocol
      obtain rfl := Option.some.inj h.pathWithArguments
      exact ⟨_, ht, _, Option.some.inj h.method, _, hcode, _, hreceived, _, hsent, _, htime, rfl⟩
  · rw [ofFields_of_length_ne hcolumns]
    exact iff_of_false (by simp) fun h => hcolumns h.columns

namespace Check
variable {fields : List String} {text : String}

theorem passes_timestamp (h : fields[0]? = some text) :
    timestamp.Passes fields ↔ ∃ t, Timestamp.parse? text = some t := by
  simp [Passes, h, Timestamp.parse?_eq_some_iff]

theorem passes_method (h : fields[2]? = some text) :
    method.Passes fields ↔ ∃ m, Method.ofName? text = some m := by
  rw [isSome_ofName?_iff]
  simp [Passes, h]

theorem passes_status (h : fields[5]? = some text) :
    status.Passes fields ↔ ∃ code, status? text = some code := by
  rw [isSome_status?_iff]
  simp [Passes, h]

theorem passes_number {field : NumberField} (h : fields[field.column]? = some text) :
    (number field).Passes fields ↔ ∃ n, number? text = some n := by
  rw [isSome_number?_iff]
  simp [Passes, h]

theorem not_firstFailing_nil {check : Check} : ¬ FirstFailing fields [] check := by
  rintro ⟨before, after, h, -⟩
  simp at h

theorem firstFailing_cons {first check : Check} {rest : List Check} :
    FirstFailing fields (first :: rest) check ↔
      (¬ first.Passes fields ∧ first = check) ∨
        (first.Passes fields ∧ FirstFailing fields rest check) := by
  constructor
  · rintro ⟨before, after, heq, hbefore, hcheck⟩
    cases before with
    | nil =>
      obtain ⟨rfl, rfl⟩ := List.cons.inj heq
      exact .inl ⟨hcheck, rfl⟩
    | cons earlier before =>
      obtain ⟨rfl, rfl⟩ := List.cons.inj heq
      obtain ⟨hfirst, hbefore⟩ := List.forall_mem_cons.1 hbefore
      exact .inr ⟨hfirst, before, after, rfl, hbefore, hcheck⟩
  · rintro (⟨hfirst, rfl⟩ | ⟨hfirst, before, after, rfl, hbefore, hcheck⟩)
    · exact ⟨[], rest, rfl, by simp, hfirst⟩
    · exact ⟨first :: before, after, rfl, List.forall_mem_cons.2 ⟨hfirst, hbefore⟩, hcheck⟩

/-- The fault of the first failing check is that of the check in front or of a later one. -/
theorem exists_firstFailing_cons {first : Check} {rest : List Check} {f : RowFault} :
    (∃ check, FirstFailing fields (first :: rest) check ∧ f = check.fault fields) ↔
      (¬ first.Passes fields ∧ f = first.fault fields) ∨
        (first.Passes fields ∧ ∃ check, FirstFailing fields rest check ∧ f = check.fault fields) := by
  simp only [firstFailing_cons]
  constructor
  · rintro ⟨check, ⟨hfirst, rfl⟩ | ⟨hfirst, hcheck⟩, hf⟩
    · exact .inl ⟨hfirst, hf⟩
    · exact .inr ⟨hfirst, check, hcheck, hf⟩
  · rintro (⟨hfirst, hf⟩ | ⟨hfirst, check, hcheck, hf⟩)
    · exact ⟨first, .inl ⟨hfirst, rfl⟩, hf⟩
    · exact ⟨check, .inr ⟨hfirst, hcheck⟩, hf⟩

end Check

theorem ofFields_eq_error_iff {fields : List String} {f : RowFault} :
    Event.ofFields fields = .error f ↔
      ∃ check, Check.FirstFailing fields Check.order check ∧ f = check.fault fields := by
  rw [Check.order, Check.exists_firstFailing_cons]
  by_cases hcolumns : fields.length = 12
  · obtain ⟨a, b, c, d, e, g, i, j, k, l, m, n, rfl⟩ := exists_fields hcolumns
    have hpasses : Check.columnCount.Passes [a, b, c, d, e, g, i, j, k, l, m, n] := rfl
    simp only [hpasses, not_true_eq_false, false_and, false_or, true_and,
      Check.exists_firstFailing_cons, Check.not_firstFailing_nil, exists_false, and_false, or_false]
    rw [Check.passes_timestamp rfl, Check.passes_method rfl, Check.passes_status rfl,
      Check.passes_number rfl, Check.passes_number rfl, Check.passes_number rfl]
    simp only [Event.ofFields, checked_bind_error, reduceCtorEq, and_false, exists_false, or_false,
      ← exists_and_right]
    exact Iff.rfl
  · rw [ofFields_of_length_ne hcolumns]
    have hfails : ¬ Check.columnCount.Passes fields := hcolumns
    simp [hfails, Check.fault, eq_comm]

/-- Whether a row is an event or else why not, without what the event tells. -/
def Row.verdict (row : Row) : Except RowFault Unit := (Event.ofRow row).map fun _ => ()

/-- The fields that a check looks at. -/
def typedColumns : List Nat := [0, 2, 5, 7, 8, 9]

theorem Check.passes_congr {fields others : List String} (hlength : others.length = fields.length)
    (htyped : ∀ i ∈ typedColumns, others[i]? = fields[i]?) (check : Check) :
    (check.Passes others ↔ check.Passes fields) ∧ check.fault others = check.fault fields := by
  cases check with
  | columnCount => simp [Passes, fault, hlength]
  | timestamp => simp [Passes, fault, htyped 0 (by decide)]
  | method => simp [Passes, fault, htyped 2 (by decide)]
  | status => simp [Passes, fault, htyped 5 (by decide)]
  | number field =>
    have hcolumn : field.column ∈ typedColumns := by
      cases field <;> decide
    simp [Passes, fault, htyped _ hcolumn]

theorem Check.firstFailing_congr {fields others : List String}
    (hlength : others.length = fields.length)
    (htyped : ∀ i ∈ typedColumns, others[i]? = fields[i]?) (checks : List Check) (check : Check) :
    FirstFailing others checks check ↔ FirstFailing fields checks check := by
  simp only [FirstFailing, (passes_congr hlength htyped _).1]

theorem Check.exists_firstFailing_iff {fields : List String} {checks : List Check} :
    (∃ check, FirstFailing fields checks check) ↔ ¬ ∀ check ∈ checks, check.Passes fields := by
  induction checks with
  | nil => simp [not_firstFailing_nil]
  | cons first rest ih =>
    rw [List.forall_mem_cons]
    simp only [firstFailing_cons, exists_or, exists_and_left, exists_eq', and_true, ih]
    by_cases hfirst : first.Passes fields <;> simp [hfirst]

theorem verdict_eq_error_iff {row : Row} {f : RowFault} :
    row.verdict = .error f ↔ Event.ofRow row = .error f := by
  unfold Row.verdict
  cases Event.ofRow row <;> simp [Except.map]

/-- Verdicts that refuse with the same faults are the same. -/
theorem verdict_ext {row other : Row}
    (h : ∀ f, other.verdict = .error f ↔ row.verdict = .error f) : other.verdict = row.verdict := by
  cases hrow : row.verdict with
  | error f => rw [h, hrow]
  | ok =>
    cases hother : other.verdict with
    | ok => rfl
    | error f => cases hrow.symm.trans ((h f).1 hother)

theorem exists_event_iff {row : Row} :
    (∃ event, Event.ofRow row = .ok event) ↔ ∀ check ∈ Check.order, check.Passes row.fields := by
  constructor
  · rintro ⟨event, h⟩
    refine Classical.byContradiction fun hfails => ?_
    obtain ⟨check, hcheck⟩ := Check.exists_firstFailing_iff.2 hfails
    cases h.symm.trans (ofFields_eq_error_iff.2 ⟨check, hcheck, rfl⟩)
  · intro hpasses
    cases h : Event.ofRow row with
    | ok event => exact ⟨event, rfl⟩
    | error f =>
      obtain ⟨check, hcheck, -⟩ := ofFields_eq_error_iff.1 h
      exact absurd hpasses (Check.exists_firstFailing_iff.1 ⟨check, hcheck⟩)

/-- A row is an event if and only if it passes all checks; the event has what its fields say. The
fault of any other row is that of the first check which it fails. What the six fields say that no
check looks at makes no difference to this. -/
theorem ofRow_checks (row : Row) :
    ((∃ event, Event.ofRow row = .ok event) ↔ ∀ check ∈ Check.order, check.Passes row.fields) ∧
    (∀ event, Event.ofRow row = .ok event ↔ event.Tells row.fields) ∧
    (∀ fault, Event.ofRow row = .error fault ↔
      ∃ check, Check.FirstFailing row.fields Check.order check ∧ fault = check.fault row.fields) ∧
    ∀ other : Row, other.fields.length = row.fields.length →
      (∀ i ∈ typedColumns, other.fields[i]? = row.fields[i]?) → other.verdict = row.verdict := by
  refine ⟨exists_event_iff, fun _ => ofFields_eq_ok_iff, fun _ => ofFields_eq_error_iff, ?_⟩
  intro other hlength htyped
  refine verdict_ext fun f => ?_
  rw [verdict_eq_error_iff, verdict_eq_error_iff, Event.ofRow, Event.ofRow,
    ofFields_eq_error_iff, ofFields_eq_error_iff]
  simp only [Check.firstFailing_congr hlength htyped, (Check.passes_congr hlength htyped _).2]

/-- A row whose typed fields take every liberty, with one text in all its other fields. -/
def looseRow (text : String) : Row :=
  ⟨2, "", ["1/ 15/+02024,2:3:60 pm", text, "PUT", text, text, "+000201", text, "-0",
    "+9223372036854775807", "-09223372036854775808", text, text]⟩

theorem ofRow_checks_looseRow :
    (looseRow "x").fields.length = (looseRow "").fields.length ∧
    (∀ i ∈ typedColumns, (looseRow "x").fields[i]? = (looseRow "").fields[i]?) ∧
    (looseRow "x").verdict = (looseRow "").verdict ∧
    (Event.ofRow (looseRow "")).toOption = some
      { timestamp := ⟨2024, 1, 15, 14, 3, 59, 1000000000⟩
        clientAddress := "", method := .put, path := "", userAgent := "", status := 201
        protocol := "", receivedBytes := 0, sentBytes := 9223372036854775807
        responseTime := -9223372036854775808, tlsProtocol := "", pathWithArguments := "" } := by
  have htyped : ∀ i ∈ typedColumns, (looseRow "x").fields[i]? = (looseRow "").fields[i]? := by
    decide
  exact ⟨rfl, htyped, (ofRow_checks (looseRow "")).2.2.2 (looseRow "x") rfl htyped,
    by decide +kernel⟩

end AccessLog.Log

import AccessLog.Proofs.Counting
import AccessLog.Proofs.PhysicalLines
import AccessLog.Service.Ingest

/-! # Accounting for a batch

Every line of a batch behind the first that is not blank is counted once, as an event or as a
failure. The rows of the batch are laid down from the texts of its lines; adding them one by one
describes their events and their failures, and a line that cannot be read ends the adding. -/

namespace AccessLog.Log
open AccessLog.Text

/-- The rows of lines that are numbered from `first` on; blank ones are counted and passed over. -/
def rowsNumbered (first : Nat) (texts : List String) : List Row :=
  ((texts.zipIdx first).filter fun line => !allBlank line.1).map fun line =>
    ⟨line.2, line.1, splitFields line.1⟩

/-- The rows of a batch are those of the lines behind its first. -/
def rowsOf (texts : List String) : List Row := rowsNumbered 2 (texts.drop 1)

theorem rowsNumbered_cons (first : Nat) (text : String) (texts : List String) :
    rowsNumbered first (text :: texts) =
      if allBlank text then rowsNumbered (first + 1) texts
      else ⟨first, text, splitFields text⟩ :: rowsNumbered (first + 1) texts := by
  cases hblank : allBlank text <;> simp [rowsNumbered, List.zipIdx_cons, hblank]

theorem rowsFrom_items {count : Nat} (hcount : count ≠ 0) (texts : List String)
    (tail : List (Delivery String)) :
    rowsFrom count (texts.map .item ++ tail) =
      (rowsNumbered (count + 1) texts).map .item ++ rowsFrom (count + texts.length) tail := by
  induction texts generalizing count with
  | nil => rfl
  | cons text texts ih =>
    have hlength : count + (text :: texts).length = count + 1 + texts.length := by
      rw [List.length_cons]
      omega
    have hrest := ih (Nat.succ_ne_zero count)
    rw [hlength, List.map_cons, List.cons_append, rowsFrom, hrest]
    cases hblank : allBlank text with
    | true => simp [rowsNumbered, List.zipIdx_cons, hblank]
    | false => simp [rowsNumbered, List.zipIdx_cons, hblank, hcount]

theorem rowsFrom_texts (texts : List String) (tail : List (Delivery String)) :
    rowsFrom 0 (texts.map .item ++ tail) =
      (rowsOf texts).map .item ++ rowsFrom texts.length tail := by
  cases texts with
  | nil => rfl
  | cons header texts =>
    have hheader : rowsFrom 0 ((header :: texts).map .item ++ tail) =
        rowsFrom 1 (texts.map .item ++ tail) := by
      simp [rowsFrom]
    rw [hheader, rowsFrom_items (by decide), List.length_cons, Nat.add_comm texts.length]
    rfl

/-! ## The texts of lines -/

theorem deliver_eq_item {line : List UInt8} {text : String} (h : decode? line = some text) :
    deliver line = .item text := by
  simp [deliver, h]

theorem map_deliver {lines : List (List UInt8)} {texts : List String}
    (h : lines.map decode? = texts.map some) : lines.map deliver = texts.map .item := by
  induction lines generalizing texts with
  | nil =>
    cases texts with
    | nil => rfl
    | cons text texts => cases h
  | cons line lines ih =>
    cases texts with
    | nil => cases h
    | cons text texts =>
      obtain ⟨hline, hlines⟩ := List.cons.inj h
      rw [List.map_cons, List.map_cons, deliver_eq_item hline, ih hlines]

/-- A stream of texts yields the rows of its texts, and nothing else. -/
theorem rows_of_delivers {reads : List Read} {bytes : List UInt8} {texts : List String}
    (hreads : Delivers reads bytes) (htexts : (physicalLines bytes).map decode? = texts.map some) :
    rows reads = (rowsOf texts).map .item := by
  have hrows := rowsFrom_texts texts []
  rw [List.append_nil, rowsFrom, List.append_nil] at hrows
  rw [rows, hreads.lines, map_deliver htexts, hrows]

theorem exists_texts {lines : List (List UInt8)} (h : ∀ line ∈ lines, decode? line ≠ none) :
    ∃ texts : List String, lines.map decode? = texts.map some := by
  induction lines with
  | nil => exact ⟨[], rfl⟩
  | cons line lines ih =>
    obtain ⟨texts, htexts⟩ := ih fun other hmem => h other (List.mem_cons_of_mem _ hmem)
    obtain ⟨text, htext⟩ := Option.ne_none_iff_exists'.1 (h line List.mem_cons_self)
    exact ⟨text :: texts, by rw [List.map_cons, List.map_cons, htext, htexts]⟩

/-- Before the first line that is no text there are texts only. -/
theorem map_deliver_of_not_text {lines : List (List UInt8)}
    (h : ∃ line ∈ lines, decode? line = none) :
    ∃ (texts : List String) (tail : List (Delivery String)),
      lines.map deliver = texts.map .item ++ .fault .notText :: tail := by
  induction lines with
  | nil =>
    obtain ⟨line, hmem, -⟩ := h
    cases hmem
  | cons line lines ih =>
    cases hline : decode? line with
    | none => exact ⟨[], lines.map deliver, by simp [deliver, hline]⟩
    | some text =>
      have hlater : ∃ other ∈ lines, decode? other = none := by
        obtain ⟨other, hmem, hnone⟩ := h
        rcases List.mem_cons.1 hmem with rfl | hmem
        · rw [hline] at hnone
          cases hnone
        · exact ⟨other, hmem, hnone⟩
      obtain ⟨texts, tail, hdeliver⟩ := ih hlater
      exact ⟨text :: texts, tail, by
        rw [List.map_cons, hdeliver, deliver_eq_item hline, List.map_cons, List.cons_append]⟩

end AccessLog.Log

namespace AccessLog.Stats
open AccessLog.Log AccessLog.Text

def event? (row : Row) : Option Event :=
  match Event.ofRow row with
  | .ok event => some event
  | .error _ => none

/-- The failure of a row that is no event, with its line, its text and the reason. -/
def failure? (row : Row) : Option ParseFailure :=
  match Event.ofRow row with
  | .ok _ => none
  | .error fault => some ⟨UInt64.ofNat row.line, row.raw, fault.message⟩

theorem row_ok {row : Row} {event : Event} (h : Event.ofRow row = .ok event) :
    event? row = some event ∧ failure? row = none := by
  simp [event?, failure?, h]

theorem row_error {row : Row} {fault : RowFault} (h : Event.ofRow row = .error fault) :
    event? row = none ∧
      failure? row = some ⟨UInt64.ofNat row.line, row.raw, fault.message⟩ := by
  simp [event?, failure?, h]

/-- A row is an event or a failure, and not both. -/
theorem length_events_add_length_failures (rows : List Row) :
    (rows.filterMap event?).length + (rows.filterMap failure?).length = rows.length := by
  induction rows with
  | nil => rfl
  | cons row rows ih =>
    rw [List.length_cons, ← ih]
    cases hrow : Event.ofRow row with
    | ok event =>
      obtain ⟨hevent, hfailure⟩ := row_ok hrow
      rw [List.filterMap_cons_some hevent, List.filterMap_cons_none hfailure, List.length_cons]
      omega
    | error fault =>
      obtain ⟨hevent, hfailure⟩ := row_error hrow
      rw [List.filterMap_cons_none hevent, List.filterMap_cons_some hfailure, List.length_cons]
      omega

/-- An analysis accounts for rows when it describes their events and their failures. -/
def Analysis.AccountsFor (a : Analysis) (rows : List Row) : Prop :=
  a.Describes (rows.filterMap event?) (rows.filterMap failure?)

namespace Aggregator
variable {a : Aggregator} {done : List Row} (createdAt : Int64)

theorem accountsFor_addRow (h : (a.finish createdAt).AccountsFor done) (row : Row) :
    ((a.addRow row).finish createdAt).AccountsFor (done ++ [row]) := by
  unfold Analysis.AccountsFor addRow
  rw [List.filterMap_append, List.filterMap_append]
  cases hrow : Event.ofRow row with
  | ok event =>
    obtain ⟨hevent, hfailure⟩ := row_ok hrow
    rw [List.filterMap_cons_some hevent, List.filterMap_cons_none hfailure, List.filterMap_nil,
      List.filterMap_nil, List.append_nil]
    exact describes_accumulate createdAt h event
  | error fault =>
    obtain ⟨hevent, hfailure⟩ := row_error hrow
    rw [List.filterMap_cons_none hevent, List.filterMap_cons_some hfailure, List.filterMap_nil,
      List.filterMap_nil, List.append_nil]
    exact describes_recordFailure createdAt h _

theorem accountsFor_foldl (h : (a.finish createdAt).AccountsFor done) (rows : List Row) :
    ((rows.foldl addRow a).finish createdAt).AccountsFor (done ++ rows) := by
  induction rows generalizing a done with
  | nil => simpa using h
  | cons row rows ih =>
    have hrest := ih (accountsFor_addRow createdAt h row)
    rwa [List.append_assoc] at hrest

end Aggregator

theorem addRows_items (a : Aggregator) (rows : List Row) (tail : List (Delivery Row)) :
    addRows a (rows.map .item ++ tail) = addRows (rows.foldl Aggregator.addRow a) tail := by
  induction rows generalizing a with
  | nil => rfl
  | cons row rows ih => exact ih (a.addRow row)

/-- The texts at the beginning of a batch are added before anything else happens. -/
theorem aggregate_eq (createdAt : Int64) {reads : List Read} {texts : List String}
    {tail : List (Delivery String)} (h : lines reads = texts.map .item ++ tail) :
    aggregate createdAt reads =
      (addRows ((rowsOf texts).foldl Aggregator.addRow .empty) (rowsFrom texts.length tail)).map
        fun a => a.finish createdAt := by
  unfold aggregate rows
  rw [h, rowsFrom_texts, addRows_items]

theorem aggregate_of_texts (createdAt : Int64) {reads : List Read} {texts : List String}
    (h : lines reads = texts.map .item) :
    ∃ a, aggregate createdAt reads = .ok a ∧ a.id = none ∧ a.createdAt = createdAt ∧
      a.AccountsFor (rowsOf texts) := by
  have hlines : lines reads = texts.map .item ++ [] := by
    rw [h, List.append_nil]
  have haggregate := aggregate_eq createdAt hlines
  refine ⟨_, haggregate, rfl, rfl, ?_⟩
  have hempty : (Aggregator.empty.finish createdAt).AccountsFor [] :=
    Aggregator.describes_empty createdAt
  have hrows := Aggregator.accountsFor_foldl createdAt hempty (rowsOf texts)
  rwa [List.nil_append] at hrows

theorem aggregate_of_fault (createdAt : Int64) {reads : List Read} {texts : List String}
    {fault : ReadFault} {tail : List (Delivery String)}
    (h : lines reads = texts.map .item ++ .fault fault :: tail) :
    aggregate createdAt reads = .error (.unreadable fault) := by
  rw [aggregate_eq createdAt h]
  rfl

/-- The two totals of an analysis share out the rows it accounts for. -/
theorem Analysis.AccountsFor.totals {a : Analysis} {rows : List Row} (h : a.AccountsFor rows) :
    a.totalRequests + a.failures.total = UInt64.ofNat rows.length := by
  rw [h.total, h.failureTotal, ← UInt64.ofNat_add, length_events_add_length_failures]

theorem Analysis.AccountsFor.toNat_totals {a : Analysis} {rows : List Row} (h : a.AccountsFor rows)
    (hfit : rows.length < UInt64.size) :
    a.totalRequests.toNat + a.failures.total.toNat = rows.length := by
  have hlength := length_events_add_length_failures rows
  rw [h.total, h.failureTotal, UInt64.toNat_ofNat_of_lt' (by omega),
    UInt64.toNat_ofNat_of_lt' (by omega), hlength]

end AccessLog.Stats

namespace AccessLog.Service
open AccessLog.Log AccessLog.Stats AccessLog.Text

/-- A batch whose lines are all texts yields an analysis that accounts for every row, once. Else the
first line that is no text or the failed read is reported, whichever comes first, and there is no
analysis. -/
theorem aggregate_accounts (createdAt : Int64) (reads : List Read) (hends : EndsOnce reads) :
    (∀ texts : List String, (content reads).halt = none →
      (content reads).lines.map decode? = texts.map some →
      ∃ a, aggregate createdAt reads = .ok a ∧ a.id = none ∧ a.createdAt = createdAt ∧
        a.AccountsFor (rowsOf texts) ∧
        a.totalRequests + a.failures.total = UInt64.ofNat (rowsOf texts).length ∧
        ((rowsOf texts).length < UInt64.size →
          a.totalRequests.toNat + a.failures.total.toNat = (rowsOf texts).length)) ∧
    ((∃ line ∈ (content reads).lines, decode? line = none) →
      (aggregate createdAt reads).mapError batchFailure = .error (.batchRead .notText)) ∧
    (∀ message, (content reads).halt = some (.failed message) →
      (∀ line ∈ (content reads).lines, decode? line ≠ none) →
      (aggregate createdAt reads).mapError batchFailure =
        .error (.batchRead (.failed message))) := by
  obtain ⟨later, hlines⟩ := lines_eq_deliveries reads hends
  unfold Content.deliveries at hlines
  refine ⟨?_, ?_, ?_⟩
  · intro texts hhalt htexts
    rw [map_deliver htexts, hhalt, List.append_nil] at hlines
    obtain ⟨a, haggregate, hid, hcreated, haccounts⟩ := aggregate_of_texts createdAt hlines
    exact ⟨a, haggregate, hid, hcreated, haccounts, haccounts.totals, haccounts.toNat_totals⟩
  · intro hbad
    obtain ⟨texts, tail, hdeliver⟩ := map_deliver_of_not_text hbad
    rw [hdeliver, List.append_assoc, List.cons_append] at hlines
    rw [aggregate_of_fault createdAt hlines]
    rfl
  · intro message hhalt htext
    obtain ⟨texts, htexts⟩ := exists_texts htext
    rw [map_deliver htexts, hhalt] at hlines
    rw [aggregate_of_fault createdAt hlines]
    rfl

/-- An event in two pieces, a blank line, and a line of one column without an end. -/
def mixedBatch : List Read :=
  [.bytes (encode "time,address\r"), .interrupted,
    .bytes (encode "\n\"1/15/2024, 10:30:45.123 AM\",1.1.1.1,GE"),
    .bytes (encode "T,/a,curl,200,HTTP/1.1,1,2,3,TLSv1.3,/a?x=1\r\n \nalone"), .bytes []]

/-- The first bytes of a batch, and the failure of the next read. -/
def brokenBatch (bytes : List UInt8) : List Read := [.bytes bytes, .failed "connection reset"]

theorem aggregate_accounts_mixed :
    (∃ a, aggregate 7 mixedBatch = .ok a ∧ a.totalRequests = 1 ∧ a.paths.count "/a" = 1 ∧
      a.failures.samples = [⟨4, "alone", "expected 12 columns but found 1"⟩]) ∧
    (aggregate 7 (brokenBatch [0x68, 10, 0xFF, 10])).mapError batchFailure =
      .error (.batchRead .notText) ∧
    (aggregate 7 (brokenBatch [0x68, 10, 0xFF])).mapError batchFailure =
      .error (.batchRead (.failed "connection reset")) := by
  have hbroken (bytes : List UInt8) : EndsOnce (brokenBatch (0x68 :: bytes)) := by
    simp [EndsOnce, brokenBatch]
  have hmixed : EndsOnce mixedBatch := by decide +kernel
  refine ⟨?_, (aggregate_accounts 7 _ (hbroken _)).2.1 ⟨[0xFF], by decide +kernel⟩,
    (aggregate_accounts 7 _ (hbroken _)).2.2 "connection reset" (by decide +kernel)
      (by decide +kernel)⟩
  obtain ⟨a, haggregate, -, -, haccounts, -⟩ := (aggregate_accounts 7 mixedBatch hmixed).1
    ["time,address",
      "\"1/15/2024, 10:30:45.123 AM\",1.1.1.1,GET,/a,curl,200,HTTP/1.1,1,2,3,TLSv1.3,/a?x=1",
      " ", "alone"] (by decide +kernel) (by decide +kernel)
  refine ⟨a, haggregate, ?_, ?_, ?_⟩
  · rw [haccounts.total]
    decide +kernel
  · rw [haccounts.path]
    decide +kernel
  · rw [haccounts.samples]
    decide +kernel

end AccessLog.Service

import AccessLog.Proofs.Counting
import AccessLog.Proofs.JsonText
import AccessLog.Stats.Analysis

/-! # Payloads read back

The payload of an analysis gives back the analysis, but for its identity. The entries of a counter
may stand in any order in it: each entry is put where it belongs, so the order leaves no trace. -/

namespace AccessLog.Json

/-! ## Fields and items -/

theorem mapM_eq_some_map {α β : Type} {f : α → Option β} {g : α → β} {xs : List α}
    (h : ∀ x ∈ xs, f x = some (g x)) : xs.mapM f = some (xs.map g) := by
  induction xs with
  | nil => rfl
  | cons x xs ih =>
    obtain ⟨hx, hxs⟩ := List.forall_mem_cons.1 h
    simp [List.mapM_cons, hx, ih hxs]

theorem named_record {members : List (String × Json)} (hnodup : (members.map Prod.fst).Nodup)
    {m : String × Json} (hm : m ∈ members) :
    named m.1 (members.map fun m => (escape m.1, m.2)) = [m.2] := by
  simp only [named, List.filterMap_map, Function.comp_def, unescape?_escape]
  induction members with
  | nil => cases hm
  | cons first members ih =>
    obtain ⟨hfirst, hnodup⟩ := List.nodup_cons.1 hnodup
    rcases List.mem_cons.1 hm with rfl | hm
    · have hrest : members.filterMap (fun other : String × Json =>
          if some other.1 == some m.1 then some other.2 else none) = [] := by
        refine List.filterMap_eq_nil_iff.2 fun other hother => if_neg ?_
        intro heq
        have hkey : other.1 = m.1 := by simpa using heq
        exact hfirst (hkey ▸ List.mem_map_of_mem hother)
      simpa using hrest
    · have hne : first.1 ≠ m.1 := fun heq => hfirst (heq ▸ List.mem_map_of_mem hm)
      simpa [hne] using ih hnodup hm

/-- A record whose keys differ has the fields that it was made of. -/
theorem fields?_record (members : List (String × Json)) (hnodup : (members.map Prod.fst).Nodup) :
    fields? (members.map Prod.fst) (record members) = some (members.map fun m => some m.2) := by
  have hkeys : (members.map fun m => (escape m.1, m.2)).all
      (fun m => (unescape? m.1).isSome) = true := by simp
  show (if _ then _ else _) = _
  rw [if_pos hkeys, List.mapM_map]
  refine mapM_eq_some_map fun m hm => ?_
  rw [Function.comp_apply, named_record hnodup hm]

theorem items?_map {α : Type} {item? : Json → Option α} {toJson : α → Json}
    (h : ∀ a, item? (toJson a) = some a) (items : List α) :
    items? item? (.array (items.map toJson)) = some items := by
  show (items.map toJson).mapM item? = some items
  rw [List.mapM_map, mapM_eq_some_map (f := item? ∘ toJson) (g := id) fun a _ => h a, List.map_id]

/-! ## Numbers as keys -/

theorem escapeChar_of_beginsNumber {c : Char} (h : beginsNumber c = true) :
    escapeChar c = [c] := by
  have hrange : 45 ≤ c.toNat ∧ c.toNat ≤ 57 := by
    simp only [beginsNumber, Bool.or_eq_true, beq_iff_eq, Char.isDigit_iff_toNat] at h
    rcases h with rfl | h
    · decide
    · exact ⟨Nat.le_trans (by decide) h.1, h.2⟩
  have hne (d : Char) (hd : d.toNat < 45 ∨ 57 < d.toNat) : c ≠ d := by
    rintro rfl
    omega
  have hcode (k : Nat) (hk : k < 45) : c.toNat ≠ k := by omega
  simp [escapeChar, hne '"' (by decide), hne '\\' (by decide), hne '\t' (by decide),
    hne '\n' (by decide), hne '\r' (by decide), hcode 8, hcode 12]
  omega

/-- A whole number needs no escapes. -/
theorem escape_toString (n : Int) : escape (toString n) = toString n := by
  have h (cs : List Char) (hcs : ∀ c ∈ cs, beginsNumber c = true) :
      cs.flatMap escapeChar = cs := by
    induction cs with
    | nil => rfl
    | cons c cs ih =>
      obtain ⟨hc, hcs⟩ := List.forall_mem_cons.1 hcs
      rw [List.flatMap_cons, escapeChar_of_beginsNumber hc, ih hcs]
      rfl
  rw [escape, h _ fun c => beginsNumber_of_mem_toString, String.ofList_toList]

theorem literalKey?_toString {low high n : Int} (hlow : low ≤ n) (hhigh : n ≤ high) :
    Stats.literalKey? low high (toString n) = some n := by
  have hread := numberLiteral_toString n (nofun : EndsNumber [])
  rw [List.append_nil] at hread
  simp only [Stats.literalKey?, hread, integer?_toString]
  simp [Option.filter, hlow, hhigh]

end AccessLog.Json

namespace AccessLog.Stats

/-! ## Counters -/

/-- Keys that are read back from their text. -/
class ReadableKey (κ : Type) [CounterKey κ] : Prop where
  ofLiteral?_escape (key : κ) :
    CounterKey.ofLiteral? (Json.escape (CounterKey.text key)) = some key

instance : ReadableKey String where
  ofLiteral?_escape := Json.unescape?_escape

instance : ReadableKey UInt16 where
  ofLiteral?_escape n := by
    have hlt : n.toNat < UInt16.size := n.toNat_lt_size
    have hkey : Json.escape (CounterKey.text n) = toString (n.toNat : Int) :=
      Json.escape_toString n.toNat
    rw [hkey]
    show (literalKey? _ _ _).map _ = _
    rw [Json.literalKey?_toString (by omega) (by omega)]
    simp

instance : ReadableKey Int64 where
  ofLiteral?_escape n := by
    have hlow : Text.least64 ≤ n.toInt := n.le_toInt
    have hhigh : n.toInt ≤ Text.greatest64 := n.toInt_le
    have hkey : Json.escape (CounterKey.text n) = toString n.toInt := Json.escape_toString n.toInt
    rw [hkey]
    show (literalKey? _ _ _).map _ = _
    rw [Json.literalKey?_toString hlow hhigh]
    simp

namespace Counter

theorem legible_countsJson {κ : Type} [CounterKey κ] (entries : List (κ × UInt64)) :
    (countsJson entries).Legible := by
  refine Json.legible_record fun m hm => ?_
  obtain ⟨e, -, rfl⟩ := List.mem_map.1 hm
  exact Json.legible_nat e.2.toNat

variable {κ : Type} [Ord κ] [CounterKey κ]

/-- A form in which a counter is written: its entries stand in some order. -/
def IsWrittenAs (c : Counter κ) (v : Json) : Prop :=
  ∃ entries, entries.Perm c.counts ∧
    v = .record [("counts", countsJson entries), ("total", .nat c.total.toNat)]

theorem isWrittenAs_toJson (c : Counter κ) : c.IsWrittenAs c.toJson := ⟨c.counts, .refl _, rfl⟩

theorem IsWrittenAs.legible {c : Counter κ} {v : Json} (h : c.IsWrittenAs v) : v.Legible := by
  obtain ⟨entries, -, rfl⟩ := h
  refine Json.legible_record ?_
  simp only [List.forall_mem_cons]
  exact ⟨legible_countsJson entries, Json.legible_nat _, nofun⟩

variable [ReadableKey κ] [Std.TransOrd κ] [Std.LawfulEqOrd κ]

/-- Members with new keys go among the entries that are there. -/
theorem putMembers_perm (c : Counter κ) (entries : List (κ × UInt64))
    (hnodup : (entries.map Prod.fst ++ c.counts.map Prod.fst).Nodup) :
    ∃ d : Counter κ, c.putMembers (entries.map fun e =>
        (Json.escape (CounterKey.text e.1), .nat e.2.toNat)) = some d ∧
      d.total = c.total ∧ d.counts.Perm (entries ++ c.counts) := by
  induction entries generalizing c with
  | nil => exact ⟨c, rfl, rfl, .refl _⟩
  | cons e rest ih =>
    obtain ⟨key, count⟩ := e
    have hnew : key ∉ c.counts.map Prod.fst :=
      fun hmem => (List.nodup_cons.1 hnodup).1 (List.mem_append_right _ hmem)
    have hset : (c.set key count).counts.Perm ((key, count) :: c.counts) := setEntry_perm count hnew
    have hkeys : (rest.map Prod.fst ++ (c.set key count).counts.map Prod.fst).Nodup :=
      (((hset.map Prod.fst).append_left _).trans List.perm_middle).nodup_iff.2 hnodup
    obtain ⟨d, hput, htotal, hcounts⟩ := ih (c.set key count) hkeys
    refine ⟨d, ?_, htotal, hcounts.trans ((hset.append_left rest).trans List.perm_middle)⟩
    simp only [List.map_cons, putMembers, ReadableKey.ofLiteral?_escape, Json.uint64?_nat]
    exact hput

theorem ofCounts?_countsJson (c : Counter κ) {entries : List (κ × UInt64)}
    (hperm : entries.Perm c.counts) : ofCounts? c.total (countsJson entries) = some c := by
  have hnodup : (entries.map Prod.fst).Nodup :=
    (hperm.map Prod.fst).nodup_iff.2 c.ascending.nodup_keys
  obtain ⟨d, hput, htotal, hcounts⟩ :=
    putMembers_perm ⟨[], c.total, .nil⟩ entries (by simpa using hnodup)
  rw [List.append_nil] at hcounts
  rw [eq_of_perm (hcounts.trans hperm) htotal] at hput
  rw [countsJson, Json.record, List.map_map]
  exact hput

/-- However its entries stand, a counter is read back. -/
theorem IsWrittenAs.read {c : Counter κ} {v : Json} (h : c.IsWrittenAs v) : ofJson? v = some c := by
  obtain ⟨entries, hperm, rfl⟩ := h
  have hfields := Json.fields?_record
    [("counts", countsJson entries), ("total", .nat c.total.toNat)] (by simp)
  simp only [List.map_cons, List.map_nil] at hfields
  simp [ofJson?, hfields, Json.required, ofCounts?_countsJson c hperm]

end Counter

/-! ## Status classes and samples -/

/-- A form in which the classes are written: the codes stand in some order. -/
def StatusClasses.IsWrittenAs (s : StatusClasses) (v : Json) : Prop :=
  ∃ codes, s.codes.IsWrittenAs codes ∧
    v = .record [("codes", codes), ("success", .nat s.success.toNat),
      ("redirect", .nat s.redirect.toNat), ("client_error", .nat s.clientError.toNat),
      ("server_error", .nat s.serverError.toNat)]

namespace StatusClasses

theorem isWrittenAs_toJson (s : StatusClasses) : s.IsWrittenAs s.toJson :=
  ⟨s.codes.toJson, s.codes.isWrittenAs_toJson, rfl⟩

theorem IsWrittenAs.legible {s : StatusClasses} {v : Json} (h : s.IsWrittenAs v) : v.Legible := by
  obtain ⟨codes, hcodes, rfl⟩ := h
  refine Json.legible_record ?_
  simp only [List.forall_mem_cons]
  exact ⟨hcodes.legible, Json.legible_nat _, Json.legible_nat _, Json.legible_nat _,
    Json.legible_nat _, nofun⟩

theorem IsWrittenAs.read {s : StatusClasses} {v : Json} (h : s.IsWrittenAs v) :
    ofJson? v = some s := by
  obtain ⟨codes, hcodes, rfl⟩ := h
  have hfields := Json.fields?_record
    [("codes", codes), ("success", .nat s.success.toNat), ("redirect", .nat s.redirect.toNat),
      ("client_error", .nat s.clientError.toNat), ("server_error", .nat s.serverError.toNat)]
    (by simp)
  simp only [List.map_cons, List.map_nil] at hfields
  simp [ofJson?, hfields, Json.required, hcodes.read]

end StatusClasses

namespace ParseFailure

theorem legible_toJson (f : ParseFailure) : f.toJson.Legible := by
  refine Json.legible_record ?_
  simp only [List.forall_mem_cons]
  exact ⟨Json.legible_nat _, Json.legible_text _, Json.legible_text _, nofun⟩

theorem ofJson?_toJson (f : ParseFailure) : ofJson? f.toJson = some f := by
  have hfields := Json.fields?_record
    [("line_number", .nat f.line.toNat), ("raw_line", .text f.raw), ("message", .text f.message)]
    (by simp)
  simp only [List.map_cons, List.map_nil] at hfields
  simp [ofJson?, toJson, hfields, Json.required]

end ParseFailure

namespace FailureSamples

theorem legible_toJson (s : FailureSamples) : s.toJson.Legible := by
  have hsamples : (samplesJson s.samples).Legible := by
    refine .array fun v hv => ?_
    obtain ⟨f, -, rfl⟩ := List.mem_map.1 hv
    exact f.legible_toJson
  refine Json.legible_record ?_
  simp only [List.forall_mem_cons]
  exact ⟨hsamples, Json.legible_nat _, Json.legible_nat _, nofun⟩

theorem ofJson?_toJson (s : FailureSamples) : ofJson? s.toJson = some s := by
  have hfields := Json.fields?_record
    [("samples", samplesJson s.samples), ("total_count", .nat s.total.toNat),
      ("max_samples", .nat s.limit.toNat)] (by simp)
  have hsamples : Json.items? ParseFailure.ofJson? (samplesJson s.samples) = some s.samples :=
    Json.items?_map ParseFailure.ofJson?_toJson s.samples
  simp only [List.map_cons, List.map_nil] at hfields
  simp [ofJson?, toJson, hfields, hsamples, Json.required]

end FailureSamples

/-! ## Analyses -/

namespace Analysis

/-- A form in which the payload is written: the entries of each counter stand in some order. -/
def IsWrittenAs (a : Analysis) (v : Json) : Prop :=
  ∃ paths addresses statuses, a.paths.IsWrittenAs paths ∧ a.addresses.IsWrittenAs addresses ∧
    a.statuses.IsWrittenAs statuses ∧
    v = .record [("created_at", .int a.createdAt.toInt), ("paths", paths),
      ("addresses", addresses), ("statuses", statuses), ("errors", a.failures.toJson)]

theorem isWrittenAs_payload (a : Analysis) : a.IsWrittenAs a.payload :=
  ⟨_, _, _, a.paths.isWrittenAs_toJson, a.addresses.isWrittenAs_toJson,
    a.statuses.isWrittenAs_toJson, rfl⟩

theorem IsWrittenAs.read {a : Analysis} {v : Json} (h : a.IsWrittenAs v) :
    deserialize? v.compact = some { a with id := none } := by
  obtain ⟨paths, addresses, statuses, hpaths, haddresses, hstatuses, rfl⟩ := h
  have hlegible : (Json.record [("created_at", .int a.createdAt.toInt), ("paths", paths),
      ("addresses", addresses), ("statuses", statuses),
      ("errors", a.failures.toJson)]).Legible := by
    refine Json.legible_record ?_
    simp only [List.forall_mem_cons]
    exact ⟨Json.legible_int _, hpaths.legible, haddresses.legible, hstatuses.legible,
      a.failures.legible_toJson, nofun⟩
  have hfields := Json.fields?_record
    [("created_at", .int a.createdAt.toInt), ("paths", paths), ("addresses", addresses),
      ("statuses", statuses), ("errors", a.failures.toJson)] (by simp)
  simp only [List.map_cons, List.map_nil] at hfields
  rw [deserialize?, Json.parse?_compact hlegible, Option.bind_some]
  simp [ofPayload?, hfields, Json.required, hpaths.read, haddresses.read, hstatuses.read,
    a.failures.ofJson?_toJson]

theorem deserialize?_serialize (a : Analysis) :
    deserialize? a.serialize = some { a with id := none } := a.isWrittenAs_payload.read

/-- A payload has no identity. -/
theorem id_of_deserialize? {text : String} {a : Analysis} (h : deserialize? text = some a) :
    a.id = none := by
  obtain ⟨v, -, hv⟩ := Option.bind_eq_some_iff.1 h
  obtain ⟨fields, -, hfields⟩ := Option.bind_eq_some_iff.1 hv
  split at hfields
  · simp only [Option.bind_eq_bind, Option.bind_eq_some_iff, Option.some.injEq] at hfields
    obtain ⟨_, -, _, -, _, -, _, -, _, -, rfl⟩ := hfields
    rfl
  · cases hfields

/-- An analysis is read back from its payload, without its identity and otherwise the same,
however the entries of its counters stand there. What has been read from any text is written
as a text that gives the same again. -/
theorem payload_round_trip :
    (∀ a : Analysis, deserialize? a.serialize = some { a with id := none }) ∧
    (∀ (a : Analysis) (v : Json), a.IsWrittenAs v →
      deserialize? v.compact = some { a with id := none }) ∧
    ∀ (text : String) (a : Analysis), deserialize? text = some a →
      deserialize? a.serialize = some a := by
  refine ⟨deserialize?_serialize, fun a v h => h.read, ?_⟩
  intro text a h
  rw [deserialize?_serialize, ← id_of_deserialize? h]

/-- An analysis with counts that no batch gives, and texts that need escapes. -/
def numberedSample : Analysis where
  id := some 7
  createdAt := -5
  paths := (Counter.empty.increment "/\"\x01\\").increment "/é"
  addresses := { (Counter.empty : Counter String) with total := 18446744073709551615 }
  statuses := ⟨Counter.empty.increment 65535, 4, 3, 2, 1⟩
  failures := ⟨[⟨3, "a\tb", "no \"row\""⟩], 2, 0⟩

/-- Its payload with the paths the other way around. -/
def reorderedSample : Json :=
  .record [("created_at", .int (-5)),
    ("paths", .record [("counts", Counter.countsJson [("/é", 1), ("/\"\x01\\", 1)]),
      ("total", .nat 2)]),
    ("addresses", numberedSample.addresses.toJson), ("statuses", numberedSample.statuses.toJson),
    ("errors", numberedSample.failures.toJson)]

/-- Its payload in another hand: arrays in place of objects, blanks, a key that is given twice and
one that is not known, and other escapes. -/
def looseSample : String :=
  "[ -5, \x7b\"total\": 2, \"counts\": " ++
  "\x7b\"/\\u00e9\": 9, \"/\\\"\\u0001\\\\\": 1, \"/é\": 1\x7d, \"none\": [1.5e3]\x7d, " ++
  "[\x7b\x7d, 18446744073709551615], [[\x7b\"65535\": 1\x7d, 1], 4, 3, 2, 1], " ++
  "[[[3, \"a\\tb\", \"no \\\"row\\\"\"]], 2, 0]]"

theorem payload_round_trip_sample :
    numberedSample.IsWrittenAs reorderedSample ∧
    reorderedSample.compact ≠ numberedSample.serialize ∧
    deserialize? looseSample = some { numberedSample with id := none } ∧
    deserialize? numberedSample.serialize = some { numberedSample with id := none } ∧
    deserialize? reorderedSample.compact = some { numberedSample with id := none } ∧
    deserialize? { numberedSample with id := none : Analysis }.serialize =
      some { numberedSample with id := none } := by
  obtain ⟨hserialized, hwritten, hread⟩ := payload_round_trip
  have hreordered : numberedSample.IsWrittenAs reorderedSample :=
    ⟨_, _, _, ⟨_, List.isPerm_iff.1 (by decide), rfl⟩, Counter.isWrittenAs_toJson _,
      StatusClasses.isWrittenAs_toJson _, rfl⟩
  have hloose : deserialize? looseSample = some { numberedSample with id := none } := by
    decide +kernel
  exact ⟨hreordered, by decide +kernel, hloose, hserialized numberedSample,
    hwritten numberedSample _ hreordered, hread looseSample _ hloose⟩

end Analysis

end AccessLog.Stats

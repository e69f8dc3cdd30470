import AccessLog.Json.Decode
import AccessLog.Numeric.Shortest

/-! # Counting by key

A counter holds how often each key has occurred, keys ascending, and how many occurrences there were
in all. Its ranking puts the most frequent keys first and keys of equal frequency in ascending
order. -/

namespace AccessLog.Stats

/-- Keys that have a text, and a written form as the key of a JSON object. -/
class CounterKey (κ : Type) where
  text : κ → String
  /-- The key that a literal between quotation marks denotes. -/
  ofLiteral? : String → Option κ

/-- A number that stands as a key: the plain literal of a whole number. -/
def literalKey? (low high : Int) (literal : String) : Option Int :=
  match Json.numberLiteral literal.toList with
  | some (digits, []) => (Json.integer? digits).filter fun n => low ≤ n && n ≤ high
  | _ => none

instance : CounterKey String where
  text s := s
  ofLiteral? := Json.unescape?

instance : CounterKey UInt16 where
  text n := toString n.toNat
  ofLiteral? s := (literalKey? 0 (UInt16.size - 1) s).map fun n => UInt16.ofNat n.toNat

instance : CounterKey Int64 where
  text n := toString n.toInt
  ofLiteral? s := (literalKey? Text.least64 Text.greatest64 s).map Int64.ofInt

/-- Entries with ascending keys. -/
def Ascending {κ : Type} [Ord κ] (entries : List (κ × UInt64)) : Prop :=
  entries.Pairwise fun a b => compare a.1 b.1 = .lt

section Entries
variable {κ : Type} [Ord κ]

/-- Set the count of a key. -/
def setEntry (key : κ) (count : UInt64) : List (κ × UInt64) → List (κ × UInt64)
  | [] => [(key, count)]
  | (k, n) :: rest =>
    match compare key k with
    | .lt => (key, count) :: (k, n) :: rest
    | .eq => (key, count) :: rest
    | .gt => (k, n) :: setEntry key count rest

/-- The count of a key, zero where it has none. -/
def countOf (key : κ) : List (κ × UInt64) → UInt64
  | [] => 0
  | (k, n) :: rest => if compare key k = .eq then n else countOf key rest

theorem mem_setEntry {key : κ} {count : UInt64} {entries : List (κ × UInt64)} {e : κ × UInt64}
    (h : e ∈ setEntry key count entries) : e = (key, count) ∨ e ∈ entries := by
  induction entries with
  | nil => simpa [setEntry] using h
  | cons a rest ih =>
    obtain ⟨k, n⟩ := a
    simp only [setEntry] at h
    split at h
    · simpa using h
    · rcases List.mem_cons.1 h with h | h
      · exact .inl h
      · exact .inr (List.mem_cons_of_mem _ h)
    · rcases List.mem_cons.1 h with h | h
      · exact .inr (h ▸ List.mem_cons_self)
      · exact (ih h).imp id (List.mem_cons_of_mem _)

theorem ascending_setEntry [Std.TransOrd κ] [Std.LawfulEqOrd κ] (key : κ) (count : UInt64)
    {entries : List (κ × UInt64)} (h : Ascending entries) :
    Ascending (setEntry key count entries) := by
  induction entries with
  | nil => simp [setEntry, Ascending]
  | cons a rest ih =>
    obtain ⟨k, n⟩ := a
    obtain ⟨hk, hrest⟩ := List.pairwise_cons.1 h
    simp only [setEntry]
    split
    · rename_i hlt
      refine List.pairwise_cons.2 ⟨fun e he => ?_, h⟩
      rcases List.mem_cons.1 he with rfl | he
      · exact hlt
      · exact Std.TransCmp.lt_trans hlt (hk e he)
    · rename_i heq
      obtain rfl := Std.LawfulEqOrd.eq_of_compare heq
      exact List.pairwise_cons.2 ⟨hk, hrest⟩
    · rename_i hgt
      refine List.pairwise_cons.2 ⟨fun e he => ?_, ih hrest⟩
      rcases mem_setEntry he with rfl | he
      · exact Std.OrientedCmp.gt_iff_lt.1 hgt
      · exact hk e he

end Entries

/-- How often each key has occurred. The total is kept apart from the counts. -/
structure Counter (κ : Type) [Ord κ] where
  counts : List (κ × UInt64)
  total : UInt64
  ascending : Ascending counts

/-- An entry of a ranking. -/
structure RankedItem where
  value : String
  count : UInt64
  percentage : Float
  deriving DecidableEq

/-- The share of a count in a total, in percent. -/
def percentage (count total : UInt64) : Float :=
  if total = 0 then 0.0 else count.toFloat / total.toFloat * 100.0

namespace Counter
variable {κ : Type} [Ord κ]

instance [DecidableEq κ] : DecidableEq (Counter κ) := fun a b =>
  if h : a.counts = b.counts ∧ a.total = b.total then
    isTrue (by cases a; cases b; obtain ⟨rfl, rfl⟩ := h; rfl)
  else isFalse (by rintro rfl; exact h ⟨rfl, rfl⟩)

def empty : Counter κ := ⟨[], 0, .nil⟩

instance : Inhabited (Counter κ) := ⟨empty⟩

def count (c : Counter κ) (key : κ) : UInt64 := countOf key c.counts

/-- The number of distinct keys. -/
def size (c : Counter κ) : Nat := c.counts.length

/-- Whether an entry comes before another in a ranking. -/
def rankedBefore (a b : κ × UInt64) : Bool :=
  b.2 < a.2 || (a.2 == b.2 && (compare a.1 b.1).isLE)

/-- All entries, the most frequent first. -/
def ranking (c : Counter κ) : List (κ × UInt64) := c.counts.mergeSort rankedBefore

/-- The first `limit` entries of the ranking. -/
def top [CounterKey κ] (c : Counter κ) (limit : Nat) : List RankedItem :=
  (c.ranking.take limit).map fun (key, count) =>
    ⟨CounterKey.text key, count, percentage count c.total⟩

section Update
variable [Std.TransOrd κ] [Std.LawfulEqOrd κ]

/-- Give a key a count, and leave the total. -/
def set (c : Counter κ) (key : κ) (count : UInt64) : Counter κ :=
  ⟨setEntry key count c.counts, c.total, ascending_setEntry key count c.ascending⟩

/-- Count one occurrence of a key. -/
def increment (c : Counter κ) (key : κ) : Counter κ :=
  { c.set key (c.count key + 1) with total := c.total + 1 }

end Update

section Payload
variable [CounterKey κ]

def countsJson (entries : List (κ × UInt64)) : Json :=
  .record (entries.map fun (key, count) => (CounterKey.text key, .nat count.toNat))

def toJson (c : Counter κ) : Json :=
  .record [("counts", countsJson c.counts), ("total", .nat c.total.toNat)]

variable [Std.TransOrd κ] [Std.LawfulEqOrd κ]

/-- Add the members of an object of counts; of members with one key the last stands. -/
def putMembers (c : Counter κ) : List (String × Json) → Option (Counter κ)
  | [] => some c
  | (literal, v) :: rest => do
    let key ← CounterKey.ofLiteral? literal
    let count ← Json.uint64? v
    putMembers (c.set key count) rest

def ofCounts? (total : UInt64) : Json → Option (Counter κ)
  | .object members => ({ (empty : Counter κ) with total } : Counter κ).putMembers members
  | _ => none

def ofJson? (v : Json) : Option (Counter κ) := do
  match ← Json.fields? ["counts", "total"] v with
  | [counts, total] =>
    let total ← Json.required Json.uint64? total
    Json.required (ofCounts? total) counts
  | _ => none

end Payload

end Counter

namespace RankedItem

/-- A finite double as a JSON number. -/
def doubleJson (f : Float) : Json :=
  .number (Numeric.renderBits Numeric.jsonFormat f.toBits.toNat)

def toJson (item : RankedItem) : Json :=
  .record [("value", .text item.value), ("count", .nat item.count.toNat),
    ("percentage", doubleJson item.percentage)]

end RankedItem

end AccessLog.Stats

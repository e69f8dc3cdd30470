import AccessLog.Store.Basic

/-! # The store in a table

A row holds the payload of an analysis as text, under a signed identity of 64 bits. A new row gets
one more than the largest identity that was ever used in the table, and at least one. A row whose
text is no payload cannot be read back. -/

namespace AccessLog.Store
open AccessLog.Stats

structure TableStore where
  /-- Whether the table has been created. -/
  created : Bool
  rows : List (Int64 × String)
  /-- The largest identity ever used, or zero. -/
  largest : Int64
  deriving DecidableEq

namespace TableStore

def empty : TableStore := ⟨false, [], 0⟩

/-- Create the table unless it is there. -/
def init (s : TableStore) : TableStore := { s with created := true }

def missing : StoreError :=
  ⟨"error returned from database: (code: 1) no such table: analyses", []⟩

def full : StoreError := ⟨"error returned from database: (code: 13) database or disk is full", []⟩

/-- Write a row, instead of the one that may have had its identity. -/
def put (s : TableStore) (row : Int64) (text : String) : TableStore :=
  { s with
    rows := (row, text) :: s.rows.filter (·.1 != row)
    largest := max s.largest row }

def save (s : TableStore) (a : Analysis) : Except StoreError Analysis × TableStore :=
  if !s.created then (.error missing, s)
  else match a.id with
    | some id => (.ok (a.withId id), s.put id.toInt64 a.serialize)
    | none =>
      if s.largest = Int64.maxValue then (.error full, s)
      else
        let row := s.largest + 1
        (.ok (a.withId row.toUInt64), s.put row a.serialize)

def find (s : TableStore) (id : UInt64) : Except StoreError (Option Analysis) :=
  if !s.created then .error missing
  else match s.rows.find? (·.1 == id.toInt64) with
    | none => .ok none
    | some (_, text) =>
      match Analysis.deserialize? text with
      | some a => .ok (some (a.withId id))
      | none =>
        .error ⟨"the payload is not an analysis", [s!"Corrupt payload for analysis {id.toNat}"]⟩

instance : AnalysisStore TableStore where
  save := save
  find := find

end TableStore

end AccessLog.Store

import AccessLog.Json.Decode

/-! # Samples of rows that could not be understood

All failures are counted; the first few are kept, with their line and the reason. -/

namespace AccessLog.Stats

structure ParseFailure where
  line : UInt64
  raw : String
  message : String
  deriving DecidableEq, Repr

namespace ParseFailure

def toJson (f : ParseFailure) : Json :=
  .record [("line_number", .nat f.line.toNat), ("raw_line", .text f.raw),
    ("message", .text f.message)]

def ofJson? (v : Json) : Option ParseFailure := do
  match ← Json.fields? ["line_number", "raw_line", "message"] v with
  | [line, raw, message] =>
    some {
      line := ← Json.required Json.uint64? line
      raw := ← Json.required Json.text? raw
      message := ← Json.required Json.text? message }
  | _ => none

end ParseFailure

structure FailureSamples where
  samples : List ParseFailure
  total : UInt64
  limit : UInt64
  deriving DecidableEq

namespace FailureSamples

def defaultLimit : UInt64 := 10

def empty : FailureSamples := ⟨[], 0, defaultLimit⟩

/-- The bytes that one sample takes in the room that is set aside for all of them. -/
def sampleBytes : Nat := 56

/-- No failures, with a limit of one's own; room for the samples is set aside at once, which fails
where it would not fit the address space. -/
def withLimit? (limit : UInt64) : Option FailureSamples :=
  if limit.toNat * sampleBytes < Nat.pow 2 63 then some ⟨[], 0, limit⟩ else none

/-- Count a failure, and keep it unless the limit has been reached. -/
def add (s : FailureSamples) (failure : ParseFailure) : FailureSamples :=
  { s with
    total := s.total + 1
    samples := if s.samples.length < s.limit.toNat then s.samples ++ [failure] else s.samples }

def samplesJson (samples : List ParseFailure) : Json := .array (samples.map ParseFailure.toJson)

def toJson (s : FailureSamples) : Json :=
  .record [("samples", samplesJson s.samples), ("total_count", .nat s.total.toNat),
    ("max_samples", .nat s.limit.toNat)]

def ofJson? (v : Json) : Option FailureSamples := do
  match ← Json.fields? ["samples", "total_count", "max_samples"] v with
  | [samples, total, limit] =>
    some {
      samples := ← Json.required (Json.items? ParseFailure.ofJson?) samples
      total := ← Json.required Json.uint64? total
      limit := ← Json.required Json.uint64? limit }
  | _ => none

end FailureSamples

end AccessLog.Stats

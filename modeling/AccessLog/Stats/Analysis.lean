import AccessLog.Stats.FailureSamples
import AccessLog.Stats.StatusClasses

/-! # Analyses

An analysis holds the statistics of one batch. It has an identity once it has been stored. Its
payload is everything but the identity. -/

namespace AccessLog.Stats

structure Analysis where
  id : Option UInt64
  /-- Seconds since the beginning of 1970. -/
  createdAt : Int64
  paths : Counter String
  addresses : Counter String
  statuses : StatusClasses
  failures : FailureSamples
  deriving DecidableEq

namespace Analysis

def withId (a : Analysis) (id : UInt64) : Analysis := { a with id := some id }

def totalRequests (a : Analysis) : UInt64 := a.statuses.total

def payload (a : Analysis) : Json :=
  .record [("created_at", .int a.createdAt.toInt), ("paths", a.paths.toJson),
    ("addresses", a.addresses.toJson), ("statuses", a.statuses.toJson),
    ("errors", a.failures.toJson)]

/-- The analysis of a payload, without an identity. -/
def ofPayload? (v : Json) : Option Analysis := do
  match ← Json.fields? ["created_at", "paths", "addresses", "statuses", "errors"] v with
  | [createdAt, paths, addresses, statuses, failures] =>
    some {
      id := none
      createdAt := ← Json.required Json.int64? createdAt
      paths := ← Json.required Counter.ofJson? paths
      addresses := ← Json.required Counter.ofJson? addresses
      statuses := ← Json.required StatusClasses.ofJson? statuses
      failures := ← Json.required FailureSamples.ofJson? failures }
  | _ => none

/-- The text under which an analysis is kept. -/
def serialize (a : Analysis) : String := a.payload.compact

def deserialize? (text : String) : Option Analysis := (Json.parse? text).bind ofPayload?

end Analysis

end AccessLog.Stats

import AccessLog.Service.Ingest

/-! # Answers

What the service tells its clients, as JSON. Every answer to a request is an envelope that says
whether the request succeeded, with its data or with an error. -/

namespace AccessLog.Service
open AccessLog.Enrich AccessLog.Stats

def itemsJson (items : List RankedItem) : Json := .array (items.map RankedItem.toJson)

/-- What a client is told about an address; nothing if nothing is known. -/
def detail (i : AddressInfo) : Json :=
  if i.isUnknown then .null
  else
    .record [("country", .optionalText i.country), ("region", .optionalText i.region),
      ("city", .optionalText i.city), ("org", .optionalText i.organization)]

/-- A ranked address, with `info` standing for what is known about it. -/
def RankedAddress.toJson (info : String × Json) (a : RankedAddress) : Json :=
  .record [("address", .text a.address), ("count", .nat a.count.toNat),
    ("percentage", RankedItem.doubleJson a.percentage), info]

namespace AnalysisResult

/-- A result, with a given form of its ranked addresses. -/
def toJsonWith (address : RankedAddress → Json) (r : AnalysisResult) : Json :=
  .record [("analysis_id", .nat r.id.toNat), ("created_at", .int r.createdAt.toInt),
    ("total_requests", .nat r.totalRequests.toNat),
    ("status_distribution", r.distribution.toJson), ("top_paths", itemsJson r.topPaths),
    ("top_status_codes", itemsJson r.topStatusCodes),
    ("top_addresses", .array (r.topAddresses.map address)),
    ("parse_error_count", .nat r.failureCount.toNat),
    ("parse_error_samples", FailureSamples.samplesJson r.failureSamples)]

/-- The full result, with all that is recorded about an address. -/
def toJson (r : AnalysisResult) : Json :=
  r.toJsonWith fun a => a.toJson ("info", a.info.toJson)

/-- The result as a client gets it. -/
def toResponse (r : AnalysisResult) : Json :=
  r.toJsonWith fun a => a.toJson ("detail", detail a.info)

end AnalysisResult

/-- What a client is told about a batch that has been taken in. -/
def summary (id : UInt64) (a : Analysis) : Json :=
  .record [("analysis_id", .nat id.toNat), ("created_at", .int a.createdAt.toInt),
    ("total_requests", .nat a.totalRequests.toNat),
    ("status_distribution", a.statuses.distribution.toJson),
    ("parse_error_count", .nat a.failures.total.toNat),
    ("parse_error_samples", FailureSamples.samplesJson a.failures.samples)]

/-- The envelope of an answer. -/
inductive Envelope where
  | empty
  | success (data : Json)
  | error (code message : String)

namespace Envelope

def ofFailure (f : Failure) : Envelope := .error f.code f.publicMessage

def toJson : Envelope → Json
  | empty => .record [("result", .text "SUCCESS")]
  | success data => .record [("result", .text "SUCCESS"), ("data", data)]
  | error code message =>
    .record [("result", .text "ERROR"),
      ("error", .record [("code", .text code), ("message", .text message)])]

end Envelope

end AccessLog.Service

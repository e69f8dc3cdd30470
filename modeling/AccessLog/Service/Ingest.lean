import AccessLog.Enrich.Reader
import AccessLog.Service.Failure
import AccessLog.Stats.Aggregator

/-! # Taking batches in and answering for them

A batch is aggregated and stored, and its most frequent addresses are queued for a lookup. A result
pairs the ranked addresses of a stored analysis with what is known about them at that moment. -/

namespace AccessLog

/-- A store, the pipeline of lookups, and how many addresses of a batch are looked up at once. -/
structure Service (σ : Type) where
  store : σ
  pipeline : Enrich.Pipeline
  eagerTopN : UInt64

namespace Service
open AccessLog.Enrich AccessLog.Log AccessLog.Stats AccessLog.Store

structure RankedAddress where
  address : String
  count : UInt64
  percentage : Float
  info : AddressInfo
  deriving DecidableEq

structure AnalysisResult where
  id : UInt64
  createdAt : Int64
  totalRequests : UInt64
  distribution : StatusDistribution
  topPaths : List RankedItem
  topStatusCodes : List RankedItem
  topAddresses : List RankedAddress
  failureCount : UInt64
  failureSamples : List ParseFailure
  deriving DecidableEq

/-- The failure of a batch that could not be aggregated. A source that breaks down ends the task
that was reading it. -/
def batchFailure : BatchFault → Failure
  | .unreadable fault => .batchRead fault
  | .crashed message => .storage ⟨"aggregation task failed: task panicked with " ++ message, []⟩

def missingId : Failure := .storage ⟨"store returned an analysis without an id", []⟩

/-- The addresses of a ranking. -/
def rankedAddresses (a : Analysis) (limit : UInt64) : List String :=
  (a.addresses.top limit.toNat).map RankedItem.value

/-- Pair a ranked address with what was read about it. -/
def pairWith (infos : List (String × AddressInfo)) (item : RankedItem) : RankedAddress :=
  ⟨item.value, item.count, item.percentage,
    (infos.lookup item.value).getD (.unknown item.value)⟩

/-- The result for an analysis, with infos for its ranked addresses. -/
def AnalysisResult.of (id : UInt64) (a : Analysis) (topN : UInt64)
    (infos : List (String × AddressInfo)) : AnalysisResult where
  id := id
  createdAt := a.createdAt
  totalRequests := a.totalRequests
  distribution := a.statuses.distribution
  topPaths := a.paths.top topN.toNat
  topStatusCodes := a.statuses.top topN.toNat
  topAddresses := (a.addresses.top topN.toNat).map (pairWith infos)
  failureCount := a.failures.total
  failureSamples := a.failures.samples

variable {σ : Type} [AnalysisStore σ]

/-- Store an analysis and queue its most frequent addresses. -/
def accept (s : Service σ) (a : Analysis) : Except Failure Analysis × Service σ :=
  match AnalysisStore.save s.store a with
  | (.error e, store) => (.error (.storage e), { s with store })
  | (.ok saved, store) =>
    match saved.id with
    | none => (.error missingId, { s with store })
    | some _ =>
      (.ok saved, { s with
        store
        pipeline := (s.pipeline.offerAll (rankedAddresses saved s.eagerTopN)).2 })

/-- Take a batch in. -/
def ingest (s : Service σ) (createdAt : Int64) (reads : List Read) :
    Except Failure Analysis × Service σ :=
  match aggregate createdAt reads with
  | .error fault => (.error (batchFailure fault), s)
  | .ok a => s.accept a

/-- The result for a stored analysis, with rankings of at most `topN` entries. -/
def result (s : Service σ) (id topN : UInt64) : Except Failure AnalysisResult × Service σ :=
  match AnalysisStore.find s.store id with
  | .error e => (.error (.storage e), s)
  | .ok none => (.error (.notFound id), s)
  | .ok (some a) =>
    let (infos, pipeline) := s.pipeline.readAll (rankedAddresses a topN)
    (.ok (AnalysisResult.of id a topN infos), { s with pipeline })

end Service

end AccessLog

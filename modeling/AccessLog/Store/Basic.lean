import AccessLog.Stats.Analysis

/-! # Stores

A store keeps analyses under identities. It gives an identity to an analysis that has none, and
keeps one that has an identity under just that. -/

namespace AccessLog.Store
open AccessLog.Stats

/-- An error of a store, with what was being attempted, innermost first. -/
structure StoreError where
  detail : String
  context : List String
  deriving DecidableEq, Repr

/-- The outermost account of the error. -/
def StoreError.message (e : StoreError) : String := (e.context.getLast?).getD e.detail

/-- Places where analyses are kept; `σ` is what such a place holds. -/
class AnalysisStore (σ : Type) where
  /-- Keep an analysis; the answer has its identity. -/
  save : σ → Analysis → Except StoreError Analysis × σ
  /-- Look an analysis up, which leaves the store as it is. -/
  find : σ → UInt64 → Except StoreError (Option Analysis)

end AccessLog.Store

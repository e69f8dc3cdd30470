import AccessLog.Log.Line
import AccessLog.Store.Basic

/-! # Failures of the service

A failure has a kind, which fixes its code and its status in an answer, and a message. The message
of a failure of the store stays inside; an answer only says that something went wrong. -/

namespace AccessLog.Service
open AccessLog.Log AccessLog.Store

inductive Failure where
  | batchRead (fault : ReadFault)
  | validation (detail : String)
  | notFound (id : UInt64)
  | storage (error : StoreError)
  deriving DecidableEq, Repr

namespace Failure

def code : Failure → String
  | batchRead _ => "E1001"
  | validation _ => "E1000"
  | notFound _ => "E2000"
  | storage _ => "E500"

def message : Failure → String
  | batchRead fault => "failed to read log batch: " ++ fault.message
  | validation detail => detail
  | notFound id => s!"analysis {id.toNat} not found"
  | storage error => error.message

/-- The status of the answer that reports the failure. -/
def status : Failure → Nat
  | batchRead _ => 400
  | validation _ => 400
  | notFound _ => 404
  | storage _ => 500

/-- What an answer says of the failure. -/
def publicMessage : Failure → String
  | storage _ => "An unexpected error has occurred."
  | f => f.message

end Failure

end AccessLog.Service

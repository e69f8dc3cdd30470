import AccessLog.Enrich.AddressInfo

/-! # Lookups

Looking an address up yields information or an error, or breaks down. Errors that may pass are
worth another attempt. -/

namespace AccessLog.Enrich

inductive LookupError where
  | timeout
  | connect (detail : String)
  | transport (detail : String)
  | status (code : UInt16) (body : String)
  | decode (detail : String)
  | notFound
  deriving DecidableEq, Repr

namespace LookupError

def message : LookupError → String
  | timeout => "lookup timed out"
  | connect detail => "connection failed: " ++ detail
  | transport detail => "transport error: " ++ detail
  | status code body => s!"lookup service returned {code.toNat}: " ++ body
  | decode detail => "invalid lookup response: " ++ detail
  | notFound => "no data for address"

/-- Whether another attempt may succeed: after a failure on the way, and when the service is
overloaded or failing. -/
def isRetryable : LookupError → Bool
  | timeout => true
  | connect _ => true
  | transport _ => true
  | status code _ => code == 429 || (500 ≤ code && code ≤ 599)
  | decode _ => false
  | notFound => false

end LookupError

/-- How one lookup ends. -/
inductive Outcome where
  | found (info : AddressInfo)
  | failed (error : LookupError)
  | crashed (message : String)
  deriving DecidableEq, Repr

end AccessLog.Enrich

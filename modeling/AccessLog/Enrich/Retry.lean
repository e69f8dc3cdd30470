import AccessLog.Enrich.Backoff
import AccessLog.Enrich.Lookup

/-! # Lookups with further attempts

An error that may pass is followed by a wait and another attempt, as long as attempts are left. An
address that cannot be resolved is unknown; only a breakdown of the lookup itself goes further. -/

namespace AccessLog.Enrich
open AccessLog.Time

/-- What follows the outcome of an attempt. -/
inductive Next where
  | finished (info : AddressInfo)
  | retryAfter (wait : Duration)
  | crashed (message : String)
  deriving DecidableEq

namespace BackoffPolicy

/-- What follows when the attempt with the given index, counted from zero, has ended. -/
def next (p : BackoffPolicy) (address : String) (index : Nat) : Outcome → Next
  | .found info => .finished info
  | .crashed message => .crashed message
  | .failed error =>
    if error.isRetryable && index + 1 < p.attempts then .retryAfter (p.delay (UInt32.ofNat index))
    else .finished (.unknown address)

/-- How resolving an address ends. -/
inductive Resolution where
  | resolved (info : AddressInfo)
  | crashed (message : String)
  deriving DecidableEq

/-- A resolution together with the calls it took and the waits between them. -/
structure Trace where
  result : Resolution
  calls : Nat
  waits : List Duration
  deriving DecidableEq

/-- Make the attempts from `index` on, of which `left` remain after the present one, when the
attempt with index `i` ends as `outcomes i`. -/
def traceFrom (p : BackoffPolicy) (address : String) (outcomes : Nat → Outcome) (index : Nat) :
    Nat → Trace
  | 0 =>
    match p.next address index (outcomes index) with
    | .crashed message => ⟨.crashed message, 1, []⟩
    | .finished info => ⟨.resolved info, 1, []⟩
    | .retryAfter _ => ⟨.resolved (.unknown address), 1, []⟩
  | left + 1 =>
    match p.next address index (outcomes index) with
    | .crashed message => ⟨.crashed message, 1, []⟩
    | .finished info => ⟨.resolved info, 1, []⟩
    | .retryAfter wait =>
      let rest := p.traceFrom address outcomes (index + 1) left
      ⟨rest.result, rest.calls + 1, wait :: rest.waits⟩

/-- Resolve an address whose lookups end as `outcomes` says. -/
def trace (p : BackoffPolicy) (address : String) (outcomes : Nat → Outcome) : Trace :=
  p.traceFrom address outcomes 0 (p.attempts - 1)

end BackoffPolicy

end AccessLog.Enrich

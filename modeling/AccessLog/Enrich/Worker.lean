import AccessLog.Enrich.Reader
import AccessLog.Enrich.Retry

/-! # The worker

One worker takes addresses off the queue. An address that has been cached in the meantime needs no
lookup; any other is looked up, and what was found is cached before the address is completed. A
lookup that breaks down leaves the address unknown. Once the worker has been told to stop it
finishes the address it is on and takes no more. -/

namespace AccessLog.Enrich

/-- Where the worker stands between two steps. -/
inductive Phase where
  /-- About to look for work. -/
  | idle
  /-- Waiting for an item, with its ticket. -/
  | waiting (ticket : Nat)
  | taken (address : String)
  /-- A lookup of the address is under way. -/
  | resolving (address : String)
  | resolved (address : String) (info : AddressInfo)
  | cached (address : String)
  | stopped
  deriving DecidableEq, Repr

structure Worker where
  phase : Phase
  /-- Whether it has been told to stop. -/
  stopping : Bool
  deriving DecidableEq, Repr

/-- What a lookup has come to, for the cache: after a breakdown the address is unknown. -/
def BackoffPolicy.Resolution.settled (address : String) : BackoffPolicy.Resolution → AddressInfo
  | .resolved info => info
  | .crashed _ => .unknown address

namespace Pipeline

/-- Whether the address is cached, which is a use of its entry. -/
def check (p : Pipeline) (address : String) : Bool × Pipeline :=
  let (info, cache) := p.cache.get address
  (info.isSome, { p with cache })

/-- Cache what a lookup has found. -/
def record (p : Pipeline) (address : String) (info : AddressInfo) : Pipeline :=
  { p with cache := p.cache.put address info }

/-- Complete an address. -/
def release (p : Pipeline) (address : String) : Pipeline :=
  { p with queue := p.queue.complete address }

/-- Process an address from the check of the cache to its completion, with nothing in between,
when a lookup of it would end as `result`. -/
def process (p : Pipeline) (address : String) (result : BackoffPolicy.Resolution) : Pipeline :=
  let (known, p) := p.check address
  (if known then p else p.record address (result.settled address)).release address

end Pipeline

namespace Worker

def start : Worker := ⟨.idle, false⟩

def tellToStop (w : Worker) : Worker := { w with stopping := true }

/-- The address that has been taken and not completed. -/
def held? (w : Worker) : Option String :=
  match w.phase with
  | .taken address => some address
  | .resolving address => some address
  | .resolved address _ => some address
  | .cached address => some address
  | _ => none

/-- The phase after a take. -/
def afterTake : TakeResult String → Phase
  | .item address => .taken address
  | .waiting ticket => .waiting ticket

/-- The next step of the worker; none while it waits, for an item or for its lookup, and once it
has stopped. -/
def step? (w : Worker) (p : Pipeline) : Option (Worker × Pipeline) :=
  match w.phase with
  | .idle =>
    if w.stopping then some ({ w with phase := .stopped }, p)
    else
      let (taken, queue) := p.queue.begin
      some ({ w with phase := afterTake taken }, { p with queue })
  | .waiting ticket =>
    if w.stopping then
      some ({ w with phase := .stopped }, { p with queue := p.queue.cancel ticket })
    else if p.queue.isNotified ticket then
      let (taken, queue) := p.queue.poll ticket
      some ({ w with phase := afterTake taken }, { p with queue })
    else none
  | .taken address =>
    let (known, p) := p.check address
    some ({ w with phase := if known then .cached address else .resolving address }, p)
  | .resolving _ => none
  | .resolved address info => some ({ w with phase := .cached address }, p.record address info)
  | .cached address => some ({ w with phase := .idle }, p.release address)
  | .stopped => none

/-- The lookup under way has ended. -/
def deliver (w : Worker) (result : BackoffPolicy.Resolution) : Worker :=
  match w.phase with
  | .resolving address => { w with phase := .resolved address (result.settled address) }
  | _ => w

end Worker

end AccessLog.Enrich

import AccessLog.Enrich.Cache
import AccessLog.Enrich.Queue

/-! # Reading what is known about addresses

A read answers at once with what the cache holds. An address that is not cached is queued for a
lookup and is unknown for now. -/

namespace AccessLog.Enrich

/-- What readers and the worker share. -/
structure Pipeline where
  queue : WorkQueue String
  cache : Cache
  deriving DecidableEq

namespace Pipeline

def start (cache : Cache) : Pipeline := ⟨.empty, cache⟩

def offer (p : Pipeline) (address : String) : Bool × Pipeline :=
  let (queued, queue) := p.queue.offer address
  (queued, { p with queue })

def offerAll (p : Pipeline) (addresses : List String) : Nat × Pipeline :=
  let (count, queue) := p.queue.offerAll addresses
  (count, { p with queue })

def read (p : Pipeline) (address : String) : AddressInfo × Pipeline :=
  match p.cache.get address with
  | (some info, cache) => (info, { p with cache })
  | (none, cache) => (.unknown address, (({ p with cache } : Pipeline).offer address).2)

/-- Read the addresses that are not among `known` yet, each once. -/
def readNew (p : Pipeline) (known : List (String × AddressInfo)) :
    List String → List (String × AddressInfo) × Pipeline
  | [] => (known, p)
  | address :: rest =>
    if known.any (·.1 = address) then p.readNew known rest
    else
      let (info, p) := p.read address
      p.readNew (known ++ [(address, info)]) rest

/-- Read every distinct address once, in order of its first occurrence. -/
def readAll (p : Pipeline) (addresses : List String) : List (String × AddressInfo) × Pipeline :=
  p.readNew [] addresses

end Pipeline

end AccessLog.Enrich

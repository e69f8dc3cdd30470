import AccessLog.Enrich.AddressInfo
import AccessLog.Time.Duration

/-! # The cache of lookups

Entries are kept in order of their last use, the most recent first. A hit and a put count as a use;
where the cache is full the entry that has not been used for the longest time goes. Entries that
live no time at all are never found. -/

namespace AccessLog.Enrich
open AccessLog.Time

structure Cache where
  capacity : UInt64
  ttl : Duration
  entries : List (String × AddressInfo)
  deriving DecidableEq

namespace Cache

/-- A thousand years. -/
def maxTtl : Duration := .ofSeconds (1000 * 365 * 24 * 3600)

/-- An empty cache; entries may be told to live a thousand years at most. -/
def of? (capacity : UInt64) (ttl : Duration) : Option Cache :=
  if ttl.nanos ≤ maxTtl.nanos then some ⟨capacity, ttl, []⟩ else none

def standardCapacity : UInt64 := 1000

/-- An hour. -/
def standardTtl : Duration := .ofSeconds 3600

def standard : Cache := ⟨standardCapacity, standardTtl, []⟩

/-- Entries but those for an address. -/
def others (address : String) (entries : List (String × AddressInfo)) :
    List (String × AddressInfo) :=
  entries.filter (·.1 ≠ address)

/-- The entry of an address, without using it. -/
def peek? (c : Cache) (address : String) : Option AddressInfo :=
  (c.entries.find? (·.1 = address)).map Prod.snd

/-- Look an address up, which is a use of its entry. -/
def get (c : Cache) (address : String) : Option AddressInfo × Cache :=
  match c.peek? address with
  | some info => (some info, { c with entries := (address, info) :: others address c.entries })
  | none => (none, c)

/-- Store what is known about an address. -/
def put (c : Cache) (address : String) (info : AddressInfo) : Cache :=
  if c.ttl.nanos = 0 then c
  else { c with
    entries := ((address, info) :: others address c.entries).take c.capacity.toNat }

/-- Drop the entry of an address, as when its time is over. -/
def forget (c : Cache) (address : String) : Cache :=
  { c with entries := others address c.entries }

def size (c : Cache) : Nat := c.entries.length

end Cache

end AccessLog.Enrich

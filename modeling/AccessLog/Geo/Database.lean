import AccessLog.Enrich.Lookup
import AccessLog.Geo.Record
import AccessLog.Net.IpAddress

/-! # Geo databases

A database assigns records to networks; the smallest network that holds an address counts. In a
database of version 6 the addresses of version 4 are those whose upper 96 bits are zero; a database
of version 4 knows no other addresses. -/

namespace AccessLog.Geo
open AccessLog.Enrich AccessLog.Net

/-- The addresses whose first `length` bits of 128 are those of `base`. -/
structure Network where
  base : Nat
  length : Nat
  deriving DecidableEq, Repr

namespace Network

def contains (n : Network) (address : Nat) : Bool :=
  address >>> (128 - n.length) == n.base >>> (128 - n.length)

/-- A network in the usual notation: an address, a slash and the number of leading bits. -/
def parse? (s : String) : Option Network :=
  match s.splitOn "/" with
  | [address, length] => do
    let length ← Text.unsigned? 129 length.toList
    match ← IpAddress.parse? address with
    | .v4 value => if length ≤ 32 then some ⟨value, 96 + length⟩ else none
    | .v6 value => some ⟨value, length⟩
  | _ => none

end Network

structure Database where
  /-- Whether addresses of version 6 are known. -/
  wide : Bool
  networks : List (Network × Value)

namespace Database

/-- The networks that hold an address. -/
def covering (d : Database) (address : Nat) : List (Network × Value) :=
  d.networks.filter fun (n, _) => n.contains address

/-- The record of the smallest network that holds an address. -/
def record? (d : Database) (address : Nat) : Option Value :=
  ((d.covering address).foldl (fun best (n, v) =>
    match best with
    | some (length, w) => if length ≤ n.length then some (n.length, v) else some (length, w)
    | none => some (n.length, v)) none).map Prod.snd

def find? (d : Database) : IpAddress → Option Value
  | .v4 value => d.record? value
  | .v6 value => if d.wide then d.record? value else none

end Database

/-- The name of the first subdivision. -/
def region? (place : Value) : Option String := do
  (← (← place.at? ["subdivisions"]).first?).textAt? ["names", "en"]

/-- What a record of a city database says; where it is no such record, its country alone. -/
def describePlace (info : AddressInfo) (v : Value) : AddressInfo :=
  match cityRecord.read? v with
  | some place =>
    { info with
      country := place.textAt? ["country", "iso_code"]
      region := region? place
      city := place.textAt? ["city", "names", "en"] }
  | none =>
    match countryRecord.read? v with
    | some place => { info with country := place.textAt? ["country", "iso_code"] }
    | none => info

/-- The organization behind a network, by number and name. -/
def organization (number : Option Int) (name : Option String) : Option String :=
  match number, name with
  | some n, some name => some s!"AS{n} {name}"
  | some n, none => some s!"AS{n}"
  | none, name => name

def describeNetwork (info : AddressInfo) (v : Value) : AddressInfo :=
  match networkRecord.read? v with
  | some network =>
    { info with
      organization := organization
        ((network.at? ["autonomous_system_number"]).bind (·.whole?))
        (network.textAt? ["autonomous_system_organization"]) }
  | none => info

/-- A city database and a network database, of which either may be missing. -/
structure Databases where
  city : Option Database
  network : Option Database

namespace Databases

/-- What the databases know about an address. -/
def describe (d : Databases) (address : String) (ip : IpAddress) : AddressInfo :=
  let info := AddressInfo.unknown address
  let info := match d.city.bind (·.find? ip) with
    | some v => describePlace info v
    | none => info
  match d.network.bind (·.find? ip) with
  | some v => describeNetwork info v
  | none => info

/-- Look an address up. -/
def resolve (d : Databases) (address : String) : Outcome :=
  match IpAddress.parse? address with
  | none => .failed .notFound
  | some ip =>
    let info := d.describe address ip
    if info.isUnknown then .failed .notFound else .found info

end Databases

end AccessLog.Geo

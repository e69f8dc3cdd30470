import AccessLog.Json.Decode

/-! # What is known about an address -/

namespace AccessLog.Enrich

structure AddressInfo where
  address : String
  country : Option String
  region : Option String
  city : Option String
  organization : Option String
  deriving DecidableEq, Repr, Inhabited

namespace AddressInfo

/-- Nothing is known about the address. -/
def unknown (address : String) : AddressInfo := ⟨address, none, none, none, none⟩

def isUnknown (i : AddressInfo) : Bool :=
  i.country.isNone && i.region.isNone && i.city.isNone && i.organization.isNone

def toJson (i : AddressInfo) : Json :=
  .record [("address", .text i.address), ("country", .optionalText i.country),
    ("region", .optionalText i.region), ("city", .optionalText i.city),
    ("organization", .optionalText i.organization)]

def ofJson? (v : Json) : Option AddressInfo := do
  match ← Json.fields? ["address", "country", "region", "city", "organization"] v with
  | [address, country, region, city, organization] =>
    some {
      address := ← Json.required Json.text? address
      country := ← Json.optional Json.text? country
      region := ← Json.optional Json.text? region
      city := ← Json.optional Json.text? city
      organization := ← Json.optional Json.text? organization }
  | _ => none

end AddressInfo

end AccessLog.Enrich

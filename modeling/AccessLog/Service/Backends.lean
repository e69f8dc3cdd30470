import AccessLog.Enrich.InfoService
import AccessLog.Geo.Database
import AccessLog.Net.Url
import AccessLog.Service.Ingest
import AccessLog.Settings.Basic
import AccessLog.Store.Location

/-! # Backends

The settings name a store for analyses and a source of lookups. Opening either can fail, and the
failure says which of the named resources is to blame. -/

namespace AccessLog.Service
open AccessLog.Enrich AccessLog.Geo AccessLog.Store

inductive OpenFault where
  | store (url : String)
  /-- The table could not be created. -/
  | schema
  | base (fault : BaseFault Net.Url)
  | noDatabase
  | cityDatabase (path : String)
  | networkDatabase (path : String)
  deriving DecidableEq, Repr

def OpenFault.message : OpenFault → String
  | .store url => "Failed to open database " ++ url
  | .schema => "Failed to initialize analysis store"
  | .base fault => fault.message
  | .noDatabase => "LOOKUP_BACKEND=maxmind requires GEOIP_CITY_DB or GEOIP_ASN_DB"
  | .cityDatabase path => "Failed to open GeoIP City database at " ++ path
  | .networkDatabase path => "Failed to open GeoIP ASN database at " ++ path

/-- A store of either kind. -/
abbrev AnyStore := MemoryStore ⊕ TableStore

/-- Open the store of the settings. A table starts empty. -/
def openStore (around : Surroundings) (s : StoreSettings) : Except OpenFault AnyStore :=
  match s.kind with
  | .memory => .ok (.inl .empty)
  | .table =>
    match (Location.parse? s.url).filter (·.isReachable around) with
    | none => .error (.store s.url)
    | some location =>
      if location.readOnly then .error .schema else .ok (.inr TableStore.empty.init)

inductive LookupSource where
  | service (service : InfoService Net.Url)
  | databases (databases : Databases)

/-- The database at a path, if one is named. -/
def openDatabase (database? : String → Option Database) (fault : String → OpenFault)
    (path : Option String) : Except OpenFault (Option Database) :=
  match path with
  | none => .ok none
  | some path =>
    match database? path with
    | none => .error (fault path)
    | some d => .ok (some d)

/-- Open the source of lookups of the settings, where `database?` gives the database in a file. -/
def openLookup (database? : String → Option Database) (s : LookupSettings) :
    Except OpenFault LookupSource :=
  match s.kind with
  | .infoService =>
    match InfoService.of s.baseUrl s.token with
    | .error fault => .error (.base fault)
    | .ok service => .ok (.service service)
  | .geoDatabase =>
    if s.cityDatabase.isNone && s.networkDatabase.isNone then .error .noDatabase
    else do
      let city ← openDatabase database? .cityDatabase s.cityDatabase
      let network ← openDatabase database? .networkDatabase s.networkDatabase
      .ok (.databases ⟨city, network⟩)

/-- Look an address up, where `exchange` tells what comes of a request to a service. -/
def LookupSource.resolve (exchange : InfoService.Request Net.Url → InfoService.Exchange)
    (address : String) : LookupSource → Outcome
  | service s =>
    match (s.resolve exchange address).1 with
    | .ok info => .found info
    | .error e => .failed e
  | databases d => d.resolve address

/-- The service that the settings describe, with a store of its own. -/
def ofSettings {σ : Type} (store : σ) (s : Settings) : Service σ :=
  ⟨store, .start s.cache.cache, s.analysis.eagerTopN⟩

end AccessLog.Service

import AccessLog.Enrich.Backoff
import AccessLog.Enrich.Cache
import AccessLog.Stats.Counter

/-! # Settings

Where the service listens, where analyses are kept, how addresses are looked up, and the limits of
each. The written form leaves the access token out. -/

namespace AccessLog
open AccessLog.Enrich AccessLog.Time

inductive StoreKind where
  | memory
  | table
  deriving DecidableEq, Repr

inductive LookupKind where
  | infoService
  | geoDatabase
  deriving DecidableEq, Repr

namespace StoreKind

def name : StoreKind → String
  | memory => "memory"
  | table => "sqlite"

def ofName? (s : String) : Option StoreKind := [memory, table].find? fun k => k.name == s

end StoreKind

namespace LookupKind

def name : LookupKind → String
  | infoService => "ipinfo"
  | geoDatabase => "maxmind"

def ofName? (s : String) : Option LookupKind := [infoService, geoDatabase].find? fun k => k.name == s

end LookupKind

structure ServerSettings where
  host : String
  port : UInt16

structure StoreSettings where
  kind : StoreKind
  url : String
  maxConnections : UInt32

structure LookupSettings where
  kind : LookupKind
  baseUrl : String
  token : Option String
  connectTimeoutMs : UInt64
  readTimeoutMs : UInt64
  cityDatabase : Option String
  networkDatabase : Option String

structure CacheSettings where
  ttlMinutes : UInt64
  maxSize : UInt64

structure RetrySettings where
  maxAttempts : UInt32
  waitMs : UInt64
  multiplier : Float

structure AnalysisSettings where
  eagerTopN : UInt64
  maxUploadBytes : UInt64

structure Settings where
  server : ServerSettings
  store : StoreSettings
  lookup : LookupSettings
  cache : CacheSettings
  retry : RetrySettings
  analysis : AnalysisSettings

/-- A year. -/
def maxTtlMinutes : UInt64 := 365 * 24 * 60

/-- How long a cached entry lives, at most a year. -/
def CacheSettings.ttl (c : CacheSettings) : Duration :=
  .ofSeconds (min c.ttlMinutes.toNat maxTtlMinutes.toNat * 60)

/-- The cache at the start. -/
def CacheSettings.cache (c : CacheSettings) : Cache := ⟨c.maxSize, c.ttl, []⟩

def RetrySettings.policy (r : RetrySettings) : BackoffPolicy :=
  .of r.maxAttempts (.ofMillis r.waitMs.toNat) r.multiplier

namespace Settings

/-- The written form, without the token. -/
def toJson (s : Settings) : Json :=
  .record [
    ("server", .record [("host", .text s.server.host), ("port", .nat s.server.port.toNat)]),
    ("database", .record [("backend", .text s.store.kind.name), ("url", .text s.store.url),
      ("max_connections", .nat s.store.maxConnections.toNat)]),
    ("lookup", .record [("backend", .text s.lookup.kind.name),
      ("base_url", .text s.lookup.baseUrl),
      ("connect_timeout_ms", .nat s.lookup.connectTimeoutMs.toNat),
      ("read_timeout_ms", .nat s.lookup.readTimeoutMs.toNat),
      ("city_db", .optionalText s.lookup.cityDatabase),
      ("asn_db", .optionalText s.lookup.networkDatabase)]),
    ("cache", .record [("ttl_minutes", .nat s.cache.ttlMinutes.toNat),
      ("max_size", .nat s.cache.maxSize.toNat)]),
    ("retry", .record [("max_attempts", .nat s.retry.maxAttempts.toNat),
      ("wait_ms", .nat s.retry.waitMs.toNat),
      ("multiplier", Stats.RankedItem.doubleJson s.retry.multiplier)]),
    ("analysis", .record [("eager_top_n", .nat s.analysis.eagerTopN.toNat),
      ("max_upload_bytes", .nat s.analysis.maxUploadBytes.toNat)])]

/-- A choice by its name, alone or as the only key of an object that holds null. -/
def choice? {α : Type} (ofName? : String → Option α) : Json → Option α
  | .object [(key, .null)] => (Json.unescape? key).bind ofName?
  | v => (Json.text? v).bind ofName?

def uint32? (v : Json) : Option UInt32 :=
  (Json.whole? 0 (UInt32.size - 1) v).map fun n => UInt32.ofNat n.toNat

def serverOfJson? (v : Json) : Option ServerSettings := do
  match ← Json.fields? ["host", "port"] v with
  | [host, port] =>
    some ⟨← Json.required Json.text? host, ← Json.required Json.uint16? port⟩
  | _ => none

def storeOfJson? (v : Json) : Option StoreSettings := do
  match ← Json.fields? ["backend", "url", "max_connections"] v with
  | [kind, url, maxConnections] =>
    some ⟨← Json.required (choice? StoreKind.ofName?) kind, ← Json.required Json.text? url,
      ← Json.required uint32? maxConnections⟩
  | _ => none

def lookupOfJson? (v : Json) : Option LookupSettings := do
  match ← Json.fields? ["backend", "base_url", "token", "connect_timeout_ms", "read_timeout_ms",
      "city_db", "asn_db"] v with
  | [kind, baseUrl, token, connectTimeout, readTimeout, cityDatabase, networkDatabase] =>
    some {
      kind := ← Json.required (choice? LookupKind.ofName?) kind
      baseUrl := ← Json.required Json.text? baseUrl
      token := ← Json.optional Json.text? token
      connectTimeoutMs := ← Json.required Json.uint64? connectTimeout
      readTimeoutMs := ← Json.required Json.uint64? readTimeout
      cityDatabase := ← Json.optional Json.text? cityDatabase
      networkDatabase := ← Json.optional Json.text? networkDatabase }
  | _ => none

def cacheOfJson? (v : Json) : Option CacheSettings := do
  match ← Json.fields? ["ttl_minutes", "max_size"] v with
  | [ttl, size] => some ⟨← Json.required Json.uint64? ttl, ← Json.required Json.uint64? size⟩
  | _ => none

def retryOfJson? (v : Json) : Option RetrySettings := do
  match ← Json.fields? ["max_attempts", "wait_ms", "multiplier"] v with
  | [maxAttempts, wait, multiplier] =>
    some ⟨← Json.required uint32? maxAttempts, ← Json.required Json.uint64? wait,
      ← Json.required Json.float? multiplier⟩
  | _ => none

def analysisOfJson? (v : Json) : Option AnalysisSettings := do
  match ← Json.fields? ["eager_top_n", "max_upload_bytes"] v with
  | [eager, upload] => some ⟨← Json.required Json.uint64? eager, ← Json.required Json.uint64? upload⟩
  | _ => none

/-- Settings from their written form, to which a token may have been added. -/
def ofJson? (v : Json) : Option Settings := do
  match ← Json.fields? ["server", "database", "lookup", "cache", "retry", "analysis"] v with
  | [server, store, lookup, cache, retry, analysis] =>
    some {
      server := ← Json.required serverOfJson? server
      store := ← Json.required storeOfJson? store
      lookup := ← Json.required lookupOfJson? lookup
      cache := ← Json.required cacheOfJson? cache
      retry := ← Json.required retryOfJson? retry
      analysis := ← Json.required analysisOfJson? analysis }
  | _ => none

end Settings

end AccessLog

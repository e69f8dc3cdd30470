import AccessLog.Numeric.Reading
import AccessLog.Settings.Basic
import AccessLog.Text.Blank

/-! # Settings from variables

Every setting has a default, which also stands in for a value that cannot be used: numbers have to
be positive, and a name of a backend has to be known. -/

namespace AccessLog.Settings
open AccessLog.Text AccessLog.Enrich

/-- The variables of an environment, by name. -/
abbrev Variables := String → Option String

/-- A positive whole number below `bound`, blanks around it allowed. -/
def positive? (bound : Nat) (raw : String) : Option Nat :=
  (unsigned? bound (trim raw.toList)).filter (0 < ·)

/-- The number of a variable, or the default. -/
def positive (vars : Variables) (name : String) (bound default : Nat) : Nat :=
  ((vars name).bind (positive? bound)).getD default

def positive16 (vars : Variables) (name : String) (default : Nat) : UInt16 :=
  UInt16.ofNat (positive vars name UInt16.size default)

def positive32 (vars : Variables) (name : String) (default : Nat) : UInt32 :=
  UInt32.ofNat (positive vars name UInt32.size default)

def positive64 (vars : Variables) (name : String) (default : Nat) : UInt64 :=
  UInt64.ofNat (positive vars name UInt64.size default)

/-- The kind that a variable names, in upper or lower case, or the default. The names are plain
ASCII words, and no letter outside ASCII is lowered to one of theirs. -/
def kind {α : Type} (vars : Variables) (name : String) (ofName? : String → Option α)
    (default : α) : α :=
  ((vars name).bind fun s => ofName? s.toLower).getD default

/-- The factor between two waits: finite and greater than one. -/
def multiplier (vars : Variables) : Float :=
  let read := (vars "ENRICHMENT_RETRY_MULTIPLIER").bind fun raw =>
    (Numeric.double? (trim raw.toList)).filter fun f => f > 1.0 && f.isFinite
  read.getD BackoffPolicy.defaultMultiplier

/-- A token of blanks only counts as none. -/
def token (vars : Variables) : Option String :=
  (vars "IPINFO_TOKEN").filter fun t => !allBlank t

def ofVariables (vars : Variables) : Settings where
  server :=
    { host := (vars "SERVER_HOST").getD "127.0.0.1"
      port := positive16 vars "SERVER_PORT" 8080 }
  store :=
    { kind := kind vars "DATABASE_BACKEND" StoreKind.ofName? .memory
      url := (vars "DATABASE_URL").getD "sqlite://./logscope.db"
      maxConnections := positive32 vars "DATABASE_MAX_CONNECTIONS" 5 }
  lookup :=
    { kind := kind vars "LOOKUP_BACKEND" LookupKind.ofName? .infoService
      baseUrl := (vars "IPINFO_BASE_URL").getD "https://ipinfo.io"
      token := token vars
      connectTimeoutMs := positive64 vars "IPINFO_CONNECT_TIMEOUT_MS" 2000
      readTimeoutMs := positive64 vars "IPINFO_READ_TIMEOUT_MS" 3000
      cityDatabase := vars "GEOIP_CITY_DB"
      networkDatabase := vars "GEOIP_ASN_DB" }
  cache :=
    { ttlMinutes := min (positive64 vars "ENRICHMENT_CACHE_TTL_MINUTES" 60) maxTtlMinutes
      maxSize := positive64 vars "ENRICHMENT_CACHE_MAX_SIZE" 1000 }
  retry :=
    { maxAttempts := positive32 vars "ENRICHMENT_RETRY_MAX_ATTEMPTS" 3
      waitMs := positive64 vars "ENRICHMENT_RETRY_WAIT_MS" 500
      multiplier := multiplier vars }
  analysis :=
    { eagerTopN := positive64 vars "ANALYSIS_EAGER_TOP_N" 10
      maxUploadBytes := positive64 vars "ANALYSIS_MAX_UPLOAD_BYTES" (50 * 1024 * 1024) }

end AccessLog.Settings

import AccessLog.CommandLine.Program
import Std.Time.DateTime.Timestamp

/-! # The command line

Reads the environment and the file, runs the program and prints. There are no database files and
there is no network here: tables are kept in memory, and a request to a service is refused. -/

open AccessLog AccessLog.CommandLine AccessLog.Log

/-- The variables that the settings are read from. -/
def settingNames : List String :=
  ["SERVER_HOST", "SERVER_PORT", "DATABASE_BACKEND", "DATABASE_URL", "DATABASE_MAX_CONNECTIONS",
    "LOOKUP_BACKEND", "IPINFO_BASE_URL", "IPINFO_TOKEN", "IPINFO_CONNECT_TIMEOUT_MS",
    "IPINFO_READ_TIMEOUT_MS", "GEOIP_CITY_DB", "GEOIP_ASN_DB", "ENRICHMENT_CACHE_TTL_MINUTES",
    "ENRICHMENT_CACHE_MAX_SIZE", "ENRICHMENT_RETRY_MAX_ATTEMPTS", "ENRICHMENT_RETRY_WAIT_MS",
    "ENRICHMENT_RETRY_MULTIPLIER", "ANALYSIS_EAGER_TOP_N", "ANALYSIS_MAX_UPLOAD_BYTES"]

/-- The variables of the environment that are set. -/
def readVariables : IO (List (String × String)) :=
  settingNames.filterMapM fun name => do return (← IO.getEnv name).map fun value => (name, value)

/-- The bytes of a file, if it can be read. -/
def readFile? (path : String) : IO (Option (List Read)) := do
  try
    let bytes := (← IO.FS.readBinFile path).data.toList
    return some (if bytes.isEmpty then [] else [.bytes bytes])
  catch _ => return none

/-- The file that the arguments name, with its contents. -/
def readNamedFile (arguments : List String) : IO (String × Option (List Read)) := do
  match Command.parse? arguments with
  | some (.analyze path _ _) => return (path, ← readFile? path)
  | _ => return ("", none)

def usage : String := "Usage: accesslog analyze [--top <TOP>] [--wait-ms <WAIT_MS>] <FILE>"

def main (arguments : List String) : IO UInt32 := do
  let settings ← readVariables
  let (path, reads) ← readNamedFile arguments
  let now ← Std.Time.Timestamp.now
  let world : World := {
    environment := fun name => settings.lookup name
    around := .bare
    file? := fun p => if p = path then reads else none
    database? := fun _ => none
    exchange := fun _ => .refused
    now := Int64.ofInt now.toSecondsSinceUnixEpoch.val }
  let exit := run world arguments
  match exit with
  | .printed result => IO.println result.pretty
  | .helped => IO.println usage
  | .misused => IO.eprintln usage
  | .failed message => IO.eprintln ("Error: " ++ message)
  return exit.code

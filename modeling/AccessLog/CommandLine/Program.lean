import AccessLog.CommandLine.Arguments
import AccessLog.Settings.Variables
import AccessLog.Simulation.Requests

/-! # The program

The program analyzes one file with the backends of the settings, and prints the result with what is
known about the ranked addresses. Where it is told to wait, it queues all ranked addresses and waits
until they have been looked up, or for as long as it was told to. -/

namespace AccessLog.CommandLine
open AccessLog.Enrich AccessLog.Geo AccessLog.Log AccessLog.Service AccessLog.Simulation
  AccessLog.Store

/-- What the program finds around it. -/
structure World where
  environment : Settings.Variables
  around : Surroundings
  /-- The pieces in which a file is read. -/
  file? : String → Option (List Read)
  /-- The database in a file. -/
  database? : String → Option Database
  /-- What comes of a request to a service. -/
  exchange : InfoService.Request Net.Url → InfoService.Exchange
  /-- The time, in seconds. -/
  now : Int64

/-- How the program ends. -/
inductive Exit where
  | printed (result : Json)
  | helped
  | misused
  | failed (message : String)

def Exit.code : Exit → UInt32
  | printed _ => 0
  | helped => 0
  | failed _ => 1
  | misused => 2

/-- The result of an analysis, at once or after a wait. -/
def resultOf {σ : Type} [AnalysisStore σ] (r : Run σ) (id topN waitMs : UInt64) :
    Except Failure AnalysisResult :=
  if waitMs = 0 then (r.result id topN).1
  else do
    let (first, r) := r.result id topN
    let _ ← first
    ((r.settle waitMs.toNat).2.result id topN).1

/-- Take a batch in and give its result. -/
def analysisOf {σ : Type} [AnalysisStore σ] (r : Run σ) (now : Int64) (reads : List Read)
    (topN waitMs : UInt64) : Except Failure AnalysisResult :=
  let (taken, r) := r.ingest now reads
  match taken with
  | .error f => .error f
  | .ok a =>
    match a.id with
    | none => .error missingId
    | some id => resultOf r id topN waitMs

/-- Analyze a file. The backends are opened before the file. -/
def analyze (w : World) (path : String) (topN waitMs : UInt64) : Except String Json := do
  let settings := Settings.ofVariables w.environment
  let store ← (openStore w.around settings.store).mapError OpenFault.message
  let source ← (openLookup w.database? settings.lookup).mapError OpenFault.message
  match w.file? path with
  | none => .error ("Failed to open " ++ path)
  | some reads =>
    let run := Run.ofSettings store (.ofFunction (source.resolve w.exchange ·)) settings
    let result ← (analysisOf run w.now reads topN waitMs).mapError Failure.message
    .ok result.toResponse

def run (w : World) (arguments : List String) : Exit :=
  match Command.parse? arguments with
  | none => .misused
  | some .help => .helped
  | some (.analyze path topN waitMs) =>
    match analyze w path topN waitMs with
    | .ok result => .printed result
    | .error message => .failed message

end AccessLog.CommandLine

import AccessLog.Log.Event
import AccessLog.Stats.Analysis

/-! # Aggregating a batch

Events and failures are added one by one; at any moment an analysis of what has been added so far
can be taken. A batch that can be read to its end is aggregated whole; at the first line that cannot
be read it is given up. -/

namespace AccessLog.Stats
open AccessLog.Log

structure Aggregator where
  paths : Counter String
  addresses : Counter String
  statuses : StatusClasses
  failures : FailureSamples
  deriving DecidableEq

namespace Aggregator

def empty : Aggregator := ⟨.empty, .empty, .empty, .empty⟩

/-- Count an event of a client at `address` that asked for `path` and was answered `status`. -/
def count (a : Aggregator) (path address : String) (status : UInt16) : Aggregator :=
  { a with
    paths := a.paths.increment path
    addresses := a.addresses.increment address
    statuses := a.statuses.increment status }

def accumulate (a : Aggregator) (e : Event) : Aggregator :=
  a.count e.path e.clientAddress e.status

def recordFailure (a : Aggregator) (failure : ParseFailure) : Aggregator :=
  { a with failures := a.failures.add failure }

/-- The analysis of what has been added so far. -/
def finish (a : Aggregator) (createdAt : Int64) : Analysis :=
  ⟨none, createdAt, a.paths, a.addresses, a.statuses, a.failures⟩

/-- Add a row, as an event or as a failure. -/
def addRow (a : Aggregator) (row : Row) : Aggregator :=
  match Event.ofRow row with
  | .ok event => a.accumulate event
  | .error fault => a.recordFailure ⟨UInt64.ofNat row.line, row.raw, fault.message⟩

end Aggregator

/-- Why a batch could not be aggregated. -/
inductive BatchFault where
  | unreadable (fault : ReadFault)
  | crashed (message : String)
  deriving DecidableEq

/-- Add rows until one of them cannot be read. -/
def addRows (a : Aggregator) : List (Delivery Row) → Except BatchFault Aggregator
  | [] => .ok a
  | .item row :: rest => addRows (a.addRow row) rest
  | .fault fault :: _ => .error (.unreadable fault)
  | .crash message :: _ => .error (.crashed message)

/-- The analysis of a batch. -/
def aggregate (createdAt : Int64) (reads : List Read) : Except BatchFault Analysis :=
  (addRows .empty (rows reads)).map fun a => a.finish createdAt

end AccessLog.Stats

import AccessLog.Log.Method
import AccessLog.Log.Row
import AccessLog.Log.Timestamp

/-! # Events

A row with twelve fields in which the timestamp, the method, the status and three numbers are well
formed is an event. Of several faults the first is reported, in the order in which `ofRow` looks. -/

namespace AccessLog.Log
open AccessLog.Text

structure Event where
  timestamp : Timestamp
  clientAddress : String
  method : Method
  path : String
  userAgent : String
  status : UInt16
  protocol : String
  receivedBytes : Int64
  sentBytes : Int64
  responseTime : Int64
  tlsProtocol : String
  pathWithArguments : String
  deriving DecidableEq

/-- The fields of an event that hold a number. -/
inductive NumberField where
  | receivedBytes
  | sentBytes
  | responseTime
  deriving DecidableEq, Repr

def NumberField.label : NumberField → String
  | receivedBytes => "received bytes"
  | sentBytes => "sent bytes"
  | responseTime => "response time"

/-- Why a row is no event. -/
inductive RowFault where
  | columnCount (found : Nat)
  | timestamp (text : String)
  | method (text : String)
  | status (text : String)
  | number (field : NumberField) (text : String)
  deriving DecidableEq, Repr

def columns : Nat := 12

namespace RowFault

def message : RowFault → String
  | columnCount found => s!"expected {columns} columns but found {found}"
  | timestamp text => s!"invalid timestamp '{text}'"
  | method text => unrecognizedMethod text
  | status text => s!"invalid status code '{text}'"
  | number field text => s!"invalid {field.label} '{text}'"

end RowFault

/-- A status code has three digits, the first of them not zero. -/
def status? (s : String) : Option UInt16 :=
  ((unsigned? UInt16.size s.toList).filter fun n => 100 ≤ n && n ≤ 999).map UInt16.ofNat

/-- A whole number of 64 bits. -/
def number? (s : String) : Option Int64 := (signed64? s.toList).map Int64.ofInt

/-- What `read` makes of a field, or else the fault. -/
def checked {α : Type} (read : String → Option α) (fault : String → RowFault) (s : String) :
    Except RowFault α :=
  match read s with
  | some a => .ok a
  | none => .error (fault s)

namespace Event

/-- The event of a row's fields. -/
def ofFields : List String → Except RowFault Event
  | [timestamp, clientAddress, method, path, userAgent, status, protocol, receivedBytes, sentBytes,
      responseTime, tlsProtocol, pathWithArguments] => do
    let timestamp ← checked Timestamp.parse? .timestamp timestamp
    let method ← checked Method.ofName? .method method
    let status ← checked status? .status status
    let receivedBytes ← checked number? (.number .receivedBytes) receivedBytes
    let sentBytes ← checked number? (.number .sentBytes) sentBytes
    let responseTime ← checked number? (.number .responseTime) responseTime
    .ok { timestamp, clientAddress, method, path, userAgent, status, protocol, receivedBytes,
          sentBytes, responseTime, tlsProtocol, pathWithArguments }
  | fields => .error (.columnCount fields.length)

def ofRow (row : Row) : Except RowFault Event := ofFields row.fields

end Event

end AccessLog.Log

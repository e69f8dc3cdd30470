import AccessLog.Stats.Counter

/-! # Status codes by class

Beside the count of every code, the totals of the four classes from success to server error are
kept; a code outside these classes counts towards the overall total only. -/

namespace AccessLog.Stats

inductive StatusClass where
  | success
  | redirect
  | clientError
  | serverError
  deriving DecidableEq, Repr

/-- The class of a code. -/
def StatusClass.of? (code : UInt16) : Option StatusClass :=
  if 200 ≤ code && code ≤ 299 then some .success
  else if 300 ≤ code && code ≤ 399 then some .redirect
  else if 400 ≤ code && code ≤ 499 then some .clientError
  else if 500 ≤ code && code ≤ 599 then some .serverError
  else none

structure StatusClasses where
  codes : Counter UInt16
  success : UInt64
  redirect : UInt64
  clientError : UInt64
  serverError : UInt64
  deriving DecidableEq

/-- The share of each class, in percent. -/
structure StatusDistribution where
  success : Float
  redirect : Float
  clientError : Float
  serverError : Float
  deriving DecidableEq

namespace StatusClasses

def empty : StatusClasses := ⟨.empty, 0, 0, 0, 0⟩

def bump (s : StatusClasses) : Option StatusClass → StatusClasses
  | some .success => { s with success := s.success + 1 }
  | some .redirect => { s with redirect := s.redirect + 1 }
  | some .clientError => { s with clientError := s.clientError + 1 }
  | some .serverError => { s with serverError := s.serverError + 1 }
  | none => s

def increment (s : StatusClasses) (code : UInt16) : StatusClasses :=
  { s with codes := s.codes.increment code }.bump (StatusClass.of? code)

def total (s : StatusClasses) : UInt64 := s.codes.total

def count (s : StatusClasses) (code : UInt16) : UInt64 := s.codes.count code

def top (s : StatusClasses) (limit : Nat) : List RankedItem := s.codes.top limit

def distribution (s : StatusClasses) : StatusDistribution :=
  ⟨percentage s.success s.total, percentage s.redirect s.total,
    percentage s.clientError s.total, percentage s.serverError s.total⟩

def toJson (s : StatusClasses) : Json :=
  .record [("codes", s.codes.toJson), ("success", .nat s.success.toNat),
    ("redirect", .nat s.redirect.toNat), ("client_error", .nat s.clientError.toNat),
    ("server_error", .nat s.serverError.toNat)]

def ofJson? (v : Json) : Option StatusClasses := do
  match ← Json.fields? ["codes", "success", "redirect", "client_error", "server_error"] v with
  | [codes, success, redirect, clientError, serverError] =>
    some {
      codes := ← Json.required Counter.ofJson? codes
      success := ← Json.required Json.uint64? success
      redirect := ← Json.required Json.uint64? redirect
      clientError := ← Json.required Json.uint64? clientError
      serverError := ← Json.required Json.uint64? serverError }
  | _ => none

end StatusClasses

def StatusDistribution.toJson (d : StatusDistribution) : Json :=
  .record [("success_rate", RankedItem.doubleJson d.success),
    ("redirect_rate", RankedItem.doubleJson d.redirect),
    ("client_error_rate", RankedItem.doubleJson d.clientError),
    ("server_error_rate", RankedItem.doubleJson d.serverError)]

end AccessLog.Stats

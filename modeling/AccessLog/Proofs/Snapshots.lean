import AccessLog.Proofs.Counting
import Mathlib.Data.List.Induction

/-! # Snapshots of an aggregator

An analysis may be taken at any moment, and events and failures go on coming in afterwards. Each
analysis tells of just the calls that had been made when it was taken, whenever it is read, and so
does a copy that has been given an identity. -/

namespace AccessLog.Stats
open AccessLog.Log

/-- The analysis tells, in numbers, of just these events and failures. -/
structure Analysis.Tells (a : Analysis) (events : List Event) (failures : List ParseFailure) :
    Prop where
  pathTotal : a.paths.total.toNat = events.length
  addressTotal : a.addresses.total.toNat = events.length
  statusTotal : a.statuses.total.toNat = events.length
  path (path : String) : (a.paths.count path).toNat = events.countP fun e => e.path = path
  address (address : String) :
    (a.addresses.count address).toNat = events.countP fun e => e.clientAddress = address
  status (code : UInt16) : (a.statuses.count code).toNat = events.countP fun e => e.status = code
  failureTotal : a.failures.total.toNat = failures.length
  samples : a.failures.samples = failures.take 10

/-- Below 2^64 events and failures no number of 64 bits has come round to zero. -/
theorem Analysis.Describes.tells {a : Analysis} {events : List Event}
    {failures : List ParseFailure} (h : a.Describes events failures)
    (hevents : events.length < UInt64.size) (hfailures : failures.length < UInt64.size) :
    a.Tells events failures where
  pathTotal := by rw [h.pathTotal, UInt64.toNat_ofNat_of_lt' hevents]
  addressTotal := by rw [h.addressTotal, UInt64.toNat_ofNat_of_lt' hevents]
  statusTotal := by
    have htotal : a.statuses.total = _ := h.total
    rw [htotal, UInt64.toNat_ofNat_of_lt' hevents]
  path path := by
    rw [h.path, UInt64.toNat_ofNat_of_lt' (Nat.lt_of_le_of_lt List.countP_le_length hevents)]
  address address := by
    rw [h.address, UInt64.toNat_ofNat_of_lt' (Nat.lt_of_le_of_lt List.countP_le_length hevents)]
  status code := by
    rw [h.status, UInt64.toNat_ofNat_of_lt' (Nat.lt_of_le_of_lt List.countP_le_length hevents)]
  failureTotal := by rw [h.failureTotal, UInt64.toNat_ofNat_of_lt' hfailures]
  samples := h.samples

/-- An identity says nothing about the batch. -/
theorem Analysis.Tells.withId {a : Analysis} {events : List Event} {failures : List ParseFailure}
    (h : a.Tells events failures) (id : UInt64) : (a.withId id).Tells events failures where
  __ := h

namespace Aggregator

/-! ## Calls -/

/-- A call of an aggregator. -/
inductive Operation where
  | accumulate (e : Event)
  | recordFailure (failure : ParseFailure)
  | finish (createdAt : Int64)

def Operation.event? : Operation → Option Event
  | accumulate e => some e
  | recordFailure _ | finish _ => none

def Operation.failure? : Operation → Option ParseFailure
  | recordFailure failure => some failure
  | accumulate _ | finish _ => none

def Operation.isFinish : Operation → Bool
  | finish _ => true
  | accumulate _ | recordFailure _ => false

/-- An aggregator and the analyses that have been taken of it, the first one first. -/
structure Session where
  aggregator : Aggregator
  taken : List Analysis

def Session.next (s : Session) : Operation → Session
  | .accumulate e => { s with aggregator := s.aggregator.accumulate e }
  | .recordFailure failure => { s with aggregator := s.aggregator.recordFailure failure }
  | .finish createdAt => { s with taken := s.taken ++ [s.aggregator.finish createdAt] }

/-- A new aggregator after these calls. -/
def session (operations : List Operation) : Session := operations.foldl Session.next ⟨empty, []⟩

theorem session_snoc (operations : List Operation) (o : Operation) :
    session (operations ++ [o]) = (session operations).next o := by
  simp [session]

/-- At any moment an analysis would describe the calls before. -/
theorem describes_session (operations : List Operation) (createdAt : Int64) :
    ((session operations).aggregator.finish createdAt).Describes
      (operations.filterMap Operation.event?) (operations.filterMap Operation.failure?) := by
  induction operations using List.reverseRecOn with
  | nil => exact describes_empty createdAt
  | append_singleton operations o ih =>
    rw [session_snoc, List.filterMap_append, List.filterMap_append]
    cases o with
    | accumulate e =>
      show Analysis.Describes _ (_ ++ [e]) (_ ++ [])
      rw [List.append_nil]
      exact describes_accumulate createdAt ih e
    | recordFailure failure =>
      show Analysis.Describes _ (_ ++ []) (_ ++ [failure])
      rw [List.append_nil]
      exact describes_recordFailure createdAt ih failure
    | finish =>
      show Analysis.Describes _ (_ ++ []) (_ ++ [])
      rw [List.append_nil, List.append_nil]
      exact ih

/-! ## Analyses that have been taken -/

theorem length_taken (operations : List Operation) :
    (session operations).taken.length = operations.countP Operation.isFinish := by
  induction operations using List.reverseRecOn with
  | nil => rfl
  | append_singleton operations o ih =>
    rw [session_snoc, List.countP_append, ← ih]
    cases o <;> simp [Session.next, Operation.isFinish]

/-- No call changes or loses an analysis that has been taken. -/
theorem taken_prefix (before after : List Operation) :
    (session before).taken <+: (session (before ++ after)).taken := by
  induction after using List.reverseRecOn with
  | nil => simp
  | append_singleton after o ih =>
    rw [← List.append_assoc, session_snoc]
    refine ih.trans ?_
    cases o with
    | accumulate | recordFailure => exact List.prefix_rfl
    | finish => exact List.prefix_append _ _

theorem taken_of_finish (before after : List Operation) (createdAt : Int64) :
    (session (before ++ .finish createdAt :: after)).taken[before.countP Operation.isFinish]? =
      some ((session before).aggregator.finish createdAt) := by
  obtain ⟨later, hlater⟩ := taken_prefix (before ++ [.finish createdAt]) after
  rw [List.append_assoc, List.singleton_append, session_snoc] at hlater
  rw [← hlater, ← length_taken]
  simp [Session.next]

/-- In the course of fewer than 2^64 calls each analysis that is taken is there at any later time.
Read then, it tells of the calls before it was taken, and so does each copy with an identity. -/
theorem snapshot_tells_prefix (before after : List Operation) (createdAt : Int64)
    (hfew : (before ++ .finish createdAt :: after).length < UInt64.size) :
    ∃ a, (session (before ++ .finish createdAt :: after)).taken[
        before.countP Operation.isFinish]? = some a ∧
      a.id = none ∧ a.createdAt = createdAt ∧
      a.Tells (before.filterMap Operation.event?) (before.filterMap Operation.failure?) ∧
      ∀ id, (a.withId id).id = some id ∧ (a.withId id).createdAt = createdAt ∧
        (a.withId id).Tells (before.filterMap Operation.event?)
          (before.filterMap Operation.failure?) := by
  have hbefore : before.length < UInt64.size := by
    rw [List.length_append] at hfew
    omega
  have htells := (describes_session before createdAt).tells
    (Nat.lt_of_le_of_lt (List.length_filterMap_le _ _) hbefore)
    (Nat.lt_of_le_of_lt (List.length_filterMap_le _ _) hbefore)
  exact ⟨_, taken_of_finish before after createdAt, rfl, rfl, htells,
    fun id => ⟨rfl, rfl, htells.withId id⟩⟩

/-- An event that differs from others in what is counted. -/
def visit (address path : String) (status : UInt16) : Event where
  timestamp := ⟨2024, 1, 15, 10, 30, 45, 123000000⟩
  clientAddress := address
  method := .get
  path := path
  userAgent := "curl"
  status := status
  protocol := "HTTP/1.1"
  receivedBytes := 1
  sentBytes := 2
  responseTime := 3
  tlsProtocol := "TLSv1.3"
  pathWithArguments := path

/-- The second of three analyses, with calls on either side. -/
theorem snapshot_tells_prefix_second :
    let before := [.accumulate (visit "1.1.1.1" "/a" 200), .finish 5,
      .recordFailure ⟨3, "alone", "expected 12 columns but found 1"⟩,
      .accumulate (visit "2.2.2.2" "/a" 404)]
    let after := [.accumulate (visit "2.2.2.2" "/b" 404), .finish 9, .recordFailure ⟨5, "", ""⟩]
    (before ++ .finish 7 :: after).length < UInt64.size ∧
    ∃ a, (session (before ++ .finish 7 :: after)).taken[1]? = some a ∧ a.id = none ∧
      a.statuses.total.toNat = 2 ∧ (a.paths.count "/a").toNat = 2 ∧
      (a.addresses.count "2.2.2.2").toNat = 1 ∧ (a.statuses.count 404).toNat = 1 ∧
      (a.withId 8).failures.total.toNat = 1 ∧
      (a.withId 8).failures.samples = [⟨3, "alone", "expected 12 columns but found 1"⟩] := by
  intro before after
  have hfew : (before ++ .finish 7 :: after).length < UInt64.size := by decide
  obtain ⟨a, htaken, hid, -, htells, hcopy⟩ := snapshot_tells_prefix before after 7 hfew
  exact ⟨hfew, a, htaken, hid, htells.statusTotal, htells.path "/a", htells.address "2.2.2.2",
    htells.status 404, (hcopy 8).2.2.failureTotal, (hcopy 8).2.2.samples⟩

end Aggregator

end AccessLog.Stats

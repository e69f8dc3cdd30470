import AccessLog.Enrich.Lookup
import AccessLog.Store.Memory

/-! # Scripted surroundings

What takes the place of the outside world in a simulated run: lookups whose outcomes are laid down
beforehand, and a store with a fault of one's choice. -/

namespace AccessLog.Simulation
open AccessLog.Enrich AccessLog.Stats AccessLog.Store

/-- The outcome of one lookup, and the milliseconds until it comes. -/
structure Reply where
  delay : Nat
  outcome : Outcome
  deriving DecidableEq

/-- Lookups with the replies that are left for each listed address; `otherwise` answers for the
addresses that are not listed. -/
structure Script where
  listed : List (String × List Reply)
  otherwise : String → Outcome

namespace Script

/-- No address but the listed ones is found. -/
def ofList (listed : List (String × List Reply)) : Script := ⟨listed, fun _ => .failed .notFound⟩

/-- Give the same answer to every lookup of an address. -/
def ofFunction (outcome : String → Outcome) : Script := ⟨[], outcome⟩

/-- Use up one reply of a list; a list that is used up times out. -/
def useUp : List Reply → Reply × List Reply
  | [] => (⟨0, .failed .timeout⟩, [])
  | reply :: rest => (reply, rest)

def call (s : Script) (address : String) : Reply × Script :=
  match s.listed.lookup address with
  | none => (⟨0, s.otherwise address⟩, s)
  | some replies =>
    let (reply, rest) := useUp replies
    (reply, { s with
      listed := s.listed.map fun (a, rs) => if a = address then (a, rest) else (a, rs) })

end Script

inductive StoreFault where
  | none
  | save
  | find
  /-- Analyses are handed back without an identity, and are not kept. -/
  | noId
  deriving DecidableEq, Repr

structure FaultyStore where
  store : MemoryStore
  fault : StoreFault
  deriving DecidableEq

instance : AnalysisStore FaultyStore where
  save s a :=
    match s.fault with
    | .save => (.error ⟨"disk full", []⟩, s)
    | .noId => (.ok a, s)
    | _ =>
      let (saved, store) := s.store.save a
      (.ok saved, { s with store })
  find s id :=
    match s.fault with
    | .find => .error ⟨"disk gone", []⟩
    | _ => .ok (s.store.find id)

end AccessLog.Simulation

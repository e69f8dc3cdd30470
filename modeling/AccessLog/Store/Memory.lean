import AccessLog.Store.Basic

/-! # The store in memory

New identities are drawn from a counter, apart from the analyses that are kept; an analysis that
brings an identity along does not move the counter. -/

namespace AccessLog.Store
open AccessLog.Stats

structure MemoryStore where
  analyses : List (UInt64 × Analysis)
  /-- The identity that was drawn last. -/
  lastId : UInt64
  deriving DecidableEq

namespace MemoryStore

def empty : MemoryStore := ⟨[], 0⟩

/-- Draw the next identity. -/
def draw (s : MemoryStore) : UInt64 × MemoryStore := (s.lastId + 1, { s with lastId := s.lastId + 1 })

/-- Put an analysis in the place of its identity, instead of what may have been there. -/
def insert (s : MemoryStore) (id : UInt64) (a : Analysis) : MemoryStore :=
  { s with analyses := (id, a) :: s.analyses.filter (·.1 != id) }

def save (s : MemoryStore) (a : Analysis) : Analysis × MemoryStore :=
  match a.id with
  | some id => (a, s.insert id a)
  | none =>
    let (id, s) := s.draw
    (a.withId id, s.insert id (a.withId id))

/-- The first step of a save: the identity under which an analysis is going to be put, its own or
the next one. -/
def assign (s : MemoryStore) (a : Analysis) : UInt64 × Analysis × MemoryStore :=
  match a.id with
  | some id => (id, a, s)
  | none => (s.draw.1, a.withId s.draw.1, s.draw.2)

def find (s : MemoryStore) (id : UInt64) : Option Analysis :=
  (s.analyses.find? (·.1 == id)).map Prod.snd

def size (s : MemoryStore) : Nat := s.analyses.length

/-- A save is the choice of the identity and then the insertion. -/
theorem save_eq_insert (s : MemoryStore) (a : Analysis) :
    s.save a =
      ((s.assign a).2.1, (s.assign a).2.2.insert (s.assign a).1 (s.assign a).2.1) := by
  unfold save assign
  split <;> rfl

instance : AnalysisStore MemoryStore where
  save s a := let (saved, s) := s.save a; (.ok saved, s)
  find s id := .ok (s.find id)

end MemoryStore

end AccessLog.Store

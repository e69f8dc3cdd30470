import AccessLog.Store.Location

/-! # Stores that several use at once

A table writes an analysis in one go. The store in memory chooses an identity first and inserts the
analysis later, and others may use it in between. -/

namespace AccessLog.Store
open AccessLog.Stats

/-- A store with its saves taken apart: the first step answers, or has chosen the identity under
which the second is to insert the analysis. -/
class SharedStore (σ : Type) extends AnalysisStore σ where
  begin : σ → Analysis → (Except StoreError Analysis ⊕ UInt64 × Analysis) × σ
  finish : σ → UInt64 → Analysis → Except StoreError Analysis × σ
  /-- With nothing in between the steps make up a save. -/
  save_eq : ∀ s a, save s a =
    match begin s a with
    | (.inl answer, s) => (answer, s)
    | (.inr (id, a), s) => finish s id a

instance : SharedStore MemoryStore where
  begin s a := (.inr ((s.assign a).1, (s.assign a).2.1), (s.assign a).2.2)
  finish s id a := (.ok a, s.insert id a)
  save_eq s a := by
    show (Except.ok (s.save a).1, (s.save a).2) = _
    rw [MemoryStore.save_eq_insert]

instance : SharedStore TableStore where
  begin s a := (.inl (s.save a).1, (s.save a).2)
  finish s _ a := s.save a
  save_eq _ _ := rfl

instance {α β : Type} [SharedStore α] [SharedStore β] : SharedStore (α ⊕ β) where
  begin s a :=
    match s with
    | .inl s => let (begun, s) := SharedStore.begin s a; (begun, .inl s)
    | .inr s => let (begun, s) := SharedStore.begin s a; (begun, .inr s)
  finish s id a :=
    match s with
    | .inl s => let (saved, s) := SharedStore.finish s id a; (saved, .inl s)
    | .inr s => let (saved, s) := SharedStore.finish s id a; (saved, .inr s)
  save_eq s a := by
    cases s with
    | inl s =>
      show ((AnalysisStore.save s a).1, Sum.inl (AnalysisStore.save s a).2) = _
      rw [SharedStore.save_eq]
      rcases hbegin : SharedStore.begin s a with ⟨answer | ⟨id, b⟩, s'⟩ <;> simp only [hbegin]
    | inr s =>
      show ((AnalysisStore.save s a).1, Sum.inr (AnalysisStore.save s a).2) = _
      rw [SharedStore.save_eq]
      rcases hbegin : SharedStore.begin s a with ⟨answer | ⟨id, b⟩, s'⟩ <;> simp only [hbegin]

end AccessLog.Store

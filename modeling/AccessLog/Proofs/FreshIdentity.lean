import AccessLog.Stats.Aggregator
import AccessLog.Store.Memory
import Mathlib.Data.List.Infix

/-! # Identities that the store in memory draws

The counter knows of the identities that were drawn from it and of no others. So an analysis that
comes without an identity gets one that was never drawn before, and nothing that is kept under
another identity changes. But an analysis that came with an identity of its own may stand in the
place that is drawn later, and is lost then: the draw is free exactly as long as nobody has brought
its number along. -/

namespace AccessLog.Store.MemoryStore
open AccessLog.Stats

/-- What is done with a store. -/
inductive Operation where
  | save (a : Analysis)
  | find (id : UInt64)

def Operation.apply (s : MemoryStore) : Operation → MemoryStore
  | save a => (s.save a).2
  | find _ => s

/-- The store after a history, which began with nothing. -/
def after (history : List Operation) : MemoryStore := history.foldl Operation.apply empty

def Operation.isSave : Operation → Bool
  | save _ => true
  | find _ => false

/-- Whether it saves an analysis that has no identity. -/
def Operation.draws : Operation → Bool
  | save a => a.id.isNone
  | find _ => false

/-- The identity that a save brings along. -/
def Operation.brings? : Operation → Option UInt64
  | save a => a.id
  | find _ => none

def saves (history : List Operation) : Nat := history.countP Operation.isSave

def drawn (history : List Operation) : Nat := history.countP Operation.draws

def brought (history : List Operation) : List UInt64 := history.filterMap Operation.brings?

theorem drawn_le_saves (history : List Operation) : drawn history ≤ saves history := by
  apply List.countP_mono_left
  intro o _ h
  cases o with
  | save a => rfl
  | find id => cases h

theorem drawn_concat (history : List Operation) (o : Operation) :
    drawn (history ++ [o]) = drawn history + if o.draws then 1 else 0 := by
  simp [drawn, List.countP_append, List.countP_cons]

theorem after_concat (history : List Operation) (o : Operation) :
    after (history ++ [o]) = o.apply (after history) := by
  simp [after, List.foldl_append]

theorem find_insert (s : MemoryStore) (id other : UInt64) (a : Analysis) :
    (s.insert id a).find other = if other = id then some a else s.find other := by
  by_cases h : other = id
  · simp [find, insert, h]
  · have hne : ¬ id = other := fun he => h he.symm
    simp only [find, insert, List.find?_cons, beq_eq_false_iff_ne.2 hne, if_neg h,
      List.find?_filter]
    congr 2
    funext entry
    by_cases he : entry.1 = other
    · simp [he, h]
    · simp [he]

theorem isSome_find_insert (s : MemoryStore) (id other : UInt64) (a : Analysis) :
    ((s.insert id a).find other).isSome = true ↔ other = id ∨ (s.find other).isSome = true := by
  rw [find_insert]
  by_cases h : other = id <;> simp [h]

/-- The counter stands at the number of draws, and the places that are taken are those of the
identities drawn and of those brought along. -/
def Accounts (history : List Operation) : Prop :=
  (after history).lastId.toNat = drawn history ∧
    ∀ id, ((after history).find id).isSome = true ↔
      (1 ≤ id.toNat ∧ id.toNat ≤ drawn history) ∨ id ∈ brought history

/-- The identity that is drawn next has never been drawn before. -/
theorem toNat_draw {history : List Operation} (h : Accounts history)
    (hfew : saves history + 1 < UInt64.size) :
    ((after history).lastId + 1).toNat = drawn history + 1 := by
  have hle := drawn_le_saves history
  rw [UInt64.toNat_add, h.1]
  exact Nat.mod_eq_of_lt (by simpa [UInt64.size] using (by omega : drawn history + 1 < UInt64.size))

theorem accounts_concat {history : List Operation} {o : Operation} (h : Accounts history)
    (hfew : saves (history ++ [o]) < UInt64.size) : Accounts (history ++ [o]) := by
  have hbrought : brought (history ++ [o]) = brought history ++ o.brings?.toList := by
    cases ho : o.brings? <;> simp [brought, ho]
  unfold Accounts
  rw [after_concat, drawn_concat, hbrought]
  obtain ⟨hlast, htaken⟩ := h
  cases o with
  | find id => simpa [Operation.apply, Operation.draws, Operation.brings?] using ⟨hlast, htaken⟩
  | save a =>
    have hsaves : saves (history ++ [.save a]) = saves history + 1 := by
      simp [saves, Operation.isSave]
    have hnext := toNat_draw ⟨hlast, htaken⟩ (hsaves ▸ hfew)
    cases hid : a.id with
    | some id =>
      simp only [Operation.apply, Operation.draws, Operation.brings?, save, hid, Option.isNone_some,
        Bool.false_eq_true, if_false, Nat.add_zero, Option.toList_some]
      refine ⟨hlast, ?_⟩
      intro other
      rw [isSome_find_insert, htaken, List.mem_append, List.mem_singleton]
      tauto
    | none =>
      simp only [Operation.apply, Operation.draws, Operation.brings?, save, draw, hid,
        Option.isNone_none, if_true, Option.toList_none, List.append_nil]
      refine ⟨hnext, ?_⟩
      intro other
      rw [isSome_find_insert]
      show _ ∨ ((after history).find other).isSome = true ↔ _
      rw [htaken, ← UInt64.toNat_inj, hnext]
      have hrange : other.toNat = drawn history + 1 ∨
          (1 ≤ other.toNat ∧ other.toNat ≤ drawn history) ↔
          1 ≤ other.toNat ∧ other.toNat ≤ drawn history + 1 := by omega
      rw [← or_assoc, hrange]

theorem accounts_after (history : List Operation) (hfew : saves history < UInt64.size) :
    Accounts history := by
  induction history using List.reverseRecOn with
  | nil =>
    refine ⟨rfl, ?_⟩
    intro id
    simp only [after, List.foldl_nil, find, empty, drawn, brought]
    simp
    omega
  | append_singleton history o ih =>
    have hless : saves history ≤ saves (history ++ [o]) := by
      simp [saves, List.countP_append]
    exact accounts_concat (ih (Nat.lt_of_le_of_lt hless hfew)) hfew

/-- An analysis without an identity gets the next number. Nothing changes but what is kept under
that number, and nothing was kept there unless an earlier save brought just that number along. -/
theorem save_draws (history : List Operation) (a : Analysis) (hid : a.id = none)
    (hfew : saves history + 1 < UInt64.size) :
    ∃ id : UInt64, id.toNat = drawn history + 1 ∧
      ((after history).save a).1 = a.withId id ∧
      ((after history).save a).2.find id = some (a.withId id) ∧
      (∀ other, other ≠ id → ((after history).save a).2.find other = (after history).find other) ∧
      ((after history).find id = none ↔ id ∉ brought history) := by
  have h := accounts_after history (by omega)
  have hnext := toNat_draw h hfew
  refine ⟨(after history).lastId + 1, hnext, ?_, ?_, ?_, ?_⟩
  · simp [save, draw, hid]
  · simp [save, draw, hid, find_insert]
  · intro other hother
    simp only [save, draw, hid, find_insert, if_neg hother]
    rfl
  · have htaken := h.2 ((after history).lastId + 1)
    rw [hnext] at htaken
    have hpast : ¬ (1 ≤ drawn history + 1 ∧ drawn history + 1 ≤ drawn history) := by omega
    rw [← Option.not_isSome_iff_eq_none, htaken, or_iff_right hpast]

/-- An analysis of one request, under the identity 1. -/
def numbered : Analysis := ((Aggregator.empty.count "/a" "1.2.3.4" 200).finish 0).withId 1

def unnumbered : Analysis := Aggregator.empty.finish 0

/-- With the numbers 41 and 1 taken, the second by a draw, the next draw gives 2. -/
theorem save_draws_second :
    unnumbered.id = none ∧ saves [.save (numbered.withId 41), .save unnumbered, .find 7] + 1 <
      UInt64.size ∧
    ∃ id : UInt64, id.toNat = 2 ∧
      ((after [.save (numbered.withId 41), .save unnumbered, .find 7]).save unnumbered).1 =
        unnumbered.withId id ∧
      (after [.save (numbered.withId 41), .save unnumbered, .find 7]).find id = none := by
  obtain ⟨id, hnext, hsaved, -, -, hfree⟩ :=
    save_draws [.save (numbered.withId 41), .save unnumbered, .find 7] unnumbered rfl (by decide)
  have hid : id.toNat = 2 := hnext
  refine ⟨rfl, by decide, id, hid, hsaved, hfree.2 ?_⟩
  rw [← UInt64.toNat_inj.1 (hid.trans (by rfl : 2 = (2 : UInt64).toNat)).symm]
  decide

/-- What came with the number 1 is lost to the first analysis that comes without a number. -/
theorem save_overwrites :
    unnumbered.id = none ∧ saves [.save numbered] + 1 < UInt64.size ∧
    (after [.save numbered]).find 1 = some numbered ∧
    ((after [.save numbered]).save unnumbered).1.id = some 1 ∧
    ((after [.save numbered]).save unnumbered).2.find 1 = some (unnumbered.withId 1) ∧
    unnumbered.withId 1 ≠ numbered := by
  decide

end AccessLog.Store.MemoryStore

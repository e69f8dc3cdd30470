import AccessLog.Proofs.FreshIdentity
import AccessLog.Proofs.PayloadRoundTrip
import AccessLog.Store.Table
import Mathlib.Data.List.Infix

/-! # Two stores, one behaviour

The store in memory keeps analyses under unsigned identities and draws new ones from a counter. The
table keeps payloads under signed identities and gives a new row the number after the largest that
was ever used. As long as analyses come without an identity, or with one that the store has given
out, nobody can tell the two from their answers: the counter and the largest number stay equal, and
what is found under an identity is the same. -/

namespace AccessLog.Store
open AccessLog.Stats
open MemoryStore (Operation drawn)

/-! ## Histories and their answers -/

inductive Answer where
  | saved (outcome : Except StoreError Analysis)
  | found (outcome : Except StoreError (Option Analysis))

/-- The identity that comes with an answer. -/
def Answer.id? : Answer → Option UInt64
  | saved (.ok a) => a.id
  | saved (.error _) => none
  | found (.ok entry) => entry.bind Analysis.id
  | found (.error _) => none

section Histories
variable {σ : Type} [AnalysisStore σ]

def perform (s : σ) : Operation → Answer × σ
  | .save a => ((.saved (AnalysisStore.save s a).1), (AnalysisStore.save s a).2)
  | .find id => (.found (AnalysisStore.find s id), s)

/-- The store after a history. -/
def afterAll (s : σ) (history : List Operation) : σ :=
  history.foldl (fun s o => (perform s o).2) s

/-- What the store says in the course of a history. -/
def answers (s : σ) : List Operation → List Answer
  | [] => []
  | o :: rest => (perform s o).1 :: answers (perform s o).2 rest

/-- The identities that the store has given out in the course of a history. -/
def returned (s : σ) (history : List Operation) : List UInt64 :=
  (answers s history).filterMap Answer.id?

/-- An analysis that brings an identity along was given it by the store before. -/
def BringsReturned (s : σ) (history : List Operation) : Prop :=
  ∀ n (h : n < history.length), ∀ id ∈ history[n].brings?, id ∈ returned s (history.take n)

instance (s : σ) (history : List Operation) : Decidable (BringsReturned s history) :=
  decidable_of_iff
    (∀ n (h : n < history.length),
      history[n].brings?.all (returned s (history.take n)).contains = true)
    (by simp [BringsReturned, Option.all_eq_true])

theorem afterAll_concat (s : σ) (history : List Operation) (o : Operation) :
    afterAll s (history ++ [o]) = (perform (afterAll s history) o).2 := by
  simp [afterAll, List.foldl_append]

theorem answers_concat (s : σ) (history : List Operation) (o : Operation) :
    answers s (history ++ [o]) = answers s history ++ [(perform (afterAll s history) o).1] := by
  induction history generalizing s with
  | nil => rfl
  | cons first rest ih =>
    simp only [List.cons_append, answers, ih]
    rfl

theorem BringsReturned.before {s : σ} {history : List Operation} {o : Operation}
    (h : BringsReturned s (history ++ [o])) : BringsReturned s history := by
  intro n hn id hid
  have hlonger : n < (history ++ [o]).length := by
    rw [List.length_append]
    omega
  have hgiven := h n hlonger id (by rwa [List.getElem_append_left hn])
  rwa [List.take_append_of_le_length (Nat.le_of_lt hn)] at hgiven

theorem BringsReturned.last {s : σ} {history : List Operation} {o : Operation}
    (h : BringsReturned s (history ++ [o])) : ∀ id ∈ o.brings?, id ∈ returned s history := by
  intro id hid
  have hgiven := h history.length (by simp) id (by simpa using hid)
  rwa [List.take_left] at hgiven

end Histories

/-! ## What the two have in common -/

/-- A table that gives the same answers as a store in memory which has drawn `count` identities. -/
structure Alike (m : MemoryStore) (t : TableStore) (count : Nat) : Prop where
  created : t.created = true
  drawn : m.lastId.toNat = count
  largest : t.largest = m.lastId.toInt64
  same : ∀ id, t.find id = .ok (m.find id)
  /-- Everything is kept under its own identity, which has been drawn. -/
  kept : ∀ id a, m.find id = some a → a.id = some id ∧ id.toNat ≤ count

theorem alike_empty : Alike .empty TableStore.empty.init 0 where
  created := rfl
  drawn := rfl
  largest := rfl
  same _ := rfl
  kept _ _ h := nomatch h

theorem toInt64_inj {i j : UInt64} : i.toInt64 = j.toInt64 ↔ i = j := by
  refine ⟨fun h => ?_, congrArg _⟩
  rw [← i.toUInt64_toInt64, h, j.toUInt64_toInt64]

/-- The sign plays no part in the lower half of the identities. -/
theorem toInt_toInt64 {i : UInt64} (h : i.toNat < Nat.pow 2 63) : i.toInt64.toInt = i.toNat := by
  have hpow : Nat.pow 2 63 = 9223372036854775808 := by decide
  have hlt : 2 * i.toBitVec.toNat < 18446744073709551616 := by
    have : i.toBitVec.toNat = i.toNat := rfl
    omega
  exact BitVec.toInt_eq_toNat_of_lt hlt

theorem toInt64_le {i j : UInt64} (hi : i.toNat < Nat.pow 2 63) (hj : j.toNat < Nat.pow 2 63) :
    i.toInt64 ≤ j.toInt64 ↔ i.toNat ≤ j.toNat := by
  rw [Int64.le_iff_toInt_le, toInt_toInt64 hi, toInt_toInt64 hj, Int.ofNat_le]

namespace TableStore

/-- A row that has been written is read back under its identity, and no other row changes. -/
theorem find_put {t : TableStore} (hcreated : t.created = true) (id other : UInt64) (a : Analysis) :
    (t.put id.toInt64 a.serialize).find other =
      if other = id then .ok (some (a.withId id)) else t.find other := by
  by_cases h : other = id
  · subst h
    simp [find, put, hcreated, Analysis.deserialize?_serialize, Analysis.withId]
  · have hne : id.toInt64 ≠ other.toInt64 := fun heq => h (toInt64_inj.1 heq).symm
    have hrest : (t.rows.filter (·.1 != id.toInt64)).find? (·.1 == other.toInt64) =
        t.rows.find? (·.1 == other.toInt64) := by
      rw [List.find?_filter]
      congr 1
      funext row
      by_cases hrow : row.1 = other.toInt64
      · simp [hrow, hne.symm]
      · simp [hrow]
    simp only [find, put, hcreated, List.find?_cons, beq_eq_false_iff_ne.2 hne, hrest, if_neg h]

theorem put_largest (t : TableStore) (row : Int64) (text : String) :
    (t.put row text).largest = if t.largest ≤ row then row else t.largest := rfl

end TableStore

namespace Alike
variable {m : MemoryStore} {t : TableStore} {count : Nat}

/-- An analysis is kept in both under an identity that has been drawn. -/
theorem keep (h : Alike m t count) {last id : UInt64} {a : Analysis} (hgrows : count ≤ last.toNat)
    (hid : id.toNat ≤ last.toNat)
    (hlargest : (t.put id.toInt64 a.serialize).largest = last.toInt64) :
    Alike (({ m with lastId := last } : MemoryStore).insert id (a.withId id))
      (t.put id.toInt64 a.serialize) last.toNat where
  created := h.created
  drawn := rfl
  largest := hlargest
  same other := by
    rw [TableStore.find_put h.created, MemoryStore.find_insert]
    by_cases hother : other = id
    · rw [if_pos hother, if_pos hother]
    · rw [if_neg hother, if_neg hother]
      exact h.same other
  kept other b hb := by
    rw [MemoryStore.find_insert] at hb
    by_cases hother : other = id
    · rw [if_pos hother] at hb
      cases hb
      exact ⟨hother ▸ rfl, hother ▸ hid⟩
    · rw [if_neg hother] at hb
      obtain ⟨hown, hle⟩ := h.kept other b hb
      exact ⟨hown, Nat.le_trans hle hgrows⟩

/-- An analysis without an identity gets the same one from both. -/
theorem save_unnumbered (h : Alike m t count) {a : Analysis} (hid : a.id = none)
    (hfew : count + 1 < Nat.pow 2 63) :
    (t.save a).1 = .ok (m.save a).1 ∧ Alike (m.save a).2 (t.save a).2 (count + 1) ∧
      ∃ id, (m.save a).1.id = some id ∧ id.toNat ≤ count + 1 := by
  have hpow : Nat.pow 2 63 = 9223372036854775808 := by decide
  have hdrawn := h.drawn
  have hnext : (m.lastId + 1).toNat = count + 1 := by
    have hone : (1 : UInt64).toNat = 1 := rfl
    rw [UInt64.toNat_add, hdrawn, hone]
    exact Nat.mod_eq_of_lt (by omega)
  have hrow : t.largest + 1 = (m.lastId + 1).toInt64 := by
    rw [UInt64.toInt64_add, h.largest]
    rfl
  have hroom : t.largest ≠ Int64.maxValue := by
    intro hfull
    have hlast : m.lastId.toInt64.toInt = m.lastId.toNat := toInt_toInt64 (by omega)
    have hmax : Int64.maxValue.toInt = 9223372036854775807 := by decide
    rw [← h.largest, hfull, hmax] at hlast
    omega
  have hlargest : (t.put (m.lastId + 1).toInt64 a.serialize).largest = (m.lastId + 1).toInt64 := by
    rw [TableStore.put_largest, h.largest]
    exact if_pos ((toInt64_le (by omega) (by omega)).2 (by omega))
  have hmemory : m.save a = (a.withId (m.lastId + 1),
      { m with lastId := m.lastId + 1 }.insert (m.lastId + 1) (a.withId (m.lastId + 1))) := by
    simp only [MemoryStore.save, hid, MemoryStore.draw]
  have htable : t.save a =
      (.ok (a.withId (m.lastId + 1)), t.put (m.lastId + 1).toInt64 a.serialize) := by
    simp only [TableStore.save, h.created, hid, hroom, hrow, UInt64.toUInt64_toInt64]
    rfl
  have hkeep := h.keep (by omega) (Nat.le_refl _) hlargest
  rw [hnext] at hkeep
  rw [hmemory, htable]
  exact ⟨rfl, hkeep, m.lastId + 1, rfl, Nat.le_of_eq hnext⟩

/-- An analysis that brings along an identity which has been drawn keeps it in both. -/
theorem save_numbered (h : Alike m t count) {a : Analysis} {id : UInt64} (hid : a.id = some id)
    (hknown : id.toNat ≤ count) (hfew : count < Nat.pow 2 63) :
    (t.save a).1 = .ok (m.save a).1 ∧ Alike (m.save a).2 (t.save a).2 count ∧
      (m.save a).1.id = some id := by
  have hdrawn := h.drawn
  have hsame : a.withId id = a := by
    cases a
    cases hid
    rfl
  have hlargest : (t.put id.toInt64 a.serialize).largest = m.lastId.toInt64 := by
    rw [TableStore.put_largest, h.largest]
    split
    · rename_i hle
      have hlast := (toInt64_le (by omega) (by omega)).1 hle
      have heq : id = m.lastId := UInt64.toNat_inj.1 (by omega)
      rw [heq]
    · rfl
  have hmemory : m.save a = (a, m.insert id (a.withId id)) := by
    simp only [MemoryStore.save, hid, hsame]
  have htable : t.save a = (.ok a, t.put id.toInt64 a.serialize) := by
    simp only [TableStore.save, h.created, hid, hsame]
    rfl
  have hkeep := h.keep (Nat.le_of_eq hdrawn.symm) (by omega) hlargest
  rw [hdrawn] at hkeep
  rw [hmemory, htable]
  exact ⟨rfl, hkeep, hid⟩

/-- One operation gets the same answer from both, and leaves them alike. -/
theorem step (h : Alike m t count) (o : Operation)
    (hfew : count + (if o.draws then 1 else 0) < Nat.pow 2 63)
    (hknown : ∀ id ∈ o.brings?, id.toNat ≤ count) :
    (perform t o).1 = (perform m o).1 ∧
      Alike (perform m o).2 (perform t o).2 (count + if o.draws then 1 else 0) ∧
      ∀ id ∈ (perform m o).1.id?, id.toNat ≤ count + if o.draws then 1 else 0 := by
  cases o with
  | find id =>
    refine ⟨congrArg Answer.found (h.same id), h, ?_⟩
    intro other hother
    obtain ⟨a, ha, hown⟩ := Option.bind_eq_some_iff.1 hother
    obtain ⟨hid, hle⟩ := h.kept id a ha
    rw [hid] at hown
    cases hown
    exact hle
  | save a =>
    cases hid : a.id with
    | none =>
      have hdraws : (Operation.save a).draws = true := by simp [Operation.draws, hid]
      rw [if_pos hdraws] at hfew ⊢
      obtain ⟨hsaved, halike, id, hnew, hle⟩ := h.save_unnumbered hid hfew
      refine ⟨congrArg Answer.saved hsaved, halike, ?_⟩
      intro other hother
      cases hnew.symm.trans hother
      exact hle
    | some id =>
      have hdraws : ¬ (Operation.save a).draws = true := by simp [Operation.draws, hid]
      rw [if_neg hdraws] at hfew ⊢
      obtain ⟨hsaved, halike, hsame⟩ := h.save_numbered hid (hknown id hid) hfew
      refine ⟨congrArg Answer.saved hsaved, halike, ?_⟩
      intro other hother
      cases hsame.symm.trans hother
      exact hknown id hid

end Alike

/-! ## Whole histories -/

theorem returned_concat {σ : Type} [AnalysisStore σ] (s : σ) (history : List Operation)
    (o : Operation) :
    returned s (history ++ [o]) =
      returned s history ++ (perform (afterAll s history) o).1.id?.toList := by
  rw [returned, answers_concat, List.filterMap_append]
  cases hid : (perform (afterAll s history) o).1.id? <;> simp [hid, returned]

/-- The two stay alike in the course of a history, which has given out no more than was drawn. -/
theorem alike_afterAll (history : List Operation)
    (hown : BringsReturned MemoryStore.empty history ∨
      BringsReturned TableStore.empty.init history)
    (hfew : drawn history < Nat.pow 2 63) :
    answers TableStore.empty.init history = answers MemoryStore.empty history ∧
      Alike (afterAll .empty history) (afterAll TableStore.empty.init history) (drawn history) ∧
      ∀ id ∈ returned MemoryStore.empty history, id.toNat ≤ drawn history := by
  induction history using List.reverseRecOn with
  | nil => exact ⟨rfl, alike_empty, fun _ h => nomatch h⟩
  | append_singleton history o ih =>
    rw [MemoryStore.drawn_concat] at hfew ⊢
    obtain ⟨hsame, halike, hbound⟩ :=
      ih (hown.imp BringsReturned.before BringsReturned.before) (by omega)
    have hknown : ∀ id ∈ o.brings?, id.toNat ≤ drawn history := by
      intro id hid
      apply hbound
      rcases hown with hmemory | htable
      · exact hmemory.last id hid
      · have hgiven := htable.last id hid
        rwa [returned, hsame] at hgiven
    obtain ⟨hanswer, hafter, hgiven⟩ := halike.step o hfew hknown
    refine ⟨?_, ?_, ?_⟩
    · rw [answers_concat, answers_concat, hsame, hanswer]
    · rw [afterAll_concat, afterAll_concat]
      exact hafter
    · intro id hid
      rw [returned_concat, List.mem_append] at hid
      rcases hid with hearlier | hnow
      · exact Nat.le_trans (hbound id hearlier) (Nat.le_add_right _ _)
      · exact hgiven id (Option.mem_toList.1 hnow)

/-- Nobody can tell the table from the store in memory, whatever is saved under no identity or one
that was given out, and whatever is looked for. -/
theorem answers_table_eq_memory (history : List Operation)
    (hown : BringsReturned MemoryStore.empty history ∨
      BringsReturned TableStore.empty.init history)
    (hfew : drawn history < Nat.pow 2 63) :
    answers TableStore.empty.init history = answers MemoryStore.empty history :=
  (alike_afterAll history hown hfew).1

/-- Two analyses are saved, the first once more under its identity, and found; nothing is found
under an identity whose sign is taken for negative. -/
def exchange : List Operation :=
  [.save MemoryStore.unnumbered, .find 1, .save MemoryStore.numbered, .save MemoryStore.unnumbered,
    .find 2, .find 0x8000000000000001]

theorem answers_table_eq_memory_exchange :
    BringsReturned MemoryStore.empty exchange ∧ drawn exchange < Nat.pow 2 63 ∧
      returned TableStore.empty.init exchange = [1, 1, 1, 2, 2] := by
  have hown : BringsReturned MemoryStore.empty exchange := by decide
  have hfew : drawn exchange < Nat.pow 2 63 := by decide
  refine ⟨hown, hfew, ?_⟩
  rw [returned, answers_table_eq_memory exchange (.inl hown) hfew]
  decide

end AccessLog.Store

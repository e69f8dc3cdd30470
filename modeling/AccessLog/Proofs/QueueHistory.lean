import AccessLog.Enrich.Queue
import Mathlib.Data.List.Induction

/-! # What becomes of offered items

A history is what has been done with a queue, by however many clients: items were offered one by one
or several at once, takes came to an item at once or waited, looked again or were given up, and
items were completed. Whether an offer is accepted follows from the offers and completions before
it, and what was accepted has been delivered or is queued, in the order of acceptance. A take comes
to the front of the queue when it starts and, if there is nothing, once it has been notified. -/

namespace AccessLog.Enrich.WorkQueue

/-- What is done with a queue. -/
inductive Operation (α : Type) where
  | offer (item : α)
  | offerAll (items : List α)
  /-- A take starts. -/
  | begin
  /-- A waiting take looks again. -/
  | poll (ticket : Nat)
  /-- A waiting take is given up. -/
  | cancel (ticket : Nat)
  | complete (item : α)
  deriving DecidableEq, Repr

/-- What is done to an item. -/
inductive Deed (α : Type) where
  | offered (item : α)
  | completed (item : α)
  deriving DecidableEq, Repr

/-- The deeds that an operation consists of; takes do nothing to what is pending. -/
def Operation.deeds {α : Type} : Operation α → List (Deed α)
  | offer item => [.offered item]
  | offerAll items => items.map .offered
  | complete item => [.completed item]
  | begin | poll _ | cancel _ => []

def deeds {α : Type} (history : List (Operation α)) : List (Deed α) :=
  history.flatMap Operation.deeds

/-- Every offer of the item has been followed by a completion of it. -/
def IsFree {α : Type} (item : α) : List (Deed α) → Prop
  | [] => True
  | .offered other :: later => (other = item → .completed item ∈ later) ∧ IsFree item later
  | .completed _ :: later => IsFree item later

instance decidableIsFree {α : Type} [DecidableEq α] (item : α) :
    (past : List (Deed α)) → Decidable (IsFree item past)
  | [] => isTrue trivial
  | .offered other :: later =>
    have := decidableIsFree item later
    inferInstanceAs (Decidable ((other = item → _) ∧ IsFree item later))
  | .completed _ :: later => decidableIsFree item later

theorem deeds_concat {α : Type} (history : List (Operation α)) (o : Operation α) :
    deeds (history ++ [o]) = deeds history ++ o.deeds := by
  simp [deeds]

theorem isFree_offered {α : Type} {item other : α} {past : List (Deed α)} :
    IsFree item (past ++ [.offered other]) ↔ other ≠ item ∧ IsFree item past := by
  induction past with
  | nil => simp [IsFree]
  | cons d later ih =>
    cases d with
    | offered first =>
      have hmem : Deed.completed item ∈ later ++ [.offered other] ↔ .completed item ∈ later := by
        simp
      simp only [List.cons_append, IsFree, ih, hmem]
      exact and_left_comm
    | completed first => exact ih

theorem isFree_completed {α : Type} {item other : α} {past : List (Deed α)} :
    IsFree item (past ++ [.completed other]) ↔ other = item ∨ IsFree item past := by
  induction past with
  | nil => simp [IsFree]
  | cons d later ih =>
    cases d with
    | offered first =>
      have hmem : Deed.completed item ∈ later ++ [.completed other] ↔
          other = item ∨ .completed item ∈ later := by
        rw [List.mem_append, List.mem_singleton, Deed.completed.injEq, or_comm, eq_comm]
      simp only [List.cons_append, IsFree, ih, hmem]
      by_cases hother : other = item <;> simp [hother]
    | completed first => exact ih

/-- The items of those offers that find their item free when their turn comes, after `past`. -/
def acceptedFrom {α : Type} [DecidableEq α] (past : List (Deed α)) : List (Deed α) → List α
  | [] => []
  | .offered item :: rest =>
    (if IsFree item past then [item] else []) ++ acceptedFrom (past ++ [.offered item]) rest
  | .completed item :: rest => acceptedFrom (past ++ [.completed item]) rest

section Run
variable {α : Type} [DecidableEq α]

/-- The offers of a history that were accepted, in order. -/
def accepted (history : List (Operation α)) : List α := acceptedFrom [] (deeds history)

def Operation.apply (q : WorkQueue α) : Operation α → WorkQueue α
  | offer item => (q.offer item).2
  | offerAll items => (q.offerAll items).2
  | begin => q.begin.2
  | poll ticket => (q.poll ticket).2
  | cancel ticket => q.cancel ticket
  | complete item => q.complete item

/-- The item that a take comes to in an operation. -/
def Operation.delivers (q : WorkQueue α) : Operation α → Option α
  | begin => q.begin.1.value?
  | poll ticket => (q.poll ticket).1.value?
  | offer _ | offerAll _ | cancel _ | complete _ => none

def after (q : WorkQueue α) (history : List (Operation α)) : WorkQueue α :=
  history.foldl Operation.apply q

/-- The items that takes have come to, in order. -/
def delivered (q : WorkQueue α) : List (Operation α) → List α
  | [] => []
  | o :: rest => (o.delivers q).toList ++ delivered (o.apply q) rest

theorem after_concat (q : WorkQueue α) (history : List (Operation α)) (o : Operation α) :
    q.after (history ++ [o]) = o.apply (q.after history) := by
  simp [after, List.foldl_append]

theorem delivered_concat (q : WorkQueue α) (history : List (Operation α)) (o : Operation α) :
    q.delivered (history ++ [o]) =
      q.delivered history ++ (o.delivers (q.after history)).toList := by
  induction history generalizing q with
  | nil => simp [delivered, after]
  | cons first rest ih => simp [delivered, after, ih]

theorem acceptedFrom_append (past deeds later : List (Deed α)) :
    acceptedFrom past (deeds ++ later) =
      acceptedFrom past deeds ++ acceptedFrom (past ++ deeds) later := by
  induction deeds generalizing past with
  | nil => simp [acceptedFrom]
  | cons d rest ih => cases d <;> simp [acceptedFrom, ih]

/-! ## The books of a queue -/

/-- After these deeds and deliveries: pending is what is not free, and what has been accepted has
been delivered or is queued. -/
structure Balances (past : List (Deed α)) (delivered : List α) (q : WorkQueue α) : Prop where
  mem_pending : ∀ item, item ∈ q.pending ↔ ¬ IsFree item past
  items : delivered ++ q.items = acceptedFrom [] past

namespace Balances
variable {past : List (Deed α)} {delivered : List α} {q r : WorkQueue α}

theorem offer_eq (h : Balances past delivered q) (item : α) :
    (q.offer item).1 = decide (IsFree item past) := by
  by_cases hfree : IsFree item past
  · have hnew : item ∉ q.pending := fun hmem => (h.mem_pending item).1 hmem hfree
    simp [offer_of_not_mem hnew, hfree]
  · have hbusy : item ∈ q.pending := (h.mem_pending item).2 hfree
    simp [offer_of_mem hbusy, hfree]

theorem offer (h : Balances past delivered q) (item : α) :
    Balances (past ++ [.offered item]) delivered (q.offer item).2 := by
  by_cases hfree : IsFree item past
  · have hnew : item ∉ q.pending := fun hmem => (h.mem_pending item).1 hmem hfree
    rw [offer_of_not_mem hnew]
    refine ⟨?_, ?_⟩
    · intro other
      rw [push_pending, List.mem_cons, h.mem_pending, isFree_offered, eq_comm]
      tauto
    · rw [push_items, ← List.append_assoc, h.items, acceptedFrom_append]
      simp [acceptedFrom, hfree]
  · have hbusy : item ∈ q.pending := (h.mem_pending item).2 hfree
    rw [offer_of_mem hbusy]
    refine ⟨?_, ?_⟩
    · intro other
      rw [h.mem_pending, isFree_offered]
      by_cases hother : item = other
      · subst hother
        simp [hfree]
      · simp [hother]
    · rw [h.items, acceptedFrom_append]
      simp [acceptedFrom, hfree]

theorem offerAll (h : Balances past delivered q) (items : List α) :
    Balances (past ++ items.map .offered) delivered (q.offerAll items).2 ∧
      (q.offerAll items).1 = (acceptedFrom past (items.map .offered)).length := by
  induction items generalizing past q with
  | nil => simpa [WorkQueue.offerAll, acceptedFrom] using h
  | cons item rest ih =>
    obtain ⟨hrest, hcount⟩ := ih (h.offer item)
    refine ⟨by simpa [WorkQueue.offerAll] using hrest, ?_⟩
    simp only [WorkQueue.offerAll, hcount, h.offer_eq, List.map_cons, acceptedFrom]
    by_cases hfree : IsFree item past <;> simp [hfree, Nat.add_comm]

theorem complete (h : Balances past delivered q) (item : α) :
    Balances (past ++ [.completed item]) delivered (q.complete item) := by
  refine ⟨?_, ?_⟩
  · intro other
    have hmem : other ∈ (q.complete item).pending ↔ other ∈ q.pending ∧ other ≠ item := by
      simp [WorkQueue.complete]
    rw [hmem, h.mem_pending, isFree_completed, not_or, and_comm, ne_comm]
  · show delivered ++ q.items = _
    rw [acceptedFrom_append, h.items]
    simp [acceptedFrom]

/-- What a take comes to is at the front of the queue before, and leaves it. -/
theorem take {item? : Option α} (h : Balances past delivered q) (hpending : r.pending = q.pending)
    (hitems : item?.toList ++ r.items = q.items) : Balances past (delivered ++ item?.toList) r := by
  refine ⟨?_, ?_⟩
  · rw [hpending]; exact h.mem_pending
  · rw [List.append_assoc, hitems]; exact h.items

theorem apply (h : Balances past delivered q) (o : Operation α) :
    Balances (past ++ o.deeds) (delivered ++ (o.delivers q).toList) (o.apply q) := by
  cases o with
  | offer item =>
    show Balances _ (delivered ++ []) (q.offer item).2
    rw [List.append_nil]
    exact h.offer item
  | offerAll items =>
    show Balances _ (delivered ++ []) (q.offerAll items).2
    rw [List.append_nil]
    exact (h.offerAll items).1
  | begin =>
    show Balances (past ++ []) _ q.begin.2
    rw [List.append_nil]
    exact h.take (begin_pending q) (begin_items q)
  | poll ticket =>
    show Balances (past ++ []) _ (q.poll ticket).2
    rw [List.append_nil]
    exact h.take (poll_pending q ticket) (poll_items q ticket)
  | cancel ticket =>
    show Balances (past ++ []) (delivered ++ (none : Option α).toList) (q.cancel ticket)
    rw [List.append_nil]
    exact h.take (cancel_pending q ticket) (cancel_items q ticket)
  | complete item =>
    show Balances _ (delivered ++ []) (q.complete item)
    rw [List.append_nil]
    exact h.complete item

end Balances

theorem balances_after (history : List (Operation α)) :
    Balances (deeds history) (delivered empty history) (empty.after history) := by
  induction history using List.reverseRecOn with
  | nil => exact ⟨by simp [after, empty, deeds, IsFree], rfl⟩
  | append_singleton history o ih =>
    rw [deeds_concat, delivered_concat, after_concat]
    exact ih.apply o

/-- An offer is accepted exactly if its item is free, several offers are accepted one by one, and
the deliveries with what is queued behind them are the accepted offers. A take that starts, or that
has been notified and looks again, comes to the item at the front as soon as there is one; a take
that is given up changes nothing about all that. -/
theorem delivered_append_items (history : List (Operation α)) :
    (∀ item, ((empty.after history).offer item).1 = true ↔ IsFree item (deeds history)) ∧
    (∀ items, ((empty.after history).offerAll items).1 =
      (acceptedFrom (deeds history) (items.map .offered)).length) ∧
    delivered empty history ++ (empty.after history).items = accepted history ∧
    (Operation.begin.delivers (empty.after history) = (empty.after history).items.head? ∧
      ∀ ticket, (Operation.poll ticket).delivers (empty.after history) =
        if (empty.after history).isNotified ticket then (empty.after history).items.head?
        else none) ∧
    ∀ ticket, delivered empty (history ++ [.cancel ticket]) = delivered empty history ∧
      (empty.after (history ++ [.cancel ticket])).items = (empty.after history).items ∧
      accepted (history ++ [.cancel ticket]) = accepted history := by
  have h := balances_after history
  refine ⟨?_, ?_, h.items, ⟨value?_begin _, value?_poll _⟩, ?_⟩
  · intro item
    rw [h.offer_eq, decide_eq_true_iff]
  · intro items
    exact (h.offerAll items).2
  · intro ticket
    refine ⟨?_, ?_, ?_⟩
    · simp [delivered_concat, Operation.delivers]
    · rw [after_concat]
      exact cancel_items _ ticket
    · simp [accepted, deeds_concat, Operation.deeds]

end Run

/-- The first of two waiting takes is notified and given up, so the second comes to the item. One
item is offered twice at once, and again after it was completed. -/
example :
    let history : List (Operation String) := [.begin, .begin, .offer "a", .cancel 0, .poll 1,
      .offerAll ["b", "a", "b", "c"], .complete "a", .offer "a", .begin]
    delivered empty history = ["a", "b"] ∧ (empty.after history).items = ["c", "a"] ∧
      accepted history = ["a", "b", "c", "a"] := by decide

end AccessLog.Enrich.WorkQueue

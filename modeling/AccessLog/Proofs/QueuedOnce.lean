import AccessLog.Proofs.QueueHistory
import Mathlib.Data.List.Infix

/-! # An item queued once

Every queued item is pending and queued only once, as long as no item is completed before it was
taken. The completion of a queued item releases it although it stays queued: from then on it is
queued without being pending, and the next offer queues it a second time. So the completions of
queued items are exactly what breaks the rule. -/

namespace AccessLog.Enrich.WorkQueue

/-- No item is queued twice, and each is pending. -/
def QueuedOnce {α : Type} (q : WorkQueue α) : Prop :=
  q.items.Nodup ∧ ∀ item ∈ q.items, item ∈ q.pending

instance {α : Type} [DecidableEq α] (q : WorkQueue α) : Decidable q.QueuedOnce :=
  inferInstanceAs (Decidable (_ ∧ _))

section Run
variable {α : Type} {q r : WorkQueue α}

/-- Whether an operation completes an item that is still queued. -/
def Operation.CompletesQueued (q : WorkQueue α) : Operation α → Prop
  | complete item => item ∈ q.items
  | offer _ | offerAll _ | begin | poll _ | cancel _ => False

/-- What a take leaves in the queue was there before. -/
theorem QueuedOnce.take {item? : Option α} (h : q.QueuedOnce) (hpending : r.pending = q.pending)
    (hitems : item?.toList ++ r.items = q.items) : r.QueuedOnce := by
  obtain ⟨hnodup, hall⟩ := h
  rw [← hitems] at hnodup hall
  refine ⟨(List.nodup_append.1 hnodup).2.1, ?_⟩
  intro item hitem
  rw [hpending]
  exact hall item (List.mem_append_right _ hitem)

variable [DecidableEq α]

/-- A queued item that is completed is queued without being pending. -/
theorem not_queuedOnce_complete {item : α} (h : item ∈ q.items) :
    ¬ (q.complete item).QueuedOnce := by
  rintro ⟨-, hpending⟩
  have hkept : item ∈ (q.complete item).pending := hpending item h
  simp [complete] at hkept

namespace QueuedOnce

theorem offer (h : q.QueuedOnce) (item : α) : (q.offer item).2.QueuedOnce := by
  obtain ⟨hnodup, hpending⟩ := h
  by_cases hnew : item ∈ q.pending
  · rw [offer_of_mem hnew]
    exact ⟨hnodup, hpending⟩
  · rw [offer_of_not_mem hnew]
    refine ⟨?_, ?_⟩
    · have hqueue : item ∉ q.items := fun hmem => hnew (hpending item hmem)
      rw [push_items]
      refine List.nodup_append.2 ⟨hnodup, by simp, ?_⟩
      rintro a ha b hb rfl
      exact hqueue (List.mem_singleton.1 hb ▸ ha)
    · intro other hother
      rw [push_items, List.mem_append, List.mem_singleton] at hother
      rw [push_pending]
      rcases hother with hother | rfl
      · exact List.mem_cons_of_mem _ (hpending other hother)
      · exact List.mem_cons_self

theorem complete (h : q.QueuedOnce) {item : α} (hitem : item ∉ q.items) :
    (q.complete item).QueuedOnce := by
  refine ⟨h.1, ?_⟩
  intro other hother
  have hne : other ≠ item := by
    rintro rfl
    exact hitem hother
  simpa [WorkQueue.complete, hne] using h.2 other hother

theorem apply_iff (h : q.QueuedOnce) (o : Operation α) :
    (o.apply q).QueuedOnce ↔ ¬ o.CompletesQueued q := by
  cases o with
  | offer item => exact iff_of_true (h.offer item) id
  | offerAll items =>
    exact iff_of_true (offerAll_of_offer (fun _ item h => h.offer item) h items) id
  | begin => exact iff_of_true (h.take (begin_pending q) (begin_items q)) id
  | poll ticket => exact iff_of_true (h.take (poll_pending q ticket) (poll_items q ticket)) id
  | cancel ticket =>
    have hitems : (none : Option α).toList ++ (q.cancel ticket).items = q.items :=
      cancel_items q ticket
    exact iff_of_true (h.take (cancel_pending q ticket) hitems) id
  | complete item =>
    refine ⟨?_, h.complete⟩
    intro hafter hitem
    exact not_queuedOnce_complete hitem hafter

end QueuedOnce

/-- Throughout a history each item is queued once and pending while it is queued, if and only if no
operation of the history completes an item that is still queued. -/
theorem queuedOnce_iff (history : List (Operation α)) :
    (∀ past, past <+: history → (empty.after past).QueuedOnce) ↔
      ∀ past o, past ++ [o] <+: history → ¬ o.CompletesQueued (empty.after past) := by
  constructor
  · intro h past o hpast
    have hbefore := h past ((List.prefix_append _ _).trans hpast)
    have hafter := h (past ++ [o]) hpast
    rw [after_concat] at hafter
    exact (hbefore.apply_iff o).1 hafter
  · intro h past
    induction past using List.reverseRecOn with
    | nil => exact fun _ => ⟨List.nodup_nil, by simp [after, empty]⟩
    | append_singleton past o ih =>
      intro hpast
      have hbefore := ih ((List.prefix_append _ _).trans hpast)
      rw [after_concat]
      exact (hbefore.apply_iff o).2 (h past o hpast)

end Run

/-- An item that is offered, completed before it was taken, and offered again is queued twice. -/
theorem queued_twice :
    ¬ (empty.after [.offer "8.8.8.8", .complete "8.8.8.8"]).QueuedOnce ∧
    (empty.after [.offer "8.8.8.8", .complete "8.8.8.8", .offer "8.8.8.8"]).items =
      ["8.8.8.8", "8.8.8.8"] ∧
    ¬ (empty.after [.offer "8.8.8.8", .complete "8.8.8.8", .offer "8.8.8.8"]).QueuedOnce := by
  decide

end AccessLog.Enrich.WorkQueue

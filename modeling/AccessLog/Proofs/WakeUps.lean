import AccessLog.Proofs.QueueHistory

/-! # No take sleeps beside an item

While a waiting take has not been notified, every queued item is matched by a take that has been
notified and has not looked again yet, and no permit is kept. A take that starts may snatch an item
from under a notified one, a notified take may find nothing and wait anew, and a notified take may
be given up; none of these leaves an item behind that nobody was told of.

An item that arrives and a notified take that goes each owe the others one notification. So the
invariant counts what is owed, and is back at nothing owed once the notification was made.

A take learns from each look that it goes on waiting, with a ticket, or has come to an item. By what
they have learned, the takes on the queue's list are just those that were begun and neither came to
an item nor were given up. -/

namespace AccessLog.Enrich

/-- The ticket with which a take goes on waiting, if it does. -/
def TakeResult.ticket? {α : Type} : TakeResult α → Option Nat
  | item _ => none
  | waiting ticket => some ticket

/-- How many of the takes have been notified. -/
def awake (waiters : List Waiter) : Nat := waiters.countP (·.notified)

/-- How many of the takes have not been notified. -/
def asleep (waiters : List Waiter) : Nat := waiters.countP (!·.notified)

theorem asleep_eq_zero_iff {waiters : List Waiter} :
    asleep waiters = 0 ↔ ∀ w ∈ waiters, w.notified = true := by
  simp [asleep, List.countP_eq_zero]

theorem awake_middle (before after : List Waiter) (w : Waiter) :
    awake (before ++ w :: after) = awake (before ++ after) + if w.notified then 1 else 0 := by
  simp [awake, List.countP_cons, Nat.add_assoc]

theorem asleep_middle (before after : List Waiter) (w : Waiter) :
    asleep (before ++ w :: after) = asleep (before ++ after) + if w.notified then 0 else 1 := by
  cases hw : w.notified <;> simp [asleep, hw, Nat.add_assoc]

namespace WorkQueue
variable {α : Type}

theorem asleep_of_notifyOldest_eq_none {waiters : List Waiter}
    (h : notifyOldest waiters = none) : asleep waiters = 0 := by
  induction waiters with
  | nil => rfl
  | cons w rest ih =>
    unfold notifyOldest at h
    split at h
    · rename_i hnotified
      have hrest := ih (Option.map_eq_none_iff.1 h)
      simpa [asleep, hnotified] using hrest
    · cases h

/-- The take that is notified is the first that was not. -/
theorem notifyOldest_eq_some {waiters waiters' : List Waiter}
    (h : notifyOldest waiters = some waiters') :
    ∃ before w after, waiters = before ++ w :: after ∧ (∀ b ∈ before, b.notified = true) ∧
      w.notified = false ∧ waiters' = before ++ { w with notified := true } :: after := by
  induction waiters generalizing waiters' with
  | nil => cases h
  | cons w rest ih =>
    unfold notifyOldest at h
    split at h
    · rename_i hnotified
      obtain ⟨rest', hrest, rfl⟩ := Option.map_eq_some_iff.1 h
      obtain ⟨before, v, after, rfl, hbefore, hv, rfl⟩ := ih hrest
      refine ⟨w :: before, v, after, rfl, ?_, hv, rfl⟩
      intro b hb
      rcases List.mem_cons.1 hb with rfl | hb
      · exact hnotified
      · exact hbefore b hb
    · rename_i hnot
      cases h
      exact ⟨[], w, rest, rfl, by simp, Bool.eq_false_iff.2 hnot, rfl⟩

/-- With `owed` notifications still to be made, no take sleeps beside an item that nobody else has
been told of, or beside a permit. -/
structure Attended (owed : Nat) (q : WorkQueue α) : Prop where
  unique : (q.waiters.map Waiter.ticket).Nodup
  fresh : ∀ w ∈ q.waiters, w.ticket < q.nextTicket
  covered : asleep q.waiters = 0 ∨
    q.items.length ≤ awake q.waiters + owed ∧ q.permit = false

namespace Attended
variable {owed : Nat} {q : WorkQueue α} {ticket : Nat}

theorem succ (h : Attended owed q) : Attended (owed + 1) q := by
  refine ⟨h.unique, h.fresh, h.covered.imp id ?_⟩
  rintro ⟨hitems, hpermit⟩
  exact ⟨Nat.le_succ_of_le hitems, hpermit⟩

theorem notify (h : Attended (owed + 1) q) : Attended owed q.notify := by
  unfold WorkQueue.notify
  split
  · rename_i waiters hsome
    obtain ⟨before, w, after, hwaiters, -, hw, rfl⟩ := notifyOldest_eq_some hsome
    obtain ⟨hunique, hfresh, hcovered⟩ := h
    rw [hwaiters] at hunique hfresh hcovered
    refine ⟨by simpa using hunique, ?_, ?_⟩
    · intro v hv
      rcases List.mem_append.1 hv with hv | hv
      · exact hfresh v (List.mem_append_left _ hv)
      · rcases List.mem_cons.1 hv with rfl | hv
        · exact hfresh w (by simp)
        · exact hfresh v (by simp [hv])
    · right
      have hslept : asleep (before ++ w :: after) ≠ 0 := by simp [asleep_middle, hw]
      obtain ⟨hitems, hpermit⟩ := hcovered.resolve_left hslept
      refine ⟨?_, hpermit⟩
      have hawake : awake (before ++ { w with notified := true } :: after) =
          awake (before ++ w :: after) + 1 := by
        simp [awake_middle, hw]
      show q.items.length ≤ _
      rw [hawake]
      omega
  · rename_i hnone
    exact ⟨h.unique, h.fresh, .inl (asleep_of_notifyOldest_eq_none hnone)⟩

/-- A place among the waiting and what is left when it is given up. -/
theorem removeWaiter_eq (h : Attended owed q) {w : Waiter} (hw : q.waiter? ticket = some w) :
    ∃ before after, q.waiters = before ++ w :: after ∧
      (q.removeWaiter ticket).waiters = before ++ after := by
  obtain ⟨hticket, before, after, hwaiters, hbefore⟩ := List.find?_eq_some_iff_append.1 hw
  obtain rfl : w.ticket = ticket := by simpa using hticket
  refine ⟨before, after, hwaiters, ?_⟩
  have hafter : ∀ v ∈ after, v.ticket ≠ w.ticket := by
    have hunique := h.unique
    rw [hwaiters, List.map_append, List.map_cons] at hunique
    obtain ⟨-, hback, -⟩ := List.nodup_append.1 hunique
    intro v hv he
    exact (List.nodup_cons.1 hback).1 (he ▸ List.mem_map_of_mem hv)
  show q.waiters.filter _ = _
  rw [hwaiters, List.filter_append, List.filter_cons_of_neg (by simp)]
  congr 1
  · exact List.filter_eq_self.2 fun v hv => by simpa using hbefore v hv
  · exact List.filter_eq_self.2 fun v hv => by simpa using hafter v hv

/-- The tickets of the other takes stay as they are. -/
theorem removeWaiter_tickets (h : Attended owed q) (ticket : Nat) :
    ((q.removeWaiter ticket).waiters.map Waiter.ticket).Nodup ∧
      ∀ w ∈ (q.removeWaiter ticket).waiters, w.ticket < (q.removeWaiter ticket).nextTicket := by
  refine ⟨?_, ?_⟩
  · exact h.unique.sublist (List.filter_sublist.map _)
  · intro w hw
    exact h.fresh w (List.mem_filter.1 hw).1

/-- A take that was notified and goes owes its notification to the others. -/
theorem removeWaiter_notified (h : Attended 0 q) (hnotified : q.isNotified ticket = true) :
    Attended 1 (q.removeWaiter ticket) := by
  obtain ⟨w, hw, hn⟩ := (Option.any_eq_true _ _).1 hnotified
  obtain ⟨before, after, hwaiters, hrest⟩ := h.removeWaiter_eq hw
  obtain ⟨hunique, hfresh⟩ := h.removeWaiter_tickets ticket
  refine ⟨hunique, hfresh, ?_⟩
  have hcovered := h.covered
  rw [hwaiters, asleep_middle, awake_middle, if_pos hn, if_pos hn] at hcovered
  rw [hrest]
  exact hcovered

theorem removeWaiter_sleeping (h : Attended 0 q) (hnot : ¬ q.isNotified ticket = true) :
    Attended 0 (q.removeWaiter ticket) := by
  obtain ⟨hunique, hfresh⟩ := h.removeWaiter_tickets ticket
  refine ⟨hunique, hfresh, ?_⟩
  cases hw : q.waiter? ticket with
  | none =>
    have hsame : (q.removeWaiter ticket).waiters = q.waiters :=
      List.filter_eq_self.2 fun w hmem => by simpa using List.find?_eq_none.1 hw w hmem
    rw [hsame]
    exact h.covered
  | some w =>
    obtain ⟨before, after, hwaiters, hrest⟩ := h.removeWaiter_eq hw
    have hn : w.notified = false := by simpa [isNotified, hw] using hnot
    have hcovered := h.covered
    rw [hwaiters, asleep_middle, awake_middle, hn] at hcovered
    rw [hrest]
    exact .inr (hcovered.resolve_left (Nat.succ_ne_zero _))

/-- A take that finds an item makes up for one notification, and one that finds none leaves no item
that a notification could be owed for. -/
theorem begin (h : Attended 1 q) : Attended 0 q.begin.2 := by
  obtain ⟨hunique, hfresh, hcovered⟩ := h
  unfold WorkQueue.begin
  split
  · rename_i item items hitems
    refine ⟨hunique, hfresh, hcovered.imp id ?_⟩
    rintro ⟨hlength, hpermit⟩
    rw [hitems, List.length_cons] at hlength
    exact ⟨Nat.le_of_succ_le_succ hlength, hpermit⟩
  · rename_i hitems
    refine ⟨?_, ?_, .inr ⟨by simp [wait, hitems], rfl⟩⟩
    · have hnew : q.nextTicket ∉ q.waiters.map Waiter.ticket := by
        intro hmem
        obtain ⟨w, hw, he⟩ := List.mem_map.1 hmem
        exact Nat.lt_irrefl _ (he ▸ hfresh w hw)
      simp only [wait, List.map_append, List.map_cons, List.map_nil]
      refine List.nodup_append.2 ⟨hunique, by simp, ?_⟩
      rintro a ha b hb rfl
      exact hnew (List.mem_singleton.1 hb ▸ ha)
    · intro w hw
      rcases List.mem_append.1 hw with hw | hw
      · exact Nat.lt_succ_of_lt (hfresh w hw)
      · rw [List.mem_singleton.1 hw]
        exact Nat.lt_succ_self _

theorem poll (h : Attended 0 q) (ticket : Nat) : Attended 0 (q.poll ticket).2 := by
  unfold WorkQueue.poll
  split
  · rename_i hnotified
    exact (h.removeWaiter_notified hnotified).begin
  · exact h

theorem cancel (h : Attended 0 q) (ticket : Nat) : Attended 0 (q.cancel ticket) := by
  simp only [WorkQueue.cancel]
  split
  · rename_i hnotified
    exact (h.removeWaiter_notified hnotified).notify
  · rename_i hnot
    exact h.removeWaiter_sleeping hnot

/-- An item that arrives is owed one notification. -/
theorem push (h : Attended 0 q) (item : α) : Attended 0 (q.push item) := by
  refine Attended.notify ⟨h.unique, h.fresh, h.covered.imp id ?_⟩
  rintro ⟨hitems, hpermit⟩
  refine ⟨?_, hpermit⟩
  rw [List.length_append, List.length_singleton]
  exact Nat.succ_le_succ hitems

variable [DecidableEq α]

theorem offer (h : Attended 0 q) (item : α) : Attended 0 (q.offer item).2 := by
  by_cases hmem : item ∈ q.pending
  · rw [offer_of_mem hmem]
    exact h
  · rw [offer_of_not_mem hmem]
    have hclaimed : Attended 0 { q with pending := item :: q.pending } :=
      ⟨h.unique, h.fresh, h.covered⟩
    exact hclaimed.push item

theorem apply (h : Attended 0 q) (o : Operation α) : Attended 0 (o.apply q) := by
  cases o with
  | offer item => exact h.offer item
  | offerAll items => exact offerAll_of_offer (fun _ item h => h.offer item) h items
  | begin => exact h.succ.begin
  | poll ticket => exact h.poll ticket
  | cancel ticket => exact h.cancel ticket
  | complete item => exact ⟨h.unique, h.fresh, h.covered⟩

end Attended

/-! ## Takes under way -/

/-- The tickets of the takes that the queue has on its list. -/
def tickets (q : WorkQueue α) : List Nat := q.waiters.map Waiter.ticket

/-- A notification changes no ticket. -/
@[simp] theorem tickets_notify (q : WorkQueue α) : q.notify.tickets = q.tickets := by
  unfold notify
  split
  · rename_i waiters hsome
    obtain ⟨before, w, after, hwaiters, -, -, rfl⟩ := notifyOldest_eq_some hsome
    simp [tickets, hwaiters]
  · rfl

theorem tickets_removeWaiter {q : WorkQueue α} (h : q.tickets.Nodup) (ticket : Nat) :
    (q.removeWaiter ticket).tickets = q.tickets.erase ticket := by
  rw [h.erase_eq_filter, tickets, tickets, List.filter_map]
  rfl

theorem tickets_begin (q : WorkQueue α) :
    q.begin.2.tickets = q.tickets ++ q.begin.1.ticket?.toList := by
  unfold begin
  split <;> simp [tickets, wait, TakeResult.ticket?]

theorem mem_tickets_of_isNotified {q : WorkQueue α} {ticket : Nat}
    (h : q.isNotified ticket = true) : ticket ∈ q.tickets := by
  obtain ⟨w, hw, -⟩ := (Option.any_eq_true _ _).1 h
  obtain rfl : w.ticket = ticket := by simpa using List.find?_some hw
  exact List.mem_map_of_mem (List.mem_of_find?_eq_some hw)

section OpenTakes
variable [DecidableEq α]

/-- The takes under way after one more operation, each by the ticket that it was told last: a take
that starts may have to wait, one that looks again goes on with what it is told, and one that is
given up is gone. -/
def Operation.openTakes (q : WorkQueue α) (takes : List Nat) : Operation α → List Nat
  | begin => takes ++ q.begin.1.ticket?.toList
  | poll ticket =>
    if ticket ∈ takes then takes.erase ticket ++ (q.poll ticket).1.ticket?.toList else takes
  | cancel ticket => takes.erase ticket
  | offer _ | offerAll _ | complete _ => takes

/-- The takes that have been begun, and have neither come to an item nor been given up. -/
def openTakes (q : WorkQueue α) (takes : List Nat) : List (Operation α) → List Nat
  | [] => takes
  | o :: rest => openTakes (o.apply q) (o.openTakes q takes) rest

theorem tickets_offer (q : WorkQueue α) (item : α) : (q.offer item).2.tickets = q.tickets := by
  by_cases hmem : item ∈ q.pending
  · rw [offer_of_mem hmem]
  · rw [offer_of_not_mem hmem]
    exact tickets_notify _

/-- An operation changes the list of a queue as it changes the takes under way. -/
theorem perm_openTakes_apply {q : WorkQueue α} {takes : List Nat} (hunique : q.tickets.Nodup)
    (h : q.tickets.Perm takes) (o : Operation α) :
    (o.apply q).tickets.Perm (o.openTakes q takes) := by
  cases o with
  | complete item => exact h
  | offer item =>
    show (q.offer item).2.tickets.Perm takes
    rwa [tickets_offer]
  | offerAll items =>
    have hsame : (q.offerAll items).2.tickets = q.tickets :=
      offerAll_of_offer (P := fun r => r.tickets = q.tickets)
        (fun r item hr => (tickets_offer r item).trans hr) rfl items
    show (q.offerAll items).2.tickets.Perm takes
    rwa [hsame]
  | begin =>
    show q.begin.2.tickets.Perm _
    rw [tickets_begin]
    exact h.append_right _
  | cancel ticket =>
    have hcancelled : (q.cancel ticket).tickets = q.tickets.erase ticket := by
      rw [← tickets_removeWaiter hunique, cancel]
      split
      · exact tickets_notify _
      · rfl
    show (q.cancel ticket).tickets.Perm _
    rw [hcancelled]
    exact h.erase ticket
  | poll ticket =>
    show (q.poll ticket).2.tickets.Perm (if ticket ∈ takes then _ else takes)
    by_cases hnotified : q.isNotified ticket = true
    · have hpoll : q.poll ticket = (q.removeWaiter ticket).begin := if_pos hnotified
      rw [if_pos (h.subset (mem_tickets_of_isNotified hnotified)), hpoll, tickets_begin,
        tickets_removeWaiter hunique]
      exact (h.erase ticket).append_right _
    -- a take that has not been notified is told its own ticket once more
    · have hpoll : q.poll ticket = (.waiting ticket, q) := if_neg hnotified
      rw [hpoll]
      split
      · rename_i hmem
        exact h.trans ((List.perm_cons_erase hmem).trans (List.perm_append_singleton _ _).symm)
      · exact h

end OpenTakes

section Run
variable [DecidableEq α]

theorem attended_after {q : WorkQueue α} (h : Attended 0 q) (history : List (Operation α)) :
    Attended 0 (q.after history) := by
  induction history generalizing q with
  | nil => exact h
  | cons o rest ih => exact ih (h.apply o)

theorem perm_openTakes_after {q : WorkQueue α} (h : Attended 0 q) {takes : List Nat}
    (hperm : q.tickets.Perm takes) (history : List (Operation α)) :
    (q.after history).tickets.Perm (openTakes q takes history) := by
  induction history generalizing q takes with
  | nil => exact hperm
  | cons o rest ih => exact ih (h.apply o) (perm_openTakes_apply h.unique hperm o)

/-- While some waiting take has not been notified there are at most as many items as waiting takes
that have been, and no permit. So no item is queued while all takes sleep. The waiting takes are
those that have been begun, and have neither come to an item nor been given up. -/
theorem length_items_le_awake (history : List (Operation α)) :
    ((∃ w ∈ (empty.after history).waiters, w.notified = false) →
      (empty.after history).items.length ≤ (empty.after history).waiters.countP (·.notified) ∧
        (empty.after history).permit = false) ∧
    ((empty.after history).items ≠ [] →
      (∀ w ∈ (empty.after history).waiters, w.notified = false) →
        (empty.after history).waiters = []) ∧
    (empty.after history).tickets.Perm (openTakes empty [] history) := by
  have hempty : Attended 0 (empty : WorkQueue α) := ⟨List.nodup_nil, by simp [empty], .inl rfl⟩
  have h := attended_after hempty history
  have hsleeps : (∃ w ∈ (empty.after history).waiters, w.notified = false) →
      (empty.after history).items.length ≤ awake (empty.after history).waiters ∧
        (empty.after history).permit = false := by
    rintro ⟨w, hw, hn⟩
    refine h.covered.resolve_left fun hzero => ?_
    rw [asleep_eq_zero_iff.1 hzero w hw] at hn
    cases hn
  refine ⟨hsleeps, ?_, perm_openTakes_after hempty (.refl _) history⟩
  intro hitems hasleep
  by_contra hwaiters
  obtain ⟨w, hw⟩ := List.exists_mem_of_ne_nil _ hwaiters
  have hnone : awake (empty.after history).waiters = 0 :=
    List.countP_eq_zero.2 fun v hv => by simp [hasleep v hv]
  have hlength := (hsleeps ⟨w, hw, hasleep w hw⟩).1
  rw [hnone] at hlength
  exact hitems (List.length_eq_zero_iff.1 (Nat.le_zero.1 hlength))

end Run

/-- Of two notified takes one is given up, and its notification goes to the third. -/
example :
    let history := [.begin, .begin, .begin, .begin, .offerAll [1, 2], .cancel 0]
    let q := (empty : WorkQueue Nat).after history
    q.items = [1, 2] ∧ q.permit = false ∧
      q.waiters = [⟨1, true⟩, ⟨2, true⟩, ⟨3, false⟩] ∧
      openTakes empty [] history = [1, 2, 3] := by decide

end WorkQueue

end AccessLog.Enrich

/-! # The queue of pending work

Items wait in order of arrival. An item is pending from the moment it is claimed until it is
completed, and a claim succeeds only for an item that is not pending, so work on one item is not
queued twice.

Takes that find the queue empty wait. Each item that arrives notifies the oldest waiting take that
has not been notified yet; where there is none, one permit is kept for the next take that would
wait. A take that is cancelled after it was notified hands the notification on. -/

namespace AccessLog.Enrich

/-- A take that waits for an item. -/
structure Waiter where
  ticket : Nat
  notified : Bool
  deriving DecidableEq, Repr

structure WorkQueue (α : Type) where
  pending : List α
  items : List α
  permit : Bool
  /-- The waiting takes, the oldest first. -/
  waiters : List Waiter
  /-- The ticket of the next take that has to wait. -/
  nextTicket : Nat
  deriving DecidableEq, Repr

/-- What a take has come to. -/
inductive TakeResult (α : Type) where
  | item (value : α)
  | waiting (ticket : Nat)
  deriving DecidableEq, Repr

/-- The item that a take has come to, if any. -/
def TakeResult.value? {α : Type} : TakeResult α → Option α
  | item value => some value
  | waiting _ => none

namespace WorkQueue
variable {α : Type}

def empty : WorkQueue α := ⟨[], [], false, [], 0⟩

/-- Notify the oldest waiter that has not been notified, if there is one. -/
def notifyOldest : List Waiter → Option (List Waiter)
  | [] => none
  | w :: rest =>
    if w.notified then (notifyOldest rest).map (w :: ·)
    else some ({ w with notified := true } :: rest)

/-- Wake a waiting take, or keep a permit. -/
def notify (q : WorkQueue α) : WorkQueue α :=
  match notifyOldest q.waiters with
  | some waiters => { q with waiters }
  | none => { q with permit := true }

/-- Append an item that has been claimed. -/
def push (q : WorkQueue α) (item : α) : WorkQueue α :=
  { q with items := q.items ++ [item] }.notify

def size (q : WorkQueue α) : Nat := q.items.length

def pendingCount (q : WorkQueue α) : Nat := q.pending.length

section Pending
variable [DecidableEq α]

def isPending (q : WorkQueue α) (item : α) : Bool := q.pending.contains item

/-- Make an item pending; refused where it is pending already. -/
def claim? (q : WorkQueue α) (item : α) : Option (WorkQueue α) :=
  if q.isPending item then none else some { q with pending := item :: q.pending }

/-- Queue an item unless it is pending, and say whether it was queued. -/
def offer (q : WorkQueue α) (item : α) : Bool × WorkQueue α :=
  match q.claim? item with
  | some q => (true, q.push item)
  | none => (false, q)

/-- Offer items in order, and count those that were queued. -/
def offerAll (q : WorkQueue α) : List α → Nat × WorkQueue α
  | [] => (0, q)
  | item :: rest =>
    let (queued, q) := q.offer item
    let (count, q) := q.offerAll rest
    (count + if queued then 1 else 0, q)

/-- Work on the item is over; it may be offered again. -/
def complete (q : WorkQueue α) (item : α) : WorkQueue α :=
  { q with pending := q.pending.filter (· ≠ item) }

end Pending

/-- Wait, after the queue was found empty. A kept permit is used up by a second look at the queue,
which is still empty. -/
def wait (q : WorkQueue α) : TakeResult α × WorkQueue α :=
  (.waiting q.nextTicket,
    { q with
      permit := false
      waiters := q.waiters ++ [⟨q.nextTicket, false⟩]
      nextTicket := q.nextTicket + 1 })

/-- Start a take: the first item, or a place among the waiting. -/
def begin (q : WorkQueue α) : TakeResult α × WorkQueue α :=
  match q.items with
  | item :: items => (.item item, { q with items })
  | [] => q.wait

def waiter? (q : WorkQueue α) (ticket : Nat) : Option Waiter :=
  q.waiters.find? (·.ticket == ticket)

/-- Whether the waiting take has been notified. -/
def isNotified (q : WorkQueue α) (ticket : Nat) : Bool :=
  (q.waiter? ticket).any (·.notified)

def removeWaiter (q : WorkQueue α) (ticket : Nat) : WorkQueue α :=
  { q with waiters := q.waiters.filter (·.ticket != ticket) }

/-- Look after a waiting take: it goes on waiting until it has been notified, and then starts
anew. -/
def poll (q : WorkQueue α) (ticket : Nat) : TakeResult α × WorkQueue α :=
  if q.isNotified ticket then (q.removeWaiter ticket).begin else (.waiting ticket, q)

/-- Give a waiting take up. -/
def cancel (q : WorkQueue α) (ticket : Nat) : WorkQueue α :=
  let rest := q.removeWaiter ticket
  if q.isNotified ticket then rest.notify else rest

/-! ## Items and pending items

What each operation does to the two collections. Notifications and waiting takes touch neither. -/

@[simp] theorem notify_items (q : WorkQueue α) : q.notify.items = q.items := by
  unfold notify
  split <;> rfl

@[simp] theorem notify_pending (q : WorkQueue α) : q.notify.pending = q.pending := by
  unfold notify
  split <;> rfl

@[simp] theorem push_items (q : WorkQueue α) (item : α) :
    (q.push item).items = q.items ++ [item] := notify_items _

@[simp] theorem push_pending (q : WorkQueue α) (item : α) :
    (q.push item).pending = q.pending := notify_pending _

@[simp] theorem removeWaiter_items (q : WorkQueue α) (ticket : Nat) :
    (q.removeWaiter ticket).items = q.items := rfl

@[simp] theorem removeWaiter_pending (q : WorkQueue α) (ticket : Nat) :
    (q.removeWaiter ticket).pending = q.pending := rfl

@[simp] theorem cancel_items (q : WorkQueue α) (ticket : Nat) :
    (q.cancel ticket).items = q.items := by
  simp only [cancel]
  split <;> simp

@[simp] theorem cancel_pending (q : WorkQueue α) (ticket : Nat) :
    (q.cancel ticket).pending = q.pending := by
  simp only [cancel]
  split <;> simp

/-- A take removes the item it comes to from the front, and nothing else. -/
theorem begin_items (q : WorkQueue α) : q.begin.1.value?.toList ++ q.begin.2.items = q.items := by
  unfold begin
  split
  · rename_i h
    simp [TakeResult.value?, h]
  · rename_i h
    simp [TakeResult.value?, wait, h]

/-- A take that starts comes to the item at the front, if there is one. -/
theorem value?_begin (q : WorkQueue α) : q.begin.1.value? = q.items.head? := by
  unfold begin
  split
  · rename_i h
    rw [h]
    rfl
  · rename_i h
    rw [h]
    rfl

@[simp] theorem begin_pending (q : WorkQueue α) : q.begin.2.pending = q.pending := by
  unfold begin
  split <;> rfl

theorem poll_items (q : WorkQueue α) (ticket : Nat) :
    (q.poll ticket).1.value?.toList ++ (q.poll ticket).2.items = q.items := by
  unfold poll
  split
  · exact begin_items _
  · rfl

/-- So does a waiting take once it has been notified, and not before. -/
theorem value?_poll (q : WorkQueue α) (ticket : Nat) :
    (q.poll ticket).1.value? = if q.isNotified ticket then q.items.head? else none := by
  unfold poll
  split
  · exact value?_begin _
  · rfl

@[simp] theorem poll_pending (q : WorkQueue α) (ticket : Nat) :
    (q.poll ticket).2.pending = q.pending := by
  unfold poll
  split <;> simp

theorem claim?_eq_some [DecidableEq α] {q r : WorkQueue α} {item : α}
    (h : q.claim? item = some r) :
    item ∉ q.pending ∧ r = { q with pending := item :: q.pending } := by
  unfold claim? isPending at h
  split at h
  · contradiction
  · rename_i hnot
    exact ⟨by simpa using hnot, (Option.some.inj h).symm⟩

theorem offer_of_mem [DecidableEq α] {q : WorkQueue α} {item : α} (h : item ∈ q.pending) :
    q.offer item = (false, q) := by
  simp [offer, claim?, isPending, h]

theorem offer_of_not_mem [DecidableEq α] {q : WorkQueue α} {item : α} (h : item ∉ q.pending) :
    q.offer item = (true, { q with pending := item :: q.pending }.push item) := by
  simp [offer, claim?, isPending, h]

/-- What every offer keeps is kept by several. -/
theorem offerAll_of_offer [DecidableEq α] {P : WorkQueue α → Prop}
    (hoffer : ∀ q item, P q → P (q.offer item).2) {q : WorkQueue α} (h : P q) (items : List α) :
    P (q.offerAll items).2 := by
  induction items generalizing q with
  | nil => exact h
  | cons item rest ih => exact ih (hoffer q item h)

end WorkQueue

end AccessLog.Enrich

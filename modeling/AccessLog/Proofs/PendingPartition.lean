import AccessLog.Proofs.Steps
import AccessLog.Store.Memory

/-! # Where a pending address is

At every moment of every schedule an address is pending for exactly one reason: it is queued, the
worker holds it, or a call has made it pending and is about to queue it. So no address is worked on
twice at a time, and none stays pending with nobody at work on it.

Calls make an address pending and queue it in two steps, and the worker completes an address several
steps after it took it. The count of the pending addresses has to be kept through all of these, so
the invariant counts, for every address, where it is. -/

namespace AccessLog.Service
open AccessLog.Enrich AccessLog.Store
open scoped List

/-- The pending addresses are those queued, the one held and those claimed, none of them twice. -/
def Balanced (q : WorkQueue String) (held : Option String) (claimed : List String) : Prop :=
  q.pending.Nodup ∧ q.pending.Perm (q.items ++ held.toList ++ claimed)

namespace Balanced
variable {q r : WorkQueue String} {held held' : Option String} {claimed before after : List String}
  {address : String}

/-- A step that leaves the pending addresses alone may move them about. -/
theorem move {claimed' : List String} (h : Balanced q held claimed)
    (hpending : r.pending = q.pending)
    (hmoved : (q.items ++ held.toList ++ claimed).Perm (r.items ++ held'.toList ++ claimed')) :
    Balanced r held' claimed' := by
  obtain ⟨hnodup, hperm⟩ := h
  refine ⟨?_, ?_⟩
  · rw [hpending]; exact hnodup
  · rw [hpending]; exact hperm.trans hmoved

/-- What a take removes from the queue is held from then on. -/
theorem take (h : Balanced q none claimed) (hpending : r.pending = q.pending)
    (hitems : held.toList ++ r.items = q.items) : Balanced r held claimed := by
  refine h.move hpending ?_
  rw [← hitems, Option.toList_none, List.append_nil]
  exact List.Perm.append_right claimed List.perm_append_comm

theorem complete (h : Balanced q (some address) claimed) :
    Balanced (q.complete address) none claimed := by
  obtain ⟨hnodup, hperm⟩ := h
  have herase : (q.complete address).pending = q.pending.erase address := by
    rw [hnodup.erase_eq_filter]
    exact List.filter_congr fun a _ => Bool.eq_iff_iff.2 (by simp)
  refine ⟨hnodup.filter _, ?_⟩
  have hfront : (q.items ++ [address] ++ claimed).Perm (address :: (q.items ++ claimed)) := by
    rw [List.append_assoc]
    exact List.perm_middle
  have herased := (hperm.trans hfront).erase address
  rw [List.erase_cons_head] at herased
  rw [herase]
  simpa [WorkQueue.complete] using herased

/-- With nothing pending nothing is queued. -/
theorem items_eq_nil (h : Balanced q held claimed) (hpending : q.pending = []) : q.items = [] := by
  obtain ⟨-, hperm⟩ := h
  rw [hpending, List.append_assoc] at hperm
  exact (List.append_eq_nil_iff.1 (List.nil_perm.1 hperm)).1

theorem claim (h : Balanced q held (before ++ after)) (hclaim : q.claim? address = some r) :
    Balanced r held (before ++ address :: after) := by
  obtain ⟨hnodup, hperm⟩ := h
  obtain ⟨hnew, rfl⟩ := WorkQueue.claim?_eq_some hclaim
  refine ⟨List.nodup_cons.2 ⟨hnew, hnodup⟩, ?_⟩
  have hmiddle : (before ++ address :: after).Perm (address :: (before ++ after)) :=
    List.perm_middle
  calc address :: q.pending
      _ ~ address :: (q.items ++ held.toList ++ (before ++ after)) := hperm.cons address
      _ ~ q.items ++ held.toList ++ address :: (before ++ after) := List.perm_middle.symm
      _ ~ q.items ++ held.toList ++ (before ++ address :: after) := hmiddle.symm.append_left _

theorem push (h : Balanced q held (before ++ address :: after)) :
    Balanced (q.push address) held (before ++ after) := by
  refine h.move (q.push_pending address) ?_
  rw [WorkQueue.push_items, List.perm_iff_count]
  intro a
  simp only [List.count_append, List.count_cons, List.count_nil]
  omega

end Balanced

/-- The worker moves addresses from the queue into its hand, and completes what it holds. -/
theorem balanced_worker {w w' : Worker} {p p' : Pipeline} {claimed : List String}
    (hstep : w.Step p w' p') (h : Balanced p.queue w.held? claimed) :
    Balanced p'.queue w'.held? claimed := by
  cases hstep with
  | stop => exact h
  | giveUp => exact h.move (WorkQueue.cancel_pending _ _) (by simp [Worker.held?])
  | take =>
    rw [Worker.held?_afterTake]
    exact Balanced.take h (WorkQueue.begin_pending _) (WorkQueue.begin_items _)
  | retake =>
    rw [Worker.held?_afterTake]
    exact Balanced.take h (WorkQueue.poll_pending _ _) (WorkQueue.poll_items _ _)
  | hit => exact h
  | miss => exact h
  | record => exact h
  | release => exact h.complete

section Run
variable {σ : Type}

def System.IsBalanced (s : System σ) : Prop := Balanced s.queue s.worker.held? s.claimed

theorem isBalanced_start (store : σ) (cache : Cache) (eagerTopN : UInt64) :
    (System.start store cache eagerTopN).IsBalanced := ⟨List.nodup_nil, .refl _⟩

variable [AnalysisStore σ]

/-- A call makes an address pending, or queues the one that it has made pending. -/
theorem balanced_task {t t' : Task} {s s' : Service σ} {held : Option String}
    {before after : List String} (hstep : t.Step s t' s')
    (h : Balanced s.pipeline.queue held (before ++ (t.claimed.toList ++ after))) :
    Balanced s'.pipeline.queue held (before ++ (t'.claimed.toList ++ after)) := by
  cases hstep with
  | push => exact h.push
  | claim hclaim => exact h.claim hclaim
  | refused => exact h
  | known => exact h
  | hit => exact h
  | miss => exact h
  | save => exact h
  | find => exact h

theorem claimed_ofCall (c : Call) : (Task.ofCall c).claimed = none := by
  cases c with
  | ingest createdAt reads =>
    simp only [Task.ofCall]
    split <;> rfl
  | read | readAll | result => rfl

theorem isBalanced_next {s : System σ} (h : s.IsBalanced) (e : Event) : (s.next e).IsBalanced := by
  cases e with
  | call c =>
    have hclaimed : (s.next (.call c)).claimed = s.claimed := by
      simp [System.next, System.claimed, claimed_ofCall]
    rw [System.IsBalanced, hclaimed]
    exact h
  | task number =>
    rcases s.next_task number with hsame | ⟨before, t, after, t', service, htasks, hstep, hnext⟩
    · rw [hsame]; exact h
    · have hpart : ∀ u : Task, (before ++ u :: after).filterMap Task.claimed =
          before.filterMap Task.claimed ++ (u.claimed.toList ++ after.filterMap Task.claimed) := by
        intro u
        cases hu : u.claimed <;> simp [hu]
      rw [System.IsBalanced, System.claimed, htasks, hpart] at h
      rw [hnext, System.IsBalanced, System.claimed, hpart]
      exact balanced_task hstep h
  | worker =>
    rcases s.next_worker with hsame | ⟨worker, pipeline, hstep, hnext⟩
    · rw [hsame]; exact h
    · rw [hnext]; exact balanced_worker hstep h
  | settle result =>
    rw [System.IsBalanced, System.next, Worker.held?_deliver]
    exact h
  | stop => exact h
  | forget address => exact h

theorem isBalanced_run {s : System σ} (h : s.IsBalanced) (events : List Event) :
    (s.run events).IsBalanced := by
  induction events generalizing s with
  | nil => exact h
  | cons e rest ih => exact ih (isBalanced_next h e)

/-- The queue holds nothing twice and not what the worker holds. What is pending is the disjoint
union of what is queued, what the worker holds and what calls have made pending but not queued. -/
theorem pending_partition (store : σ) (cache : Cache) (eagerTopN : UInt64) (events : List Event) :
    let s := (System.start store cache eagerTopN).run events
    s.queue.items.Nodup ∧
    (∀ address, s.worker.held? = some address → address ∉ s.queue.items) ∧
    s.queue.pending.Nodup ∧
    s.queue.pending.Perm (s.queue.items ++ s.worker.held?.toList ++ s.claimed) ∧
    (∀ address, (s.queue.items ++ s.worker.held?.toList).count address ≤ 1) ∧
    ∀ address, s.queue.isPending address = true → address ∈ s.queue.items ∨
      s.worker.held? = some address ∨ ∃ t ∈ s.tasks, t.claimed = some address := by
  intro s
  obtain ⟨hnodup, hperm⟩ : s.IsBalanced := isBalanced_run (isBalanced_start store cache eagerTopN) _
  have hall : (s.queue.items ++ s.worker.held?.toList ++ s.claimed).Nodup := hperm.nodup_iff.1 hnodup
  have htaken : (s.queue.items ++ s.worker.held?.toList).Nodup := (List.nodup_append.1 hall).1
  obtain ⟨hitems, -, hapart⟩ := List.nodup_append.1 htaken
  refine ⟨hitems, ?_, hnodup, hperm, ?_, ?_⟩
  · intro address hheld hqueued
    exact hapart address hqueued address (by simp [hheld]) rfl
  · exact List.nodup_iff_count.1 htaken
  · intro address hpending
    have hmem := hperm.mem_iff.1 (List.contains_iff_mem.1 hpending)
    rcases List.mem_append.1 hmem with hmem | hmem
    · rcases List.mem_append.1 hmem with hqueued | hheld
      · exact .inl hqueued
      · exact .inr (.inl (Option.mem_toList.1 hheld))
    · exact .inr (.inr (List.mem_filterMap.1 hmem))

end Run

/-- One address is held, one is queued, and one is about to be. -/
example :
    let s := (System.start MemoryStore.empty .standard 10).run
      [.call (.read "1.1.1.1"), .call (.read "2.2.2.2"), .call (.read "3.3.3.3"),
        .task 0, .task 0, .task 0, .worker, .task 2, .task 1, .task 1, .task 2, .task 1, .stop]
    s.worker.held? = some "1.1.1.1" ∧ s.queue.items = ["2.2.2.2"] ∧ s.claimed = ["3.3.3.3"] ∧
      s.queue.pending = ["3.3.3.3", "2.2.2.2", "1.1.1.1"] := by decide

end AccessLog.Service

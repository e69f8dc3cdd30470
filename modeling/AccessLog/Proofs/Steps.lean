import AccessLog.Service.Interleaving

/-! # What a step can do

Every step of the worker and of a call under way is one of a few, with what it requires and what it
leaves. Invariants of the running system are shown case by case over these. -/

namespace AccessLog.Enrich

inductive Worker.Step : Worker → Pipeline → Worker → Pipeline → Prop
  | stop {p} : Step ⟨.idle, true⟩ p ⟨.stopped, true⟩ p
  | giveUp {p ticket} :
      Step ⟨.waiting ticket, true⟩ p ⟨.stopped, true⟩ { p with queue := p.queue.cancel ticket }
  | take {p} :
      Step ⟨.idle, false⟩ p ⟨afterTake p.queue.begin.1, false⟩ { p with queue := p.queue.begin.2 }
  | retake {p ticket} (notified : p.queue.isNotified ticket = true) :
      Step ⟨.waiting ticket, false⟩ p ⟨afterTake (p.queue.poll ticket).1, false⟩
        { p with queue := (p.queue.poll ticket).2 }
  | hit {p address stopping info} (found : (p.cache.get address).1 = some info) :
      Step ⟨.taken address, stopping⟩ p ⟨.cached address, stopping⟩
        { p with cache := (p.cache.get address).2 }
  | miss {p address stopping} (missing : (p.cache.get address).1 = none) :
      Step ⟨.taken address, stopping⟩ p ⟨.resolving address, stopping⟩
        { p with cache := (p.cache.get address).2 }
  | record {p address info stopping} :
      Step ⟨.resolved address info, stopping⟩ p ⟨.cached address, stopping⟩ (p.record address info)
  | release {p address stopping} :
      Step ⟨.cached address, stopping⟩ p ⟨.idle, stopping⟩ (p.release address)

theorem Worker.step?_spec {w w' : Worker} {p p' : Pipeline} (h : w.step? p = some (w', p')) :
    Worker.Step w p w' p' := by
  obtain ⟨phase, stopping⟩ := w
  cases phase with
  | idle =>
    cases stopping with
    | true => cases h; exact .stop
    | false => cases h; exact .take
  | waiting ticket =>
    cases stopping with
    | true => cases h; exact .giveUp
    | false =>
      simp only [step?, Bool.false_eq_true, if_false] at h
      split at h
      · rename_i notified
        cases h; exact .retake notified
      · cases h
  | taken address =>
    cases hget : (p.cache.get address).1 with
    | none =>
      simp only [step?, Pipeline.check, hget] at h
      cases h; exact .miss hget
    | some info =>
      simp only [step?, Pipeline.check, hget] at h
      cases h; exact .hit hget
  | resolving address => cases h
  | resolved address info => cases h; exact .record
  | cached address => cases h; exact .release
  | stopped => cases h

/-- The worker pauses for a lookup, for an item, and once it has stopped. -/
theorem Worker.step?_eq_none {w : Worker} {p : Pipeline} (h : w.step? p = none) :
    (∃ address, w.phase = .resolving address) ∨ w.phase = .stopped ∨
      ∃ ticket, w.phase = .waiting ticket ∧ w.stopping = false ∧
        p.queue.isNotified ticket = false := by
  obtain ⟨phase, stopping⟩ := w
  cases phase with
  | idle => cases stopping <;> cases h
  | waiting ticket =>
    cases stopping with
    | true => cases h
    | false =>
      cases hnotified : p.queue.isNotified ticket with
      | false => exact .inr (.inr ⟨ticket, rfl, rfl, hnotified⟩)
      | true => simp [step?, hnotified] at h
  | resolving address => exact .inl ⟨address, rfl⟩
  | stopped => exact .inr (.inl rfl)
  | taken | resolved | cached => cases h

@[simp] theorem Worker.held?_afterTake (taken : TakeResult String) (stopping : Bool) :
    Worker.held? ⟨afterTake taken, stopping⟩ = taken.value? := by
  cases taken <;> rfl

@[simp] theorem Worker.held?_deliver (w : Worker) (result : BackoffPolicy.Resolution) :
    (w.deliver result).held? = w.held? := by
  obtain ⟨phase, stopping⟩ := w
  cases phase <;> rfl

end AccessLog.Enrich

namespace AccessLog.Service
open AccessLog.Enrich AccessLog.Store
variable {σ : Type} [AnalysisStore σ]

inductive Task.Step : Task → Service σ → Task → Service σ → Prop
  | push {s address ahead infos} :
      Step ⟨some address, ahead, infos⟩ s ⟨none, ahead, infos⟩
        { s with pipeline := { s.pipeline with queue := s.pipeline.queue.push address } }
  | claim {s address ahead infos queue} (claimed : s.pipeline.queue.claim? address = some queue) :
      Step ⟨none, .offer address :: ahead, infos⟩ s ⟨some address, ahead, infos⟩
        { s with pipeline := { s.pipeline with queue } }
  | refused {s address ahead infos} (refused : s.pipeline.queue.claim? address = none) :
      Step ⟨none, .offer address :: ahead, infos⟩ s ⟨none, ahead, infos⟩ s
  | known {s address ahead infos} (known : infos.any (·.1 = address) = true) :
      Step ⟨none, .read address :: ahead, infos⟩ s ⟨none, ahead, infos⟩ s
  | hit {s address ahead infos info cache} (new : infos.any (·.1 = address) = false)
      (found : s.pipeline.cache.get address = (some info, cache)) :
      Step ⟨none, .read address :: ahead, infos⟩ s ⟨none, ahead, infos ++ [(address, info)]⟩
        { s with pipeline := { s.pipeline with cache } }
  | miss {s address ahead infos cache} (new : infos.any (·.1 = address) = false)
      (missing : s.pipeline.cache.get address = (none, cache)) :
      Step ⟨none, .read address :: ahead, infos⟩ s
        ⟨none, .offer address :: ahead, infos ++ [(address, .unknown address)]⟩
        { s with pipeline := { s.pipeline with cache } }
  | save {s a ahead infos answer store} (saved : AnalysisStore.save s.store a = (answer, store)) :
      Step ⟨none, .save a :: ahead, infos⟩ s ⟨none, afterSave s.eagerTopN answer ++ ahead, infos⟩
        { s with store }
  | find {s id topN ahead infos} :
      Step ⟨none, .find id topN :: ahead, infos⟩ s
        ⟨none, afterFind topN (AnalysisStore.find s.store id) ++ ahead, infos⟩ s

theorem Task.step?_spec {t t' : Task} {s s' : Service σ} (h : t.step? s = some (t', s')) :
    Task.Step t s t' s' := by
  obtain ⟨claimed, ahead, infos⟩ := t
  cases claimed with
  | some address => cases h; exact .push
  | none =>
    cases ahead with
    | nil => cases h
    | cons action ahead =>
      cases action with
      | save a => cases h; exact .save rfl
      | find id topN => cases h; exact .find
      | read address =>
        simp only [step?, perform, read] at h
        split at h
        · rename_i known
          cases h; exact .known known
        · rename_i new
          split at h
          · rename_i found
            cases h; exact .hit (Bool.eq_false_iff.2 new) found
          · rename_i missing
            cases h; exact .miss (Bool.eq_false_iff.2 new) missing
      | offer address =>
        simp only [step?, perform, offer] at h
        split at h
        · rename_i claimed
          cases h; exact .claim claimed
        · rename_i refused
          cases h; exact .refused refused

/-- A step of a task leaves the cache as it is, or looks at an entry. -/
theorem Task.Step.cache {t t' : Task} {s s' : Service σ} (h : t.Step s t' s') :
    s'.pipeline.cache = s.pipeline.cache ∨
      ∃ address, s'.pipeline.cache = (s.pipeline.cache.get address).2 := by
  cases h with
  | @hit s address _ _ _ _ _ found => exact .inr ⟨address, by rw [found]⟩
  | @miss s address _ _ _ _ missing => exact .inr ⟨address, by rw [missing]⟩
  | push | claim | refused | known | save | find => exact .inl rfl

theorem Task.step?_eq_none {t : Task} {s : Service σ} (h : t.step? s = none) :
    t.claimed = none ∧ t.ahead = [] := by
  obtain ⟨claimed, ahead, infos⟩ := t
  cases claimed with
  | some address => cases h
  | none =>
    cases ahead with
    | nil => exact ⟨rfl, rfl⟩
    | cons action rest => cases h

/-- A task takes its step in the place where it stands among the others. -/
theorem System.next_task (s : System σ) (number : Nat) :
    s.next (.task number) = s ∨
      ∃ before t after t' service, s.tasks = before ++ t :: after ∧ t.Step s.service t' service ∧
        s.next (.task number) = ⟨service, s.worker, before ++ t' :: after⟩ := by
  cases h : (s.tasks[number]?).bind (·.step? s.service) with
  | none => left; simp only [next, h]
  | some made =>
    obtain ⟨t', service⟩ := made
    obtain ⟨t, ht, hstep⟩ := Option.bind_eq_some_iff.1 h
    obtain ⟨hlt, rfl⟩ := List.getElem?_eq_some_iff.1 ht
    refine .inr ⟨s.tasks.take number, s.tasks[number], s.tasks.drop (number + 1), t', service,
      ?_, Task.step?_spec hstep, ?_⟩
    · simp
    · simp only [next, h, List.set_eq_take_append_cons_drop, if_pos hlt]

theorem System.next_worker (s : System σ) :
    s.next .worker = s ∨
      ∃ worker pipeline, s.worker.Step s.service.pipeline worker pipeline ∧
        s.next .worker = ⟨{ s.service with pipeline }, worker, s.tasks⟩ := by
  cases h : s.worker.step? s.service.pipeline with
  | none => left; simp only [next, h]
  | some made =>
    obtain ⟨worker, pipeline⟩ := made
    refine .inr ⟨worker, pipeline, Worker.step?_spec h, ?_⟩
    simp only [next, h]

end AccessLog.Service

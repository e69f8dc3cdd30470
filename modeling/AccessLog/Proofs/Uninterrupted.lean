import AccessLog.Proofs.Steps

/-! # Calls that nothing interrupts

A call whose steps follow one another directly does what the service does in one go: it leaves the
same service behind, and has read the same. -/

namespace AccessLog.Service
open AccessLog.Enrich AccessLog.Log AccessLog.Store
variable {σ : Type} [AnalysisStore σ]

/-- Left to itself in a service `s`, the task comes to its end with these infos, in `s'`. -/
inductive Task.Completes : Task → Service σ → List (String × AddressInfo) → Service σ → Prop
  | done {s infos} : Completes ⟨none, [], infos⟩ s infos s
  | step {t s t' s' infos s''} (made : t.step? s = some (t', s'))
      (rest : Completes t' s' infos s'') : Completes t s infos s''

namespace Task.Completes

theorem offer {s s' : Service σ} {address : String} {ahead : List Action}
    {infos infos' : List (String × AddressInfo)}
    (h : Completes ⟨none, ahead, infos⟩
      { s with pipeline := (s.pipeline.offer address).2 } infos' s') :
    Completes ⟨none, .offer address :: ahead, infos⟩ s infos' s' := by
  cases hclaim : s.pipeline.queue.claim? address with
  | none =>
    simp only [Pipeline.offer, WorkQueue.offer, hclaim] at h
    exact .step (by simp only [step?, perform, Task.offer, hclaim]) h
  | some queue =>
    simp only [Pipeline.offer, WorkQueue.offer, hclaim] at h
    exact .step (by simp only [step?, perform, Task.offer, hclaim]; rfl) (.step rfl h)

theorem offers {s s' : Service σ} {infos infos' : List (String × AddressInfo)}
    (addresses : List String)
    (h : Completes ⟨none, [], infos⟩
      { s with pipeline := (s.pipeline.offerAll addresses).2 } infos' s') :
    Completes ⟨none, addresses.map .offer, infos⟩ s infos' s' := by
  induction addresses generalizing s with
  | nil => exact h
  | cons address rest ih => exact offer (ih h)

theorem read {s s' : Service σ} {address : String} {ahead : List Action}
    {infos infos' : List (String × AddressInfo)} (new : infos.any (·.1 = address) = false)
    (h : Completes ⟨none, ahead, infos ++ [(address, (s.pipeline.read address).1)]⟩
      { s with pipeline := (s.pipeline.read address).2 } infos' s') :
    Completes ⟨none, .read address :: ahead, infos⟩ s infos' s' := by
  cases hget : s.pipeline.cache.get address with
  | mk found cache =>
    cases found with
    | some info =>
      simp only [Pipeline.read, hget] at h
      exact .step (by simp only [step?, perform, Task.read, new, hget]; rfl) h
    | none =>
      simp only [Pipeline.read, hget] at h
      exact .step (by simp only [step?, perform, Task.read, new, hget]; rfl) (offer h)

theorem reads {s s' : Service σ} {infos infos' : List (String × AddressInfo)}
    (addresses : List String)
    (h : Completes ⟨none, [], (s.pipeline.readNew infos addresses).1⟩
      { s with pipeline := (s.pipeline.readNew infos addresses).2 } infos' s') :
    Completes ⟨none, addresses.map .read, infos⟩ s infos' s' := by
  induction addresses generalizing s infos with
  | nil => exact h
  | cons address rest ih =>
    by_cases known : infos.any (·.1 = address) = true
    · simp only [Pipeline.readNew, known, if_true] at h
      refine .step ?_ (ih h)
      simp only [List.map_cons, step?, perform, Task.read, known, if_true]
    · simp only [Pipeline.readNew, known] at h
      exact read (Bool.eq_false_iff.2 known) (ih h)

theorem save {s s' : Service σ} {a : Stats.Analysis} {answer : Except StoreError Stats.Analysis}
    {store : σ} {infos : List (String × AddressInfo)}
    (saved : AnalysisStore.save s.store a = (answer, store))
    (h : Completes ⟨none, afterSave s.eagerTopN answer, []⟩ { s with store } infos s') :
    Completes ⟨none, [.save a], []⟩ s infos s' := by
  have made : step? ⟨none, [.save a], []⟩ s =
      some (⟨none, afterSave s.eagerTopN answer ++ [], []⟩, { s with store }) := by
    simp only [step?, perform, saved]
    rfl
  exact .step made (by rwa [List.append_nil])

theorem find {s s' : Service σ} {id topN : UInt64} {infos : List (String × AddressInfo)}
    (h : Completes ⟨none, afterFind topN (AnalysisStore.find s.store id), []⟩ s infos s') :
    Completes ⟨none, [.find id topN], []⟩ s infos s' := by
  have made : step? ⟨none, [.find id topN], []⟩ s =
      some (⟨none, afterFind topN (AnalysisStore.find s.store id) ++ [], []⟩, s) := rfl
  exact .step made (by rwa [List.append_nil])

end Task.Completes

theorem read_completes (s : Service σ) (address : String) :
    (Task.ofCall (.read address)).Completes s [(address, (s.pipeline.read address).1)]
      { s with pipeline := (s.pipeline.read address).2 } :=
  .read rfl .done

theorem readAll_completes (s : Service σ) (addresses : List String) :
    (Task.ofCall (.readAll addresses)).Completes s (s.pipeline.readAll addresses).1
      { s with pipeline := (s.pipeline.readAll addresses).2 } := .reads addresses .done

theorem ingest_completes (s : Service σ) (createdAt : Int64) (reads : List Read) :
    (Task.ofCall (.ingest createdAt reads)).Completes s [] (s.ingest createdAt reads).2 := by
  cases hbatch : Stats.aggregate createdAt reads with
  | error fault =>
    simp only [Task.ofCall, ingest, hbatch]
    exact .done
  | ok a =>
    simp only [Task.ofCall, ingest, hbatch]
    cases hsave : AnalysisStore.save s.store a with
    | mk answer store =>
      apply Task.Completes.save hsave
      cases answer with
      | error e =>
        simp only [Task.afterSave, accept, hsave]
        exact .done
      | ok saved =>
        cases hid : saved.id with
        | none =>
          simp only [Task.afterSave, accept, hsave, hid]
          exact .done
        | some id =>
          simp only [Task.afterSave, accept, hsave, hid]
          exact .offers _ .done

/-- What has been read is what the result pairs the ranked addresses with. -/
theorem result_completes (s : Service σ) (id topN : UInt64) :
    ∃ infos, (Task.ofCall (.result id topN)).Completes s infos (s.result id topN).2 ∧
      ∀ a, AnalysisStore.find s.store id = .ok (some a) →
        (s.result id topN).1 = .ok (AnalysisResult.of id a topN infos) := by
  cases hfind : AnalysisStore.find s.store id with
  | error e =>
    simp only [result, hfind]
    exact ⟨[], .find (by rw [hfind]; exact .done), by simp⟩
  | ok found =>
    cases found with
    | none =>
      simp only [result, hfind]
      exact ⟨[], .find (by rw [hfind]; exact .done), by simp⟩
    | some a =>
      simp only [result, hfind]
      refine ⟨(s.pipeline.readAll (rankedAddresses a topN)).1, .find ?_, ?_⟩
      · rw [hfind]
        exact .reads _ .done
      · intro a' ha
        cases ha
        rfl

end AccessLog.Service

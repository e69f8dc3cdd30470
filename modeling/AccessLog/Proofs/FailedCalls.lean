import AccessLog.Http.Routes
import AccessLog.Proofs.StoredResults
import AccessLog.Service.Backends
import AccessLog.Simulation.Script

/-! # Calls that fail

A service is its store, the queue with the pending addresses, and the cache with its entries in the
order of their last use; a lookup is requested by queueing an address. A call that fails leaves all
of that as it was, whether its batch could not be read, its reader broke down, the store refused, or
a request made no sense. Only the last step of a call touches the queue or the cache, and nothing
can fail from there on. -/

namespace AccessLog.Store
open AccessLog.Simulation AccessLog.Stats

/-- A save that fails leaves the store as it was, and one that succeeds gives an identity. -/
structure SavesWhole {σ : Type} [AnalysisStore σ] (store : σ) : Prop where
  failed : ∀ a e, (AnalysisStore.save store a).1 = .error e → (AnalysisStore.save store a).2 = store
  numbered : ∀ a saved, (AnalysisStore.save store a).1 = .ok saved → saved.id.isSome = true

theorem MemoryStore.savesWhole (s : MemoryStore) : SavesWhole s := by
  refine ⟨fun _ _ h => (nomatch h), ?_⟩
  intro a saved h
  obtain rfl : (s.save a).1 = saved := Except.ok.inj h
  unfold save
  split
  · rename_i id hid
    rw [hid]
    rfl
  · rfl

theorem TableStore.savesWhole (s : TableStore) : SavesWhole s := by
  refine ⟨?_, ?_⟩
  · intro a e h
    change (s.save a).1 = _ at h
    show (s.save a).2 = s
    unfold save at h ⊢
    repeat' split at h
    all_goals simp_all
  · intro a saved h
    change (s.save a).1 = _ at h
    unfold save at h
    repeat' split at h
    all_goals cases h
    all_goals rfl

/-- A store whose saves fail saves whole as well. -/
theorem savesWhole_faulty {s : FaultyStore} (h : s.fault = .save) : SavesWhole s := by
  refine ⟨?_, ?_⟩
  · intro a e _
    simp only [AnalysisStore.save, h]
  · intro a saved hsave
    simp only [AnalysisStore.save, h] at hsave
    cases hsave

theorem savesWhole_anyStore (s : Service.AnyStore) : SavesWhole s := by
  cases s with
  | inl s =>
    obtain ⟨hfailed, hnumbered⟩ := s.savesWhole
    exact ⟨fun a e h => congrArg Sum.inl (hfailed a e h), hnumbered⟩
  | inr s =>
    obtain ⟨hfailed, hnumbered⟩ := s.savesWhole
    exact ⟨fun a e h => congrArg Sum.inr (hfailed a e h), hnumbered⟩

end AccessLog.Store

namespace AccessLog.Service
open AccessLog.Enrich AccessLog.Log AccessLog.Stats AccessLog.Store
variable {σ : Type} [AnalysisStore σ] {s : Service σ} {createdAt : Int64} {reads : List Read}
  {id topN : UInt64} {f : Failure}

/-- An analysis that is accepted has an identity, and one that is not has left no trace. -/
theorem accept_spec (h : SavesWhole s.store) (a : Analysis) :
    (∃ saved id, (s.accept a).1 = .ok saved ∧ saved.id = some id) ∨
      (∃ e, (s.accept a).1 = .error (.storage e)) ∧ (s.accept a).2 = s := by
  have hfailed := h.failed a
  have hnumbered := h.numbered a
  unfold accept
  split
  · rename_i e store hsave
    rw [hsave] at hfailed
    obtain rfl : store = s.store := hfailed e rfl
    exact .inr ⟨⟨e, rfl⟩, rfl⟩
  · rename_i saved store hsave
    rw [hsave] at hnumbered
    obtain ⟨id, hid⟩ := Option.isSome_iff_exists.1 (hnumbered saved rfl)
    simp only [hid]
    exact .inl ⟨saved, id, rfl, hid⟩

theorem ingest_spec (h : SavesWhole s.store) (createdAt : Int64) (reads : List Read) :
    (∃ saved id, (s.ingest createdAt reads).1 = .ok saved ∧ saved.id = some id) ∨
      (∃ f, (s.ingest createdAt reads).1 = .error f) ∧ (s.ingest createdAt reads).2 = s := by
  unfold ingest
  split
  · rename_i fault hbatch
    exact .inr ⟨⟨_, rfl⟩, rfl⟩
  · rename_i a hbatch
    rcases accept_spec h a with haccepted | ⟨⟨e, hrefused⟩, hsame⟩
    · exact .inl haccepted
    · exact .inr ⟨⟨_, hrefused⟩, hsame⟩

theorem result_spec (s : Service σ) (id topN : UInt64) :
    (∃ r, (s.result id topN).1 = .ok r) ∨
      (∃ f, (s.result id topN).1 = .error f) ∧ (s.result id topN).2 = s := by
  unfold result
  split
  · exact .inr ⟨⟨_, rfl⟩, rfl⟩
  · exact .inr ⟨⟨_, rfl⟩, rfl⟩
  · exact .inl ⟨_, rfl⟩

end AccessLog.Service

namespace AccessLog.Http
open AccessLog.Enrich AccessLog.Log AccessLog.Service AccessLog.Stats AccessLog.Store

@[simp] theorem status_finish (r : Request) (response : Response) :
    (finish r response).status = response.status := by
  unfold finish
  split <;> rfl

section Answer
variable {σ : Type}

/-- A request that is not answered with success leaves everything as it was, where what does the
work does so when it fails. -/
theorem answer_unchanged {takeIn : List Read → Except Failure Analysis × σ}
    {lookUp : UInt64 → UInt64 → Except Failure AnalysisResult × σ} {state : σ} {limit : UInt64}
    {r : Request}
    (htakeIn : ∀ reads, (∃ saved id, (takeIn reads).1 = .ok saved ∧ saved.id = some id) ∨
      (∃ f, (takeIn reads).1 = .error f) ∧ (takeIn reads).2 = state)
    (hlookUp : ∀ id topN, (∃ found, (lookUp id topN).1 = .ok found) ∨
      (∃ f, (lookUp id topN).1 = .error f) ∧ (lookUp id topN).2 = state)
    (h : 400 ≤ (answer takeIn lookUp state limit r).1.status) :
    (answer takeIn lookUp state limit r).2 = state := by
  unfold answer at h ⊢
  split
  · rfl
  · rename_i hoptions
    rw [if_neg hoptions] at h
    split
    · rfl
    · rename_i batch haction
      simp only [haction, status_finish] at h
      rcases htakeIn (readsOf batch) with ⟨saved, id, hok, hid⟩ | ⟨-, hsame⟩
      · rw [hok] at h
        simp [ofIngest, hid, accepted, Response.json] at h
      · exact hsame
    · rename_i id topN haction
      simp only [haction, status_finish] at h
      rcases hlookUp id topN with ⟨found, hok⟩ | ⟨-, hsame⟩
      · rw [hok] at h
        simp [ofResult, Response.json] at h
      · exact hsame

end Answer

end AccessLog.Http

namespace AccessLog.Service
open AccessLog.Enrich AccessLog.Log AccessLog.Simulation AccessLog.Stats AccessLog.Store

/-- An ingest or a query that fails leaves the service as it was: the store with the identity that
comes next, the pending addresses, the queue, and the cache with the order of its entries. So does
every request over HTTP that is answered with an error. -/
theorem failures_leave_no_trace {σ : Type} [AnalysisStore σ] (s : Service σ)
    (hsaves : SavesWhole s.store) :
    (∀ createdAt reads f, (s.ingest createdAt reads).1 = .error f →
      (s.ingest createdAt reads).2 = s) ∧
    (∀ id topN f, (s.result id topN).1 = .error f → (s.result id topN).2 = s) ∧
    ∀ createdAt limit r, 400 ≤ (Http.handle s createdAt limit r).1.status →
      (Http.handle s createdAt limit r).2 = s := by
  refine ⟨?_, ?_, ?_⟩
  · intro createdAt reads f hfailed
    rcases ingest_spec hsaves createdAt reads with ⟨saved, id, hok, -⟩ | ⟨-, hsame⟩
    · rw [hok] at hfailed
      cases hfailed
    · exact hsame
  · intro id topN f hfailed
    rcases s.result_spec id topN with ⟨r, hok⟩ | ⟨-, hsame⟩
    · rw [hok] at hfailed
      cases hfailed
    · exact hsame
  · intro createdAt limit r herror
    exact Http.answer_unchanged (ingest_spec hsaves createdAt) s.result_spec herror

/-- One address is cached and one is queued, and nothing can be saved. -/
def fullDisk : Service FaultyStore :=
  ⟨⟨.empty, .save⟩, ((Pipeline.start ⟨10, .ofSeconds 60, [("1.1.1.1", .unknown "1.1.1.1")]⟩).offer
    "2.2.2.2").2, 10⟩

/-- An upload that breaks off behind its first boundary. -/
def brokenUpload : Http.Request :=
  .ofTarget "POST" "/api/logs/analyze" [("content-type", "multipart/form-data; boundary=b")]
    (Text.encode "--b\r\nContent-Disp")

/-- A query for rankings of no length. -/
def emptyRanking : Http.Request := .ofTarget "GET" "/api/logs/analysis/1?topN=0" [] []

theorem failures_leave_no_trace_fullDisk :
    (fullDisk.ingest 7 (requestBatch "8.8.8.8")).1 = .error (.storage ⟨"disk full", []⟩) ∧
    (fullDisk.ingest 7 (requestBatch "8.8.8.8")).2 = fullDisk ∧
    (fullDisk.ingest 7 [.bytes [65], .crashed "broken"]).2 = fullDisk ∧
    (fullDisk.result 1 5).1 = .error (.notFound 1) ∧ (fullDisk.result 1 5).2 = fullDisk ∧
    (Http.handle fullDisk 7 1000 brokenUpload).2 = fullDisk ∧
    (Http.handle fullDisk 7 1000 emptyRanking).2 = fullDisk := by
  have hsaves : SavesWhole fullDisk.store := savesWhole_faulty rfl
  obtain ⟨hingest, hresult, hhandle⟩ := failures_leave_no_trace fullDisk hsaves
  have hrefused : (fullDisk.ingest 7 (requestBatch "8.8.8.8")).1 =
      .error (.storage ⟨"disk full", []⟩) := by rfl
  have hbroken : (fullDisk.ingest 7 [.bytes [65], .crashed "broken"]).1 =
      .error (batchFailure (.crashed "broken")) := by rfl
  have hmissing : (fullDisk.result 1 5).1 = .error (.notFound 1) := by rfl
  have hupload : (Http.handle fullDisk 7 1000 brokenUpload).1.status = 400 := by decide +kernel
  have hranking : (Http.handle fullDisk 7 1000 emptyRanking).1.status = 400 := by decide +kernel
  exact ⟨hrefused, hingest _ _ _ hrefused, hingest _ _ _ hbroken, hmissing,
    hresult _ _ _ hmissing, hhandle _ _ _ (Nat.le_of_eq hupload.symm),
    hhandle _ _ _ (Nat.le_of_eq hranking.symm)⟩

end AccessLog.Service

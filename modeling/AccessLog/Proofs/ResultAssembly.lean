import AccessLog.Proofs.FailedCalls
import AccessLog.Proofs.ReadPath
import AccessLog.Proofs.Rankings
import AccessLog.Simulation.Requests

/-! # How a result is put together

The ranked addresses of an analysis are different from one another, and a read of them tells
something about each. So it makes no difference whether the info of an address is only looked up or
taken out when the address gets it: every address finds its own, and nothing is left over. What a
query leaves behind is what the read leaves behind. -/

namespace AccessLog.Service
open AccessLog.Enrich AccessLog.Simulation AccessLog.Stats AccessLog.Store

/-! ## Taking infos out -/

/-- Take the infos of addresses out of those that were read, one address after the other. What each
address finds, nothing if its info is missing or taken already, and the infos that are left over. -/
def takeOut (infos : List (String × AddressInfo)) :
    List String → List (Option AddressInfo) × List (String × AddressInfo)
  | [] => ([], infos)
  | address :: rest =>
    let (found, left) := takeOut (infos.filter (·.1 ≠ address)) rest
    (infos.lookup address :: found, left)

/-- Different addresses that were read find their infos, and take all of them. -/
theorem takeOut_eq {addresses : List String} (h : addresses.Nodup) (f : String → AddressInfo) :
    takeOut (addresses.map fun address => (address, f address)) addresses =
      (addresses.map fun address => some (f address), []) := by
  induction addresses with
  | nil => rfl
  | cons address rest ih =>
    obtain ⟨hnew, hrest⟩ := List.nodup_cons.1 h
    have hothers : ((address :: rest).map fun a => (a, f a)).filter (·.1 ≠ address) =
        rest.map fun a => (a, f a) := by
      rw [List.map_cons, List.filter_cons_of_neg (by simp), List.filter_eq_self]
      intro e he
      obtain ⟨other, hother, rfl⟩ := List.mem_map.1 he
      have hne : other ≠ address := fun heq => hnew (heq ▸ hother)
      simpa using hne
    rw [takeOut, hothers, ih hrest]
    simp

/-! ## Results -/

/-- The result is that of an analysis, and tells about each ranked address what is cached about it,
or else that nothing is known. -/
structure AnalysisResult.Assembles (result : AnalysisResult) (cache : Cache) (a : Analysis)
    (topN : UInt64) : Prop where
  paths : result.topPaths = a.paths.top topN.toNat
  statusCodes : result.topStatusCodes = a.statuses.top topN.toNat
  ranked : result.topAddresses.map (fun x => (⟨x.address, x.count, x.percentage⟩ : RankedItem)) =
    a.addresses.top topN.toNat
  distinct : (result.topAddresses.map RankedAddress.address).Nodup
  cached : ∀ x ∈ result.topAddresses, ∀ info, cache.peek? x.address = some info → x.info = info
  uncached : ∀ x ∈ result.topAddresses, cache.peek? x.address = none → x.info = .unknown x.address

variable {p : Pipeline} {a : Analysis} {id topN : UInt64}

theorem readAll_ranked (p : Pipeline) (a : Analysis) (topN : UInt64) :
    p.readAll (rankedAddresses a topN) =
      ((rankedAddresses a topN).map fun address => (address, p.told address),
        p.readEach (rankedAddresses a topN)) := by
  have hself : (rankedAddresses a topN).eraseDups = rankedAddresses a topN := by
    rw [← newcomers_nil, newcomers_of_nodup (nodup_rankedAddresses a topN)]
    exact List.filter_eq_self.2 (by simp)
  rw [Pipeline.readAll_eq, hself]

/-- Each ranked address gets what was read about it. -/
theorem topAddresses_eq (p : Pipeline) (id : UInt64) (a : Analysis) (topN : UInt64) :
    (AnalysisResult.of id a topN (p.readAll (rankedAddresses a topN)).1).topAddresses =
      (a.addresses.top topN.toNat).map fun item =>
        ⟨item.value, item.count, item.percentage, p.told item.value⟩ := by
  refine List.map_congr_left fun item hitem => ?_
  have hmem : item.value ∈ rankedAddresses a topN := List.mem_map_of_mem hitem
  rw [readAll_ranked, pairWith, List.lookup_graph p.told hmem]
  rfl

theorem assembles_of (p : Pipeline) (id : UInt64) (a : Analysis) (topN : UInt64) :
    (AnalysisResult.of id a topN (p.readAll (rankedAddresses a topN)).1).Assembles p.cache a
      topN where
  paths := rfl
  statusCodes := rfl
  ranked := by
    rw [topAddresses_eq, List.map_map]
    exact List.map_id _
  distinct := by
    have hnodup := nodup_rankedAddresses a topN
    rw [topAddresses_eq, List.map_map]
    exact hnodup
  cached := by
    rw [topAddresses_eq]
    rintro x hx info hinfo
    obtain ⟨item, -, rfl⟩ := List.mem_map.1 hx
    simp only [Pipeline.told, hinfo, Option.getD_some]
  uncached := by
    rw [topAddresses_eq]
    rintro x hx hmiss
    obtain ⟨item, -, rfl⟩ := List.mem_map.1 hx
    simp only [Pipeline.told, hmiss, Option.getD_none]

variable {σ : Type} [AnalysisStore σ]

theorem result_of_find {s : Service σ} (h : AnalysisStore.find s.store id = .ok (some a)) :
    s.result id topN =
      (.ok (AnalysisResult.of id a topN (s.pipeline.readAll (rankedAddresses a topN)).1),
        { s with pipeline := s.pipeline.readEach (rankedAddresses a topN) }) := by
  rw [result, h]
  dsimp only
  rw [readAll_ranked]

theorem filter_misses (p : Pipeline) (addresses : List String) :
    (addresses.filter p.misses).filter (· ∉ p.queue.pending) =
      addresses.filter fun address =>
        p.cache.peek? address = none ∧ address ∉ p.queue.pending := by
  rw [List.filter_filter]
  refine List.filter_congr fun address _ => ?_
  simp [Pipeline.misses, Bool.and_comm]

/-- A query leaves the service as it is, or as the read of the ranked addresses leaves it. -/
theorem result_leaves (s : Service σ) (id topN : UInt64) :
    (s.result id topN).2 = s ∨
      ∃ addresses, (s.result id topN).2 = { s with pipeline := s.pipeline.readEach addresses } := by
  cases hfind : AnalysisStore.find s.store id with
  | error e => exact .inl (by rw [result, hfind])
  | ok found =>
    cases found with
    | none => exact .inl (by rw [result, hfind])
    | some a => exact .inr ⟨_, congrArg Prod.snd (result_of_find hfind)⟩

/-- A query succeeds just when the store finds the analysis. Its rankings are those of the analysis,
and each ranked address has its own info: taken out one after the other, every info is found and
none is left over. Then the misses that were not pending are queued, in the order of the ranking, and
become pending. The store and what is cached stay as they are, and nothing is looked up. -/
theorem result_assembles (s : Service σ) (id topN : UInt64) :
    let answer := (s.result id topN).1
    let after := (s.result id topN).2
    ((∃ result, answer = .ok result) ↔ ∃ a, AnalysisStore.find s.store id = .ok (some a)) ∧
    (∀ a, AnalysisStore.find s.store id = .ok (some a) →
      let ranked := rankedAddresses a topN
      let fresh := ranked.filter fun address =>
        s.pipeline.cache.peek? address = none ∧ address ∉ s.pipeline.queue.pending
      ∃ result, answer = .ok result ∧ result.Assembles s.pipeline.cache a topN ∧
        takeOut (s.pipeline.readAll ranked).1 ranked =
          (result.topAddresses.map fun x => some x.info, []) ∧
        after.pipeline.queue.items = s.pipeline.queue.items ++ fresh ∧
        after.pipeline.queue.pending.Perm (fresh ++ s.pipeline.queue.pending)) ∧
    ((∃ f, answer = .error f) → after = s) ∧
    after.store = s.store ∧
    (∀ address, after.pipeline.cache.peek? address = s.pipeline.cache.peek? address) ∧
    ∀ r : Run σ, r.service = s →
      (r.result id topN).1 = answer ∧ (r.result id topN).2.service = after ∧
        r.WithoutLookup (r.result id topN).2 := by
  intro answer after
  have hfound (a : Analysis) (h : AnalysisStore.find s.store id = .ok (some a)) :
      answer = .ok (AnalysisResult.of id a topN (s.pipeline.readAll (rankedAddresses a topN)).1) :=
    congrArg Prod.fst (result_of_find h)
  refine ⟨⟨?_, ?_⟩, ?_, ?_, ?_, ?_, ?_⟩
  · rintro ⟨r, hr⟩
    simp only [answer, result] at hr
    split at hr
    · cases hr
    · cases hr
    · rename_i a h
      exact ⟨a, h⟩
  · rintro ⟨a, h⟩
    exact ⟨_, hfound a h⟩
  · intro a h ranked fresh
    have hqueue : after.pipeline.queue =
        (s.pipeline.queue.offerAll (ranked.filter s.pipeline.misses)).2 := by
      rw [show after = _ from congrArg Prod.snd (result_of_find h)]
      exact s.pipeline.queue_readEach ranked
    obtain ⟨hitems, hpending⟩ := s.pipeline.queue.offerAll_of_nodup
      ((nodup_rankedAddresses a topN).sublist List.filter_sublist)
    rw [filter_misses, ← hqueue] at hitems hpending
    refine ⟨_, hfound a h, assembles_of s.pipeline id a topN, ?_, hitems, hpending⟩
    rw [topAddresses_eq, readAll_ranked,
      takeOut_eq (nodup_rankedAddresses a topN) s.pipeline.told]
    simp [rankedAddresses]
  · rintro ⟨f, hf⟩
    rcases s.result_spec id topN with ⟨r, hok⟩ | ⟨-, hsame⟩
    · rw [show answer = _ from hok] at hf
      cases hf
    · exact hsame
  · rcases s.result_leaves id topN with hsame | ⟨addresses, hread⟩
    · rw [show after = s from hsame]
    · rw [show after = _ from hread]
  · intro address
    rcases s.result_leaves id topN with hsame | ⟨addresses, hread⟩
    · rw [show after = s from hsame]
    · rw [show after = _ from hread, Pipeline.peek?_readEach]
  · rintro r rfl
    obtain ⟨hservice, hquiet⟩ := r.withoutLookup_wakeWorkers (r.service.result id topN).2
    exact ⟨rfl, hservice, hquiet⟩

/-- Four requests of three clients, under the identity 1. -/
def visits : Analysis :=
  (((((Aggregator.empty.count "/a" "3.3.3.3" 200).count "/b" "1.1.1.1" 200).count "/a" "2.2.2.2"
    404).count "/a" "1.1.1.1" 200).finish 7).withId 1

/-- They are stored, the first of the clients is cached, and the second is pending. -/
def visited : Service MemoryStore := ⟨⟨[(1, visits)], 1⟩, .halfKnown, 10⟩

theorem rankedAddresses_visits (limit : UInt64) :
    rankedAddresses visits limit = ["1.1.1.1", "2.2.2.2", "3.3.3.3"].take limit.toNat := by
  have hranking : [("1.1.1.1", 2), ("2.2.2.2", 1), ("3.3.3.3", 1)] = visits.addresses.ranking :=
    Counter.eq_ranking (by decide) (by decide)
  rw [rankedAddresses_eq, ← hranking, List.map_take]
  rfl

theorem result_assembles_visited :
    let r : Run MemoryStore := .start visited (.ofList []) .standard
    AnalysisStore.find visited.store 1 = .ok (some visits) ∧
    (∃ result, (visited.result 1 3).1 = .ok result ∧
      (∃ x ∈ result.topAddresses, visited.pipeline.cache.peek? x.address =
          some ⟨"1.1.1.1", some "AU", none, none, none⟩ ∧
        x.info = ⟨"1.1.1.1", some "AU", none, none, none⟩) ∧
      ∃ x ∈ result.topAddresses, visited.pipeline.cache.peek? x.address = none ∧
        x.info = .unknown x.address) ∧
    (visited.result 1 3).2.pipeline.queue.items = ["2.2.2.2", "3.3.3.3"] ∧
    (∃ f, (visited.result 2 3).1 = .error f) ∧ (visited.result 2 3).2 = visited ∧
    r.service = visited ∧ (r.result 1 3).2.calls = [] := by
  intro r
  have hfind : AnalysisStore.find visited.store 1 = .ok (some visits) := by decide +kernel
  obtain ⟨-, hfound, -, -, -, hrun⟩ := result_assembles visited 1 3
  obtain ⟨-, -, hfailed, -, -, -⟩ := result_assembles visited 2 3
  obtain ⟨result, hok, hassembles, -, hitems, -⟩ := hfound visits hfind
  obtain ⟨-, -, hquiet⟩ := hrun r rfl
  have hmissing : ∃ f, (visited.result 2 3).1 = .error f := ⟨.notFound 2, by decide +kernel⟩
  have haddresses : result.topAddresses.map RankedAddress.address =
      ["1.1.1.1", "2.2.2.2", "3.3.3.3"] := by
    have hvalues := congrArg (List.map RankedItem.value) hassembles.ranked
    rw [List.map_map] at hvalues
    exact hvalues.trans (rankedAddresses_visits 3)
  have hranked (address : String) (h : address ∈ ["1.1.1.1", "2.2.2.2", "3.3.3.3"]) :
      ∃ x ∈ result.topAddresses, x.address = address := by
    rw [← haddresses] at h
    exact List.mem_map.1 h
  obtain ⟨first, hfirst, hone⟩ := hranked "1.1.1.1" (by decide)
  obtain ⟨third, hthird, hthree⟩ := hranked "3.3.3.3" (by decide)
  have hhit : visited.pipeline.cache.peek? first.address =
      some ⟨"1.1.1.1", some "AU", none, none, none⟩ := by rw [hone]; rfl
  have hmiss : visited.pipeline.cache.peek? third.address = none := by rw [hthree]; rfl
  refine ⟨hfind, ⟨result, hok, ⟨first, hfirst, hhit, hassembles.cached _ hfirst _ hhit⟩,
    third, hthird, hmiss, hassembles.uncached _ hthird hmiss⟩, ?_, hmissing, hfailed hmissing,
    rfl, hquiet.calls⟩
  rw [hitems, rankedAddresses_visits]
  decide

end AccessLog.Service

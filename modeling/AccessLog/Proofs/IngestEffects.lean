import AccessLog.Proofs.DrawnIdentities
import AccessLog.Proofs.FreshIdentity
import AccessLog.Proofs.ResultAssembly

/-! # What an ingest does

An ingest with a store in memory keeps the analysis of its batch under the next identity and queues
the addresses that lead in it. As long as the store has only been given analyses without an identity
that one is free, so nothing that is kept is touched. Of the leading addresses those are queued that
are not pending, from earlier batches or otherwise. -/

namespace AccessLog.Store.MemoryStore
open AccessLog.Stats

/-- All that is kept stands under identities that have been drawn. -/
def NumberedItself (s : MemoryStore) : Prop :=
  ∀ id, (s.find id).isSome = true → 1 ≤ id.toNat ∧ id.toNat ≤ s.lastId.toNat

/-- So it is while no analysis brings an identity along and the identities last. -/
theorem numberedItself_after {history : List Operation} (hown : brought history = [])
    (hfew : saves history < UInt64.size) : (after history).NumberedItself := by
  intro id hid
  obtain ⟨hlast, htaken⟩ := accounts_after history hfew
  have hdrawn := (htaken id).1 hid
  rw [hown] at hdrawn
  rw [hlast]
  exact hdrawn.resolve_right List.not_mem_nil

theorem NumberedItself.find_next {s : MemoryStore} (h : s.NumberedItself) :
    s.find (s.lastId + 1) = none := by
  rw [← Option.not_isSome_iff_eq_none]
  intro htaken
  obtain ⟨hleast, hgreatest⟩ := h _ htaken
  have hone : (1 : UInt64).toNat = 1 := rfl
  -- behind the last identity of all comes zero, which is never drawn before
  rw [UInt64.toNat_add, hone] at hleast hgreatest
  have hlast := s.lastId.toNat_lt
  omega

theorem size_insert_of_find {s : MemoryStore} {id : UInt64} (h : s.find id = none) (a : Analysis) :
    (s.insert id a).size = s.size + 1 := by
  have hothers : s.analyses.filter (·.1 != id) = s.analyses := by
    rw [List.filter_eq_self]
    intro e he
    rw [find, Option.map_eq_none_iff, List.find?_eq_none] at h
    simpa using h e he
  rw [size, insert, hothers, List.length_cons, size]

end AccessLog.Store.MemoryStore

namespace AccessLog.Service
open AccessLog.Enrich AccessLog.Log AccessLog.Simulation AccessLog.Stats AccessLog.Store

/-- A batch that can be aggregated is kept under the next identity, and its leading addresses are
offered. -/
theorem ingest_of_aggregate {s : Service MemoryStore} {createdAt : Int64} {reads : List Read}
    {a : Analysis} (h : aggregate createdAt reads = .ok a) :
    s.ingest createdAt reads =
      (.ok (a.withId (s.store.lastId + 1)),
        { s with
          store := s.store.draw.2.insert (s.store.lastId + 1) (a.withId (s.store.lastId + 1))
          pipeline := (s.pipeline.offerAll (rankedAddresses a s.eagerTopN)).2 }) := by
  have hsave : AnalysisStore.save s.store a = (.ok (a.withId (s.store.lastId + 1)),
      s.store.draw.2.insert (s.store.lastId + 1) (a.withId (s.store.lastId + 1))) := by
    show (Except.ok (s.store.save a).1, (s.store.save a).2) = _
    rw [MemoryStore.save, id_aggregate h]
    rfl
  simp only [ingest, h, accept, hsave]
  rfl

/-- Where the store holds nothing but what it has numbered itself, a batch that can be aggregated
comes back with an identity that was free. Just this entry is added to the store. Of the addresses
that lead in the analysis those that were not pending are queued behind what was queued, in the order
of the ranking, and become pending. The cache stays as it is, and the ingest looks nothing up. -/
theorem ingest_adds (s : Service MemoryStore) (hown : s.store.NumberedItself) {createdAt : Int64}
    {reads : List Read} {a : Analysis} (hbatch : aggregate createdAt reads = .ok a) :
    let answer := (s.ingest createdAt reads).1
    let after := (s.ingest createdAt reads).2
    let leaders := rankedAddresses a s.eagerTopN
    let fresh := leaders.filter fun address => address ∉ s.pipeline.queue.pending
    (∃ id, answer = .ok (a.withId id) ∧ a.id = none ∧ s.store.find id = none ∧
      (∀ other, after.store.find other =
        if other = id then some (a.withId id) else s.store.find other) ∧
      after.store.size = s.store.size + 1) ∧
    a.addresses.Leaders s.eagerTopN.toNat leaders ∧
    after.pipeline.queue.items = s.pipeline.queue.items ++ fresh ∧
    after.pipeline.queue.pending.Perm (fresh ++ s.pipeline.queue.pending) ∧
    after.pipeline.cache = s.pipeline.cache ∧
    ∀ r : Run MemoryStore, r.drain.service = s →
      (r.ingest createdAt reads).1 = answer ∧ (r.ingest createdAt reads).2.service = after ∧
        r.drain.WithoutLookup (r.ingest createdAt reads).2 := by
  intro answer after leaders fresh
  have hafter : after = _ := congrArg Prod.snd (ingest_of_aggregate hbatch)
  have hfree := hown.find_next
  obtain ⟨hitems, hpending⟩ :=
    s.pipeline.queue.offerAll_of_nodup (nodup_rankedAddresses a s.eagerTopN)
  refine ⟨⟨s.store.lastId + 1, congrArg Prod.fst (ingest_of_aggregate hbatch),
    id_aggregate hbatch, hfree, ?_, ?_⟩, leaders_rankedAddresses a _, ?_, ?_, ?_, ?_⟩
  · intro other
    rw [hafter]
    exact MemoryStore.find_insert _ _ _ _
  · rw [hafter]
    exact MemoryStore.size_insert_of_find (s := s.store.draw.2) hfree _
  · rw [hafter]
    exact hitems
  · rw [hafter]
    exact hpending
  · rw [hafter]
    rfl
  · rintro r rfl
    obtain ⟨hservice, hquiet⟩ := r.drain.withoutLookup_wakeWorkers after
    exact ⟨rfl, hservice, hquiet⟩

/-- The line of a request. -/
def requestLine (client : String) : String :=
  "\"1/29/2025, 5:44:36.000 PM\"," ++ client ++ ",GET,/a,curl,200,HTTP/1.1,1,2,3,TLSv1.3,/a"

def requestRow (line : Nat) (client : String) : Row :=
  ⟨line, requestLine client, ["1/29/2025, 5:44:36.000 PM", client, "GET", "/a", "curl", "200",
    "HTTP/1.1", "1", "2", "3", "TLSv1.3", "/a"]⟩

/-- One request of each of two clients. -/
def twoClients : List Read :=
  [.bytes (Text.encode ("time\n" ++ requestLine "4.4.4.4")),
    .bytes (Text.encode ("\n" ++ requestLine "2.2.2.2")), .bytes []]

def twoRequests : Analysis :=
  ((Aggregator.empty.count "/a" "4.4.4.4" 200).count "/a" "2.2.2.2" 200).finish 7

theorem aggregate_twoClients : aggregate 7 twoClients = .ok twoRequests := by
  have hrows : rows twoClients =
      [.item (requestRow 2 "4.4.4.4"), .item (requestRow 3 "2.2.2.2")] := by decide +kernel
  rw [aggregate, hrows]
  decide +kernel

theorem rankedAddresses_twoRequests :
    rankedAddresses twoRequests 2 = ["2.2.2.2", "4.4.4.4"] := by
  have hranking : [("2.2.2.2", 1), ("4.4.4.4", 1)] = twoRequests.addresses.ranking :=
    Counter.eq_ranking (by decide) (by decide)
  rw [rankedAddresses_eq, ← hranking]
  rfl

/-- One analysis is stored, and two addresses of a batch are queued at once. -/
def begun : Service MemoryStore :=
  ⟨.after [.save MemoryStore.unnumbered, .find 7], .halfKnown, 2⟩

/-- Both clients have as many requests, and the first of them in order is pending already. -/
theorem ingest_adds_begun :
    let r : Run MemoryStore := .start begun (.ofList []) .standard
    begun.store.NumberedItself ∧ aggregate 7 twoClients = .ok twoRequests ∧
    r.drain.service = begun ∧
    (∃ id, (begun.ingest 7 twoClients).1 = .ok (twoRequests.withId id) ∧
      begun.store.find id = none) ∧
    twoRequests.addresses.Leaders 2 ["2.2.2.2", "4.4.4.4"] ∧
    (begun.ingest 7 twoClients).2.pipeline.queue.items = ["2.2.2.2", "4.4.4.4"] ∧
    (r.ingest 7 twoClients).2.calls = r.drain.calls := by
  intro r
  have hown : begun.store.NumberedItself := MemoryStore.numberedItself_after rfl (by decide)
  have hdrain : r.drain.service = begun := rfl
  have hranked : rankedAddresses twoRequests begun.eagerTopN = ["2.2.2.2", "4.4.4.4"] :=
    rankedAddresses_twoRequests
  obtain ⟨⟨id, hanswer, -, hfree, -⟩, hleaders, hitems, -, -, hrun⟩ :=
    ingest_adds begun hown aggregate_twoClients
  obtain ⟨-, -, hquiet⟩ := hrun r hdrain
  rw [hranked] at hleaders hitems
  exact ⟨hown, aggregate_twoClients, hdrain, ⟨id, hanswer, hfree⟩, hleaders, hitems, hquiet.calls⟩

end AccessLog.Service

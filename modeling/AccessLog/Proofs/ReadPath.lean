import AccessLog.Proofs.CacheRoom
import AccessLog.Proofs.SingleLookup
import AccessLog.Simulation.Run

/-! # Reading addresses

A list of addresses is read one address after the other, each where it occurs first. A hit tells
what is cached and is a use of the entry; a miss is offered to the queue and tells that nothing is
known. So what is cached stays as it is, and the queue grows by the misses that were not pending, in
the order in which they were read. -/

namespace AccessLog.Enrich

/-! ## First occurrences -/

section Newcomers
variable {α : Type} [DecidableEq α]

theorem eraseDups_filter (p : α → Bool) (items : List α) :
    (items.filter p).eraseDups = items.eraseDups.filter p := by
  induction hlength : items.length using Nat.strongRecOn generalizing items with
  | ind n ih =>
    cases items with
    | nil => rfl
    | cons first rest =>
      have hfewer : (rest.filter fun x => !x == first).length < n := by
        have hle := List.length_filter_le (fun x => !x == first) rest
        rw [List.length_cons] at hlength
        omega
      have hrest := ih _ hfewer (rest.filter fun x => !x == first) rfl
      rw [List.eraseDups_cons]
      by_cases hfirst : p first = true
      · rw [List.filter_cons_of_pos hfirst, List.filter_cons_of_pos hfirst, List.eraseDups_cons,
          List.filter_comm, hrest]
      · have hothers : (rest.filter fun x => !x == first).filter p = rest.filter p := by
          rw [List.filter_filter]
          refine List.filter_congr fun x _ => ?_
          by_cases hx : x = first
          · simp [hx, hfirst]
          · simp [hx]
        rw [List.filter_cons_of_neg hfirst, List.filter_cons_of_neg hfirst, ← hothers, hrest]

/-- The items that are not among `old`, each once, where it occurs first. -/
def newcomers (old items : List α) : List α := items.eraseDups.filter (· ∉ old)

theorem mem_newcomers {old items : List α} {item : α} :
    item ∈ newcomers old items ↔ item ∈ items ∧ item ∉ old := by
  simp [newcomers]

theorem newcomers_cons_of_mem {old rest : List α} {item : α} (h : item ∈ old) :
    newcomers old (item :: rest) = newcomers old rest := by
  rw [newcomers, List.eraseDups_cons, List.filter_cons_of_neg (by simpa using h),
    eraseDups_filter, List.filter_filter, newcomers]
  refine List.filter_congr fun x _ => ?_
  by_cases hx : x = item
  · simp [hx, h]
  · simp [hx]

theorem newcomers_cons_of_not_mem {old rest : List α} {item : α} (h : item ∉ old) :
    newcomers old (item :: rest) = item :: newcomers (item :: old) rest := by
  rw [newcomers, List.eraseDups_cons, List.filter_cons_of_pos (by simpa using h),
    eraseDups_filter, List.filter_filter, newcomers]
  congr 1
  refine List.filter_congr fun x _ => ?_
  by_cases hx : x = item <;> simp [hx]

theorem nodup_newcomers (old items : List α) : (newcomers old items).Nodup := by
  induction items generalizing old with
  | nil => exact .nil
  | cons item rest ih =>
    by_cases h : item ∈ old
    · rw [newcomers_cons_of_mem h]
      exact ih old
    · rw [newcomers_cons_of_not_mem h, List.nodup_cons, mem_newcomers]
      exact ⟨by simp, ih (item :: old)⟩

theorem newcomers_congr {old old' : List α} (h : ∀ item, item ∈ old ↔ item ∈ old')
    (items : List α) : newcomers old items = newcomers old' items := by
  simp only [newcomers, h]

theorem newcomers_nil (items : List α) : newcomers [] items = items.eraseDups :=
  List.filter_eq_self.2 (by simp)

theorem nodup_eraseDups (items : List α) : items.eraseDups.Nodup := by
  rw [← newcomers_nil]
  exact nodup_newcomers [] items

theorem newcomers_of_nodup {old items : List α} (h : items.Nodup) :
    newcomers old items = items.filter (· ∉ old) := by
  induction items generalizing old with
  | nil => rfl
  | cons item rest ih =>
    obtain ⟨hitem, hrest⟩ := List.nodup_cons.1 h
    by_cases hold : item ∈ old
    · rw [newcomers_cons_of_mem hold, ih hrest, List.filter_cons_of_neg (by simpa using hold)]
    · rw [newcomers_cons_of_not_mem hold, ih hrest, List.filter_cons_of_pos (by simpa using hold)]
      congr 1
      refine List.filter_congr fun x hx => ?_
      have hne : x ≠ item := fun heq => hitem (heq ▸ hx)
      simp [hne]

end Newcomers

/-! ## Offers -/

/-- Of several items those that are not pending are queued, in the order in which they first
occur. -/
theorem WorkQueue.offerAll_spec {α : Type} [DecidableEq α] (q : WorkQueue α) (items : List α) :
    (q.offerAll items).1 = (newcomers q.pending items).length ∧
      (q.offerAll items).2.items = q.items ++ newcomers q.pending items ∧
      (q.offerAll items).2.pending = (newcomers q.pending items).reverse ++ q.pending := by
  induction items generalizing q with
  | nil => simp [offerAll, newcomers]
  | cons item rest ih =>
    by_cases h : item ∈ q.pending
    · rw [newcomers_cons_of_mem h]
      simpa [offerAll, offer_of_mem h] using ih q
    · obtain ⟨hcount, hitems, hpending⟩ := ih ({ q with pending := item :: q.pending }.push item)
      rw [newcomers_cons_of_not_mem h]
      simp only [push_pending, push_items] at hcount hitems hpending
      simp only [offerAll, offer_of_not_mem h, hcount, hitems, hpending]
      simp

/-- Of different items those that are not pending are queued and become pending. -/
theorem WorkQueue.offerAll_of_nodup {α : Type} [DecidableEq α] (q : WorkQueue α) {items : List α}
    (h : items.Nodup) :
    (q.offerAll items).2.items = q.items ++ items.filter (· ∉ q.pending) ∧
      (q.offerAll items).2.pending.Perm (items.filter (· ∉ q.pending) ++ q.pending) := by
  obtain ⟨-, hitems, hpending⟩ := q.offerAll_spec items
  rw [newcomers_of_nodup h] at hitems hpending
  refine ⟨hitems, ?_⟩
  rw [hpending]
  exact (List.reverse_perm _).append_right _

theorem WorkQueue.offerAll_append {α : Type} [DecidableEq α] (q : WorkQueue α)
    (items more : List α) :
    (q.offerAll (items ++ more)).2 = ((q.offerAll items).2.offerAll more).2 := by
  induction items generalizing q with
  | nil => rfl
  | cons item rest ih => exact ih (q.offer item).2

/-! ## Reads -/

namespace Pipeline

/-- What a read of an address tells. -/
def told (p : Pipeline) (address : String) : AddressInfo :=
  (p.cache.peek? address).getD (.unknown address)

/-- Whether a read of an address misses the cache. -/
def misses (p : Pipeline) (address : String) : Bool := p.cache.peek? address = none

/-- Read addresses one after the other, for what it does to the pipeline. -/
def readEach (p : Pipeline) (addresses : List String) : Pipeline :=
  addresses.foldl (fun p address => (p.read address).2) p

theorem read_of_miss {p : Pipeline} {address : String} (h : p.cache.peek? address = none) :
    p.read address =
      (p.told address,
        { queue := (p.queue.offer address).2, cache := (p.cache.get address).2 }) := by
  have hget : p.cache.get address = (none, (p.cache.get address).2) :=
    Prod.ext ((Cache.get_fst _ _).trans h) rfl
  simp only [read, told, h]
  rw [hget]
  rfl

theorem read_of_hit {p : Pipeline} {address : String} {info : AddressInfo}
    (h : p.cache.peek? address = some info) :
    p.read address = (p.told address, { p with cache := (p.cache.get address).2 }) := by
  have hget : p.cache.get address = (some info, (p.cache.get address).2) :=
    Prod.ext ((Cache.get_fst _ _).trans h) rfl
  simp only [read, told, h]
  rw [hget]
  rfl

/-- A read is a use of the entry, and a miss is an offer. -/
theorem read_spec (p : Pipeline) (address : String) :
    (p.read address).1 = p.told address ∧
      (p.read address).2.cache = (p.cache.get address).2 ∧
      (p.read address).2.queue = (p.queue.offerAll ([address].filter p.misses)).2 := by
  cases h : p.cache.peek? address with
  | none =>
    rw [read_of_miss h, List.filter_cons_of_pos (by simp [misses, h])]
    exact ⟨rfl, rfl, rfl⟩
  | some info =>
    rw [read_of_hit h, List.filter_cons_of_neg (by simp [misses, h])]
    exact ⟨rfl, rfl, rfl⟩

@[simp] theorem peek?_read (p : Pipeline) (address other : String) :
    (p.read address).2.cache.peek? other = p.cache.peek? other := by
  rw [(p.read_spec address).2.1, Cache.peek?_get]

theorem told_read (p : Pipeline) (address : String) : (p.read address).2.told = p.told := by
  funext other
  rw [told, peek?_read, told]

theorem misses_read (p : Pipeline) (address : String) : (p.read address).2.misses = p.misses := by
  funext other
  rw [misses, peek?_read, misses]

@[simp] theorem peek?_readEach (p : Pipeline) (addresses : List String) (other : String) :
    (p.readEach addresses).cache.peek? other = p.cache.peek? other := by
  induction addresses generalizing p with
  | nil => rfl
  | cons address rest ih => exact (ih (p.read address).2).trans (p.peek?_read address other)

/-- The misses are offered, in the order of the reads, and nothing else happens to the queue. -/
theorem queue_readEach (p : Pipeline) (addresses : List String) :
    (p.readEach addresses).queue = (p.queue.offerAll (addresses.filter p.misses)).2 := by
  induction addresses generalizing p with
  | nil => rfl
  | cons address rest ih =>
    have hrest := ih (p.read address).2
    rw [misses_read, (p.read_spec address).2.2, ← WorkQueue.offerAll_append,
      ← List.filter_append] at hrest
    exact hrest

/-- Of some addresses those are read that are not known, each once, where it occurs first. -/
theorem readNew_eq (p : Pipeline) (known : List (String × AddressInfo)) (addresses : List String) :
    p.readNew known addresses =
      (known ++ (newcomers (known.map Prod.fst) addresses).map fun a => (a, p.told a),
        p.readEach (newcomers (known.map Prod.fst) addresses)) := by
  induction addresses generalizing p known with
  | nil => simp [readNew, newcomers, readEach]
  | cons address rest ih =>
    by_cases h : address ∈ known.map Prod.fst
    · have hknown : known.any (·.1 = address) = true := by simpa using h
      rw [readNew, if_pos hknown, newcomers_cons_of_mem h]
      exact ih p known
    · have hnew : ¬ known.any (·.1 = address) = true := by simpa using h
      have hmore : newcomers ((known ++ [(address, p.told address)]).map Prod.fst) rest =
          newcomers (address :: known.map Prod.fst) rest :=
        newcomers_congr (by simp [or_comm]) rest
      rw [readNew, if_neg hnew, newcomers_cons_of_not_mem h]
      simp only [(p.read_spec address).1]
      rw [ih, hmore, told_read, List.map_cons, List.append_assoc]
      rfl

theorem readAll_eq (p : Pipeline) (addresses : List String) :
    p.readAll addresses =
      (addresses.eraseDups.map fun a => (a, p.told a), p.readEach addresses.eraseDups) := by
  rw [readAll, readNew_eq, List.map_nil, newcomers_nil, List.nil_append]

theorem nodup_filter_misses (p : Pipeline) (addresses : List String) :
    (addresses.eraseDups.filter p.misses).Nodup :=
  (nodup_eraseDups addresses).sublist List.filter_sublist

end Pipeline

end AccessLog.Enrich

namespace AccessLog.Simulation.Run
open AccessLog.Enrich
variable {σ : Type}

/-- From one moment of a run to another no lookup has been started, made or ended. -/
structure WithoutLookup (before after : Run σ) : Prop where
  calls : after.calls = before.calls
  jobs : after.jobs = before.jobs
  workers : after.workers = before.workers
  script : after.script = before.script
  now : after.now = before.now

/-- Waking workers changes nothing but which tasks can run. -/
theorem wakeWorkers_eq (r : Run σ) : ∃ ready, r.wakeWorkers = { r with ready } := by
  unfold wakeWorkers
  generalize r.workers.zipIdx.filter _ = woken
  induction woken generalizing r with
  | nil => exact ⟨r.ready, rfl⟩
  | cons e rest ih =>
    obtain ⟨ready, hwake⟩ : ∃ ready, r.wakeTask (.worker e.2) = { r with ready } := by
      unfold wakeTask
      split
      · exact ⟨r.ready, rfl⟩
      · exact ⟨_, rfl⟩
    obtain ⟨later, hrest⟩ := ih (r.wakeTask (.worker e.2))
    refine ⟨later, hrest.trans ?_⟩
    rw [hwake]

/-- A change of the service on behalf of the caller looks nothing up. -/
theorem withoutLookup_wakeWorkers (r : Run σ) (service : Service σ) :
    ({ r with service } : Run σ).wakeWorkers.service = service ∧
      r.WithoutLookup ({ r with service } : Run σ).wakeWorkers := by
  obtain ⟨ready, heq⟩ := ({ r with service } : Run σ).wakeWorkers_eq
  rw [heq]
  exact ⟨rfl, rfl, rfl, rfl, rfl, rfl⟩

end AccessLog.Simulation.Run

namespace AccessLog.Enrich.Pipeline
open AccessLog.Simulation

/-- Reading a list of addresses reads each of them once, where it occurs first, and tells for each
what is cached, or else that nothing is known. The misses are offered and no others: those that were
not pending are queued behind what was queued, in the order of the reads. What is cached stays as it
is, and nothing is looked up. -/
theorem readAll_once (p : Pipeline) (addresses : List String) :
    let infos := (p.readAll addresses).1
    let after := (p.readAll addresses).2
    let missed := addresses.eraseDups.filter fun address => p.cache.peek? address = none
    let fresh := missed.filter fun address => address ∉ p.queue.pending
    (infos.map Prod.fst = addresses.eraseDups ∧ (infos.map Prod.fst).Nodup ∧
      ∀ address, address ∈ infos.map Prod.fst ↔ address ∈ addresses) ∧
    (∀ address ∈ addresses,
      infos.lookup address = some ((p.cache.peek? address).getD (.unknown address))) ∧
    after = addresses.eraseDups.foldl (fun p address => (p.read address).2) p ∧
    (∀ address ∈ addresses, p.cache.peek? address = none → address ∈ after.queue.pending) ∧
    after.queue = (p.queue.offerAll missed).2 ∧
    after.queue.items = p.queue.items ++ fresh ∧
    after.queue.pending.Perm (fresh ++ p.queue.pending) ∧
    (∀ address, after.cache.peek? address = p.cache.peek? address) ∧
    ∀ (σ : Type) (r : Run σ), r.pipeline = p →
      let answer := r.withPipeline fun p => p.readAll addresses
      answer.1 = infos ∧ answer.2.pipeline = after ∧ r.WithoutLookup answer.2 := by
  intro infos after missed fresh
  have hinfos : infos = addresses.eraseDups.map fun a => (a, p.told a) :=
    congrArg Prod.fst (p.readAll_eq addresses)
  have hafter : after = p.readEach addresses.eraseDups :=
    congrArg Prod.snd (p.readAll_eq addresses)
  have hkeys : infos.map Prod.fst = addresses.eraseDups := by simp [hinfos, Function.comp_def]
  have hqueue : after.queue = (p.queue.offerAll missed).2 := by
    rw [hafter]
    exact p.queue_readEach addresses.eraseDups
  have hnodup : missed.Nodup := p.nodup_filter_misses addresses
  obtain ⟨hitems, hpending⟩ := p.queue.offerAll_of_nodup hnodup
  rw [← hqueue] at hitems hpending
  refine ⟨⟨hkeys, ?_, ?_⟩, ?_, hafter, ?_, hqueue, hitems, hpending, ?_, ?_⟩
  · rw [hkeys]
    exact nodup_eraseDups addresses
  · intro address
    rw [hkeys]
    exact List.mem_eraseDups
  · intro address hmem
    rw [hinfos, List.lookup_graph p.told (List.mem_eraseDups.2 hmem), told]
  · intro address hmem hmiss
    rw [hpending.mem_iff, List.mem_append]
    by_cases hold : address ∈ p.queue.pending
    · exact .inr hold
    · exact .inl (by simp [missed, hmem, hmiss, hold])
  · intro address
    rw [hafter, peek?_readEach]
  · rintro σ r rfl
    obtain ⟨hservice, hquiet⟩ :=
      r.withoutLookup_wakeWorkers { r.service with pipeline := (r.pipeline.readAll addresses).2 }
    exact ⟨rfl, congrArg Service.pipeline hservice, hquiet⟩

/-- One address is cached, and another is pending and queued. -/
def halfKnown : Pipeline :=
  ((start ⟨10, .ofSeconds 60, [("1.1.1.1", ⟨"1.1.1.1", some "AU", none, none, none⟩)]⟩).offer
    "2.2.2.2").2

/-- Hits, a pending miss and new misses, some of them twice. -/
theorem readAll_once_halfKnown :
    let addresses := ["4.4.4.4", "1.1.1.1", "2.2.2.2", "4.4.4.4", "3.3.3.3", "1.1.1.1"]
    let infos := (halfKnown.readAll addresses).1
    let after := (halfKnown.readAll addresses).2
    let r : Run Unit := .start ⟨(), halfKnown, 10⟩ (.ofList []) .standard
    "1.1.1.1" ∈ addresses ∧ "2.2.2.2" ∈ addresses ∧
    halfKnown.cache.peek? "2.2.2.2" = none ∧ r.pipeline = halfKnown ∧
    infos.lookup "1.1.1.1" = some ⟨"1.1.1.1", some "AU", none, none, none⟩ ∧
    infos.lookup "2.2.2.2" = some (.unknown "2.2.2.2") ∧
    "2.2.2.2" ∈ after.queue.pending ∧
    after.queue.items = ["2.2.2.2", "4.4.4.4", "3.3.3.3"] ∧
    (r.withPipeline fun p => p.readAll addresses).2.calls = [] := by
  intro addresses infos after r
  obtain ⟨-, htold, -, hpending, -, hitems, -, -, hrun⟩ := readAll_once halfKnown addresses
  have hhit : "1.1.1.1" ∈ addresses := by decide
  have hmiss : "2.2.2.2" ∈ addresses := by decide
  obtain ⟨-, -, hquiet⟩ := hrun Unit r rfl
  exact ⟨hhit, hmiss, rfl, rfl, htold _ hhit, htold _ hmiss, hpending _ hmiss rfl, hitems,
    hquiet.calls⟩

end AccessLog.Enrich.Pipeline

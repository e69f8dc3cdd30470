import AccessLog.Proofs.LookupResults
import AccessLog.Service.Backends

/-! # Infos that stay with their addresses

What is said about an address has its origin in a lookup of that address, or is that nothing is
known. Whatever holds of all that the lookups say, address by address, holds of all that the cache
says, of what the worker is about to cache, and of what calls have read and replied. -/

namespace AccessLog.Enrich

/-! ## The cache and the worker -/

/-- All that the cache says about addresses has the property `P`. -/
def Cache.Bears (P : String → AddressInfo → Prop) (c : Cache) : Prop :=
  ∀ address info, (address, info) ∈ c.entries → P address info

namespace Cache
variable {P : String → AddressInfo → Prop} {c : Cache}

theorem Bears.get (h : c.Bears P) (address : String) :
    (∀ info ∈ (c.get address).1, P address info) ∧ (c.get address).2.Bears P := by
  cases hpeek : c.peek? address with
  | none =>
    simp only [Cache.get, hpeek]
    exact ⟨by simp, h⟩
  | some known =>
    have hentry : (address, known) ∈ c.entries := by
      obtain ⟨⟨other, info⟩, hfind, rfl⟩ := Option.map_eq_some_iff.1 hpeek
      obtain rfl : other = address := by simpa using List.find?_some hfind
      exact List.mem_of_find?_eq_some hfind
    simp only [Cache.get, hpeek]
    refine ⟨fun info hinfo => Option.some.inj hinfo ▸ h _ _ hentry, ?_⟩
    intro other info hmem
    rcases List.mem_cons.1 hmem with heq | hrest
    · cases heq
      exact h _ _ hentry
    · exact h _ _ (List.mem_of_mem_filter hrest)

theorem Bears.put (h : c.Bears P) {address : String} {info : AddressInfo} (hinfo : P address info) :
    (c.put address info).Bears P := by
  unfold Cache.put
  split
  · exact h
  · intro other known hmem
    rcases List.mem_cons.1 (List.mem_of_mem_take hmem) with heq | hrest
    · cases heq
      exact hinfo
    · exact h _ _ (List.mem_of_mem_filter hrest)

theorem Bears.forget (h : c.Bears P) (address : String) : (c.forget address).Bears P :=
  fun _ _ hmem => h _ _ (List.mem_of_mem_filter hmem)

end Cache

/-- What the worker is about to cache has the property `P`. -/
def Phase.Bears (P : String → AddressInfo → Prop) : Phase → Prop
  | .resolved address info => P address info
  | .idle | .waiting _ | .taken _ | .resolving _ | .cached _ | .stopped => True

theorem Worker.Step.bears {P : String → AddressInfo → Prop} {w w' : Worker} {p p' : Pipeline}
    (hstep : w.Step p w' p') (hcache : p.cache.Bears P) (hphase : w.phase.Bears P) :
    p'.cache.Bears P ∧ w'.phase.Bears P := by
  cases hstep with
  | stop | giveUp | release => exact ⟨hcache, trivial⟩
  | take =>
    refine ⟨hcache, ?_⟩
    cases p.queue.begin.1 <;> trivial
  | @retake _ ticket =>
    refine ⟨hcache, ?_⟩
    cases (p.queue.poll ticket).1 <;> trivial
  | @hit _ address => exact ⟨(hcache.get address).2, trivial⟩
  | @miss _ address => exact ⟨(hcache.get address).2, trivial⟩
  | record => exact ⟨hcache.put hphase, trivial⟩

end AccessLog.Enrich

namespace AccessLog.Service
open AccessLog.Enrich AccessLog.Stats AccessLog.Store

/-- A lookup is settled with what one of its calls has found, or with nothing. -/
theorem settled_trace (p : BackoffPolicy) (address : String) (outcomes : Nat → Outcome) :
    (p.trace address outcomes).result.settled address = .unknown address ∨
      ∃ i < (p.trace address outcomes).calls,
        outcomes i = .found ((p.trace address outcomes).result.settled address) := by
  have hcalls : 0 < (p.trace address outcomes).calls := calls_traceFrom_pos p address outcomes 0 _
  rw [settled_trace_eq]
  cases hlast : outcomes ((p.trace address outcomes).calls - 1) with
  | failed | crashed => exact .inl rfl
  | found info => exact .inr ⟨_, Nat.sub_one_lt_of_lt hcalls, hlast⟩

/-! ## Calls -/

section Calls
variable {P : String → AddressInfo → Prop}

/-- All that has been read about addresses has the property `P`. -/
def InfosBear (P : String → AddressInfo → Prop) (infos : List (String × AddressInfo)) : Prop :=
  ∀ address info, (address, info) ∈ infos → P address info

def Reply.Bears (P : String → AddressInfo → Prop) : Reply → Prop
  | .infos given => InfosBear P given
  | .result r => ∀ a ∈ r.topAddresses, P a.address a.info
  | .accepted _ | .failed _ => True

def Stage.Bears (P : String → AddressInfo → Prop) : Stage → Prop
  | .working _ t => InfosBear P t.infos
  | .done reply => reply.Bears P
  | .saving _ | .keeping _ _ | .finding _ _ => True

theorem infosBear_nil : InfosBear P [] := by
  intro _ _ hmem
  cases hmem

theorem InfosBear.learn {infos : List (String × AddressInfo)} (h : InfosBear P infos)
    {address : String} {info : AddressInfo} (hinfo : P address info) :
    InfosBear P (infos ++ [(address, info)]) := by
  intro other known hmem
  rcases List.mem_append.1 hmem with hold | hnew
  · exact h _ _ hold
  · cases List.mem_singleton.1 hnew
    exact hinfo

theorem Task.Step.bears {σ : Type} [AnalysisStore σ] (hunknown : ∀ x, P x (.unknown x))
    {t t' : Task} {s s' : Service σ} (hstep : t.Step s t' s')
    (hcache : s.pipeline.cache.Bears P) (hinfos : InfosBear P t.infos) :
    s'.pipeline.cache.Bears P ∧ InfosBear P t'.infos := by
  cases hstep with
  | push | claim | refused | known | save | find => exact ⟨hcache, hinfos⟩
  | @hit _ address _ _ info cache new found =>
    obtain ⟨hfound, hrest⟩ := hcache.get address
    rw [found] at hfound hrest
    exact ⟨hrest, hinfos.learn (hfound info rfl)⟩
  | @miss _ address _ _ cache new missing =>
    have hrest := (hcache.get address).2
    rw [missing] at hrest
    exact ⟨hrest, hinfos.learn (hunknown address)⟩

theorem Goal.bears_reply (hunknown : ∀ x, P x (.unknown x)) (goal : Goal)
    {infos : List (String × AddressInfo)} (h : InfosBear P infos) : (goal.reply infos).Bears P := by
  cases goal with
  | infos => exact h
  | accepted saved => trivial
  | result id topN a =>
    intro ranked hmem
    obtain ⟨item, -, rfl⟩ := List.mem_map.1 hmem
    simp only [pairWith]
    cases hlookup : infos.lookup item.value with
    | none => exact hunknown _
    | some info =>
      obtain ⟨before, after, rfl, -⟩ := List.lookup_eq_some_iff.1 hlookup
      exact h _ _ (List.mem_append_right _ List.mem_cons_self)

/-- Nothing has been read about addresses when the store answers. -/
theorem Stage.bears_of_consult {σ : Type} [SharedStore σ] {eagerTopN : UInt64} {store store' : σ}
    {stage stage' : Stage} (h : stage.consult? eagerTopN store = some (stage', store')) :
    stage'.Bears P := by
  have hsave (answer : Except StoreError Analysis) : (afterSave eagerTopN answer).Bears P := by
    cases answer with
    | error e => trivial
    | ok saved =>
      simp only [afterSave, afterKeep]
      split
      · trivial
      · exact infosBear_nil
  cases stage with
  | saving a =>
    rcases hbegin : SharedStore.begin store a with ⟨answer | ⟨id, b⟩, store''⟩ <;>
      simp only [consult?, hbegin] at h <;> cases h
    · exact hsave answer
    · trivial
  | keeping id a =>
    cases h
    exact hsave _
  | finding id topN =>
    cases h
    rcases AnalysisStore.find store id with e | none | a
    · trivial
    · trivial
    · exact infosBear_nil
  | working goal t => cases h
  | done reply => cases h

theorem Stage.Move.bears {σ : Type} [SharedStore σ] (hunknown : ∀ x, P x (.unknown x))
    {stage stage' : Stage} {s s' : Service σ} (hstep : stage.Move s stage' s')
    (hcache : s.pipeline.cache.Bears P) (h : stage.Bears P) :
    s'.pipeline.cache.Bears P ∧ stage'.Bears P := by
  cases hstep with
  | ask asked => exact ⟨hcache, bears_of_consult asked⟩
  | work made => exact made.bears hunknown hcache h
  | @reply goal => exact ⟨hcache, goal.bears_reply hunknown h⟩

theorem Stage.bears_ofCall (c : Call) : (Stage.ofCall c).Bears P := by
  cases c with
  | read address => exact infosBear_nil
  | readAll addresses => exact infosBear_nil
  | ingest createdAt reads =>
    simp only [ofCall]
    split <;> trivial
  | result id topN => trivial

end Calls

/-! ## The dialogue -/

namespace Dialogue
variable {σ : Type}

/-- All that is said about addresses anywhere has the property `P`. -/
structure Bears (P : String → AddressInfo → Prop) (s : Dialogue σ) : Prop where
  cache : s.cache.Bears P
  worker : s.worker.phase.Bears P
  calls : ∀ x ∈ s.sessions, x.stage.Bears P

variable {P Q : String → AddressInfo → Prop} {s : Dialogue σ}

theorem Bears.mono (h : s.Bears P) (himp : ∀ address info, P address info → Q address info) :
    s.Bears Q := by
  refine ⟨fun x i hmem => himp x i (h.cache x i hmem), ?_, ?_⟩
  · have hworker := h.worker
    cases hphase : s.worker.phase with
    | resolved address info =>
      rw [hphase] at hworker
      exact himp address info hworker
    | idle | waiting | taken | resolving | cached | stopped => trivial
  · intro x hx
    have hcall := h.calls x hx
    cases hstage : x.stage with
    | working goal t =>
      rw [hstage] at hcall
      exact fun a i hmem => himp a i (hcall a i hmem)
    | done reply =>
      rw [hstage] at hcall
      cases reply with
      | infos given => exact fun a i hmem => himp a i (hcall a i hmem)
      | result r => exact fun a hmem => himp _ _ (hcall a hmem)
      | accepted | failed => trivial
    | saving | keeping | finding => trivial

theorem bears_start (store : σ) (capacity : UInt64) (ttl : Time.Duration) (eagerTopN : UInt64) :
    (start store ⟨capacity, ttl, []⟩ eagerTopN).Bears P :=
  ⟨fun _ _ hmem => (nomatch hmem), trivial, fun _ hx => (nomatch hx)⟩

variable [SharedStore σ]

/-- Nothing is said anew but what a lookup is settled with, and that nothing is known. -/
theorem Bears.next (hunknown : ∀ x, P x (.unknown x)) (h : s.Bears P) {e : Event}
    (hsettle : ∀ result, e = .settle result → ∀ address, s.resolving? = some address →
      P address (result.settled address)) : (s.next e).Bears P := by
  cases e with
  | call c =>
    refine ⟨h.cache, h.worker, ?_⟩
    intro x hx
    rcases List.mem_append.1 hx with hold | hnew
    · exact h.calls x hold
    · obtain rfl := List.mem_singleton.1 hnew
      exact Stage.bears_ofCall c
  | task number =>
    rcases s.next_task number with ⟨hsame, -⟩ | ⟨call, stage, stage', service, hx, hstep, hnext⟩
    · rwa [hsame]
    · obtain ⟨hcache, hstage⟩ :=
        hstep.bears hunknown h.cache (h.calls _ (List.mem_of_getElem? hx))
      rw [hnext]
      refine ⟨hcache, h.worker, ?_⟩
      intro y hy
      rcases List.mem_or_eq_of_mem_set hy with hold | rfl
      · exact h.calls y hold
      · exact hstage
  | worker =>
    rcases s.next_worker with hsame | ⟨worker, pipeline, hstep, hnext⟩
    · rwa [hsame]
    · obtain ⟨hcache, hworker⟩ := hstep.bears h.cache h.worker
      rw [hnext]
      exact ⟨hcache, hworker, h.calls⟩
  | settle result =>
    refine ⟨h.cache, ?_, h.calls⟩
    show (s.worker.deliver result).phase.Bears P
    unfold Worker.deliver
    split
    · rename_i address hphase
      exact hsettle result rfl address (by simp [resolving?, hphase])
    · exact h.worker
  | stop => exact ⟨h.cache, h.worker, h.calls⟩
  | forget address => exact ⟨h.cache.forget address, h.worker, h.calls⟩

end Dialogue

/-- What a call of the lookup for just this address has found, or nothing. -/
def FromLookup (calls : List (String × Outcome)) (address : String) (info : AddressInfo) : Prop :=
  info = .unknown address ∨ (address, .found info) ∈ calls

namespace Dialogue
variable {σ : Type} [SharedStore σ]

theorem bears_turn (p : BackoffPolicy) {s : Dialogue σ} {past : List (String × Outcome)}
    (h : s.Bears (FromLookup past)) (t : Turn) :
    (s.turn p t).Bears (FromLookup (past ++ s.asked p t)) := by
  have hmore : s.Bears (FromLookup (past ++ s.asked p t)) :=
    h.mono fun _ _ => Or.imp_right (List.mem_append_left _)
  cases t with
  | event e hplain =>
    refine hmore.next (fun _ => .inl rfl) ?_
    rintro result rfl
    cases hplain
  | lookup outcomes =>
    simp only [turn]
    split
    · exact hmore
    · rename_i address hresolving
      refine hmore.next (fun _ => .inl rfl) ?_
      intro result hresult other hother
      cases hresult
      cases hresolving.symm.trans hother
      refine (settled_trace p address outcomes).imp id ?_
      rintro ⟨i, hlt, hfound⟩
      apply List.mem_append_right
      simp only [asked, hresolving]
      exact List.mem_map.2 ⟨i, List.mem_range.2 hlt, by rw [hfound]⟩

theorem bears_play (p : BackoffPolicy) {s : Dialogue σ} {past : List (String × Outcome)}
    (h : s.Bears (FromLookup past)) (turns : List Turn) :
    (s.play p turns).Bears (FromLookup (past ++ s.calls p turns)) := by
  induction turns generalizing s past with
  | nil =>
    rw [calls, List.append_nil]
    exact h
  | cons t rest ih =>
    have hrest := ih (bears_turn p h t)
    rw [List.append_assoc] at hrest
    exact hrest

end Dialogue

/-! ## Reads -/

/-- Where the read of an address can stand: it has looked into the cache or is about to. -/
inductive Reading (address : String) : Stage → Prop
  | looking : Reading address (.working .infos ⟨none, [.read address], []⟩)
  | told {claimed ahead info} (offers : ∀ action ∈ ahead, action = .offer address) :
      Reading address (.working .infos ⟨claimed, ahead, [(address, info)]⟩)
  | done {info} : Reading address (.done (.infos [(address, info)]))

theorem Reading.step {σ : Type} [SharedStore σ] {address : String} {stage stage' : Stage}
    {s s' : Service σ} (h : Reading address stage) (hstep : stage.Move s stage' s') :
    Reading address stage' := by
  cases hstep with
  | ask asked => cases h <;> cases asked
  | reply finished =>
    cases h with
    | looking => cases finished
    | told offers => exact .done
  | work made =>
    cases h with
    | looking =>
      cases made with
      | known known => cases known
      | hit new found => exact .told (by simp)
      | miss new missing => exact .told (by simp)
    | told offers =>
      have hrest {action : Action} {ahead : List Action}
          (hall : ∀ a ∈ action :: ahead, a = .offer address) :
          ∀ a ∈ ahead, a = .offer address := fun a ha => hall a (List.mem_cons_of_mem _ ha)
      cases made with
      | push => exact .told offers
      | claim | refused => exact .told (hrest offers)
      | known | hit | miss | save | find => cases offers _ List.mem_cons_self

namespace Dialogue
variable {σ : Type}

/-- Every read of an address is under way or has replied with what it was told about just that. -/
def ReadsOwn (s : Dialogue σ) : Prop :=
  ∀ x ∈ s.sessions, ∀ address, x.call = .read address → Reading address x.stage

variable [SharedStore σ]

theorem readsOwn_next {s : Dialogue σ} (h : s.ReadsOwn) (e : Event) : (s.next e).ReadsOwn := by
  rcases e.cases_isOfCall with ⟨c, rfl⟩ | ⟨number, rfl⟩ | hother
  · intro x hx address hcall
    rcases List.mem_append.1 hx with hold | hnew
    · exact h x hold address hcall
    · obtain rfl := List.mem_singleton.1 hnew
      obtain rfl : c = .read address := hcall
      exact .looking
  · rcases s.next_task number with ⟨hsame, -⟩ | ⟨call, stage, stage', service, hx, hstep, hnext⟩
    · rwa [hsame]
    · rw [hnext]
      intro y hy address hcall
      rcases List.mem_or_eq_of_mem_set hy with hold | rfl
      · exact h y hold address hcall
      · exact (h _ (List.mem_of_getElem? hx) address hcall).step hstep
  · intro x hx address hcall
    rw [(s.next_other hother).1] at hx
    exact h x hx address hcall

theorem readsOwn_turn (p : BackoffPolicy) {s : Dialogue σ} (h : s.ReadsOwn) (t : Turn) :
    (s.turn p t).ReadsOwn := by
  cases t with
  | event e hplain => exact readsOwn_next h e
  | lookup outcomes =>
    simp only [turn]
    split
    · exact h
    · exact readsOwn_next h _

theorem readsOwn_play (p : BackoffPolicy) {s : Dialogue σ} (h : s.ReadsOwn) (turns : List Turn) :
    (s.play p turns).ReadsOwn := by
  induction turns generalizing s with
  | nil => exact h
  | cons t rest ih => exact ih (readsOwn_turn p h t)

end Dialogue

/-! ## Sources of lookups -/

/-- What a web service answers is taken for the address that it was asked about, whatever address
it names itself. -/
theorem address_of_info? {address : String} {body : List UInt8} {info : AddressInfo}
    (h : InfoService.info? address body = some info) : info.address = address := by
  simp only [InfoService.info?, Option.bind_eq_bind, Option.bind_eq_some_iff] at h
  obtain ⟨v, -, fields, -, h⟩ := h
  split at h
  · simp only [Option.bind_eq_some_iff] at h
    obtain ⟨country, -, region, -, city, -, org, -, hinfo⟩ := h
    cases hinfo
    rfl
  · cases h

theorem address_of_conclude {U : Type} [Net.WebAddress U] {address : String}
    {r : InfoService.Request U} {exchange : InfoService.Exchange} {info : AddressInfo}
    (h : InfoService.conclude address r exchange = .ok info) : info.address = address := by
  cases exchange with
  | refused | timedOut | broken => cases h
  | answered status body =>
    simp only [InfoService.conclude] at h
    split at h
    · split at h
      · rename_i known hinfo
        cases h
        obtain ⟨bytes, -, hread⟩ := Option.bind_eq_some_iff.1 hinfo
        exact address_of_info? hread
      · cases h
    · cases h

theorem address_describe (d : Geo.Databases) (address : String) (ip : Net.IpAddress) :
    (d.describe address ip).address = address := by
  have hplace (info : AddressInfo) (v : Geo.Value) :
      (Geo.describePlace info v).address = info.address := by
    unfold Geo.describePlace
    split
    · rfl
    · split <;> rfl
  have hnetwork (info : AddressInfo) (v : Geo.Value) :
      (Geo.describeNetwork info v).address = info.address := by
    unfold Geo.describeNetwork
    split <;> rfl
  simp only [Geo.Databases.describe]
  split <;> split <;> simp [hplace, hnetwork, AddressInfo.unknown]

/-- Whatever is found about an address carries that address. -/
theorem LookupSource.address_of_resolve
    (exchange : InfoService.Request Net.Url → InfoService.Exchange) (address : String)
    (source : LookupSource) {info : AddressInfo}
    (h : source.resolve exchange address = .found info) : info.address = address := by
  cases source with
  | service service =>
    simp only [resolve, InfoService.resolve] at h
    split at h
    · rename_i known hknown
      cases h
      split at hknown
      · cases hknown
      · split at hknown
        · cases hknown
        · exact address_of_conclude hknown
    · cases h
  | databases d =>
    simp only [resolve, Geo.Databases.resolve] at h
    split at h
    · cases h
    · split at h
      · cases h
      · cases h
        exact address_describe d address _

/-! ## Whole runs -/

/-- What the cache says about an address was found by a call of the lookup for just that address, or
is that nothing is known. If what is found carries the address that was looked up, then so does
everything that is cached, read, and paired with ranked addresses; and what the sources of lookups
find does. -/
theorem infos_from_own_lookups {σ : Type} [SharedStore σ] (p : BackoffPolicy) (store : σ)
    (capacity : UInt64) (ttl : Time.Duration) (eagerTopN : UInt64) (turns : List Turn) :
    let start := Dialogue.start store ⟨capacity, ttl, []⟩ eagerTopN
    let s := start.play p turns
    (∀ address info, (address, info) ∈ s.cache.entries →
      info = .unknown address ∨ (address, .found info) ∈ start.calls p turns) ∧
    ((∀ address info, (address, .found info) ∈ start.calls p turns → info.address = address) →
      (∀ address info, (address, info) ∈ s.cache.entries → info.address = address) ∧
      (∀ number address reply, s.sessions[number]?.map Session.call = some (.read address) →
        s.reply? number = some reply →
        ∃ info, reply = .infos [(address, info)] ∧ info.address = address) ∧
      (∀ number infos, s.reply? number = some (.infos infos) →
        ∀ address info, (address, info) ∈ infos → info.address = address) ∧
      (∀ number r, s.reply? number = some (.result r) →
        ∀ a ∈ r.topAddresses, a.info.address = a.address)) ∧
    ∀ (source : LookupSource) (exchange : InfoService.Request Net.Url → InfoService.Exchange)
      (address : String) (info : AddressInfo),
      source.resolve exchange address = .found info → info.address = address := by
  intro start s
  have hstart : start.Bears (FromLookup []) := Dialogue.bears_start store capacity ttl eagerTopN
  have hall : s.Bears (FromLookup (start.calls p turns)) := Dialogue.bears_play p hstart turns
  refine ⟨hall.cache, ?_, fun source exchange address _ =>
    source.address_of_resolve exchange address⟩
  intro hfound
  have hown : s.Bears fun address info => info.address = address := by
    refine hall.mono fun address info hinfo => ?_
    rcases hinfo with rfl | hcall
    · rfl
    · exact hfound address info hcall
  have hreply {number : Nat} {reply : Reply} (h : s.reply? number = some reply) :
      reply.Bears fun address info => info.address = address := by
    obtain ⟨call, hx⟩ := Dialogue.stage_of_reply? h
    exact hown.calls _ (List.mem_of_getElem? hx)
  refine ⟨hown.cache, ?_, fun _ _ h => hreply h, fun _ _ h => hreply h⟩
  intro number address reply hcall h
  obtain ⟨call, hx⟩ := Dialogue.stage_of_reply? h
  obtain rfl : call = .read address := by simpa [hx] using hcall
  have hnone : start.ReadsOwn := fun _ hx => nomatch hx
  have hreads : s.ReadsOwn := Dialogue.readsOwn_play p hnone turns
  have hreading := hreads _ (List.mem_of_getElem? hx) address rfl
  cases hreading with
  | @done info => exact ⟨info, rfl, hreply h address info List.mem_cons_self⟩

deriving instance DecidableEq for Call

/-- The first call of the lookup is given up and the second finds something. -/
def secondTry : Nat → Outcome
  | 0 => .failed .timeout
  | _ => .found ⟨"8.8.8.8", some "US", none, none, none⟩

/-- An address is queued by an ingest, looked up, and read. -/
def retried : List Turn :=
  .event (.call (.ingest 7 (requestBatch "8.8.8.8"))) rfl ::
    List.replicate 5 (.event (.task 0) rfl) ++ List.replicate 2 (.event .worker rfl) ++
    .lookup secondTry :: List.replicate 2 (.event .worker rfl) ++
    .event (.call (.read "8.8.8.8")) rfl :: List.replicate 2 (.event (.task 1) rfl)

theorem infos_from_own_lookups_retried :
    let start := Dialogue.start MemoryStore.empty ⟨10, .ofSeconds 60, []⟩ 1
    start.calls .standard retried = [("8.8.8.8", secondTry 0), ("8.8.8.8", secondTry 1)] ∧
      (∀ address info, (address, .found info) ∈ start.calls .standard retried →
        info.address = address) ∧
      ("8.8.8.8", ⟨"8.8.8.8", some "US", none, none, none⟩) ∈
        (start.play .standard retried).cache.entries ∧
      ∃ info, (start.play .standard retried).reply? 1 = some (.infos [("8.8.8.8", info)]) ∧
        info.address = "8.8.8.8" := by
  intro start
  have hcalls : start.calls .standard retried =
      [("8.8.8.8", secondTry 0), ("8.8.8.8", secondTry 1)] := by decide +kernel
  have hfound : ∀ address info, (address, .found info) ∈ start.calls .standard retried →
      info.address = address := by
    rw [hcalls]
    simp [secondTry]
  have hcall : (start.play .standard retried).sessions[1]?.map Session.call =
      some (.read "8.8.8.8") := by decide +kernel
  have hreplied : ((start.play .standard retried).reply? 1).isSome = true := by decide +kernel
  obtain ⟨reply, hreply⟩ := Option.isSome_iff_exists.1 hreplied
  obtain ⟨-, hown, -⟩ :=
    infos_from_own_lookups .standard MemoryStore.empty 10 (.ofSeconds 60) 1 retried
  obtain ⟨info, rfl, haddress⟩ := (hown hfound).2.1 1 "8.8.8.8" reply hcall hreply
  exact ⟨hcalls, hfound, by decide +kernel, info, hreply, haddress⟩

end AccessLog.Service

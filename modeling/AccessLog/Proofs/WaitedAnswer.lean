import AccessLog.Proofs.SoleClient

/-! # The answer after a wait

A client takes a batch in, asks for the result, waits until no address is pending, and asks again.
The first result has offered every ranked address that was not cached, and what has been offered
stays pending until it is cached. So once nothing is pending every ranked address is cached, with
what its lookup has come to, and the second result says just that. -/

namespace AccessLog.Service
open AccessLog.Enrich AccessLog.Stats AccessLog.Store

theorem mem_infos {infos : List (String × AddressInfo)} {address : String} :
    infos.any (·.1 = address) = true ↔ address ∈ infos.map Prod.fst := by
  simp

/-- What a look at an entry tells. -/
theorem peek?_of_get {c c' : Cache} {address : String} {info? : Option AddressInfo}
    (h : c.get address = (info?, c')) :
    c'.peek? address = info? ∧ c.peek? address = info? := by
  have hpeek : c.peek? address = info? := (Cache.get_fst c address).symm.trans (congrArg Prod.fst h)
  obtain rfl : (c.get address).2 = c' := congrArg Prod.snd h
  exact ⟨(Cache.peek?_get _ _ _).trans hpeek, hpeek⟩

section Tasks
variable {σ : Type} [SharedStore σ] {t t' : Task} {s s' : Service σ} {names : List String}

/-- Each of these addresses is cached or pending, or the task still has to see to that. -/
def Task.SeesTo (t : Task) (p : Pipeline) (names : List String) : Prop :=
  ∀ address ∈ names, p.Covers address ∨ .offer address ∈ t.ahead ∨
    .read address ∈ t.ahead ∧ address ∉ t.infos.map Prod.fst

theorem Task.seesTo_reads (p : Pipeline) (names : List String) :
    Task.SeesTo ⟨none, names.map .read, []⟩ p names := by
  intro address hname
  exact .inr (.inr ⟨List.mem_map_of_mem hname, by simp⟩)

theorem Task.SeesTo.mono {p p' : Pipeline} (h : t.SeesTo p names)
    (hcovers : ∀ address, p.Covers address → p'.Covers address) : t.SeesTo p' names := by
  intro address hname
  exact (h address hname).imp_left (hcovers address)

theorem mem_pending_of_refused {q : WorkQueue String} {address : String}
    (h : q.claim? address = none) : address ∈ q.pending := by
  unfold WorkQueue.claim? WorkQueue.isPending at h
  split at h
  · rename_i hpending
    exact List.contains_iff_mem.1 hpending
  · cases h

/-- A step sees to the address that it is about. -/
theorem Task.Step.seesTo (h : t.Step s t' s')
    (hcovers : ∀ address, s.pipeline.Covers address → s'.pipeline.Covers address)
    (hsees : t.SeesTo s.pipeline names) : t'.SeesTo s'.pipeline names := by
  intro address hname
  rcases hsees.mono hcovers address hname with hcovered | hoffer | ⟨hread, hnew⟩
  · exact .inl hcovered
  · cases h with
    | push => exact .inr (.inl hoffer)
    | claim claimed =>
      obtain ⟨-, rfl⟩ := WorkQueue.claim?_eq_some claimed
      rcases List.mem_cons.1 hoffer with heq | hrest
      · cases heq
        exact .inl (.inr List.mem_cons_self)
      · exact .inr (.inl hrest)
    | refused refused =>
      rcases List.mem_cons.1 hoffer with heq | hrest
      · cases heq
        exact .inl (.inr (mem_pending_of_refused refused))
      · exact .inr (.inl hrest)
    | known | hit => exact .inr (.inl ((List.mem_cons.1 hoffer).resolve_left (by simp)))
    | miss =>
      have hrest := (List.mem_cons.1 hoffer).resolve_left (by simp)
      exact .inr (.inl (List.mem_cons_of_mem _ hrest))
    | save | find =>
      have hrest := (List.mem_cons.1 hoffer).resolve_left (by simp)
      exact .inr (.inl (List.mem_append_right _ hrest))
  · cases h with
    | push => exact .inr (.inr ⟨hread, hnew⟩)
    | claim | refused =>
      exact .inr (.inr ⟨(List.mem_cons.1 hread).resolve_left (by simp), hnew⟩)
    | @known _ read ahead infos known =>
      refine .inr (.inr ⟨(List.mem_cons.1 hread).resolve_left ?_, hnew⟩)
      intro heq
      cases heq
      exact hnew (mem_infos.1 known)
    | @hit _ read ahead infos info cache new found =>
      by_cases hsame : address = read
      · subst hsame
        have hpeek : cache.peek? address = some info := (peek?_of_get found).1
        exact .inl (.inl (Option.isSome_iff_exists.2 ⟨info, hpeek⟩))
      · have hrest := (List.mem_cons.1 hread).resolve_left (by simpa using hsame)
        exact .inr (.inr ⟨hrest, by simp_all⟩)
    | @miss _ read ahead infos cache new missing =>
      by_cases hsame : address = read
      · subst hsame
        exact .inr (.inl List.mem_cons_self)
      · have hrest := (List.mem_cons.1 hread).resolve_left (by simpa using hsame)
        exact .inr (.inr ⟨List.mem_cons_of_mem _ hrest, by simp_all⟩)
    | save | find =>
      have hrest := (List.mem_cons.1 hread).resolve_left (by simp)
      exact .inr (.inr ⟨List.mem_append_right _ hrest, hnew⟩)

end Tasks

/-! ## The first result -/

section Queries
variable {σ : Type} [SharedStore σ] {id topN : UInt64} {a : Analysis} {stage stage' : Stage}
  {s s' : Service σ}

/-- Where a call for the result of an analysis stands that has been found. -/
inductive Asking (id topN : UInt64) (a : Analysis) : Stage → Prop
  | finding : Asking id topN a (.finding id topN)
  | reading {t} (within : t.Within (rankedAddresses a topN)) :
      Asking id topN a (.working (.result id topN a) t)
  | done {reply} : Asking id topN a (.done reply)

theorem Asking.within (h : Asking id topN a stage) {names : List String}
    (hnames : ∀ address ∈ rankedAddresses a topN, address ∈ names) : stage.Within names := by
  cases h with
  | finding | done => trivial
  | reading within => exact within.mono hnames

/-- Each of these addresses is cached or pending by the time the call is over. -/
def Stage.SeesTo (p : Pipeline) (names : List String) : Stage → Prop
  | working _ t => t.SeesTo p names
  | done _ => ∀ address ∈ names, p.Covers address
  | saving _ | keeping _ _ | finding _ _ => True

theorem Task.within_reads (names : List String) (infos : List (String × AddressInfo)) :
    Task.Within names ⟨none, names.map .read, infos⟩ := by
  intro action haction
  obtain ⟨address, haddress, rfl⟩ := List.mem_map.1 haction
  exact ⟨address, haddress, .inr rfl⟩

theorem Asking.move (h : Asking id topN a stage)
    (hfind : AnalysisStore.find s.store id = .ok (some a)) (hmove : stage.Move s stage' s') :
    Asking id topN a stage' ∧ s'.store = s.store := by
  cases hmove with
  | ask asked =>
    cases h with
    | finding =>
      simp only [Stage.consult?, hfind] at asked
      cases asked
      exact ⟨.reading (Task.within_reads _ _), rfl⟩
    | reading | done => cases asked
  | work made =>
    cases h with
    | reading within =>
      obtain ⟨hwithin, hstore⟩ := made.within within
      exact ⟨.reading hwithin, hstore⟩
  | reply finished => exact ⟨.done, rfl⟩

theorem Stage.SeesTo.mono {p p' : Pipeline} {names : List String} (h : stage.SeesTo p names)
    (hcovers : ∀ address, p.Covers address → p'.Covers address) : stage.SeesTo p' names := by
  cases stage with
  | working goal t => exact Task.SeesTo.mono h hcovers
  | done reply => exact fun address hname => hcovers address (h address hname)
  | saving | keeping | finding => trivial

theorem Asking.seesTo (h : Asking id topN a stage)
    (hfind : AnalysisStore.find s.store id = .ok (some a)) (hmove : stage.Move s stage' s')
    (hcovers : ∀ address, s.pipeline.Covers address → s'.pipeline.Covers address)
    (hsees : stage.SeesTo s.pipeline (rankedAddresses a topN)) :
    stage'.SeesTo s'.pipeline (rankedAddresses a topN) := by
  cases hmove with
  | ask asked =>
    cases h with
    | finding =>
      simp only [Stage.consult?, hfind] at asked
      cases asked
      exact Task.seesTo_reads _ _
    | reading | done => cases asked
  | work made => exact made.seesTo hcovers hsees
  | @reply goal t _ finished =>
    have hahead := (Task.step?_eq_none finished).2
    intro address hname
    rcases hsees address hname with hcovered | hoffer | ⟨hread, -⟩
    · exact hcovered
    · rw [hahead] at hoffer
      cases hoffer
    · rw [hahead] at hread
      cases hread

/-! ## The second result -/

/-- Where a call for the result stands that comes by what is known of each ranked address. -/
inductive Gathers (known : String → Option AddressInfo) (id topN : UInt64) (a : Analysis) :
    Stage → Prop
  | finding : Gathers known id topN a (.finding id topN)
  | reading {infos names}
      (ranked : infos.map Prod.fst ++ names = rankedAddresses a topN)
      (told : ∀ e ∈ infos, known e.1 = some e.2) :
      Gathers known id topN a (.working (.result id topN a) ⟨none, names.map .read, infos⟩)
  | done {infos} (ranked : infos.map Prod.fst = rankedAddresses a topN)
      (told : ∀ e ∈ infos, known e.1 = some e.2) :
      Gathers known id topN a (.done (.result (AnalysisResult.of id a topN infos)))

namespace Gathers
variable {known : String → Option AddressInfo}

theorem within (h : Gathers known id topN a stage) {names : List String}
    (hnames : ∀ address ∈ rankedAddresses a topN, address ∈ names) : stage.Within names := by
  cases h with
  | finding | done => trivial
  | @reading infos ahead ranked told =>
    refine (Task.within_reads ahead infos).mono fun address hahead => hnames address ?_
    rw [← ranked]
    exact List.mem_append_right _ hahead

/-- With all ranked addresses cached, nothing is offered. -/
theorem move (h : Gathers known id topN a stage)
    (hfind : AnalysisStore.find s.store id = .ok (some a))
    (hcached : ∀ address ∈ rankedAddresses a topN,
      ∃ info, s.pipeline.cache.peek? address = some info ∧ known address = some info)
    (hmove : stage.Move s stage' s') :
    Gathers known id topN a stage' ∧ s'.pipeline.queue = s.pipeline.queue ∧
      s'.store = s.store := by
  cases hmove with
  | ask asked =>
    cases h with
    | finding =>
      simp only [Stage.consult?, hfind] at asked
      cases asked
      exact ⟨.reading rfl (by simp), rfl, rfl⟩
    | reading | done => cases asked
  | reply finished =>
    cases h with
    | @reading infos names ranked told =>
      obtain rfl : names = [] := by simpa using (Task.step?_eq_none finished).2
      exact ⟨.done ((List.append_nil _).symm.trans ranked) told, rfl, rfl⟩
  | @work _ t t' _ _ made =>
    cases h with
    | @reading infos names ranked told =>
      cases names with
      | nil => cases made
      | cons address rest =>
        obtain ⟨info, hpeek, hknown⟩ := hcached address (by simp [← ranked])
        cases made with
        | known known =>
          -- a ranking names no address twice
          have hnodup := nodup_rankedAddresses a topN
          rw [← ranked] at hnodup
          exact absurd List.mem_cons_self
            (List.disjoint_of_nodup_append hnodup (mem_infos.1 known))
        | hit new found =>
          rw [(peek?_of_get found).2] at hpeek
          cases hpeek
          refine ⟨.reading ?_ ?_, rfl, rfl⟩
          · simpa using ranked
          · exact List.forall_mem_append.2 ⟨told, List.forall_mem_singleton.2 hknown⟩
        | miss new missing =>
          rw [(peek?_of_get missing).2] at hpeek
          cases hpeek

end Gathers

end Queries

/-! ## The calls in a run -/

namespace Dialogue
variable {σ : Type} [SharedStore σ] {p : BackoffPolicy} {s : Dialogue σ} {olds : List Session}
  {call : Call} {id topN : UInt64} {a : Analysis} {names : List String} {past : List Deed}
  {turns : List Turn}

/-- By the time a result is there, each ranked address is cached or pending. -/
theorem asking_play (hordinary : ∀ t ∈ turns, t.isOrdinary = true)
    (hserving : s.Serving olds call (.finding id topN))
    (hfind : AnalysisStore.find s.service.store id = .ok (some a))
    (hprovides : s.Provides names past)
    (hnames : ∀ address ∈ rankedAddresses a topN, address ∈ names) :
    ∃ stage, (s.play p turns).Serving olds call stage ∧
      (s.play p turns).Provides names (past ++ s.deeds p turns) ∧
      (s.play p turns).service.store = s.service.store ∧
      stage.SeesTo (s.play p turns).service.pipeline (rankedAddresses a topN) := by
  have hend := serving_induction (p := p)
    (P := fun later s' stage => s'.Provides names (past ++ later) ∧
      s'.service.store = s.service.store ∧ Asking id topN a stage ∧
      stage.SeesTo s'.service.pipeline (rankedAddresses a topN))
    hordinary ?_ hserving ⟨by simpa using hprovides, rfl, .finding, trivial⟩
  · obtain ⟨stage, hserving', hprovides', hstore, -, hsees⟩ := hend
    exact ⟨stage, hserving', hprovides', hstore, hsees⟩
  · rintro later s₁ stage t d s₂ stage' hchange ht hserving - hattends
      ⟨hprovides, hstore, hasking, hsees⟩
    have hwithin := hserving.within (hasking.within hnames)
    have hcovers (address : String) (h : s₁.service.pipeline.Covers address) :
        s₂.service.pipeline.Covers address := hchange.covers ht hprovides hwithin h
    rw [← List.append_assoc]
    refine ⟨hchange.provides ht hprovides hwithin, ?_⟩
    cases hattends with
    | waits store => exact ⟨store.trans hstore, hasking, hsees.mono hcovers⟩
    | moves moved =>
      have hfound : AnalysisStore.find s₁.service.store id = .ok (some a) := hstore ▸ hfind
      obtain ⟨hasking', hsame⟩ := hasking.move hfound moved
      exact ⟨hsame.trans hstore, hasking', hasking.seesTo hfound moved hcovers hsees⟩

theorem Change.offered {s s' : Dialogue σ} {t : Turn} {address : String}
    (h : s.Change p t (some (.offered address)) s') : address ∈ s'.queue.pending := by
  generalize hd : some (Deed.offered address) = d at h
  cases h with
  | call | lookup | stop | forget | none => cases hd
  | @worker _ worker _ made =>
    cases hbefore : s.worker.phase <;> cases hafter : worker.phase <;>
      rw [hbefore, hafter] at hd <;> cases hd
  | @task _ _ _ _ _ service stands moved =>
    obtain ⟨hnone, _, hclaims, heq⟩ := Deed.ofClaims?_eq_some.1 hd.symm
    cases heq
    rcases moved.offering.claims hclaims with hbefore | ⟨-, hclaim⟩
    · rw [hnone] at hbefore
      cases hbefore
    · obtain ⟨-, hqueue⟩ := WorkQueue.claim?_eq_some hclaim
      show address ∈ service.pipeline.queue.pending
      rw [hqueue]
      exact List.mem_cons_self

/-- Once every ranked address is cached and nothing is pending, nothing is offered, and the result
says what is cached. -/
theorem gathering_play (hordinary : ∀ t ∈ turns, t.isOrdinary = true)
    (hserving : s.Serving olds call (.finding id topN))
    (hfind : AnalysisStore.find s.service.store id = .ok (some a))
    (hprovides : s.Provides names past)
    (hnames : ∀ address ∈ rankedAddresses a topN, address ∈ names)
    (hquiet : s.queue.pending = [])
    (hcached : ∀ address ∈ rankedAddresses a topN, (s.cache.peek? address).isSome = true) :
    ∃ stage, (s.play p turns).Serving olds call stage ∧
      (s.play p turns).queue.items = [] ∧ (s.play p turns).queue.pending = [] ∧
      (∀ address, .offered address ∉ s.deeds p turns) ∧
      Gathers s.cache.peek? id topN a stage := by
  have hend := serving_induction (p := p)
    (P := fun later s' stage => (s'.Provides names (past ++ later) ∧
      s'.service.store = s.service.store ∧ s'.queue.pending = [] ∧
      (∀ address ∈ rankedAddresses a topN,
        ∃ info, s'.cache.peek? address = some info ∧ s.cache.peek? address = some info)) ∧
      (∀ address, Deed.offered address ∉ later) ∧ Gathers s.cache.peek? id topN a stage)
    hordinary ?_ hserving
    ⟨⟨by simpa using hprovides, rfl, hquiet, ?_⟩, by simp, .finding⟩
  · obtain ⟨stage, hserving', ⟨hprovides', -, hquiet', -⟩, hoffers, hgathers⟩ := hend
    exact ⟨stage, hserving', hprovides'.balanced.items_eq_nil hquiet', hquiet', hoffers, hgathers⟩
  · rintro later s₁ stage t d s₂ stage' hchange ht hserving - hattends
      ⟨⟨hprovides, hstore, hquiet, hcached⟩, hoffers, hgathers⟩
    have hwithin : ∀ x ∈ s₁.sessions, x.stage.Within names :=
      hserving.within (hgathers.within hnames)
    have hcached' : ∀ address ∈ rankedAddresses a topN,
        ∃ info, s₂.cache.peek? address = some info ∧ s.cache.peek? address = some info := by
      intro address hname
      obtain ⟨info, hinfo, hknown⟩ := hcached address hname
      exact ⟨info, hchange.keeps ht hprovides hinfo, hknown⟩
    have hnext : s₂.service.store = s.service.store ∧ s₂.queue.pending = [] ∧
        Gathers s.cache.peek? id topN a stage' := by
      cases hattends with
      | waits store pending =>
        refine ⟨store.trans hstore, ?_, hgathers⟩
        rw [hquiet] at pending
        exact List.eq_nil_iff_forall_not_mem.2 fun address hmem => nomatch pending address hmem
      | moves moved =>
        obtain ⟨hgathers', hqueue, hsame⟩ := hgathers.move (hstore ▸ hfind) hcached moved
        exact ⟨hsame.trans hstore, (congrArg WorkQueue.pending hqueue).trans hquiet, hgathers'⟩
    obtain ⟨hstore', hquiet', hgathers'⟩ := hnext
    rw [← List.append_assoc]
    refine ⟨⟨hchange.provides ht hprovides hwithin, hstore', hquiet', hcached'⟩, ?_, hgathers'⟩
    intro address hmem
    rcases List.mem_append.1 hmem with hmem | hmem
    · exact hoffers address hmem
    · rw [Option.mem_toList] at hmem
      have hpending := (hmem ▸ hchange).offered
      rw [hquiet'] at hpending
      cases hpending
  · intro address hname
    obtain ⟨info, hinfo⟩ := Option.isSome_iff_exists.1 (hcached address hname)
    exact ⟨info, hinfo, hinfo⟩

end Dialogue

/-! ## The whole sequence -/

/-- A result names the addresses of the ranking, each with what was read about it. -/
theorem address_topAddresses (id : UInt64) (a : Analysis) (topN : UInt64)
    (infos : List (String × AddressInfo)) :
    (AnalysisResult.of id a topN infos).topAddresses.map RankedAddress.address =
      rankedAddresses a topN := by
  rw [AnalysisResult.of, List.map_map]
  rfl

theorem info_topAddresses {id : UInt64} {a : Analysis} {topN : UInt64}
    {infos : List (String × AddressInfo)} (hranked : infos.map Prod.fst = rankedAddresses a topN)
    {ranked : RankedAddress} (h : ranked ∈ (AnalysisResult.of id a topN infos).topAddresses) :
    (ranked.address, ranked.info) ∈ infos := by
  have haddress : ranked.address ∈ infos.map Prod.fst := by
    rw [hranked, ← address_topAddresses id a topN infos]
    exact List.mem_map_of_mem h
  obtain ⟨item, -, rfl⟩ := List.mem_map.1 h
  simp only [pairWith] at haddress ⊢
  cases hlookup : infos.lookup item.value with
  | none =>
    obtain ⟨e, hmem, heq⟩ := List.mem_map.1 haddress
    have hother := List.lookup_eq_none_iff.1 hlookup e hmem
    simp [heq] at hother
  | some info =>
    obtain ⟨before, after, rfl, -⟩ := List.lookup_eq_some_iff.1 hlookup
    exact List.mem_append_right _ List.mem_cons_self

/-- Once a result is there and nothing is pending, every ranked address is cached. -/
theorem Dialogue.waited_play {σ : Type} [SharedStore σ] {p : BackoffPolicy} {s : Dialogue σ}
    {olds : List Session} {call : Call} {reply : Reply} {id topN : UInt64} {a : Analysis}
    {names : List String} {past : List Deed} {asking waiting : List Turn}
    {looks : List (List Turn)} {first : AnalysisResult}
    (hasking : ∀ t ∈ asking, t.isOrdinary = true)
    (hlooks : ∀ t ∈ looks.flatten, t.isOrdinary = true)
    (hserving : s.Serving olds call (.done reply))
    (hfind : AnalysisStore.find s.service.store id = .ok (some a))
    (hprovides : s.Provides names past)
    (hnames : ∀ address ∈ rankedAddresses a topN, address ∈ names) :
    let query : Turn := .event (.call (.result id topN)) rfl
    let asked := s.play p (query :: asking)
    let settled := asked.play p waiting
    asked.reply? (olds.length + 1) = some (.result first) → asked.await? p looks = some waiting →
    settled.Serving (olds ++ [⟨call, .done reply⟩]) (.result id topN) (.done (.result first)) ∧
      settled.Provides names (past ++ s.deeds p (query :: asking ++ waiting)) ∧
      AnalysisStore.find settled.service.store id = .ok (some a) ∧ settled.queue.pending = [] ∧
      ∀ address ∈ rankedAddresses a topN, (settled.cache.peek? address).isSome = true := by
  intro query asked settled hfirst hwaited
  obtain ⟨hquiet, hpassed⟩ := await?_eq_some hwaited
  have hwaiting : ∀ t ∈ waiting, t.isOrdinary = true := fun t ht => hlooks t (hpassed.subset ht)
  have hlength : (olds ++ [(⟨call, .done reply⟩ : Session)]).length = olds.length + 1 :=
    List.length_append
  have hcalled := hserving.next_call (.result id topN)
  obtain ⟨_, hasked, -, -, -⟩ :=
    asking_play (p := p) hasking hcalled hfind (hprovides.call _) hnames
  obtain rfl := hasked.stage_of_reply? (hlength ▸ hfirst)
  have hsettled := done_play (p := p) hwaiting hasked
  obtain ⟨stage, hserving', hprovides', hstore, hsees⟩ := asking_play (p := p)
    (List.forall_mem_append.2 ⟨hasking, hwaiting⟩) hcalled hfind (hprovides.call _) hnames
  rw [play_append] at hserving' hprovides' hstore hsees
  obtain rfl := hserving'.unique hsettled
  refine ⟨hsettled, hprovides', hstore ▸ hfind, hquiet, fun address hname => ?_⟩
  refine (hsees address hname).resolve_right fun hmem => ?_
  have hnone : address ∈ settled.queue.pending := hmem
  rw [hquiet] at hnone
  cases hnone

/-- What has been taken in is found again, and the cache has room for all that is offered. -/
theorem Dialogue.accepted_play (p : BackoffPolicy) (store : AnyStore) {capacity : UInt64}
    {ttl : Time.Duration} {eagerTopN id topN : UInt64} (hlives : ttl.nanos ≠ 0)
    (heager : eagerTopN ≤ capacity) (htop : topN ≤ capacity) {createdAt : Int64}
    {reads : List Log.Read} {taking : List Turn}
    (hordinary : ∀ t ∈ taking, t.isOrdinary = true) {saved : Analysis} :
    let start := Dialogue.start store ⟨capacity, ttl, []⟩ eagerTopN
    let turns := .event (.call (.ingest createdAt reads)) rfl :: taking
    (start.play p turns).reply? 0 = some (.accepted saved) → saved.id = some id →
    ∃ names, (start.play p turns).Serving [] (.ingest createdAt reads) (.done (.accepted saved)) ∧
      (start.play p turns).Provides names (start.deeds p turns) ∧
      AnalysisStore.find (start.play p turns).service.store id = .ok (some saved) ∧
      ∀ address ∈ rankedAddresses saved topN, address ∈ names := by
  intro start turns haccepted hid
  have hnone : ∀ x ∈ ([] : List Session), ∃ reply, x.stage = .done reply := by simp
  have hserving : (start.turn p (.event (.call (.ingest createdAt reads)) rfl)).Serving []
      (.ingest createdAt reads) (.ofCall (.ingest createdAt reads)) := ⟨rfl, hnone⟩
  cases haggregate : aggregate createdAt reads with
  | error f =>
    have hcall : Stage.ofCall (.ingest createdAt reads) = .done (.failed (batchFailure f)) := by
      simp only [Stage.ofCall, haggregate]
    rw [hcall] at hserving
    have hfailed := (Dialogue.done_play (p := p) hordinary hserving).stage_of_reply? haccepted
    cases hfailed
  | ok a =>
    have hcall : Stage.ofCall (.ingest createdAt reads) = .saving a := by
      simp only [Stage.ofCall, haggregate]
    rw [hcall] at hserving
    have hprovides := (Dialogue.provides_start store eagerTopN hlives
      (length_rankedAddresses_le a capacity)).call (.ingest createdAt reads)
    obtain ⟨stage, hserving', hprovides', htaking⟩ := Dialogue.taking_play (p := p) hordinary
      hserving (recalls_anyStore store) heager hprovides
    obtain rfl := hserving'.stage_of_reply? haccepted
    cases htaking with
    | accepted kept =>
      obtain ⟨hfind, haddresses⟩ := recalls_anyStore store a _ _ _ kept hid
      refine ⟨_, hserving', hprovides', hfind, ?_⟩
      rw [rankedAddresses_congr haddresses]
      exact (rankedAddresses_mono a htop).subset

/-- What a client is told of an address in the end: what the one lookup of it has come to. -/
def ToldBy (p : BackoffPolicy) (turns : List Turn) (deeds : List Deed) (address : String)
    (info : AddressInfo) : Prop :=
  ∃ outcomes, .lookup outcomes ∈ turns ∧
    resultsOf address deeds = [(p.trace address outcomes).result] ∧
    info = told address (outcomes ((p.trace address outcomes).calls - 1))

/-- What is cached is what the one lookup has come to. -/
theorem Dialogue.Provides.toldBy {σ : Type} [SharedStore σ] {p : BackoffPolicy}
    {start s : Dialogue σ} {turns : List Turn} {names : List String} {address : String}
    {info : AddressInfo} (h : s.Provides names (start.deeds p turns))
    (hpeek : s.cache.peek? address = some info) :
    ToldBy p turns (start.deeds p turns) address info := by
  have hknown := h.known address
  rw [hpeek] at hknown
  generalize s.worker.phase = phase at hknown
  generalize hresults : resultsOf address (start.deeds p turns) = results at hknown
  cases hknown with
  | @cached _ result =>
    have hmem : result ∈ resultsOf address (start.deeds p turns) :=
      hresults ▸ List.mem_singleton_self _
    obtain ⟨outcomes, hturn, rfl⟩ := settled_play p start turns hmem
    exact ⟨outcomes, hturn, hresults, settled_trace_eq p address outcomes⟩

/-- A batch is taken in, its result is asked for, the client waits until no address is pending, and
asks again; a call may take its first step as late as it likes. With enough room in the cache, and
nothing lost from it, the second result says of every ranked address what is cached when it is asked
for, and that is what the one lookup of the address has come to by then; nothing is offered any
more. -/
theorem waited_answer_complete (p : BackoffPolicy) (store : AnyStore) (capacity : UInt64)
    (ttl : Time.Duration) (eagerTopN id topN : UInt64) (heager : eagerTopN ≤ capacity)
    (htop : topN ≤ capacity) (hlives : ttl.nanos ≠ 0) (createdAt : Int64) (reads : List Log.Read)
    (taking asking waiting later : List Turn) (looks : List (List Turn))
    (hordinary : ∀ t ∈ taking ++ asking ++ looks.flatten ++ later, t.isOrdinary = true)
    (saved : Analysis) (first : AnalysisResult) :
    let start := Dialogue.start store ⟨capacity, ttl, []⟩ eagerTopN
    let ingest : Turn := .event (.call (.ingest createdAt reads)) rfl
    let query : Turn := .event (.call (.result id topN)) rfl
    let taken := start.play p (ingest :: taking)
    let asked := taken.play p (query :: asking)
    let settled := asked.play p waiting
    let final := settled.play p (query :: later)
    let before := (ingest :: taking) ++ (query :: asking ++ waiting)
    taken.reply? 0 = some (.accepted saved) → saved.id = some id →
    asked.reply? 1 = some (.result first) → asked.await? p looks = some waiting →
    ((Call.result id topN).patience eagerTopN ≤ later.countP (Turn.isStepOf 2) →
      ∃ reply, final.reply? 2 = some reply) ∧
    (∀ reply, final.reply? 2 = some reply → ∃ r, reply = .result r ∧
      r.topAddresses.map RankedAddress.address = rankedAddresses saved topN ∧
      ∀ ranked ∈ r.topAddresses, settled.cache.peek? ranked.address = some ranked.info ∧
        ToldBy p before (start.deeds p before) ranked.address ranked.info) ∧
    (∀ address, .offered address ∉ settled.deeds p (query :: later)) ∧
    final.queue.items = [] ∧ final.queue.pending = [] := by
  intro start ingest query taken asked settled final before haccepted hid hfirst hwaited
  have htaking : ∀ t ∈ taking, t.isOrdinary = true := fun t ht => hordinary t (by simp [ht])
  have hasking : ∀ t ∈ asking, t.isOrdinary = true := fun t ht => hordinary t (by simp [ht])
  have hlater : ∀ t ∈ later, t.isOrdinary = true := fun t ht => hordinary t (by simp [ht])
  have hlooks : ∀ t ∈ looks.flatten, t.isOrdinary = true := fun t ht =>
    hordinary t (List.mem_append_left _ (List.mem_append_right _ ht))
  obtain ⟨names, hserving, hprovides, hfind, hnames⟩ :=
    Dialogue.accepted_play p store hlives heager htop htaking haccepted hid
  obtain ⟨hsettled, hprovides, hfind, hquiet, hcached⟩ :=
    Dialogue.waited_play hasking hlooks hserving hfind hprovides hnames hfirst hwaited
  have hcalled := hsettled.next_call (.result id topN)
  obtain ⟨stage, hfinal, hitems, hpending, hoffers, hgathers⟩ :=
    Dialogue.gathering_play (p := p) hlater hcalled hfind (hprovides.call _) hnames hquiet hcached
  have hdeeds : start.deeds p before =
      start.deeds p (ingest :: taking) ++ taken.deeds p (query :: asking ++ waiting) :=
    start.deeds_append p _ _
  have hprovided : settled.Provides names (start.deeds p before) := by
    rw [hdeeds]
    exact hprovides
  refine ⟨?_, ?_, hoffers, hitems, hpending⟩
  · intro hturns
    have hreplied := Dialogue.replied_play (c := .result id topN) p hcalled.last hturns
    exact hreplied
  · intro reply hreply
    obtain rfl := hfinal.stage_of_reply? hreply
    cases hgathers with
    | @done infos ranked told =>
      refine ⟨_, rfl, address_topAddresses id saved topN infos, ?_⟩
      intro entry hentry
      have hpeek := told _ (info_topAddresses ranked hentry)
      exact ⟨hpeek, hprovided.toldBy hpeek⟩

deriving instance DecidableEq for Reply

/-- What is stored of a batch of one request. -/
def oneRequest : Analysis := ((Aggregator.empty.count "/a" "8.8.8.8" 200).finish 7).withId 1

/-- The client looks at once, while a lookup is under way that finds something when it is tried
again, and when the worker is done. -/
def threeLooks : List (List Turn) :=
  [[],
    List.replicate 2 (.event .worker (.refl false)) ++ [.lookup fun i =>
      if i = 0 then .failed .timeout else .found ⟨"8.8.8.8", some "US", none, none, none⟩],
    List.replicate 3 (.event .worker (.refl false))]

theorem waited_answer_complete_threeLooks :
    let start := Dialogue.start (.inl .empty : AnyStore) ⟨10, .ofSeconds 60, []⟩ 0
    let query : Turn := .event (.call (.result 1 1)) rfl
    let taken := start.play .standard (.event (.call (.ingest 7 (requestBatch "8.8.8.8"))) rfl ::
      List.replicate 3 (.event (.task 0) rfl))
    let asked := taken.play .standard (query :: List.replicate 5 (.event (.task 1) rfl))
    let settled := asked.play .standard threeLooks.flatten
    let final := settled.play .standard (query :: List.replicate 5 (.event (.task 2) rfl))
    taken.reply? 0 = some (.accepted oneRequest) ∧ oneRequest.id = some 1 ∧
      asked.reply? 1 = some (.result (.of 1 oneRequest 1 [("8.8.8.8", .unknown "8.8.8.8")])) ∧
      asked.await? .standard threeLooks = some threeLooks.flatten ∧
      ∃ r, final.reply? 2 = some (.result r) ∧
        r.topAddresses.map RankedAddress.address = ["8.8.8.8"] ∧
        ∀ ranked ∈ r.topAddresses, ranked.info = ⟨"8.8.8.8", some "US", none, none, none⟩ := by
  have hcomplete := waited_answer_complete .standard (.inl .empty) 10 (.ofSeconds 60) 0 1 1
    (by decide) (by decide) (by decide) 7 (requestBatch "8.8.8.8")
    (List.replicate 3 (.event (.task 0) rfl)) (List.replicate 5 (.event (.task 1) rfl))
    threeLooks.flatten (List.replicate 5 (.event (.task 2) rfl)) threeLooks (by decide)
    oneRequest (.of 1 oneRequest 1 [("8.8.8.8", .unknown "8.8.8.8")])
  dsimp only at hcomplete ⊢
  refine ⟨?taken, rfl, ?asked, ?waited, ?answer⟩
  case answer =>
    obtain ⟨hreplied, hanswer, -⟩ := hcomplete ?taken rfl ?asked ?waited
    obtain ⟨reply, hreply⟩ := hreplied (by decide)
    obtain ⟨r, rfl, haddresses, hinfos⟩ := hanswer reply hreply
    have hranked : r.topAddresses.map RankedAddress.address = ["8.8.8.8"] :=
      haddresses.trans (by decide +kernel)
    refine ⟨r, hreply, hranked, fun ranked hmem => ?_⟩
    have hsame : ranked.address = "8.8.8.8" := by
      have haddress := List.mem_map_of_mem (f := RankedAddress.address) hmem
      rwa [hranked, List.mem_singleton] at haddress
    obtain ⟨hpeek, -⟩ := hinfos ranked hmem
    rw [hsame] at hpeek
    exact Option.some.inj (hpeek.symm.trans (by decide +kernel))
  case taken => decide +kernel
  case asked => decide +kernel
  case waited =>
    rw [threeLooks, Dialogue.await?, if_neg (by decide +kernel), Dialogue.await?,
      if_neg (by decide +kernel), Dialogue.await?, if_pos (by decide +kernel)]
    rfl

end AccessLog.Service

import AccessLog.Proofs.CallLedger

/-! # Lookups that cannot be seen

Two runs of the service with the same calls give the same replies, apart from the infos in them, as
their ledgers are the same. When calls are made one after the other, that ledger is the one of a
service to which nothing else happens. -/

namespace AccessLog.Service
open AccessLog.Enrich AccessLog.Log AccessLog.Stats AccessLog.Store

/-! ## One call after the other -/

section Alone
variable {σ : Type} [AnalysisStore σ]

/-- What the service says to a call in one go. -/
def tell (s : Service σ) : Call → Reply × Service σ
  | .read address =>
    let (info, pipeline) := s.pipeline.read address
    (.infos [(address, info)], { s with pipeline })
  | .readAll addresses =>
    let (infos, pipeline) := s.pipeline.readAll addresses
    (.infos infos, { s with pipeline })
  | .ingest createdAt reads => (.ofIngest (s.ingest createdAt reads).1, (s.ingest createdAt reads).2)
  | .result id topN => (.ofResult (s.result id topN).1, (s.result id topN).2)

/-- What it says to calls when nothing else happens, no lookup either. -/
def tellAll (s : Service σ) : List Call → List Reply
  | [] => []
  | c :: rest => (s.tell c).1 :: tellAll (s.tell c).2 rest

theorem eagerTopN_tell (s : Service σ) (c : Call) : (s.tell c).2.eagerTopN = s.eagerTopN := by
  cases c with
  | read address | readAll addresses => rfl
  | ingest createdAt reads =>
    simp only [tell, ingest, accept]
    split
    · rfl
    · split
      · rfl
      · split <;> rfl
  | result id topN =>
    simp only [tell, result]
    split <;> rfl

end Alone

namespace Ledger
variable {σ : Type} [SharedStore σ] {eagerTopN : UInt64}

/-- Let the call that was made last ask all that it has to ask. -/
def serve (eagerTopN : UInt64) (d : Ledger σ) : Ledger σ :=
  (d.visit eagerTopN (d.stages.length - 1)).visit eagerTopN (d.stages.length - 1)

/-- Let calls be made and served in turn. -/
def serveAll (eagerTopN : UInt64) (d : Ledger σ) (calls : List Call) : Ledger σ :=
  calls.foldl (fun d c => (d.add c).serve eagerTopN) d

theorem asks_visit_ne {d : Ledger σ} {number other : Nat} (h : other ≠ number) :
    (d.visit eagerTopN number).asks other = d.asks other := by
  simp only [asks, stages_visit_ne h]

/-- Nothing is asked a third time. -/
theorem asks_visit_visit (d : Ledger σ) (number : Nat) :
    ((d.visit eagerTopN number).visit eagerTopN number).asks number = 0 := by
  have htwice := d.asks_le_two number
  by_cases h : d.asks number = 0
  · rw [visit_of_asks h, visit_of_asks h, h]
  · have hless : (d.visit eagerTopN number).asks number < d.asks number := asks_visit_lt h
    by_cases h' : (d.visit eagerTopN number).asks number = 0
    · rw [visit_of_asks h', h']
    · have hless' : ((d.visit eagerTopN number).visit eagerTopN number).asks number <
          (d.visit eagerTopN number).asks number := asks_visit_lt h'
      omega

theorem serve_of_asks {d : Ledger σ} (h : d.asks (d.stages.length - 1) = 0) :
    d.serve eagerTopN = d := by
  rw [serve, visit_of_asks h, visit_of_asks h]

/-- Serving a call goes on where it was left. -/
theorem serve_visit_last (d : Ledger σ) :
    (d.visit eagerTopN (d.stages.length - 1)).serve eagerTopN = d.serve eagerTopN := by
  rw [serve, length_visit]
  exact visit_of_asks (asks_visit_visit d _)

/-- Let the stage at the end ask the store. -/
theorem visit_last {store store' : σ} {stages : List Stage} {stage stage' : Stage}
    (hasked : stage.consult? eagerTopN store = some (stage', store')) :
    (⟨store, stages ++ [stage.bare]⟩ : Ledger σ).visit eagerTopN stages.length =
      ⟨store', stages ++ [stage'.bare]⟩ := by
  have hbare : stage.bare.consult? eagerTopN store = some (stage', store') := by
    rw [Stage.consult?_bare, hasked]
  rw [visit_of_consult List.getElem?_concat_length hbare]
  simp

theorem visit_settled {store : σ} {stages : List Stage} {stage : Stage} (h : stage.asks = 0) :
    (⟨store, stages ++ [stage.bare]⟩ : Ledger σ).visit eagerTopN stages.length =
      ⟨store, stages ++ [stage.bare]⟩ :=
  visit_of_asks (by simp [asks, h])

theorem serve_settled {store : σ} {stages : List Stage} {stage : Stage} (h : stage.asks = 0) :
    (⟨store, stages ++ [stage.bare]⟩ : Ledger σ).serve eagerTopN =
      ⟨store, stages ++ [stage.bare]⟩ :=
  serve_of_asks (by simp [asks, h])

theorem serve_last (store : σ) (stages : List Stage) (stage : Stage) :
    (⟨store, stages ++ [stage]⟩ : Ledger σ).serve eagerTopN =
      ((⟨store, stages ++ [stage]⟩ : Ledger σ).visit eagerTopN stages.length).visit eagerTopN
        stages.length := by
  have hlast : (stages ++ [stage]).length - 1 = stages.length := by simp
  rw [serve, hlast]

theorem bare_afterSave {s : Service σ} {a : Analysis} {answer : Except StoreError Analysis}
    {store : σ} (h : AnalysisStore.save s.store a = (answer, store)) :
    (Stage.afterSave s.eagerTopN answer).bare = .done (.ofIngest (s.accept a).1) ∧
      (s.accept a).2.store = store := by
  cases answer with
  | error e =>
    simp only [accept, h]
    exact ⟨rfl, trivial⟩
  | ok saved =>
    cases hid : saved.id <;> simp only [accept, h, hid, Stage.afterSave, Stage.afterKeep] <;>
      exact ⟨rfl, trivial⟩

theorem bare_afterQuery (s : Service σ) (id topN : UInt64) :
    (Stage.afterQuery id topN (AnalysisStore.find s.store id)).bare =
        .done (Reply.ofResult (s.result id topN).1).bare ∧
      (s.result id topN).2.store = s.store := by
  cases hfind : AnalysisStore.find s.store id with
  | error e =>
    simp only [result, hfind]
    exact ⟨rfl, trivial⟩
  | ok found =>
    cases found with
    | none =>
      simp only [result, hfind]
      exact ⟨rfl, trivial⟩
    | some a =>
      simp only [result, hfind]
      exact ⟨congrArg Stage.done ((Goal.result id topN a).bare_reply _).symm, trivial⟩

theorem serve_ingest (s : Service σ) (stages : List Stage) (createdAt : Int64) (reads : List Read) :
    ((⟨s.store, stages⟩ : Ledger σ).add (.ingest createdAt reads)).serve s.eagerTopN =
      ⟨(s.ingest createdAt reads).2.store,
        stages ++ [.done (.ofIngest (s.ingest createdAt reads).1)]⟩ := by
  rw [add, serve_last]
  cases hbatch : aggregate createdAt reads with
  | error fault =>
    have hcall : Stage.ofCall (.ingest createdAt reads) = .done (.failed (batchFailure fault)) := by
      simp only [Stage.ofCall, hbatch]
    rw [hcall, visit_settled rfl, visit_settled rfl]
    simp only [ingest, hbatch]
    rfl
  | ok a =>
    have hcall : Stage.ofCall (.ingest createdAt reads) = .saving a := by
      simp only [Stage.ofCall, hbatch]
    have hsave := SharedStore.save_eq s.store a
    rcases hbegin : SharedStore.begin s.store a with ⟨answer | ⟨id, b⟩, store⟩
    · have hasked : (Stage.saving a).consult? s.eagerTopN s.store =
          some (.afterSave s.eagerTopN answer, store) := by
        simp only [Stage.consult?, hbegin]
        rfl
      simp only [hbegin] at hsave
      obtain ⟨hbare, hstore⟩ := bare_afterSave hsave
      rw [hcall, visit_last hasked, visit_settled (Stage.afterSave_spec _ _).2.1, hbare]
      simp only [ingest, hbatch, hstore]
    · have hasked : (Stage.saving a).consult? s.eagerTopN s.store = some (.keeping id b, store) := by
        simp only [Stage.consult?, hbegin]
        rfl
      simp only [hbegin] at hsave
      obtain ⟨hbare, hstore⟩ := bare_afterSave hsave
      rw [hcall, visit_last hasked, visit_last rfl, hbare]
      simp only [ingest, hbatch, hstore]

theorem serve_result (s : Service σ) (stages : List Stage) (id topN : UInt64) :
    ((⟨s.store, stages⟩ : Ledger σ).add (.result id topN)).serve s.eagerTopN =
      ⟨(s.result id topN).2.store,
        stages ++ [.done (Reply.ofResult (s.result id topN).1).bare]⟩ := by
  have hasked : (Stage.finding id topN).consult? s.eagerTopN s.store =
      some (.afterQuery id topN (AnalysisStore.find s.store id), s.store) := rfl
  obtain ⟨hbare, hstore⟩ := bare_afterQuery s id topN
  rw [add, serve_last]
  show ((⟨s.store, stages ++ [(Stage.finding id topN).bare]⟩ : Ledger σ).visit _ _).visit _ _ = _
  rw [visit_last hasked, visit_settled (Stage.afterQuery_spec s.eagerTopN id topN _).2.1, hbare,
    hstore]

/-- A call that is served is told what the service says in one go. -/
theorem serve_add (s : Service σ) (stages : List Stage) (c : Call) :
    ((⟨s.store, stages⟩ : Ledger σ).add c).serve s.eagerTopN =
      ⟨(s.tell c).2.store, stages ++ [.done (s.tell c).1.bare]⟩ := by
  cases c with
  | read address => exact serve_settled rfl
  | readAll addresses => exact serve_settled rfl
  | ingest createdAt reads =>
    rw [serve_ingest]
    simp only [tell]
    cases (s.ingest createdAt reads).1 <;> rfl
  | result id topN => exact serve_result s stages id topN

theorem serveAll_eq (s : Service σ) (stages : List Stage) (calls : List Call) :
    (serveAll s.eagerTopN ⟨s.store, stages⟩ calls).stages =
      stages ++ (s.tellAll calls).map fun reply => .done reply.bare := by
  induction calls generalizing s stages with
  | nil => simp [serveAll, tellAll]
  | cons c rest ih =>
    have hrest := ih (s.tell c).2 (stages ++ [.done (s.tell c).1.bare])
    rw [eagerTopN_tell] at hrest
    show (serveAll _ (((⟨s.store, stages⟩ : Ledger σ).add c).serve _) rest).stages = _
    rw [serve_add, hrest]
    simp [tellAll]

/-- The ledger of calls that are served in turn, of which the last may have something to ask yet. -/
structure Served (eagerTopN : UInt64) (store : σ) (d : Ledger σ) (calls : List Call) : Prop where
  served : d.serve eagerTopN = serveAll eagerTopN ⟨store, []⟩ calls
  earlier : ∀ number, number + 1 < d.stages.length → d.asks number = 0

namespace Served
variable {store : σ} {d : Ledger σ} {calls : List Call}

theorem add (h : Served eagerTopN store d calls) (hover : ∀ number, d.asks number = 0) (c : Call) :
    Served eagerTopN store (d.add c) (calls ++ [c]) := by
  refine ⟨?_, ?_⟩
  · rw [serveAll, List.foldl_append]
    show _ = ((serveAll eagerTopN ⟨store, []⟩ calls).add c).serve eagerTopN
    rw [← h.served, serve_of_asks (hover _)]
  · intro number hlt
    simp only [Ledger.add, List.length_append, List.length_singleton] at hlt
    rw [asks_add (by omega), hover]

theorem visit (h : Served eagerTopN store d calls) (number : Nat) :
    Served eagerTopN store (d.visit eagerTopN number) calls := by
  by_cases hasks : d.asks number = 0
  · rwa [visit_of_asks hasks]
  · obtain rfl : number = d.stages.length - 1 := by
      have hlt := lt_of_asks hasks
      have hlast : ¬ number + 1 < d.stages.length := fun hless => hasks (h.earlier number hless)
      omega
    refine ⟨(serve_visit_last d).trans h.served, ?_⟩
    intro other hother
    rw [length_visit] at hother
    rw [asks_visit_ne (by omega), h.earlier other hother]

/-- What a call has been told is what it is told when the calls are served in turn. -/
theorem settled (h : Served eagerTopN store d calls) {number : Nat} {reply : Reply}
    (hx : d.stages[number]? = some (.done reply)) :
    (serveAll eagerTopN ⟨store, []⟩ calls).stages[number]? = some (.done reply) := by
  rw [← h.served]
  exact settled_visitAll hx [d.stages.length - 1, d.stages.length - 1]

end Served

end Ledger

namespace Dialogue
variable {σ : Type} [SharedStore σ]

/-- A call is made when the ones before it have their replies. -/
def InTurn (s : Dialogue σ) (events : List Event) : Prop :=
  ∀ n (h : n < events.length), events[n].call?.isSome = true →
    ∀ x ∈ (s.run (events.take n)).sessions, x.reply?.isSome = true

instance (s : Dialogue σ) (events : List Event) : Decidable (s.InTurn events) :=
  inferInstanceAs (Decidable (∀ n (h : n < events.length), events[n].call?.isSome = true →
    ∀ x ∈ (s.run (events.take n)).sessions, x.reply?.isSome = true))

theorem InTurn.before {s : Dialogue σ} {events : List Event} {e : Event}
    (h : s.InTurn (events ++ [e])) : s.InTurn events := by
  intro n hn hcall
  have hlonger : n < (events ++ [e]).length := by
    rw [List.length_append]
    omega
  have hover := h n hlonger (by rwa [List.getElem_append_left hn])
  rwa [List.take_append_of_le_length (Nat.le_of_lt hn)] at hover

theorem InTurn.last {s : Dialogue σ} {events : List Event} {c : Call}
    (h : s.InTurn (events ++ [.call c])) :
    ∀ x ∈ (s.run events).sessions, x.reply?.isSome = true := by
  have hover := h events.length (by simp) (by simp [Event.call?])
  rwa [List.take_left] at hover

theorem served_run (store : σ) (cache : Cache) {eagerTopN : UInt64} {events : List Event}
    (h : (start store cache eagerTopN).InTurn events) :
    Ledger.Served eagerTopN store ((start store cache eagerTopN).run events).ledger
      (callsOf events) := by
  induction events using List.reverseRecOn with
  | nil => exact ⟨rfl, fun _ hlt => absurd hlt (Nat.not_lt_zero _)⟩
  | append_singleton events e ih =>
    have hserved := ih h.before
    have hlight := isLight_run (isLight_start store cache eagerTopN) events
    have heager : ((start store cache eagerTopN).run events).service.eagerTopN = eagerTopN :=
      eagerTopN_run _ _
    have hcalls : callsOf (events ++ [e]) = callsOf events ++ e.call?.toList := by
      rw [callsOf, List.filterMap_append]
      exact congrArg _ ((callsOf_cons e []).trans (List.append_nil _))
    rw [run_append]
    show Ledger.Served _ _ (next _ e).ledger _
    rw [ledger_next hlight, heager, hcalls]
    rcases e.cases_isOfCall with ⟨c, rfl⟩ | ⟨number, rfl⟩ | hother
    · exact hserved.add (asks_of_replied h.last) c
    · rw [Event.call?, Option.toList_none, List.append_nil]
      exact hserved.visit number
    · rw [Ledger.next_other hother, Event.call?_of_isOfCall hother, Option.toList_none,
        List.append_nil]
      exact hserved

end Dialogue

/-! ## Two runs -/

namespace Dialogue
variable {σ : Type}

/-- A call has failed when the ledger says so. -/
theorem reply?_eq_failed {s : Dialogue σ} {number : Nat} {f : Failure} :
    s.reply? number = some (.failed f) ↔
      s.ledger.stages[number]? = some (.done (.failed f)) := by
  refine ⟨ledger_of_reply?, ?_⟩
  intro h
  cases hx : s.sessions[number]? with
  | none => simp [ledger, hx] at h
  | some x =>
    obtain ⟨call, stage⟩ := x
    have hbare := Option.some.inj ((getElem?_ledger hx).symm.trans h)
    cases stage with
    | saving | keeping | finding => cases hbare
    | working goal t => cases goal <;> cases hbare
    | done reply =>
      obtain rfl := Reply.bare_eq_failed.1 (Stage.done.inj hbare)
      simp [reply?, hx, Session.reply?]

variable [SharedStore σ]

theorem ledger_filter (d : Ledger σ) (eagerTopN : UInt64) (events : List Event) :
    d.run eagerTopN (events.filter Event.isOfCall) = d.run eagerTopN events := by
  induction events generalizing d with
  | nil => rfl
  | cons e rest ih =>
    cases h : e.isOfCall with
    | true =>
      rw [List.filter_cons_of_pos h]
      exact ih _
    | false =>
      rw [List.filter_cons_of_neg (by simp [h]), ih]
      show _ = (d.next eagerTopN e).run eagerTopN rest
      rw [Ledger.next_other h]

end Dialogue

/-- Every call is answered once it has had its turns. Of two runs with the same calls, made one
after the other or asking the store in one order, the replies are the same apart from the infos in
them, whatever is cached and whatever the lookups come to. Calls made one after the other are told
what the service says to them with no lookup at all, and a call fails only as it would have failed
without a worker. -/
theorem lookups_unseen {σ : Type} [SharedStore σ] (store : σ) (eagerTopN : UInt64) :
    (∀ (cache : Cache) (before : List Event) (c : Call) (later : List Event),
      c.patience eagerTopN ≤ turnsOf (callsOf before).length later →
      ∃ reply, ((Dialogue.start store cache eagerTopN).run (before ++ .call c :: later)).reply?
        (callsOf before).length = some reply) ∧
    (∀ (cache₁ cache₂ : Cache) (events₁ events₂ : List Event),
      let start₁ := Dialogue.start store cache₁ eagerTopN
      let start₂ := Dialogue.start store cache₂ eagerTopN
      callsOf events₁ = callsOf events₂ →
      (start₁.InTurn events₁ ∧ start₂.InTurn events₂) ∨
        start₁.visits events₁ <+: start₂.visits events₂ ∨
        start₂.visits events₂ <+: start₁.visits events₁ →
      ∀ (number : Nat) (reply₁ reply₂ : Reply),
        (start₁.run events₁).reply? number = some reply₁ →
        (start₂.run events₂).reply? number = some reply₂ → reply₁.bare = reply₂.bare) ∧
    (∀ (cache : Cache) (pipeline : Pipeline) (events : List Event),
      (Dialogue.start store cache eagerTopN).InTurn events →
      ∀ (number : Nat) (reply : Reply),
        ((Dialogue.start store cache eagerTopN).run events).reply? number = some reply →
        ∃ told, ((⟨store, pipeline, eagerTopN⟩ : Service σ).tellAll (callsOf events))[number]? =
          some told ∧ told.bare = reply.bare) ∧
    (∀ (cache cache' : Cache) (events : List Event) (number : Nat) (f : Failure),
      ((Dialogue.start store cache eagerTopN).run events).reply? number = some (.failed f) ↔
        ((Dialogue.start store cache' eagerTopN).run (events.filter Event.isOfCall)).reply?
          number = some (.failed f)) := by
  refine ⟨?_, ?_, ?_, ?_⟩
  · intro cache before c later hturns
    exact Dialogue.replied_of_patience store cache before hturns
  · intro cache₁ cache₂ events₁ events₂ start₁ start₂ hcalls horder number reply₁ reply₂ h₁ h₂
    have hledger₁ := Dialogue.ledger_of_reply? h₁
    have hledger₂ := Dialogue.ledger_of_reply? h₂
    rcases horder with ⟨hturn₁, hturn₂⟩ | hvisits
    · have hsettled₁ := (Dialogue.served_run store cache₁ hturn₁).settled hledger₁
      have hsettled₂ := (Dialogue.served_run store cache₂ hturn₂).settled hledger₂
      rw [hcalls] at hsettled₁
      exact Stage.done.inj (Option.some.inj (hsettled₁.symm.trans hsettled₂))
    · rw [Dialogue.ledger_eq_visitAll (Dialogue.isLight_start _ _ _)] at hledger₁ hledger₂
      rw [hcalls] at hledger₁
      rcases hvisits with hless | hless
      · exact Ledger.settled_eq hless hledger₁ hledger₂
      · exact (Ledger.settled_eq hless hledger₂ hledger₁).symm
  · intro cache pipeline events hturn number reply h
    have hsettled :=
      (Dialogue.served_run store cache hturn).settled (Dialogue.ledger_of_reply? h)
    have htold := Ledger.serveAll_eq (⟨store, pipeline, eagerTopN⟩ : Service σ) [] (callsOf events)
    rw [htold, List.nil_append, List.getElem?_map] at hsettled
    obtain ⟨told, hget, hbare⟩ := Option.map_eq_some_iff.1 hsettled
    exact ⟨told, hget, Stage.done.inj hbare⟩
  · intro cache cache' events number f
    rw [Dialogue.reply?_eq_failed, Dialogue.reply?_eq_failed,
      Dialogue.ledger_run (Dialogue.isLight_start _ _ _),
      Dialogue.ledger_run (Dialogue.isLight_start _ _ _), Dialogue.ledger_filter]
    rfl

/-- An ingest of one request that gets its turns, and then what the worker does. -/
def lookedUp (result : BackoffPolicy.Resolution) : List Event :=
  .call (.ingest 7 (requestBatch "8.8.8.8")) :: List.replicate 5 (.task 0) ++
    [.worker, .worker, .settle result, .worker, .worker]

/-- A query that gets its turns. -/
def queried : List Event := List.replicate 5 (.task 1)

/-- What a reply says of the addresses that it ranks. -/
def Reply.ranked? : Reply → Option (List AddressInfo)
  | .result r => some (r.topAddresses.map RankedAddress.info)
  | _ => none

/-- A lookup finds something in one run and breaks down in the other. The results tell of it, and
agree in everything else. -/
theorem lookups_unseen_crashed :
    let start := Dialogue.start MemoryStore.empty .standard 1
    let found : AddressInfo := ⟨"8.8.8.8", some "US", none, none, none⟩
    let events₁ := lookedUp (.resolved found) ++ .call (.result 1 1) :: queried
    let events₂ := lookedUp (.crashed "broken") ++ .call (.result 1 1) :: queried
    callsOf events₁ = callsOf events₂ ∧ start.InTurn events₁ ∧ start.InTurn events₂ ∧
      ∃ reply₁ reply₂, (start.run events₁).reply? 1 = some reply₁ ∧
        (start.run events₂).reply? 1 = some reply₂ ∧ reply₁.ranked? = some [found] ∧
        reply₂.ranked? = some [.unknown "8.8.8.8"] ∧ reply₁.bare = reply₂.bare ∧
        ∃ told, ((⟨.empty, .start .standard, 1⟩ : Service MemoryStore).tellAll
          (callsOf events₁))[1]? = some told ∧ told.bare = reply₁.bare := by
  intro start found events₁ events₂
  have hcalls : callsOf events₁ = callsOf events₂ := rfl
  have hturn₁ : start.InTurn events₁ := by decide +kernel
  have hturn₂ : start.InTurn events₂ := by decide +kernel
  obtain ⟨hreplies, hsame, halone, -⟩ := lookups_unseen MemoryStore.empty 1
  obtain ⟨reply₁, h₁⟩ := hreplies .standard (lookedUp (.resolved found)) (.result 1 1) queried
    (by decide +kernel)
  obtain ⟨reply₂, h₂⟩ := hreplies .standard (lookedUp (.crashed "broken")) (.result 1 1) queried
    (by decide +kernel)
  have hranked₁ : ((start.run events₁).reply? 1).bind Reply.ranked? = some [found] := by
    decide +kernel
  have hranked₂ : ((start.run events₂).reply? 1).bind Reply.ranked? =
      some [.unknown "8.8.8.8"] := by decide +kernel
  refine ⟨hcalls, hturn₁, hturn₂, reply₁, reply₂, h₁, h₂, ?_, ?_,
    hsame _ _ _ _ hcalls (.inl ⟨hturn₁, hturn₂⟩) 1 _ _ h₁ h₂,
    halone _ _ _ hturn₁ 1 _ h₁⟩
  · exact (congrArg (·.bind Reply.ranked?) h₁).symm.trans hranked₁
  · exact (congrArg (·.bind Reply.ranked?) h₂).symm.trans hranked₂

end AccessLog.Service

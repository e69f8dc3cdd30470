import AccessLog.Proofs.Rankings
import AccessLog.Proofs.StoredResults
import AccessLog.Service.Dialogue

/-! # Calls that get their turns

A call asks the store at most twice, and keeps away from it afterwards. There is only so much that
it has then to read and to offer, so it replies once it has had enough turns, whatever has become of
the lookups. -/

namespace AccessLog.Service
open AccessLog.Enrich AccessLog.Stats AccessLog.Store

namespace Stage

/-- How often the store may still be asked. -/
def asks : Stage → Nat
  | saving _ => 2
  | keeping _ _ => 1
  | finding _ _ => 1
  | working _ _ => 0
  | done _ => 0

/-- How many steps may still be ahead, where `eagerTopN` addresses of a batch are offered. -/
def ahead (eagerTopN : UInt64) : Stage → Nat
  | saving _ => 2 * eagerTopN.toNat + 3
  | keeping _ _ => 2 * eagerTopN.toNat + 2
  | finding _ topN => 3 * topN.toNat + 2
  | working _ t => t.left + 1
  | done _ => 0

/-- Whether what is left to do keeps away from the store once the store has been asked. -/
def IsLight : Stage → Prop
  | working _ t => t.IsLight
  | saving _ | keeping _ _ | finding _ _ | done _ => True

end Stage

theorem left_offers (addresses : List String) (infos : List (String × AddressInfo)) :
    Task.left ⟨none, addresses.map .offer, infos⟩ = 2 * addresses.length := by
  induction addresses with
  | nil => rfl
  | cons address rest ih =>
    simp only [Task.left, List.map_cons, List.foldr_cons, Action.cost, List.length_cons] at ih ⊢
    omega

/-! ## Answers of the store -/

namespace Stage

theorem afterSave_spec (eagerTopN : UInt64) (answer : Except StoreError Analysis) :
    (afterSave eagerTopN answer).IsLight ∧ (afterSave eagerTopN answer).asks = 0 ∧
      (afterSave eagerTopN answer).ahead eagerTopN ≤ 2 * eagerTopN.toNat + 1 := by
  cases answer with
  | error e => exact ⟨trivial, rfl, Nat.zero_le _⟩
  | ok saved =>
    simp only [afterSave, afterKeep]
    split
    · exact ⟨trivial, rfl, Nat.zero_le _⟩
    · refine ⟨isLight_offers _ _, rfl, ?_⟩
      have hranked := length_rankedAddresses_le saved eagerTopN
      simp only [ahead, left_offers]
      omega

theorem afterQuery_spec (eagerTopN id topN : UInt64)
    (answer : Except StoreError (Option Analysis)) :
    (afterQuery id topN answer).IsLight ∧ (afterQuery id topN answer).asks = 0 ∧
      (afterQuery id topN answer).ahead eagerTopN ≤ 3 * topN.toNat + 1 := by
  rcases answer with e | none | a
  · exact ⟨trivial, rfl, Nat.zero_le _⟩
  · exact ⟨trivial, rfl, Nat.zero_le _⟩
  · refine ⟨isLight_reads _ _, rfl, ?_⟩
    have hranked := length_rankedAddresses_le a topN
    simp only [afterQuery, afterFind, ahead, left_reads]
    omega

variable {σ : Type} [SharedStore σ]

theorem consult?_eq_none {eagerTopN : UInt64} {store : σ} {stage : Stage} :
    stage.consult? eagerTopN store = none ↔ stage.asks = 0 := by
  cases stage <;> simp [consult?, asks]

/-- An answer of the store brings a call nearer to its reply. -/
theorem consult?_spec {eagerTopN : UInt64} {store store' : σ} {stage stage' : Stage}
    (h : stage.consult? eagerTopN store = some (stage', store')) :
    stage'.IsLight ∧ stage'.asks < stage.asks ∧
      stage'.ahead eagerTopN < stage.ahead eagerTopN := by
  cases stage with
  | saving a =>
    rcases hbegin : SharedStore.begin store a with ⟨answer | ⟨id, b⟩, store''⟩ <;>
      simp only [consult?, hbegin] at h <;> cases h
    · obtain ⟨hlight, hasks, hahead⟩ := afterSave_spec eagerTopN answer
      exact ⟨hlight, hasks ▸ Nat.zero_lt_two, Nat.lt_of_le_of_lt hahead (by simp [ahead])⟩
    · exact ⟨trivial, Nat.lt_succ_self _, Nat.lt_succ_self _⟩
  | keeping id a =>
    cases h
    obtain ⟨hlight, hasks, hahead⟩ := afterSave_spec eagerTopN (SharedStore.finish store id a).1
    exact ⟨hlight, hasks ▸ Nat.zero_lt_one, Nat.lt_succ_of_le hahead⟩
  | finding id topN =>
    cases h
    obtain ⟨hlight, hasks, hahead⟩ :=
      afterQuery_spec eagerTopN id topN (AnalysisStore.find store id)
    exact ⟨hlight, hasks ▸ Nat.zero_lt_one, Nat.lt_succ_of_le hahead⟩
  | working goal t => cases h
  | done reply => cases h

/-! ## Steps -/

/-- The steps of a call: it asks the store, reads and offers addresses, and replies. -/
inductive Move : Stage → Service σ → Stage → Service σ → Prop
  | ask {stage s stage' store}
      (asked : stage.consult? s.eagerTopN s.store = some (stage', store)) :
      Move stage s stage' { s with store }
  | work {goal t t' s s'} (made : t.Step s t' s') : Move (.working goal t) s (.working goal t') s'
  | reply {goal t s} (finished : t.step? s = none) :
      Move (.working goal t) s (.done (goal.reply t.infos)) s

theorem proceed?_eq_some {stage stage' : Stage} {s s' : Service σ}
    (h : stage.proceed? s = some (stage', s')) : stage.Move s stage' s' := by
  cases stage with
  | saving a | keeping id a | finding id topN =>
    cases h
    exact .ask rfl
  | done reply => cases h
  | working goal t =>
    cases hmade : t.step? s with
    | none =>
      simp only [proceed?, hmade] at h
      cases h
      exact .reply hmade
    | some made =>
      simp only [proceed?, hmade] at h
      cases h
      exact .work (Task.step?_spec hmade)

theorem proceed?_eq_none {stage : Stage} {s : Service σ} (h : stage.proceed? s = none) :
    ∃ reply, stage = .done reply := by
  cases stage with
  | saving a | keeping id a | finding id topN => cases h
  | working goal t => cases hmade : t.step? s <;> simp [proceed?, hmade] at h
  | done reply => exact ⟨reply, rfl⟩

end Stage

theorem Task.Step.eagerTopN {σ : Type} [AnalysisStore σ] {t t' : Task} {s s' : Service σ}
    (h : t.Step s t' s') : s'.eagerTopN = s.eagerTopN := by
  cases h <;> rfl

theorem Stage.Move.eagerTopN {σ : Type} [SharedStore σ] {stage stage' : Stage} {s s' : Service σ}
    (h : stage.Move s stage' s') : s'.eagerTopN = s.eagerTopN := by
  cases h with
  | ask asked => rfl
  | work made => exact made.eagerTopN
  | reply finished => rfl

/-- A step leaves fewer steps ahead. -/
theorem Stage.Move.ahead_lt {σ : Type} [SharedStore σ] {stage stage' : Stage} {s s' : Service σ}
    (h : stage.Move s stage' s') (hlight : stage.IsLight) :
    stage'.IsLight ∧ stage'.ahead s.eagerTopN < stage.ahead s.eagerTopN := by
  cases h with
  | ask asked =>
    obtain ⟨hlight', -, hahead⟩ := consult?_spec asked
    exact ⟨hlight', hahead⟩
  | work made =>
    obtain ⟨hlight', -, hleft⟩ := made.light hlight
    exact ⟨hlight', Nat.succ_lt_succ hleft⟩
  | reply finished => exact ⟨trivial, Nat.succ_pos _⟩

theorem Stage.isLight_ofCall (c : Call) : (Stage.ofCall c).IsLight := by
  cases c with
  | read address => exact isLight_reads [address] []
  | readAll addresses => exact isLight_reads addresses []
  | ingest createdAt reads =>
    simp only [ofCall]
    split <;> trivial
  | result id topN => trivial

theorem Stage.done_of_ahead {eagerTopN : UInt64} {stage : Stage}
    (h : stage.ahead eagerTopN = 0) : ∃ reply, stage = .done reply := by
  cases stage with
  | saving a | keeping id a | finding id topN | working goal t => cases h
  | done reply => exact ⟨reply, rfl⟩

/-- Whether a call is made or has its turn. -/
def Event.isOfCall : Event → Bool
  | call _ => true
  | task _ => true
  | worker | settle _ | stop | forget _ => false

theorem Event.cases_isOfCall (e : Event) :
    (∃ c, e = .call c) ∨ (∃ number, e = .task number) ∨ e.isOfCall = false := by
  cases e with
  | call c => exact .inl ⟨c, rfl⟩
  | task number => exact .inr (.inl ⟨number, rfl⟩)
  | worker | settle result | stop | forget address => exact .inr (.inr rfl)

theorem Event.call?_of_isOfCall {e : Event} (h : e.isOfCall = false) : e.call? = none := by
  cases e with
  | call | task => cases h
  | worker | settle | stop | forget => rfl

theorem Event.isStepOf_of_isOfCall {e : Event} (h : e.isOfCall = false) (number : Nat) :
    e.isStepOf number = false := by
  cases e with
  | call | task => cases h
  | worker | settle | stop | forget => rfl

/-! ## The dialogue -/

theorem Dialogue.stage_of_reply? {σ : Type} {s : Dialogue σ} {number : Nat} {reply : Reply}
    (h : s.reply? number = some reply) :
    ∃ call, s.sessions[number]? = some ⟨call, .done reply⟩ := by
  obtain ⟨⟨call, stage⟩, hx, hreply⟩ := Option.bind_eq_some_iff.1 h
  cases stage with
  | done given =>
    cases hreply
    exact ⟨call, hx⟩
  | saving | keeping | finding | working => cases hreply

namespace Dialogue
variable {σ : Type} [SharedStore σ]

theorem run_append (s : Dialogue σ) (events more : List Event) :
    s.run (events ++ more) = (s.run events).run more := by
  simp [run, List.foldl_append]

/-- The call of a number takes its step, where it is not over. -/
theorem next_task (s : Dialogue σ) (number : Nat) :
    (s.next (.task number) = s ∧
        ∀ x, s.sessions[number]? = some x → ∃ reply, x.stage = .done reply) ∨
      ∃ call stage stage' service, s.sessions[number]? = some ⟨call, stage⟩ ∧
        stage.Move s.service stage' service ∧
        s.next (.task number) =
          ⟨service, s.worker, s.sessions.set number ⟨call, stage'⟩⟩ := by
  cases hx : s.sessions[number]? with
  | none => exact .inl ⟨by simp only [next, hx], fun _ hsome => nomatch hsome⟩
  | some x =>
    obtain ⟨call, stage⟩ := x
    cases hstep : stage.proceed? s.service with
    | none =>
      refine .inl ⟨by simp only [next, hx, hstep], ?_⟩
      rintro _ ⟨⟩
      exact Stage.proceed?_eq_none hstep
    | some made =>
      obtain ⟨stage', service⟩ := made
      exact .inr ⟨call, stage, stage', service, rfl, Stage.proceed?_eq_some hstep,
        by simp only [next, hx, hstep]⟩

theorem next_worker (s : Dialogue σ) :
    s.next .worker = s ∨
      ∃ worker pipeline, s.worker.Step s.service.pipeline worker pipeline ∧
        s.next .worker = ⟨{ s.service with pipeline }, worker, s.sessions⟩ := by
  cases h : s.worker.step? s.service.pipeline with
  | none => exact .inl (by simp only [next, h])
  | some made =>
    obtain ⟨worker, pipeline⟩ := made
    exact .inr ⟨worker, pipeline, Worker.step?_spec h, by simp only [next, h]⟩

/-- Calls are made and make their steps; nothing else touches the store or a call. -/
theorem next_other (s : Dialogue σ) {e : Event} (h : e.isOfCall = false) :
    (s.next e).sessions = s.sessions ∧ (s.next e).service.store = s.service.store ∧
      (s.next e).service.eagerTopN = s.service.eagerTopN := by
  cases e with
  | call c => cases h
  | task number => cases h
  | worker =>
    rcases s.next_worker with hsame | ⟨worker, pipeline, -, hnext⟩
    · rw [hsame]
      exact ⟨rfl, rfl, rfl⟩
    · rw [hnext]
      exact ⟨rfl, rfl, rfl⟩
  | settle result | stop | forget address => exact ⟨rfl, rfl, rfl⟩

/-- A call changes by its own steps only, and where it has its turn it takes a step or is over. -/
theorem next_session (s : Dialogue σ) (e : Event) {number : Nat} {call : Call} {stage : Stage}
    (hx : s.sessions[number]? = some ⟨call, stage⟩) :
    (∃ stage', stage.Move s.service stage' (s.next e).service ∧
      (s.next e).sessions[number]? = some ⟨call, stage'⟩) ∨
    ((e.isStepOf number = true → ∃ reply, stage = .done reply) ∧
      (s.next e).sessions[number]? = some ⟨call, stage⟩) := by
  obtain ⟨hlt, -⟩ := List.getElem?_eq_some_iff.1 hx
  rcases e.cases_isOfCall with ⟨c, rfl⟩ | ⟨n, rfl⟩ | hother
  · refine .inr ⟨by simp [Event.isStepOf], ?_⟩
    show (s.sessions ++ [_])[number]? = some _
    rw [List.getElem?_append_left hlt]
    exact hx
  · rcases s.next_task n with ⟨hsame, hover⟩ | ⟨call', stage₁, stage₂, service, hy, hstep, hnext⟩
    · rw [hsame]
      refine .inr ⟨?_, hx⟩
      intro hturn
      obtain rfl : n = number := by simpa [Event.isStepOf] using hturn
      exact hover _ hx
    · rw [hnext]
      by_cases hn : n = number
      · subst hn
        cases hy.symm.trans hx
        exact .inl ⟨stage₂, hstep, by simp [hlt]⟩
      · refine .inr ⟨fun hturn => absurd (by simpa [Event.isStepOf] using hturn) hn, ?_⟩
        show (s.sessions.set n _)[number]? = some _
        rw [List.getElem?_set_ne hn]
        exact hx
  · rw [(s.next_other hother).1]
    exact .inr ⟨by simp [Event.isStepOf_of_isOfCall hother], hx⟩

theorem eagerTopN_next (s : Dialogue σ) (e : Event) :
    (s.next e).service.eagerTopN = s.service.eagerTopN := by
  rcases e.cases_isOfCall with ⟨c, rfl⟩ | ⟨number, rfl⟩ | hother
  · rfl
  · rcases s.next_task number with ⟨hsame, -⟩ | ⟨_, _, _, _, -, hstep, hnext⟩
    · rw [hsame]
    · rw [hnext]
      exact hstep.eagerTopN
  · exact (s.next_other hother).2.2

theorem eagerTopN_run (s : Dialogue σ) (events : List Event) :
    (s.run events).service.eagerTopN = s.service.eagerTopN := by
  induction events generalizing s with
  | nil => rfl
  | cons e rest ih => exact (ih (s.next e)).trans (s.eagerTopN_next e)

/-- Every turn of a call brings it nearer to its reply. -/
theorem ahead_run {s : Dialogue σ} {number : Nat} {call : Call} {stage : Stage}
    (events : List Event) (hx : s.sessions[number]? = some ⟨call, stage⟩) (hlight : stage.IsLight) :
    ∃ stage', (s.run events).sessions[number]? = some ⟨call, stage'⟩ ∧
      stage'.ahead s.service.eagerTopN ≤
        stage.ahead s.service.eagerTopN - turnsOf number events := by
  induction events generalizing s stage with
  | nil => exact ⟨stage, hx, Nat.le_refl _⟩
  | cons e rest ih =>
    have hturns : turnsOf number (e :: rest) =
        turnsOf number rest + if e.isStepOf number then 1 else 0 := List.countP_cons
    have heager := s.eagerTopN_next e
    rcases s.next_session e hx with ⟨stage₁, hstep, hnext⟩ | ⟨hover, hnext⟩
    · obtain ⟨hlight₁, hless⟩ := hstep.ahead_lt hlight
      obtain ⟨stage', hfinal, hahead⟩ := ih hnext hlight₁
      rw [heager] at hahead
      refine ⟨stage', hfinal, ?_⟩
      rw [hturns]
      split <;> omega
    · obtain ⟨stage', hfinal, hahead⟩ := ih hnext hlight
      rw [heager] at hahead
      refine ⟨stage', hfinal, ?_⟩
      rw [hturns]
      split
      · rename_i hturn
        obtain ⟨reply, rfl⟩ := hover hturn
        exact hahead.trans (Nat.zero_sub _ ▸ Nat.zero_le _)
      · exact hahead

end Dialogue

/-- The calls that are made in the course of a schedule. -/
def callsOf (events : List Event) : List Call := events.filterMap Event.call?

theorem callsOf_cons (e : Event) (events : List Event) :
    callsOf (e :: events) = e.call?.toList ++ callsOf events := by
  cases hcall : e.call? <;> simp [callsOf, hcall]

/-- How many turns of its own a call may need before it has its reply. -/
def Call.patience (eagerTopN : UInt64) : Call → Nat
  | read _ => 4
  | readAll addresses => 3 * addresses.length + 1
  | ingest _ _ => 2 * eagerTopN.toNat + 3
  | result _ topN => 3 * topN.toNat + 2

theorem Call.ahead_le_patience (eagerTopN : UInt64) (c : Call) :
    (Stage.ofCall c).ahead eagerTopN ≤ c.patience eagerTopN := by
  cases c with
  | read address => exact Nat.le_refl _
  | readAll addresses => exact Nat.succ_le_succ (Nat.le_of_eq (left_reads addresses []))
  | ingest createdAt reads =>
    simp only [Stage.ofCall]
    split
    · exact Nat.zero_le _
    · exact Nat.le_refl _
  | result id topN => exact Nat.le_refl _

namespace Dialogue
variable {σ : Type} [SharedStore σ]

theorem length_next (s : Dialogue σ) (e : Event) :
    (s.next e).sessions.length = s.sessions.length + e.call?.toList.length := by
  rcases e.cases_isOfCall with ⟨c, rfl⟩ | ⟨number, rfl⟩ | hother
  · simp [next, Event.call?]
  · rcases s.next_task number with ⟨hsame, -⟩ | ⟨_, _, _, _, -, -, hnext⟩
    · rw [hsame]
      rfl
    · rw [hnext]
      simp [Event.call?]
  · rw [(s.next_other hother).1, Event.call?_of_isOfCall hother]
    rfl

theorem length_run (s : Dialogue σ) (events : List Event) :
    (s.run events).sessions.length = s.sessions.length + (callsOf events).length := by
  induction events generalizing s with
  | nil => rfl
  | cons e rest ih =>
    show ((s.next e).run rest).sessions.length = _
    rw [ih, length_next, callsOf_cons, List.length_append, Nat.add_assoc]

/-- A call that has had as many turns as it may need has its reply. -/
theorem replied_of_patience (store : σ) (cache : Cache) {eagerTopN : UInt64} (before : List Event)
    {c : Call} {later : List Event}
    (hturns : c.patience eagerTopN ≤ turnsOf (callsOf before).length later) :
    ∃ reply, ((start store cache eagerTopN).run (before ++ .call c :: later)).reply?
      (callsOf before).length = some reply := by
  let asked := ((start store cache eagerTopN).run before).next (.call c)
  have hlength : ((start store cache eagerTopN).run before).sessions.length =
      (callsOf before).length := (length_run _ _).trans (Nat.zero_add _)
  have hx : asked.sessions[(callsOf before).length]? = some ⟨c, .ofCall c⟩ := by
    rw [← hlength]
    exact List.getElem?_concat_length
  have heager : asked.service.eagerTopN = eagerTopN :=
    (eagerTopN_next _ _).trans (eagerTopN_run _ _)
  obtain ⟨stage, hstage, hahead⟩ := ahead_run later hx (Stage.isLight_ofCall c)
  rw [heager] at hahead
  have hpatience := c.ahead_le_patience eagerTopN
  obtain ⟨reply, rfl⟩ := stage.done_of_ahead (by omega : stage.ahead eagerTopN = 0)
  refine ⟨reply, ?_⟩
  rw [run_append, reply?]
  show (asked.run later).sessions[_]?.bind _ = _
  rw [hstage]
  rfl

end Dialogue

end AccessLog.Service

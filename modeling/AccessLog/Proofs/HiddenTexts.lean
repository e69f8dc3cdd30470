import AccessLog.Http.Exchanges
import AccessLog.Proofs.UnseenLookups

/-! # Texts of errors that stay inside

Two servers get the same requests. Their stores answer alike but for the texts of their errors, and
so do the readers of their batches but for the texts with which they break down. These texts come
into the replies of calls and nowhere else, and a response leaves them out. So the servers cannot be
told apart, whatever has failed before, however the calls take turns, and also when the stores fail
only now and then. -/

namespace AccessLog.Service
open AccessLog.Enrich AccessLog.Log AccessLog.Stats AccessLog.Store

/-! ## What is known outside -/

/-- A failure as it is known outside: that of a store has no text. -/
def Failure.outward : Failure → Failure
  | .storage _ => .storage ⟨"", []⟩
  | .batchRead fault => .batchRead fault
  | .validation detail => .validation detail
  | .notFound id => .notFound id

def Reply.outward : Reply → Reply
  | .failed f => .failed f.outward
  | .infos known => .infos known
  | .accepted saved => .accepted saved
  | .result r => .result r

def Stage.outward : Stage → Stage
  | .done reply => .done reply.outward
  | .saving a => .saving a
  | .keeping id a => .keeping id a
  | .finding id topN => .finding id topN
  | .working goal t => .working goal t

/-- The reply of a call that is over. -/
def Stage.reply? : Stage → Option Reply
  | .done reply => some reply
  | .saving _ | .keeping _ _ | .finding _ _ | .working _ _ => none

theorem Session.map_outward_reply? (x : Session) :
    x.reply?.map Reply.outward = x.stage.outward.reply? := by
  obtain ⟨call, stage⟩ := x
  cases stage <;> rfl

/-- Calls that differ outside in nothing are at the same point, if they are not over. -/
theorem Stage.eq_or_done {stage stage' : Stage} (h : stage.outward = stage'.outward) :
    stage = stage' ∨ ∃ reply reply', stage = .done reply ∧ stage' = .done reply' := by
  cases stage with
  | done reply =>
    cases stage' with
    | done reply' => exact .inr ⟨reply, reply', rfl, rfl⟩
    | saving | keeping | finding | working => cases h
  | saving | keeping | finding | working =>
    cases stage' <;> cases h
    exact .inl rfl

/-- Two ways in which batches are delivered agree on what is made of a batch, unless its reader
breaks down in both. -/
def DeliverAlike (pieces pieces' : List UInt8 → List Read) : Prop :=
  ∀ createdAt batch, aggregate createdAt (pieces batch) = aggregate createdAt (pieces' batch) ∨
    ∃ m m', aggregate createdAt (pieces batch) = .error (.crashed m) ∧
      aggregate createdAt (pieces' batch) = .error (.crashed m')

theorem DeliverAlike.outward_ofCall {pieces pieces' : List UInt8 → List Read}
    (h : DeliverAlike pieces pieces') (createdAt : Int64) (batch : List UInt8) :
    (Stage.ofCall (.ingest createdAt (pieces batch))).outward =
      (Stage.ofCall (.ingest createdAt (pieces' batch))).outward := by
  rcases h createdAt batch with hsame | ⟨m, m', hcrashed, hcrashed'⟩
  · simp only [Stage.ofCall, hsame]
  · simp only [Stage.ofCall, hcrashed, hcrashed']
    rfl

/-! ## Stores -/

/-- Answers that only differ in an error are the same to anyone who does not look at it. -/
theorem eq_of_toOption {ε α β : Type} {f : Except ε α → β}
    (hf : ∀ e e', f (.error e) = f (.error e')) {x y : Except ε α}
    (h : x.toOption = y.toOption) : f x = f y := by
  cases x with
  | error e =>
    cases y with
    | error e' => exact hf e e'
    | ok b => cases h
  | ok a =>
    cases y with
    | error e' => cases h
    | ok b => rw [Option.some.inj h]

/-- What a store says to the first step of a save: the same, or an error each time. -/
inductive BegunAlike : Except StoreError Analysis ⊕ UInt64 × Analysis →
    Except StoreError Analysis ⊕ UInt64 × Analysis → Prop
  | answered {answer answer'} (same : answer.toOption = answer'.toOption) :
      BegunAlike (.inl answer) (.inl answer')
  | chosen (id : UInt64) (a : Analysis) : BegunAlike (.inr (id, a)) (.inr (id, a))

/-- Stores that are related answer alike, but for the texts of their errors, and stay related. -/
structure AnswerAlike {σ τ : Type} [SharedStore σ] [SharedStore τ] (R : σ → τ → Prop) : Prop where
  begin : ∀ {s t}, R s t → ∀ a,
    BegunAlike (SharedStore.begin s a).1 (SharedStore.begin t a).1 ∧
      R (SharedStore.begin s a).2 (SharedStore.begin t a).2
  finish : ∀ {s t}, R s t → ∀ id a,
    (SharedStore.finish s id a).1.toOption = (SharedStore.finish t id a).1.toOption ∧
      R (SharedStore.finish s id a).2 (SharedStore.finish t id a).2
  find : ∀ {s t}, R s t → ∀ id,
    (AnalysisStore.find s id).toOption = (AnalysisStore.find t id).toOption

/-- Whatever happens to related stores by itself, they stay related. -/
def ChangeAlike {σ τ ω : Type} (R : σ → τ → Prop) (changed : ω → σ → σ) (changed' : ω → τ → τ) :
    Prop :=
  ∀ change s t, R s t → R (changed change s) (changed' change t)

theorem AnswerAlike.save {σ τ : Type} [SharedStore σ] [SharedStore τ] {R : σ → τ → Prop}
    (h : AnswerAlike R) {s : σ} {t : τ} (hst : R s t) (a : Analysis) :
    (AnalysisStore.save s a).1.toOption = (AnalysisStore.save t a).1.toOption ∧
      R (AnalysisStore.save s a).2 (AnalysisStore.save t a).2 := by
  obtain ⟨hbegun, hnext⟩ := h.begin hst a
  rw [SharedStore.save_eq, SharedStore.save_eq]
  generalize SharedStore.begin s a = begun at hbegun hnext
  generalize SharedStore.begin t a = begun' at hbegun hnext
  obtain ⟨said, s'⟩ := begun
  obtain ⟨said', t'⟩ := begun'
  cases hbegun with
  | answered same => exact ⟨same, hnext⟩
  | chosen id b => exact h.finish hnext id b

theorem Stage.outward_afterSave {eagerTopN : UInt64} {x y : Except StoreError Analysis}
    (h : x.toOption = y.toOption) :
    (Stage.afterSave eagerTopN x).outward = (Stage.afterSave eagerTopN y).outward :=
  eq_of_toOption (f := fun answer => (Stage.afterSave eagerTopN answer).outward) (fun _ _ => rfl) h

theorem Stage.outward_afterBegin {eagerTopN : UInt64}
    {x y : Except StoreError Analysis ⊕ UInt64 × Analysis} (h : BegunAlike x y) :
    (Stage.afterBegin eagerTopN x).outward = (Stage.afterBegin eagerTopN y).outward := by
  cases h with
  | answered same => exact Stage.outward_afterSave same
  | chosen id a => rfl

theorem Stage.outward_afterQuery {id topN : UInt64} {x y : Except StoreError (Option Analysis)}
    (h : x.toOption = y.toOption) :
    (Stage.afterQuery id topN x).outward = (Stage.afterQuery id topN y).outward :=
  eq_of_toOption (f := fun found => (Stage.afterQuery id topN found).outward) (fun _ _ => rfl) h

/-! ## Other words -/

/-- A store whose errors are put into other words. -/
structure Reworded (σ : Type) where
  store : σ
  words : StoreError → StoreError

instance {σ : Type} [SharedStore σ] : SharedStore (Reworded σ) where
  save s a :=
    let (answer, store) := AnalysisStore.save s.store a
    (answer.mapError s.words, { s with store })
  find s id := (AnalysisStore.find s.store id).mapError s.words
  begin s a :=
    let (begun, store) := SharedStore.begin s.store a
    (begun.map (Except.mapError s.words) id, { s with store })
  finish s id a :=
    let (answer, store) := SharedStore.finish s.store id a
    (answer.mapError s.words, { s with store })
  save_eq s a := by
    simp only [SharedStore.save_eq]
    rcases SharedStore.begin s.store a with ⟨answer | ⟨id, b⟩, store⟩ <;> rfl

theorem toOption_mapError {ε α : Type} (words : ε → ε) (answer : Except ε α) :
    (answer.mapError words).toOption = answer.toOption := by
  cases answer <;> rfl

/-- Other words are not noticed. -/
theorem answerAlike_reworded {σ : Type} [SharedStore σ] :
    AnswerAlike fun (s : σ) (t : Reworded σ) => t.store = s where
  begin := by
    rintro _ t rfl a
    refine ⟨?_, rfl⟩
    show BegunAlike (SharedStore.begin t.store a).1
      ((SharedStore.begin t.store a).1.map (Except.mapError t.words) id)
    rcases (SharedStore.begin t.store a).1 with answer | ⟨id, b⟩
    · exact .answered (toOption_mapError t.words answer).symm
    · exact .chosen id b
  finish := by
    rintro _ t rfl id a
    exact ⟨(toOption_mapError t.words _).symm, rfl⟩
  find := by
    rintro _ t rfl id
    exact (toOption_mapError t.words _).symm

section Twins
variable {σ τ : Type} {R : σ → τ → Prop}

/-! ## Services -/

/-- Services that cannot be told apart: only their stores may differ. -/
structure Twins (R : σ → τ → Prop) (s : Service σ) (t : Service τ) : Prop where
  store : R s.store t.store
  pipeline : s.pipeline = t.pipeline
  eagerTopN : s.eagerTopN = t.eagerTopN

/-- Where the calls stand, as it is known outside. -/
def Dialogue.outward (s : Dialogue σ) : List Stage := s.sessions.map fun x => x.stage.outward

/-- Dialogues that cannot be told apart. -/
structure Dialogue.Twins (R : σ → τ → Prop) (s : Dialogue σ) (t : Dialogue τ) : Prop where
  service : Service.Twins R s.service t.service
  worker : s.worker = t.worker
  outward : s.outward = t.outward

namespace Dialogue.Twins
variable {s : Dialogue σ} {t : Dialogue τ}

theorem start {store : σ} {store' : τ} (h : R store store') (cache : Cache) (eagerTopN : UInt64) :
    Twins R (.start store cache eagerTopN) (.start store' cache eagerTopN) :=
  ⟨⟨h, rfl, rfl⟩, rfl, rfl⟩

theorem length_sessions (h : Twins R s t) : s.sessions.length = t.sessions.length := by
  simpa only [Dialogue.outward, List.length_map] using congrArg List.length h.outward

theorem stage (h : Twins R s t) (number : Nat) :
    s.sessions[number]?.map (·.stage.outward) = t.sessions[number]?.map (·.stage.outward) := by
  rw [← List.getElem?_map, ← List.getElem?_map]
  exact congrArg (·[number]?) h.outward

/-- Calls that are over in one are over in the other, with the same to be known outside. -/
theorem reply? (h : Twins R s t) (number : Nat) :
    (s.reply? number).map Reply.outward = (t.reply? number).map Reply.outward := by
  have hreply {υ : Type} (d : Dialogue υ) : (d.reply? number).map Reply.outward =
      (d.sessions[number]?.map (·.stage.outward)).bind Stage.reply? := by
    rw [Dialogue.reply?, Option.map_bind, Option.bind_map]
    exact congrArg _ (funext Session.map_outward_reply?)
  rw [hreply s, hreply t, h.stage number]

end Dialogue.Twins

variable [SharedStore σ] [SharedStore τ]

section Steps
variable {s : Service σ} {t : Service τ}

theorem Twins.perform (hstores : AnswerAlike R) (h : Twins R s t) (x : Task) (a : Action) :
    (x.perform s a).1 = (x.perform t a).1 ∧ Twins R (x.perform s a).2 (x.perform t a).2 := by
  obtain ⟨store, pipeline, eagerTopN⟩ := s
  obtain ⟨store', pipeline', eagerTopN'⟩ := t
  obtain ⟨hrelated, rfl, rfl⟩ := h
  cases a with
  | save a =>
    obtain ⟨hanswer, hnext⟩ := hstores.save hrelated a
    have hahead : Task.afterSave eagerTopN _ = Task.afterSave eagerTopN _ :=
      eq_of_toOption (fun _ _ => rfl) hanswer
    exact ⟨congrArg x.first hahead, hnext, rfl, rfl⟩
  | find id topN =>
    have hahead : Task.afterFind topN _ = Task.afterFind topN _ :=
      eq_of_toOption (fun _ _ => rfl) (hstores.find hrelated id)
    exact ⟨congrArg x.first hahead, hrelated, rfl, rfl⟩
  | read address =>
    simp only [Task.perform, Task.read]
    split
    · exact ⟨rfl, hrelated, rfl, rfl⟩
    · split <;> exact ⟨rfl, hrelated, rfl, rfl⟩
  | offer address =>
    simp only [Task.perform, Task.offer]
    split <;> exact ⟨rfl, hrelated, rfl, rfl⟩

theorem Twins.step? (hstores : AnswerAlike R) (h : Twins R s t) (x : Task) :
    Option.Rel (fun p q => p.1 = q.1 ∧ Twins R p.2 q.2) (x.step? s) (x.step? t) := by
  unfold Task.step?
  split
  · refine .some ⟨rfl, h.store, ?_, h.eagerTopN⟩
    rw [h.pipeline]
  · split
    · exact .none
    · exact .some (h.perform hstores _ _)

/-- A call takes the same step in both services, or is over in both. -/
theorem Twins.proceed? (hstores : AnswerAlike R) (h : Twins R s t) (stage : Stage) :
    Option.Rel (fun p q => p.1.outward = q.1.outward ∧ Twins R p.2 q.2)
      (stage.proceed? s) (stage.proceed? t) := by
  cases stage with
  | saving a =>
    obtain ⟨hbegun, hnext⟩ := hstores.begin h.store a
    refine .some ⟨?_, hnext, h.pipeline, h.eagerTopN⟩
    rw [h.eagerTopN]
    exact Stage.outward_afterBegin hbegun
  | keeping id a =>
    obtain ⟨hanswer, hnext⟩ := hstores.finish h.store id a
    refine .some ⟨?_, hnext, h.pipeline, h.eagerTopN⟩
    rw [h.eagerTopN]
    exact Stage.outward_afterSave hanswer
  | finding id topN => exact .some ⟨Stage.outward_afterQuery (hstores.find h.store id), h⟩
  | working goal x =>
    have hstep := h.step? hstores x
    simp only [Stage.proceed?]
    generalize x.step? s = made at hstep ⊢
    generalize x.step? t = made' at hstep ⊢
    cases hstep with
    | none => exact .some ⟨rfl, h⟩
    | some hsame => exact .some ⟨congrArg (Stage.outward ∘ Stage.working goal) hsame.1, hsame.2⟩
  | done reply => exact .none

end Steps

/-! ## Dialogues -/

namespace Dialogue.Twins
variable {s : Dialogue σ} {t : Dialogue τ}

/-- A call is made in both; the two may differ in what has no consequence outside. -/
theorem call (h : Twins R s t) {c c' : Call}
    (hcalls : (Stage.ofCall c).outward = (Stage.ofCall c').outward) :
    Twins R (s.next (.call c)) (t.next (.call c')) := by
  refine ⟨h.service, h.worker, ?_⟩
  simp only [Dialogue.outward, Dialogue.next, List.map_append, List.map_cons, List.map_nil, hcalls]
  exact congrArg (· ++ _) h.outward

theorem task (hstores : AnswerAlike R) (h : Twins R s t) (number : Nat) :
    Twins R (s.next (.task number)) (t.next (.task number)) := by
  have hstages := h.stage number
  cases hx : s.sessions[number]? with
  | none =>
    rw [hx] at hstages
    have hy : t.sessions[number]? = none := Option.map_eq_none_iff.1 hstages.symm
    simpa only [Dialogue.next, hx, hy] using h
  | some x =>
    rw [hx] at hstages
    obtain ⟨y, hy, hsame⟩ := Option.map_eq_some_iff.1 hstages.symm
    simp only [Dialogue.next, hx, hy]
    rcases Stage.eq_or_done hsame with heq | ⟨reply, reply', hdone, hdone'⟩
    · have hstep := h.service.proceed? hstores x.stage
      rw [heq]
      generalize x.stage.proceed? s.service = made at hstep ⊢
      generalize x.stage.proceed? t.service = made' at hstep ⊢
      cases hstep with
      | none => exact h
      | some hmade =>
        refine ⟨hmade.2, h.worker, ?_⟩
        simp only [Dialogue.outward, List.map_set, hmade.1]
        exact congrArg (fun stages : List Stage => stages.set number _) h.outward
    -- a call that is over takes no step, whatever it has come back with
    · rw [hdone, hdone']
      exact h

theorem next (hstores : AnswerAlike R) (h : Twins R s t) (e : Event) :
    Twins R (s.next e) (t.next e) := by
  cases e with
  | call c => exact h.call rfl
  | task number => exact h.task hstores number
  | worker =>
    simp only [Dialogue.next, h.worker, h.service.pipeline]
    split
    · exact h
    · exact ⟨⟨h.service.store, rfl, h.service.eagerTopN⟩, rfl, h.outward⟩
  | settle result => exact ⟨h.service, congrArg (Worker.deliver · result) h.worker, h.outward⟩
  | stop => exact ⟨h.service, congrArg Worker.tellToStop h.worker, h.outward⟩
  | forget address =>
    refine ⟨⟨h.service.store, ?_, h.service.eagerTopN⟩, h.worker, h.outward⟩
    simp only [Dialogue.next, h.service.pipeline]

end Dialogue.Twins

end Twins

end AccessLog.Service

namespace AccessLog.Http
open AccessLog.Enrich AccessLog.Service AccessLog.Stats AccessLog.Store
open AccessLog.Log (Read)

/-! ## Responses -/

/-- A response only tells what is known outside of a failure. -/
theorem ofFailure_outward (f : Failure) : ofFailure f.outward = ofFailure f := by
  cases f <;> rfl

theorem response?_outward (r : Request) (reply : Reply) :
    r.response? reply.outward = r.response? reply := by
  cases reply with
  | failed f => simp only [Request.response?, Reply.outward, ofReply?, ofFailure_outward]
  | infos | accepted | result => rfl

theorem response?_ofIngest (r : Request) (taken : Except Failure Analysis) :
    r.response? (.ofIngest taken) = some (finish r (ofIngest taken)) := by
  cases taken <;> rfl

theorem response?_ofResult (r : Request) (found : Except Failure AnalysisResult) :
    r.response? (.ofResult found) = some (finish r (ofResult found)) := by
  cases found <;> rfl

/-- A request that is handled in one go has the response that its call leads to. -/
theorem handle_eq {σ : Type} [AnalysisStore σ] (s : Service σ) (createdAt : Int64) (limit : UInt64)
    (r : Request) :
    (∃ response, r.course readsOf createdAt limit = .inl response ∧
      handle s createdAt limit r = (response, s)) ∨
    ∃ c, r.course readsOf createdAt limit = .inr c ∧
      r.response? (s.tell c).1 = some (handle s createdAt limit r).1 ∧
      (s.tell c).2 = (handle s createdAt limit r).2 := by
  unfold handle answer Request.course
  split
  · exact .inl ⟨_, rfl, rfl⟩
  · cases r.action limit with
    | respond response => exact .inl ⟨_, rfl, rfl⟩
    | takeIn batch => exact .inr ⟨_, rfl, response?_ofIngest r _, rfl⟩
    | lookUp id topN => exact .inr ⟨_, rfl, response?_ofResult r _, rfl⟩

/-- A request has the same response at once, or makes calls that are alike outside. -/
theorem course_alike {pieces pieces' : List UInt8 → List Read} (h : DeliverAlike pieces pieces')
    (createdAt : Int64) (limit : UInt64) (r : Request) :
    (∃ response, r.course pieces createdAt limit = .inl response ∧
      r.course pieces' createdAt limit = .inl response) ∨
    ∃ c c', r.course pieces createdAt limit = .inr c ∧ r.course pieces' createdAt limit = .inr c' ∧
      (Stage.ofCall c).outward = (Stage.ofCall c').outward := by
  unfold Request.course
  split
  · exact .inl ⟨_, rfl, rfl⟩
  · split
    · exact .inl ⟨_, rfl, rfl⟩
    · exact .inr ⟨_, _, rfl, rfl, h.outward_ofCall createdAt _⟩
    · exact .inr ⟨_, _, rfl, rfl, rfl⟩

/-! ## Servers -/

namespace Server
variable {σ τ : Type} {R : σ → τ → Prop} {s : Server σ} {t : Server τ}

/-- Servers that cannot be told apart. -/
structure Twins (R : σ → τ → Prop) (s : Server σ) (t : Server τ) : Prop where
  dialogue : Dialogue.Twins R s.dialogue t.dialogue
  exchanges : s.exchanges = t.exchanges

theorem Twins.responses (h : Twins R s t) : s.responses = t.responses := by
  unfold Server.responses
  rw [h.exchanges]
  refine List.map_congr_left fun x _ => ?_
  obtain ⟨r, response | number⟩ := x
  · rfl
  · have htold {υ : Type} (d : Dialogue υ) : (d.reply? number).bind r.response? =
        ((d.reply? number).map Reply.outward).bind r.response? := by
      rw [Option.bind_map]
      exact congrArg _ (funext fun reply => (response?_outward r reply).symm)
    show (s.dialogue.reply? number).bind _ = (t.dialogue.reply? number).bind _
    rw [htold s.dialogue, htold t.dialogue, h.dialogue.reply? number]

variable [SharedStore σ] [SharedStore τ] {pieces pieces' : List UInt8 → List Read} {ω : Type}
  {changed : ω → σ → σ} {changed' : ω → τ → τ}

theorem Twins.next (hstores : AnswerAlike R) (hpieces : DeliverAlike pieces pieces')
    (hchanged : ChangeAlike R changed changed') (limit : UInt64) (h : Twins R s t) (i : Incident ω) :
    Twins R (s.next pieces limit changed i) (t.next pieces' limit changed' i) := by
  cases i with
  | inside e => exact ⟨h.dialogue.next hstores e, h.exchanges⟩
  | outside change =>
    obtain ⟨⟨hstore, hpipeline, heager⟩, hworker, houtward⟩ := h.dialogue
    exact ⟨⟨⟨hchanged change _ _ hstore, hpipeline, heager⟩, hworker, houtward⟩, h.exchanges⟩
  | request createdAt r =>
    rcases course_alike hpieces createdAt limit r with ⟨response, hs, ht⟩ | ⟨c, c', hs, ht, hcalls⟩
    · simp only [Server.next, hs, ht]
      exact ⟨h.dialogue, congrArg (· ++ _) h.exchanges⟩
    · simp only [Server.next, hs, ht, h.dialogue.length_sessions]
      exact ⟨h.dialogue.call hcalls, congrArg (· ++ _) h.exchanges⟩

theorem Twins.run (hstores : AnswerAlike R) (hpieces : DeliverAlike pieces pieces')
    (hchanged : ChangeAlike R changed changed') (limit : UInt64) (h : Twins R s t)
    (incidents : List (Incident ω)) :
    Twins R (s.run pieces limit changed incidents) (t.run pieces' limit changed' incidents) := by
  induction incidents generalizing s t with
  | nil => exact h
  | cons i rest ih => exact ih (h.next hstores hpieces hchanged limit i)

/-- No text of an error reaches a client. Servers get the same requests while the same happens
inside; their stores answer alike but for the texts of their errors, also when they fail only now
and then, and batches are delivered alike but for the texts with which their readers break down.
Then all responses are the same. -/
theorem texts_stay_inside (hstores : AnswerAlike R) {store : σ} {store' : τ} (hstart : R store store')
    (hpieces : DeliverAlike pieces pieces') (hchanged : ChangeAlike R changed changed')
    (cache : Cache) (eagerTopN limit : UInt64) (incidents : List (Incident ω)) :
    ((start store cache eagerTopN).run pieces limit changed incidents).responses =
      ((start store' cache eagerTopN).run pieces' limit changed' incidents).responses := by
  have htwins : Twins R (start store cache eagerTopN) (start store' cache eagerTopN) :=
    ⟨.start hstart cache eagerTopN, rfl⟩
  exact (htwins.run hstores hpieces hchanged limit incidents).responses

/-- A batch of one byte makes its reader break down, with this text. -/
def fragile (text : String) (batch : List UInt8) : List Read :=
  if batch.length = 1 then [.crashed text] else readsOf batch

theorem deliverAlike_fragile (text text' : String) :
    DeliverAlike (fragile text) (fragile text') := by
  intro createdAt batch
  unfold fragile
  split
  · exact .inr ⟨text, text', rfl, rfl⟩
  · exact .inl rfl

def uploadOf (batch : String) : Request :=
  .ofTarget "POST" "/api/logs/analyze" [("content-type", "multipart/form-data; boundary=b")]
    (Text.encode ("--b\r\nContent-Disposition: form-data; name=\"file\"\r\n\r\n" ++ batch ++
      "\r\n--b--\r\n"))

/-- The result of the first analysis is asked for, and the call is made. -/
def query (number : Nat) : List (Incident Bool) :=
  [.request 8 (.ofTarget "GET" "/api/logs/analysis/1" [] []), .inside (.task number)]

/-- A batch is not stored, looks fail now and then, as the table is there for a while only, and a
reader breaks down. -/
def fourFailures : List (Incident Bool) :=
  [.request 7 (uploadOf "Time"), .inside (.task 0)] ++ query 1 ++ [.outside true] ++ query 2 ++
    [.outside false] ++ query 3 ++ [.request 9 (uploadOf "T")]

/-- A table that has not been created, with other words for that. -/
def bareTable : Reworded TableStore :=
  ⟨.empty, fun e => ⟨"disk I/O error", [e.detail]⟩⟩

/-- Whatever the words are, all that clients learn of a failure is the status 500. -/
theorem texts_stay_inside_fourFailures :
    let changed (there : Bool) (store : TableStore) : TableStore := { store with created := there }
    let changed' (there : Bool) (store : Reworded TableStore) : Reworded TableStore :=
      { store with store := changed there store.store }
    AnalysisStore.find bareTable.store 1 ≠ AnalysisStore.find bareTable 1 ∧
    ((start bareTable.store .standard 10).run (fragile "index out of bounds") 1000 changed
        fourFailures).responses =
      ((start bareTable .standard 10).run (fragile "attempt to divide by zero") 1000 changed'
        fourFailures).responses ∧
    ((start bareTable .standard 10).run (fragile "attempt to divide by zero") 1000 changed'
        fourFailures).responses.map (Option.map Response.status) =
      [some 500, some 500, some 404, some 500, some 500] := by
  intro changed changed'
  have hstores : AnswerAlike fun (s : TableStore) (t : Reworded TableStore) => t.store = s :=
    answerAlike_reworded
  have hstart : bareTable.store = bareTable.store := rfl
  have hpieces := deliverAlike_fragile "index out of bounds" "attempt to divide by zero"
  have hchanged : ChangeAlike (fun (s : TableStore) (t : Reworded TableStore) => t.store = s)
      changed changed' := fun there _ _ h => congrArg (changed there) h
  have hsame := texts_stay_inside hstores hstart hpieces hchanged .standard 10 1000 fourFailures
  refine ⟨by decide, hsame, ?_⟩
  decide +kernel

end Server

end AccessLog.Http

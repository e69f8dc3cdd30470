import AccessLog.Proofs.DialogueSteps

/-! # The ledger of a dialogue

What a call replies, apart from the infos in it, is settled by what the store has told it. Neither
the cache nor the worker has a part in that, so a ledger of the store and of what each call has been
told can be kept without looking at them. It depends on the calls and on the order in which they ask
the store, and on nothing else. -/

namespace AccessLog.Service
open AccessLog.Enrich AccessLog.Log AccessLog.Stats AccessLog.Store

/-! ## What a reply says apart from infos -/

def AnalysisResult.withoutInfos (r : AnalysisResult) : AnalysisResult :=
  { r with topAddresses := r.topAddresses.map fun a => { a with info := .unknown a.address } }

def Reply.bare : Reply → Reply
  | .infos _ => .infos []
  | .accepted saved => .accepted saved
  | .result r => .result r.withoutInfos
  | .failed f => .failed f

theorem Goal.bare_reply (goal : Goal) (infos : List (String × AddressInfo)) :
    (goal.reply infos).bare = goal.reply [] := by
  cases goal with
  | infos | accepted saved => rfl
  | result id topN a =>
    simp only [reply, Reply.bare, AnalysisResult.withoutInfos, AnalysisResult.of, List.map_map]
    rfl

theorem Reply.bare_eq_failed {reply : Reply} {f : Failure} :
    reply.bare = .failed f ↔ reply = .failed f := by
  cases reply <;> simp [bare]

namespace Stage

/-- A call that has been told everything, with what it is going to reply. -/
def bare : Stage → Stage
  | saving a => .saving a
  | keeping id a => .keeping id a
  | finding id topN => .finding id topN
  | working goal _ => .done (goal.reply [])
  | done reply => .done reply.bare

@[simp] theorem asks_bare (stage : Stage) : stage.bare.asks = stage.asks := by
  cases stage <;> rfl

variable {σ : Type} [SharedStore σ]

@[simp] theorem consult?_bare (eagerTopN : UInt64) (store : σ) (stage : Stage) :
    stage.bare.consult? eagerTopN store = stage.consult? eagerTopN store := by
  cases stage <;> rfl

/-- A step either asks the store, or changes neither the store nor what the call will say. -/
theorem Move.bare {stage stage' : Stage} {s s' : Service σ} (h : stage.Move s stage' s')
    (hlight : stage.IsLight) :
    stage.consult? s.eagerTopN s.store = some (stage', s'.store) ∨
      stage.asks = 0 ∧ stage'.bare = stage.bare ∧ s'.store = s.store := by
  cases h with
  | ask asked => exact .inl asked
  | work made => exact .inr ⟨rfl, rfl, (made.light hlight).2.1⟩
  | @reply goal t _ finished => exact .inr ⟨rfl, congrArg Stage.done (goal.bare_reply t.infos), rfl⟩

end Stage

/-! ## The ledger -/

/-- The store, and what each call has been told. -/
structure Ledger (σ : Type) where
  store : σ
  stages : List Stage

namespace Ledger
variable {σ : Type}

def add (d : Ledger σ) (c : Call) : Ledger σ :=
  { d with stages := d.stages ++ [(Stage.ofCall c).bare] }

/-- How often the call of a number may still ask the store. -/
def asks (d : Ledger σ) (number : Nat) : Nat := (d.stages[number]?.map Stage.asks).getD 0

variable [SharedStore σ]

/-- Let the call of a number ask the store. -/
def visit (eagerTopN : UInt64) (d : Ledger σ) (number : Nat) : Ledger σ :=
  match d.stages[number]? with
  | none => d
  | some stage =>
    match stage.consult? eagerTopN d.store with
    | none => d
    | some (stage, store) => ⟨store, d.stages.set number stage.bare⟩

def next (eagerTopN : UInt64) (d : Ledger σ) : Event → Ledger σ
  | .call c => d.add c
  | .task number => d.visit eagerTopN number
  | .worker | .settle _ | .stop | .forget _ => d

def run (eagerTopN : UInt64) (d : Ledger σ) (events : List Event) : Ledger σ :=
  events.foldl (next eagerTopN) d

variable {eagerTopN : UInt64}

theorem visit_of_consult {d : Ledger σ} {number : Nat} {stage stage' : Stage} {store : σ}
    (hx : d.stages[number]? = some stage)
    (hasked : stage.consult? eagerTopN d.store = some (stage', store)) :
    d.visit eagerTopN number = ⟨store, d.stages.set number stage'.bare⟩ := by
  simp only [visit, hx, hasked]

/-- A call that has nothing to ask changes nothing. -/
theorem visit_of_asks {d : Ledger σ} {number : Nat} (h : d.asks number = 0) :
    d.visit eagerTopN number = d := by
  unfold visit
  split
  · rfl
  · rename_i stage hx
    have hnone : stage.consult? eagerTopN d.store = none :=
      Stage.consult?_eq_none.2 (by simpa [asks, hx] using h)
    simp only [hnone]

theorem next_other {d : Ledger σ} {e : Event} (h : e.isOfCall = false) :
    d.next eagerTopN e = d := by
  cases e with
  | call | task => cases h
  | worker | settle | stop | forget => rfl

end Ledger

namespace Dialogue
variable {σ : Type}

def ledger (s : Dialogue σ) : Ledger σ := ⟨s.service.store, s.sessions.map fun x => x.stage.bare⟩

theorem getElem?_ledger {s : Dialogue σ} {number : Nat} {x : Session}
    (hx : s.sessions[number]? = some x) : s.ledger.stages[number]? = some x.stage.bare := by
  simp [ledger, hx]

/-- The ledger tells a reply, apart from the infos in it. -/
theorem ledger_of_reply? {s : Dialogue σ} {number : Nat} {reply : Reply}
    (h : s.reply? number = some reply) : s.ledger.stages[number]? = some (.done reply.bare) := by
  obtain ⟨call, hx⟩ := stage_of_reply? h
  exact getElem?_ledger hx

def IsLight (s : Dialogue σ) : Prop := ∀ x ∈ s.sessions, x.stage.IsLight

theorem isLight_start (store : σ) (cache : Cache) (eagerTopN : UInt64) :
    (start store cache eagerTopN).IsLight := fun _ hx => nomatch hx

variable [SharedStore σ]

theorem isLight_next {s : Dialogue σ} (h : s.IsLight) (e : Event) : (s.next e).IsLight := by
  rcases e.cases_isOfCall with ⟨c, rfl⟩ | ⟨number, rfl⟩ | hother
  · intro x hx
    rcases List.mem_append.1 hx with hold | hnew
    · exact h x hold
    · obtain rfl := List.mem_singleton.1 hnew
      exact Stage.isLight_ofCall c
  · rcases s.next_task number with ⟨hsame, -⟩ | ⟨call, stage, stage', service, hx, hstep, hnext⟩
    · rw [hsame]
      exact h
    · rw [hnext]
      intro y hy
      rcases List.mem_or_eq_of_mem_set hy with hold | rfl
      · exact h y hold
      · exact (hstep.ahead_lt (h _ (List.mem_of_getElem? hx))).1
  · intro x hx
    rw [(s.next_other hother).1] at hx
    exact h x hx

theorem isLight_run {s : Dialogue σ} (h : s.IsLight) (events : List Event) :
    (s.run events).IsLight := by
  induction events generalizing s with
  | nil => exact h
  | cons e rest ih => exact ih (isLight_next h e)

/-- Whatever happens in the dialogue happens in the ledger, or leaves it as it is. -/
theorem ledger_next {s : Dialogue σ} (h : s.IsLight) (e : Event) :
    (s.next e).ledger = s.ledger.next s.service.eagerTopN e := by
  rcases e.cases_isOfCall with ⟨c, rfl⟩ | ⟨number, rfl⟩ | hother
  · simp [ledger, next, Ledger.next, Ledger.add]
  · show _ = s.ledger.visit s.service.eagerTopN number
    rcases s.next_task number with ⟨hsame, hover⟩ | ⟨call, stage, stage', service, hx, hstep, hnext⟩
    · have hasks : s.ledger.asks number = 0 := by
        cases hx : s.sessions[number]? with
        | none => simp [ledger, Ledger.asks, hx]
        | some x =>
          obtain ⟨reply, hdone⟩ := hover x hx
          simp only [Ledger.asks, getElem?_ledger hx, Option.map_some, Option.getD_some,
            Stage.asks_bare, hdone]
          rfl
      rw [hsame, Ledger.visit_of_asks hasks]
    · have hbare := getElem?_ledger hx
      have hset : (s.next (.task number)).ledger =
          ⟨service.store, s.ledger.stages.set number stage'.bare⟩ := by
        rw [hnext]
        simp [ledger, List.map_set]
      rw [hset]
      rcases hstep.bare (h _ (List.mem_of_getElem? hx)) with hasked | ⟨hasks, hsame, hstore⟩
      · exact (Ledger.visit_of_consult hbare (by rw [Stage.consult?_bare]; exact hasked)).symm
      · obtain ⟨hlt, hget⟩ := List.getElem?_eq_some_iff.1 hbare
        rw [Ledger.visit_of_asks (by simp [Ledger.asks, hbare, hasks]), hsame, hstore, ← hget,
          List.set_getElem_self]
        rfl
  · obtain ⟨hsessions, hstore, -⟩ := s.next_other hother
    simp only [ledger, hsessions, hstore, Ledger.next_other hother]

theorem ledger_run {s : Dialogue σ} (h : s.IsLight) (events : List Event) :
    (s.run events).ledger = s.ledger.run s.service.eagerTopN events := by
  induction events generalizing s with
  | nil => rfl
  | cons e rest ih =>
    have hrest := ih (isLight_next h e)
    rw [ledger_next h, eagerTopN_next] at hrest
    exact hrest

end Dialogue

/-! ## The order in which the store is asked -/

namespace Ledger
variable {σ : Type}

def addAll (d : Ledger σ) (calls : List Call) : Ledger σ := calls.foldl add d

theorem asks_le_two (d : Ledger σ) (number : Nat) : d.asks number ≤ 2 := by
  unfold asks
  cases d.stages[number]? with
  | none => exact Nat.zero_le _
  | some stage => cases stage <;> simp [Stage.asks]

theorem lt_of_asks {d : Ledger σ} {number : Nat} (h : d.asks number ≠ 0) :
    number < d.stages.length := by
  by_contra hge
  exact h (by simp [asks, List.getElem?_eq_none (Nat.le_of_not_lt hge)])

theorem asks_add {d : Ledger σ} {number : Nat} (h : number < d.stages.length) (c : Call) :
    (d.add c).asks number = d.asks number := by
  simp only [asks, add, List.getElem?_append_left h]

variable [SharedStore σ]

def visitAll (eagerTopN : UInt64) (d : Ledger σ) (numbers : List Nat) : Ledger σ :=
  numbers.foldl (visit eagerTopN) d

variable {eagerTopN : UInt64}

/-- A call asks the store, or has nothing to ask. -/
theorem visit_cases (d : Ledger σ) (number : Nat) :
    d.asks number = 0 ∧ d.visit eagerTopN number = d ∨
      ∃ stage stage' store, d.stages[number]? = some stage ∧
        stage.consult? eagerTopN d.store = some (stage', store) ∧
        d.visit eagerTopN number = ⟨store, d.stages.set number stage'.bare⟩ := by
  by_cases hasks : d.asks number = 0
  · exact .inl ⟨hasks, visit_of_asks hasks⟩
  · obtain ⟨stage, hx⟩ : ∃ stage, d.stages[number]? = some stage :=
      ⟨_, List.getElem?_eq_getElem (lt_of_asks hasks)⟩
    cases hasked : stage.consult? eagerTopN d.store with
    | none => exact absurd (by simp [asks, hx, Stage.consult?_eq_none.1 hasked]) hasks
    | some answer =>
      exact .inr ⟨stage, answer.1, answer.2, hx, hasked, visit_of_consult hx hasked⟩

@[simp] theorem length_visit (d : Ledger σ) (number : Nat) :
    (d.visit eagerTopN number).stages.length = d.stages.length := by
  rcases d.visit_cases number with ⟨-, h⟩ | ⟨_, _, _, -, -, h⟩
  · rw [h]
  · rw [h]
    exact List.length_set

theorem asks_visit_lt {d : Ledger σ} {number : Nat} (h : d.asks number ≠ 0) :
    (d.visit eagerTopN number).asks number < d.asks number := by
  rcases d.visit_cases number with ⟨hasks, -⟩ | ⟨stage, stage', store, hx, hasked, hvisit⟩
  · exact absurd hasks h
  · obtain ⟨hlt, -⟩ := List.getElem?_eq_some_iff.1 hx
    have hless := (Stage.consult?_spec hasked).2.1
    rw [hvisit]
    simpa only [asks, hx, List.getElem?_set_self hlt, Option.map_some, Option.getD_some,
      Stage.asks_bare] using hless

theorem stages_visit_ne {d : Ledger σ} {number other : Nat} (h : other ≠ number) :
    (d.visit eagerTopN number).stages[other]? = d.stages[other]? := by
  rcases d.visit_cases number with ⟨-, hvisit⟩ | ⟨_, _, _, -, -, hvisit⟩
  · rw [hvisit]
  · rw [hvisit]
    exact List.getElem?_set_ne h.symm

theorem add_visit {d : Ledger σ} {number : Nat} (h : number < d.stages.length) (c : Call) :
    (d.add c).visit eagerTopN number = (d.visit eagerTopN number).add c := by
  rcases d.visit_cases number with ⟨hasks, hvisit⟩ | ⟨stage, stage', store, hx, hasked, hvisit⟩
  · rw [hvisit, visit_of_asks (by rw [asks_add h, hasks])]
  · have hx' : (d.add c).stages[number]? = some stage := by
      rw [add, List.getElem?_append_left h, hx]
    rw [hvisit, visit_of_consult hx' hasked]
    simp only [add, List.set_append_left _ _ h]

theorem addAll_visit {d : Ledger σ} {number : Nat} (h : number < d.stages.length)
    (calls : List Call) :
    (d.addAll calls).visit eagerTopN number = (d.visit eagerTopN number).addAll calls := by
  induction calls generalizing d with
  | nil => rfl
  | cons c rest ih =>
    have hlonger : number < (d.add c).stages.length := by
      simp only [add, List.length_append]
      omega
    have hrest := ih hlonger
    rw [add_visit h] at hrest
    exact hrest

/-- What a call has been told stays. -/
theorem settled_visitAll {d : Ledger σ} {number : Nat} {reply : Reply}
    (h : d.stages[number]? = some (.done reply)) (numbers : List Nat) :
    (d.visitAll eagerTopN numbers).stages[number]? = some (.done reply) := by
  induction numbers generalizing d with
  | nil => exact h
  | cons n rest ih =>
    refine ih ?_
    by_cases hn : number = n
    · subst hn
      rw [visit_of_asks (by simp [asks, h, Stage.asks]), h]
    · rw [stages_visit_ne hn, h]

/-- Two calls of a number that have both been told everything have been told the same, when the
store was asked in the same order as long as it was asked in both. -/
theorem settled_eq {d : Ledger σ} {fewer more : List Nat} (hless : fewer <+: more) {number : Nat}
    {reply₁ reply₂ : Reply}
    (h₁ : (d.visitAll eagerTopN fewer).stages[number]? = some (.done reply₁))
    (h₂ : (d.visitAll eagerTopN more).stages[number]? = some (.done reply₂)) :
    reply₁ = reply₂ := by
  obtain ⟨rest, rfl⟩ := hless
  have hstays : ((d.visitAll eagerTopN fewer).visitAll eagerTopN rest).stages[number]? =
      some (.done reply₁) := settled_visitAll h₁ rest
  rw [visitAll, visitAll, ← List.foldl_append] at hstays
  cases hstays.symm.trans h₂
  rfl

end Ledger

namespace Dialogue
variable {σ : Type}

/-- The number of the call that an event lets ask the store. -/
def visit? (s : Dialogue σ) : Event → Option Nat
  | .task number =>
    match s.sessions[number]? with
    | none => none
    | some x => if x.stage.asks = 0 then none else some number
  | _ => none

theorem asks_of_replied {s : Dialogue σ} (h : ∀ x ∈ s.sessions, x.reply?.isSome = true)
    (number : Nat) : s.ledger.asks number = 0 := by
  cases hx : s.sessions[number]? with
  | none => simp [Ledger.asks, ledger, hx]
  | some x =>
    obtain ⟨call, stage⟩ := x
    have hover := h _ (List.mem_of_getElem? hx)
    cases stage with
    | done reply => simp only [Ledger.asks, getElem?_ledger hx]; rfl
    | saving | keeping | finding | working => cases hover

theorem visit?_task (s : Dialogue σ) (number : Nat) :
    s.visit? (.task number) = if s.ledger.asks number = 0 then none else some number := by
  cases hx : s.sessions[number]? with
  | none => simp [visit?, Ledger.asks, ledger, hx]
  | some x => simp only [visit?, Ledger.asks, getElem?_ledger hx, hx, Option.map_some,
      Option.getD_some, Stage.asks_bare]

variable [SharedStore σ]

/-- The numbers of the calls that ask the store in the course of a schedule, in order. -/
def visits (s : Dialogue σ) : List Event → List Nat
  | [] => []
  | e :: rest => (s.visit? e).toList ++ visits (s.next e) rest

/-- The ledger depends on which calls are made and in which order they ask the store. -/
theorem ledger_eq_visitAll {s : Dialogue σ} (h : s.IsLight) (events : List Event) :
    (s.run events).ledger =
      (s.ledger.addAll (callsOf events)).visitAll s.service.eagerTopN (s.visits events) := by
  induction events generalizing s with
  | nil => rfl
  | cons e rest ih =>
    have hrest := ih (isLight_next h e)
    rw [eagerTopN_next, ledger_next h] at hrest
    show ((s.next e).run rest).ledger = _
    rw [hrest]
    rcases e.cases_isOfCall with ⟨c, rfl⟩ | ⟨number, rfl⟩ | hother
    · rfl
    · show ((s.ledger.visit _ number).addAll _).visitAll _ _ = _
      by_cases hasks : s.ledger.asks number = 0
      · rw [Ledger.visit_of_asks hasks, visits, visit?_task, if_pos hasks]
        rfl
      · rw [← Ledger.addAll_visit (Ledger.lt_of_asks hasks), visits, visit?_task, if_neg hasks]
        rfl
    · have hnone : s.visit? e = none := by
        cases e with
        | call | task => cases hother
        | worker | settle | stop | forget => rfl
      rw [Ledger.next_other hother, visits, hnone, callsOf_cons, Event.call?_of_isOfCall hother]
      rfl

end Dialogue

end AccessLog.Service

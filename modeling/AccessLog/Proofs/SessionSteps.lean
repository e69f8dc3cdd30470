import AccessLog.Proofs.Uninterrupted
import AccessLog.Service.Sessions

/-! # What a step of a call can do

Each step of a call on its way to a reply is one of a few. Reads and offers leave the store alone,
and there is only so much of them, so a call that gets its turns comes to its reply. A call that
nothing interrupts replies what the service replies in one go. -/

namespace AccessLog.Service
open AccessLog.Enrich AccessLog.Log AccessLog.Stats AccessLog.Store

/-! ## Reads and offers -/

/-- Whether it keeps away from the store. -/
def Action.isLight : Action → Bool
  | read _ => true
  | offer _ => true
  | save _ => false
  | find _ _ => false

/-- How many steps it may take. -/
def Action.cost : Action → Nat
  | read _ => 3
  | offer _ => 2
  | save _ => 1
  | find _ _ => 1

def Task.IsLight (t : Task) : Prop := ∀ action ∈ t.ahead, action.isLight = true

/-- How many steps may be ahead of the task. -/
def Task.left (t : Task) : Nat :=
  t.claimed.toList.length + t.ahead.foldr (fun action left => action.cost + left) 0

/-- Reads and offers leave the store alone, and bring the task nearer to its end. -/
theorem Task.Step.light {σ : Type} [AnalysisStore σ] {t t' : Task} {s s' : Service σ}
    (hstep : t.Step s t' s') (h : t.IsLight) :
    t'.IsLight ∧ s'.store = s.store ∧ t'.left < t.left := by
  have hrest {action : Action} {ahead : List Action} {claimed claimed' : Option String}
      {infos infos' : List (String × AddressInfo)}
      (hall : Task.IsLight ⟨claimed, action :: ahead, infos⟩) :
      Task.IsLight ⟨claimed', ahead, infos'⟩ := fun a ha => hall a (List.mem_cons_of_mem _ ha)
  cases hstep with
  | push => exact ⟨h, rfl, by simp [left]⟩
  | claim => exact ⟨hrest h, rfl, by simp [left, Action.cost]⟩
  | refused => exact ⟨hrest h, rfl, by simp [left, Action.cost]⟩
  | known => exact ⟨hrest h, rfl, by simp [left, Action.cost]⟩
  | hit => exact ⟨hrest h, rfl, by simp [left, Action.cost]⟩
  | miss =>
    refine ⟨?_, rfl, by simp [left, Action.cost]⟩
    intro a ha
    rcases List.mem_cons.1 ha with rfl | ha
    · rfl
    · exact h a (List.mem_cons_of_mem _ ha)
  | save => cases h _ List.mem_cons_self
  | find => cases h _ List.mem_cons_self

theorem isLight_offers (addresses : List String) (infos : List (String × AddressInfo)) :
    Task.IsLight ⟨none, addresses.map .offer, infos⟩ := by
  intro action haction
  obtain ⟨address, -, rfl⟩ := List.mem_map.1 haction
  rfl

theorem isLight_reads (addresses : List String) (infos : List (String × AddressInfo)) :
    Task.IsLight ⟨none, addresses.map .read, infos⟩ := by
  intro action haction
  obtain ⟨address, -, rfl⟩ := List.mem_map.1 haction
  rfl

theorem left_reads (addresses : List String) (infos : List (String × AddressInfo)) :
    Task.left ⟨none, addresses.map .read, infos⟩ = 3 * addresses.length := by
  induction addresses with
  | nil => rfl
  | cons address rest ih =>
    simp only [Task.left, List.map_cons, List.foldr_cons, Action.cost, List.length_cons] at ih ⊢
    omega

/-! ## Calls -/

inductive Stage.Step : Stage → Service MemoryStore → Stage → Service MemoryStore → Prop
  | draw {s a} (unnumbered : a.id = none) :
      Step (.saving a) s (.keeping s.store.draw.1 (a.withId s.store.draw.1))
        { s with store := s.store.draw.2 }
  | bring {s a id} (numbered : a.id = some id) : Step (.saving a) s (.keeping id a) s
  | keep {s id a} :
      Step (.keeping id a) s (afterKeep s.eagerTopN a) { s with store := s.store.insert id a }
  | find {s id topN} :
      Step (.finding id topN) s (afterFind id topN (s.store.find id)) s
  | work {goal t t' s s'} (made : t.Step s t' s') :
      Step (.working goal t) s (.working goal t') s'
  | reply {goal t s} (finished : t.step? s = none) :
      Step (.working goal t) s (.done (goal.reply t.infos)) s

theorem Stage.step?_eq_some {stage stage' : Stage} {s s' : Service MemoryStore}
    (h : stage.step? s = some (stage', s')) : stage.Step s stage' s' := by
  cases stage with
  | saving a =>
    cases hid : a.id with
    | none =>
      simp only [step?, MemoryStore.assign, hid] at h
      cases h; exact .draw hid
    | some id =>
      simp only [step?, MemoryStore.assign, hid] at h
      cases h; exact .bring hid
  | keeping id a => cases h; exact .keep
  | finding id topN => cases h; exact .find
  | working goal t =>
    cases hmade : t.step? s with
    | none =>
      simp only [step?, hmade] at h
      cases h; exact .reply hmade
    | some made =>
      obtain ⟨t', s''⟩ := made
      simp only [step?, hmade] at h
      cases h; exact .work (Task.step?_spec hmade)
  | done reply => cases h

theorem Stage.step?_eq_none {stage : Stage} {s : Service MemoryStore} (h : stage.step? s = none) :
    ∃ reply, stage = .done reply := by
  cases stage with
  | saving a | keeping id a | finding id topN => cases h
  | working goal t =>
    cases hmade : t.step? s <;> simp [step?, hmade] at h
  | done reply => exact ⟨reply, rfl⟩

/-- The call of a number takes its step, where it is not over. -/
theorem Traffic.next_task (s : Traffic) (number : Nat) :
    (s.next (.task number) = s ∧
        ∀ x, s.sessions[number]? = some x → ∃ reply, x.stage = .done reply) ∨
      ∃ call stage stage' service, s.sessions[number]? = some ⟨call, stage⟩ ∧
        stage.Step s.service stage' service ∧
        s.next (.task number) =
          ⟨service, s.worker, s.sessions.set number ⟨call, stage'⟩⟩ := by
  cases hx : s.sessions[number]? with
  | none => exact .inl ⟨by simp only [next, hx], fun _ hsome => nomatch hsome⟩
  | some x =>
    obtain ⟨call, stage⟩ := x
    cases hstep : stage.step? s.service with
    | none =>
      refine .inl ⟨by simp only [next, hx, hstep], ?_⟩
      rintro _ ⟨⟩
      exact Stage.step?_eq_none hstep
    | some made =>
      obtain ⟨stage', service⟩ := made
      exact .inr ⟨call, stage, stage', service, rfl, Stage.step?_eq_some hstep,
        by simp only [next, hx, hstep]⟩

/-- The worker touches neither the store nor a call. -/
theorem Traffic.next_worker (s : Traffic) :
    (s.next .worker).service.store = s.service.store ∧ (s.next .worker).sessions = s.sessions := by
  simp only [next]
  split <;> exact ⟨rfl, rfl⟩

/-- Whether it is the turn of the call of a number. -/
def Event.isStepOf (number : Nat) : Event → Bool
  | task n => n == number
  | call _ | worker | settle _ | stop | forget _ => false

/-- A call changes by its own steps only, and where it has its turn it takes a step or is over. -/
theorem Traffic.next_session (s : Traffic) (e : Event) {number : Nat} {call : Call} {stage : Stage}
    (hx : s.sessions[number]? = some ⟨call, stage⟩) :
    (∃ stage', stage.Step s.service stage' (s.next e).service ∧
      (s.next e).sessions[number]? = some ⟨call, stage'⟩) ∨
    ((e.isStepOf number = true → ∃ reply, stage = .done reply) ∧
      (s.next e).sessions[number]? = some ⟨call, stage⟩) := by
  obtain ⟨hlt, -⟩ := List.getElem?_eq_some_iff.1 hx
  cases e with
  | call c =>
    right
    refine ⟨by simp [Event.isStepOf], ?_⟩
    show (s.sessions ++ [_])[number]? = some _
    rw [List.getElem?_append_left hlt]
    exact hx
  | task n =>
    rcases s.next_task n with ⟨hsame, hover⟩ | ⟨call', stage₁, stage₂, service, hy, hstep, hnext⟩
    · rw [hsame]
      refine .inr ⟨?_, hx⟩
      intro hturn
      obtain rfl : n = number := by simpa [Event.isStepOf] using hturn
      exact hover _ hx
    · rw [hnext]
      by_cases hn : n = number
      · subst hn
        cases hy.symm.trans hx
        exact .inl ⟨stage₂, hstep, by simp [hlt]⟩
      · right
        refine ⟨fun hturn => absurd (by simpa [Event.isStepOf] using hturn) hn, ?_⟩
        show (s.sessions.set n _)[number]? = some _
        rw [List.getElem?_set_ne hn]
        exact hx
  | worker =>
    rw [s.next_worker.2]
    exact .inr ⟨by simp [Event.isStepOf], hx⟩
  | settle | stop | forget => exact .inr ⟨by simp [Event.isStepOf], hx⟩

/-! ## Calls that nothing interrupts -/

/-- Left to itself in a service `s`, a call that stands here comes to this reply, in `s'`. -/
inductive Stage.Replies : Stage → Service MemoryStore → Reply → Service MemoryStore → Prop
  | done {reply s} : Replies (.done reply) s reply s
  | step {stage s stage' s' reply s''} (made : stage.step? s = some (stage', s'))
      (rest : Replies stage' s' reply s'') : Replies stage s reply s''

theorem Stage.Replies.working {t : Task} {s s' : Service MemoryStore}
    {infos : List (String × AddressInfo)} (h : t.Completes s infos s') (goal : Goal) :
    (Stage.working goal t).Replies s (goal.reply infos) s' := by
  induction h with
  | done => exact .step rfl .done
  | step made _ ih => exact .step (by simp only [step?, made]) ih

def Reply.ofIngest : Except Failure Analysis → Reply
  | .ok saved => .accepted saved
  | .error f => .failed f

def Reply.ofResult : Except Failure AnalysisResult → Reply
  | .ok r => .result r
  | .error f => .failed f

theorem ingest_replies (s : Service MemoryStore) (createdAt : Int64) (reads : List Read) :
    (Stage.ofCall (.ingest createdAt reads)).Replies s (.ofIngest (s.ingest createdAt reads).1)
      (s.ingest createdAt reads).2 := by
  cases hbatch : aggregate createdAt reads with
  | error fault =>
    simp only [Stage.ofCall, ingest, hbatch]
    exact .done
  | ok a =>
    rcases hassign : s.store.assign a with ⟨id, saved, store⟩
    have hsave : AnalysisStore.save s.store a = (.ok saved, store.insert id saved) := by
      show (Except.ok (s.store.save a).1, (s.store.save a).2) = _
      rw [MemoryStore.save_eq_insert, hassign]
    have hchosen : (Stage.saving a).step? s = some (.keeping id saved, { s with store }) := by
      simp only [Stage.step?, hassign]
    simp only [Stage.ofCall, ingest, hbatch]
    refine .step hchosen (.step rfl ?_)
    cases hid : saved.id with
    | none =>
      simp only [Stage.afterKeep, accept, hsave, hid]
      exact .done
    | some given =>
      simp only [Stage.afterKeep, accept, hsave, hid]
      exact .working (.offers _ .done) _

theorem result_replies (s : Service MemoryStore) (id topN : UInt64) :
    (Stage.ofCall (.result id topN)).Replies s (.ofResult (s.result id topN).1)
      (s.result id topN).2 := by
  refine .step rfl ?_
  cases hfind : s.store.find id with
  | none =>
    have hmissing : AnalysisStore.find s.store id = .ok none := congrArg Except.ok hfind
    simp only [Stage.afterFind, result, hmissing]
    exact .done
  | some a =>
    have hfound : AnalysisStore.find s.store id = .ok (some a) := congrArg Except.ok hfind
    simp only [Stage.afterFind, result, hfound]
    exact .working (.reads _ .done) _

end AccessLog.Service

import AccessLog.Proofs.FreshIdentity
import AccessLog.Proofs.SessionSteps
import Mathlib.Data.List.Nodup

/-! # Identities drawn side by side

Ingests draw their identities one after the other, whatever else happens between a draw and the
insertion that follows it. The identities are 1, 2, 3 and so on in the order of the draws, each goes
to one ingest, and an ingest inserts its analysis under the identity that it has drawn. So no two
insertions meet in one place, and what is inserted is there for good. -/

namespace AccessLog.Service
open AccessLog.Enrich AccessLog.Log AccessLog.Stats AccessLog.Store

/-! ## Where calls stand -/

def Call.isIngest : Call → Bool
  | ingest _ _ => true
  | read _ => false
  | readAll _ => false
  | result _ _ => false

def Call.isRead : Call → Bool
  | read _ => true
  | readAll _ => true
  | ingest _ _ => false
  | result _ _ => false

/-- Where a call can stand, in view of what is stored. -/
inductive Stands (store : MemoryStore) : Call → Stage → Prop
  | failed {createdAt reads fault} (batch : aggregate createdAt reads = .error fault) :
      Stands store (.ingest createdAt reads) (.done (.failed (batchFailure fault)))
  | saving {createdAt reads a} (batch : aggregate createdAt reads = .ok a) :
      Stands store (.ingest createdAt reads) (.saving a)
  | keeping {createdAt reads a id} (batch : aggregate createdAt reads = .ok a) :
      Stands store (.ingest createdAt reads) (.keeping id (a.withId id))
  | queueing {createdAt reads a id t} (batch : aggregate createdAt reads = .ok a)
      (light : t.IsLight) (kept : store.find id = some (a.withId id)) :
      Stands store (.ingest createdAt reads) (.working (.accepted (a.withId id)) t)
  | accepted {createdAt reads a id} (batch : aggregate createdAt reads = .ok a)
      (kept : store.find id = some (a.withId id)) :
      Stands store (.ingest createdAt reads) (.done (.accepted (a.withId id)))
  | finding {id topN} : Stands store (.result id topN) (.finding id topN)
  | missing {id topN} : Stands store (.result id topN) (.done (.failed (.notFound id)))
  | pairing {id topN a t} (light : t.IsLight) :
      Stands store (.result id topN) (.working (.result id topN a) t)
  | answered {id topN a infos} :
      Stands store (.result id topN) (.done (.result (AnalysisResult.of id a topN infos)))
  | reading {c t} (reads : c.isRead = true) (light : t.IsLight) :
      Stands store c (.working .infos t)
  | read {c infos} (reads : c.isRead = true) : Stands store c (.done (.infos infos))

theorem id_aggregate {createdAt : Int64} {reads : List Read} {a : Analysis}
    (h : aggregate createdAt reads = .ok a) : a.id = none := by
  unfold aggregate at h
  cases hrows : addRows .empty (rows reads) with
  | error fault => rw [hrows] at h; cases h
  | ok aggregator => rw [hrows] at h; cases h; rfl

namespace Stands
variable {store store' : MemoryStore} {call : Call} {stage : Stage}

theorem ofCall (store : MemoryStore) (call : Call) : Stands store call (.ofCall call) := by
  cases call with
  | read address => exact .reading rfl (isLight_reads [address] [])
  | readAll addresses => exact .reading rfl (isLight_reads addresses [])
  | ingest createdAt reads =>
    cases hbatch : aggregate createdAt reads with
    | error fault => simp only [Stage.ofCall, hbatch]; exact .failed hbatch
    | ok a => simp only [Stage.ofCall, hbatch]; exact .saving hbatch
  | result id topN => exact .finding

/-- Only ingests of batches that can be aggregated are given an identity. -/
theorem batch_of_id {id : UInt64} (h : Stands store call stage) (hid : stage.id? = some id) :
    ∃ createdAt reads a, call = .ingest createdAt reads ∧ aggregate createdAt reads = .ok a := by
  cases h with
  | keeping batch | queueing batch | accepted batch => exact ⟨_, _, _, rfl, batch⟩
  | failed | saving | finding | missing | pairing | answered | reading | read => cases hid

theorem isIngest (h : Stands store call stage) (hid : stage.id?.isSome = true) :
    call.isIngest = true := by
  obtain ⟨id, hid⟩ := Option.isSome_iff_exists.1 hid
  obtain ⟨_, _, _, rfl, -⟩ := h.batch_of_id hid
  rfl

theorem refused {createdAt : Int64} {reads : List Read} {fault : BatchFault}
    (h : Stands store (.ingest createdAt reads) stage)
    (hbatch : aggregate createdAt reads = .error fault) :
    stage = .done (.failed (batchFailure fault)) := by
  cases h with
  | failed batch => rw [Except.error.inj (batch.symm.trans hbatch)]
  | saving batch | keeping batch | queueing batch | accepted batch =>
    rw [batch] at hbatch
    cases hbatch
  | reading reads | read reads => cases reads

theorem keep (h : Stands store call stage)
    (hkept : ∀ id a, stage.id? = some id → store.find id = some a → store'.find id = some a) :
    Stands store' call stage := by
  cases h with
  | failed batch => exact .failed batch
  | saving batch => exact .saving batch
  | keeping batch => exact .keeping batch
  | queueing batch light kept => exact .queueing batch light (hkept _ _ rfl kept)
  | accepted batch kept => exact .accepted batch (hkept _ _ rfl kept)
  | finding => exact .finding
  | missing => exact .missing
  | pairing light => exact .pairing light
  | answered => exact .answered
  | reading reads light => exact .reading reads light
  | read reads => exact .read reads

theorem step {stage' : Stage} {s s' : Service MemoryStore} (h : Stands s.store call stage)
    (hstep : stage.Step s stage' s') : Stands s'.store call stage' := by
  cases hstep with
  | draw =>
    cases h with
    | saving batch => exact .keeping batch
  | bring numbered =>
    cases h with
    | saving batch => rw [id_aggregate batch] at numbered; cases numbered
  | keep =>
    cases h with
    | keeping batch =>
      exact .queueing batch (isLight_offers _ _) (by rw [MemoryStore.find_insert, if_pos rfl])
  | find =>
    cases h with
    | finding =>
      unfold Stage.afterFind
      split
      · exact .missing
      · exact .pairing (isLight_reads _ _)
  | work made =>
    cases h with
    | queueing batch light kept =>
      obtain ⟨hlight, hstore, -⟩ := made.light light
      exact .queueing batch hlight (by rw [hstore]; exact kept)
    | pairing light => exact .pairing (made.light light).1
    | reading reads light => exact .reading reads (made.light light).1
  | reply finished =>
    cases h with
    | queueing batch light kept => exact .accepted batch kept
    | pairing light => exact .answered
    | reading reads light => exact .read reads

end Stands

/-- A step draws the next identity, or leaves the identity of the call and the counter as they are
and touches at most what is kept under that identity. -/
theorem Stage.Step.effect {call : Call} {stage stage' : Stage} {s s' : Service MemoryStore}
    (hstep : stage.Step s stage' s') (h : Stands s.store call stage) :
    (∃ a, stage = .saving a ∧ a.id = none ∧ stage'.id? = some s.store.draw.1 ∧
      s'.store = s.store.draw.2) ∨
    ((∀ a, stage ≠ .saving a) ∧ stage'.id? = stage.id? ∧ s'.store.lastId = s.store.lastId ∧
      ∀ id, stage.id? ≠ some id → s'.store.find id = s.store.find id) := by
  cases hstep with
  | draw unnumbered => exact .inl ⟨_, rfl, unnumbered, rfl, rfl⟩
  | bring numbered =>
    cases h with
    | saving batch => rw [id_aggregate batch] at numbered; cases numbered
  | @keep id a =>
    right
    cases h with
    | keeping batch =>
      refine ⟨by simp, rfl, rfl, ?_⟩
      intro other hother
      rw [MemoryStore.find_insert, if_neg]
      rintro rfl
      exact hother rfl
  | find =>
    right
    cases h with
    | finding =>
      refine ⟨by simp, ?_, rfl, fun _ _ => rfl⟩
      unfold Stage.afterFind
      split <;> rfl
  | work made =>
    right
    have hstore : s'.store = s.store := by
      cases h with
      | queueing _ light | pairing light | reading _ light => exact (made.light light).2.1
    refine ⟨by simp, rfl, by rw [hstore], fun _ _ => by rw [hstore]⟩
  | reply finished =>
    right
    refine ⟨by simp, ?_, rfl, fun _ _ => rfl⟩
    cases h <;> rfl

/-! ## Draws -/

section Set
variable {α : Type} {l : List α} {i k : Nat} {x y z : α}

theorem getElem?_set_eq_some (hx : l[i]? = some x) :
    (l.set i y)[k]? = some z ↔ (k = i ∧ z = y) ∨ (k ≠ i ∧ l[k]? = some z) := by
  obtain ⟨hlt, -⟩ := List.getElem?_eq_some_iff.1 hx
  rw [List.getElem?_set]
  by_cases hk : i = k
  · subst hk
    simp [hlt, eq_comm]
  · simp [hk, Ne.symm hk]

theorem countP_set_add (hx : l[i]? = some x) (p : α → Bool) :
    (l.set i y).countP p + (if p x then 1 else 0) = l.countP p + if p y then 1 else 0 := by
  obtain ⟨hlt, rfl⟩ := List.getElem?_eq_some_iff.1 hx
  rw [List.countP_set hlt]
  have hone : (if p l[i] = true then 1 else 0) ≤ l.countP p := by
    split
    · rename_i hp
      exact List.countP_pos_iff.2 ⟨_, List.getElem_mem hlt, hp⟩
    · exact Nat.zero_le _
  omega

end Set

/-- The draws made so far, the counter of the store and the identities of the calls tell the same
story. -/
structure Consistent (store : MemoryStore) (sessions : List Session)
    (draws : List (Nat × UInt64)) : Prop where
  counter : store.lastId.toNat = draws.length
  ascending : draws.map (fun d => d.2.toNat) = List.range' 1 draws.length
  counted : sessions.countP (·.stage.id?.isSome) = draws.length
  drew : ∀ number id, (number, id) ∈ draws ↔
    ∃ x : Session, sessions[number]? = some x ∧ x.stage.id? = some id
  stands : ∀ (number : Nat) (x : Session), sessions[number]? = some x →
    Stands store x.call x.stage

/-- Only ingests have identities. -/
theorem countP_id_le {store : MemoryStore} {sessions : List Session}
    (h : ∀ (number : Nat) (x : Session), sessions[number]? = some x →
      Stands store x.call x.stage) :
    sessions.countP (·.stage.id?.isSome) ≤ sessions.countP (·.call.isIngest) := by
  refine List.countP_mono_left ?_
  intro x hx hid
  obtain ⟨number, hnumber⟩ := List.getElem?_of_mem hx
  exact (h number x hnumber).isIngest hid

namespace Consistent
variable {store : MemoryStore} {sessions : List Session} {draws : List (Nat × UInt64)}

theorem start : Consistent .empty [] [] :=
  ⟨rfl, rfl, rfl, by simp, by simp⟩

/-- No identity is drawn twice. -/
theorem distinct (h : Consistent store sessions draws) {number other : Nat} {id : UInt64}
    (hnumber : (number, id) ∈ draws) (hother : (other, id) ∈ draws) : number = other := by
  have hnodup : (draws.map fun d => d.2.toNat).Nodup := by
    rw [h.ascending]
    exact List.nodup_range' 1
  exact congrArg Prod.fst (List.inj_on_of_nodup_map hnodup hnumber hother rfl)

theorem call (h : Consistent store sessions draws) (c : Call) :
    Consistent store (sessions ++ [⟨c, .ofCall c⟩]) draws := by
  have hnone : (Stage.ofCall c).id? = none := by
    cases hc : (Stage.ofCall c).id? with
    | none => rfl
    | some id =>
      cases c with
      | ingest createdAt reads =>
        cases hbatch : aggregate createdAt reads <;>
          simp [Stage.ofCall, hbatch, Stage.id?] at hc
      | read | readAll | result => cases hc
  have hget : ∀ (number : Nat) (x : Session), (sessions ++ [⟨c, .ofCall c⟩])[number]? = some x ↔
      sessions[number]? = some x ∨ number = sessions.length ∧ x = ⟨c, .ofCall c⟩ := by
    intro number x
    rw [List.getElem?_append]
    split
    · rename_i hlt
      simp [Nat.ne_of_lt hlt]
    · rename_i hle
      have hout : sessions[number]? = none := List.getElem?_eq_none (Nat.le_of_not_lt hle)
      rw [hout, List.getElem?_singleton]
      by_cases heq : number = sessions.length
      · simp [heq, eq_comm]
      · have hsub : number - sessions.length ≠ 0 := by omega
        simp [hsub, heq]
  refine ⟨h.counter, h.ascending, ?_, ?_, ?_⟩
  · simpa [List.countP_append, hnone] using h.counted
  · intro number id
    rw [h.drew]
    constructor
    · rintro ⟨x, hx, hid⟩
      exact ⟨x, (hget number x).2 (.inl hx), hid⟩
    · rintro ⟨x, hx, hid⟩
      rcases (hget number x).1 hx with hx | ⟨-, rfl⟩
      · exact ⟨x, hx, hid⟩
      · rw [hnone] at hid
        cases hid
  · intro number x hx
    rcases (hget number x).1 hx with hx | ⟨-, rfl⟩
    · exact h.stands number x hx
    · exact .ofCall store c

/-- A call that takes a step stands well, and so do the others: what it inserts it puts under an
identity that is its own. -/
theorem stands_step {call : Call} {stage stage' : Stage} {s s' : Service MemoryStore} {number : Nat}
    (h : Consistent s.store sessions draws) (hx : sessions[number]? = some ⟨call, stage⟩)
    (hstep : stage.Step s stage' s') (other : Nat) (x : Session)
    (hother : (sessions.set number ⟨call, stage'⟩)[other]? = some x) :
    Stands s'.store x.call x.stage := by
  have hstands := h.stands number _ hx
  rcases (getElem?_set_eq_some hx).1 hother with ⟨-, rfl⟩ | ⟨hne, hsession⟩
  · exact hstands.step hstep
  -- the other call keeps what it has stored, for the two have drawn different identities
  · refine (h.stands other x hsession).keep ?_
    intro id a hid hfind
    rcases hstep.effect hstands with ⟨b, -, -, -, hstore⟩ | ⟨-, -, -, hfinds⟩
    · rw [hstore]
      exact hfind
    · rw [hfinds id ?_]
      · exact hfind
      · intro hsame
        exact hne (h.distinct ((h.drew other id).2 ⟨x, hsession, hid⟩)
          ((h.drew number id).2 ⟨_, hx, hsame⟩))

/-- A step that draws no identity. -/
theorem step {call : Call} {stage stage' : Stage} {s s' : Service MemoryStore} {number : Nat}
    (h : Consistent s.store sessions draws) (hx : sessions[number]? = some ⟨call, stage⟩)
    (hstep : stage.Step s stage' s') (hid : stage'.id? = stage.id?)
    (hlast : s'.store.lastId = s.store.lastId) :
    Consistent s'.store (sessions.set number ⟨call, stage'⟩) draws := by
  refine ⟨?_, h.ascending, ?_, ?_, h.stands_step hx hstep⟩
  · rw [hlast]
    exact h.counter
  · have hcount := countP_set_add (y := ⟨call, stage'⟩) hx (·.stage.id?.isSome)
    rw [hid] at hcount
    exact (Nat.add_right_cancel hcount).trans h.counted
  · intro other id
    rw [h.drew]
    constructor
    · rintro ⟨x, hsession, hgiven⟩
      by_cases hsame : other = number
      · subst hsame
        obtain rfl : (⟨call, stage⟩ : Session) = x := Option.some.inj (hx.symm.trans hsession)
        exact ⟨_, (getElem?_set_eq_some hx).2 (.inl ⟨rfl, rfl⟩), hid.trans hgiven⟩
      · exact ⟨x, (getElem?_set_eq_some hx).2 (.inr ⟨hsame, hsession⟩), hgiven⟩
    · rintro ⟨x, hsession, hgiven⟩
      rcases (getElem?_set_eq_some hx).1 hsession with ⟨rfl, rfl⟩ | ⟨-, hsession⟩
      · exact ⟨_, hx, hid.symm.trans hgiven⟩
      · exact ⟨x, hsession, hgiven⟩

/-- A step that draws the next identity, while there are identities left. -/
theorem draw {call : Call} {a : Analysis} {stage' : Stage} {s s' : Service MemoryStore}
    {number : Nat} (h : Consistent s.store sessions draws)
    (hx : sessions[number]? = some ⟨call, .saving a⟩) (hstep : (Stage.saving a).Step s stage' s')
    (hid : stage'.id? = some s.store.draw.1) (hstore : s'.store = s.store.draw.2)
    (hfew : sessions.countP (·.call.isIngest) < UInt64.size) :
    Consistent s'.store (sessions.set number ⟨call, stage'⟩)
      (draws ++ [(number, s.store.draw.1)]) := by
  have hstands := h.stands_step hx hstep
  have hcounted : (sessions.set number ⟨call, stage'⟩).countP (·.stage.id?.isSome) =
      draws.length + 1 := by
    have hcount := countP_set_add (y := ⟨call, stage'⟩) hx (·.stage.id?.isSome)
    have hsome : stage'.id?.isSome = true := by rw [hid]; rfl
    have hnone : (Stage.saving a).id?.isSome = false := rfl
    rw [h.counted] at hcount
    simpa [hsome, hnone] using hcount
  have hingests : (sessions.set number ⟨call, stage'⟩).countP (·.call.isIngest) =
      sessions.countP (·.call.isIngest) :=
    Nat.add_right_cancel (countP_set_add (y := ⟨call, stage'⟩) hx (·.call.isIngest))
  -- the counter would come round only after as many ingests as there are identities
  have hroom : draws.length + 1 < UInt64.size := by
    refine Nat.lt_of_le_of_lt ?_ hfew
    rw [← hcounted, ← hingests]
    exact countP_id_le hstands
  have hnext : s.store.draw.1.toNat = draws.length + 1 := by
    show (s.store.lastId + 1).toNat = _
    rw [UInt64.toNat_add, h.counter]
    exact Nat.mod_eq_of_lt hroom
  refine ⟨?_, ?_, ?_, ?_, hstands⟩
  · rw [hstore, List.length_append]
    exact hnext
  · rw [List.map_append, h.ascending, List.length_append, List.length_singleton,
      List.range'_1_concat, List.map_singleton, hnext, Nat.add_comm 1]
  · rw [hcounted, List.length_append, List.length_singleton]
  · intro other id
    rw [List.mem_append, List.mem_singleton, Prod.mk.injEq, h.drew]
    constructor
    · rintro (⟨x, hsession, hgiven⟩ | ⟨rfl, rfl⟩)
      · by_cases hsame : other = number
        · subst hsame
          obtain rfl : (⟨call, .saving a⟩ : Session) = x := Option.some.inj (hx.symm.trans hsession)
          cases hgiven
        · exact ⟨x, (getElem?_set_eq_some hx).2 (.inr ⟨hsame, hsession⟩), hgiven⟩
      · exact ⟨_, (getElem?_set_eq_some hx).2 (.inl ⟨rfl, rfl⟩), hid⟩
    · rintro ⟨x, hsession, hgiven⟩
      rcases (getElem?_set_eq_some hx).1 hsession with ⟨rfl, rfl⟩ | ⟨-, hsession⟩
      · exact .inr ⟨rfl, (Option.some.inj (hid.symm.trans hgiven)).symm⟩
      · exact .inl ⟨x, hsession, hgiven⟩

end Consistent

/-! ## Runs -/

def Event.call? : Event → Option Call
  | call c => some c
  | task _ | worker | settle _ | stop | forget _ => none

/-- How many batches are sent in the course of a schedule. -/
def ingests (events : List Event) : Nat := (events.filterMap Event.call?).countP Call.isIngest

theorem ingests_append (events more : List Event) :
    ingests (events ++ more) = ingests events + ingests more := by
  simp [ingests, List.countP_append]

namespace Traffic

theorem run_append (s : Traffic) (events more : List Event) :
    s.run (events ++ more) = (s.run events).run more := by
  simp [run, List.foldl_append]

theorem draws_concat (s : Traffic) (events : List Event) (e : Event) :
    s.draws (events ++ [e]) = s.draws events ++ ((s.run events).draw? e).toList := by
  induction events generalizing s with
  | nil => simp [draws, run]
  | cons first rest ih => simp [draws, run, ih]

theorem calls_next (s : Traffic) (e : Event) :
    (s.next e).sessions.map Session.call = s.sessions.map Session.call ++ e.call?.toList := by
  cases e with
  | call c => simp [next, Event.call?]
  | task number =>
    rcases s.next_task number with ⟨hsame, -⟩ | ⟨call, stage, stage', service, hx, -, hnext⟩
    · simp [hsame, Event.call?]
    · obtain ⟨hlt, -⟩ := List.getElem?_eq_some_iff.1 hx
      rw [hnext]
      simp only [Event.call?, Option.toList_none, List.append_nil]
      refine List.ext_getElem? fun k => ?_
      rw [List.getElem?_map, List.getElem?_map, List.getElem?_set]
      by_cases hk : number = k
      · subst hk
        rw [if_pos rfl, if_pos hlt, hx]
        rfl
      · rw [if_neg hk]
  | worker => simp [s.next_worker.2, Event.call?]
  | settle | stop | forget => simp [next, Event.call?]

theorem calls_run (s : Traffic) (events : List Event) :
    (s.run events).sessions.map Session.call =
      s.sessions.map Session.call ++ events.filterMap Event.call? := by
  induction events generalizing s with
  | nil => simp [run]
  | cons e rest ih =>
    have hrest := ih (s.next e)
    rw [calls_next, List.append_assoc] at hrest
    rw [List.filterMap_cons]
    cases hcall : e.call? <;> simpa [run, hcall] using hrest

theorem draw?_saving {s : Traffic} {number : Nat} {call : Call} {a : Analysis}
    (hx : s.sessions[number]? = some ⟨call, .saving a⟩) (hid : a.id = none) :
    s.draw? (.task number) = some (number, s.service.store.draw.1) := by
  simp [draw?, hx, hid]

theorem draw?_eq_none {s : Traffic} {number : Nat}
    (h : ∀ x, s.sessions[number]? = some x → ∀ a, x.stage ≠ .saving a) :
    s.draw? (.task number) = none := by
  cases hx : s.sessions[number]? with
  | none => simp [draw?, hx]
  | some x =>
    obtain ⟨call, stage⟩ := x
    cases stage with
    | saving a => exact absurd rfl (h _ hx a)
    | keeping | finding | working | done => simp [draw?, hx]

theorem consistent_next {s : Traffic} {draws : List (Nat × UInt64)}
    (h : Consistent s.service.store s.sessions draws) (e : Event)
    (hfew : s.sessions.countP (·.call.isIngest) < UInt64.size) :
    Consistent (s.next e).service.store (s.next e).sessions (draws ++ (s.draw? e).toList) := by
  cases e with
  | call c => simpa [next, draw?] using h.call c
  | task number =>
    rcases s.next_task number with ⟨hsame, hover⟩ | ⟨call, stage, stage', service, hx, hstep, hnext⟩
    · have hnone : s.draw? (.task number) = none := by
        refine draw?_eq_none fun x hx a hsaving => ?_
        obtain ⟨reply, hdone⟩ := hover x hx
        rw [hsaving] at hdone
        cases hdone
      simpa [hsame, hnone] using h
    · rw [hnext]
      rcases hstep.effect (h.stands number _ hx) with
        ⟨a, rfl, hid, hdrawn, hstore⟩ | ⟨hstage, hid, hlast, -⟩
      · rw [draw?_saving hx hid]
        exact h.draw hx hstep hdrawn hstore hfew
      · have hnone : s.draw? (.task number) = none := by
          refine draw?_eq_none fun x hsession a hsaving => ?_
          cases hx.symm.trans hsession
          exact hstage a hsaving
        rw [hnone, Option.toList_none, List.append_nil]
        exact h.step hx hstep hid hlast
  | worker =>
    obtain ⟨hstore, hsessions⟩ := s.next_worker
    simpa [hstore, hsessions, draw?] using h
  | settle | stop | forget => simpa [next, draw?] using h

/-- With fewer ingests than there are identities, the books are kept throughout. -/
theorem consistent_run (cache : Cache) (eagerTopN : UInt64) (events : List Event)
    (hfew : ingests events < UInt64.size) :
    Consistent ((start cache eagerTopN).run events).service.store
      ((start cache eagerTopN).run events).sessions ((start cache eagerTopN).draws events) := by
  induction events using List.reverseRecOn with
  | nil => exact .start
  | append_singleton events e ih =>
    have hless : ingests events < UInt64.size := by
      rw [ingests_append] at hfew
      exact Nat.lt_of_le_of_lt (Nat.le_add_right _ _) hfew
    have hsent : ((start cache eagerTopN).run events).sessions.countP (·.call.isIngest) =
        ingests events := by
      have hcalls := calls_run (start cache eagerTopN) events
      simp only [start, List.map_nil, List.nil_append] at hcalls
      rw [ingests, ← hcalls, List.countP_map]
      rfl
    rw [run_append, draws_concat]
    exact consistent_next (ih hless) e (hsent ▸ hless)

end Traffic

end AccessLog.Service

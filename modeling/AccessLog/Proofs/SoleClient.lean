import AccessLog.Proofs.KeptResults
import AccessLog.Proofs.StoreAgreement
import AccessLog.Service.Backends

/-! # A client on its own

One client takes a batch in and asks for the result, one call after the other, while the worker runs
beside it. What it has stored it finds again, so all its calls are about the addresses of one
ranking, and the shorter rankings are the beginnings of the longer ones. -/

namespace AccessLog.Store
open AccessLog.Stats

/-- What the store saves it finds again under the identity that it has given. -/
def Recalls {σ : Type} [AnalysisStore σ] (store : σ) : Prop :=
  ∀ a saved store' id, AnalysisStore.save store a = (.ok saved, store') → saved.id = some id →
    AnalysisStore.find store' id = .ok (some saved) ∧ saved.addresses = a.addresses

theorem MemoryStore.recalls (s : MemoryStore) : Recalls s := by
  intro a saved store' id hsave hid
  obtain ⟨hsaved, rfl⟩ := Prod.mk.inj hsave
  obtain rfl : (s.save a).1 = saved := Except.ok.inj hsaved
  show Except.ok ((s.save a).2.find id) = .ok (some (s.save a).1) ∧ _
  cases hown : a.id with
  | some given =>
    have hsave : s.save a = (a, s.insert given a) := by simp only [save, hown]
    rw [hsave] at hid ⊢
    obtain rfl : given = id := Option.some.inj (hown.symm.trans hid)
    rw [find_insert, if_pos rfl]
    exact ⟨rfl, rfl⟩
  | none =>
    have hsave : s.save a = (a.withId s.draw.1, s.draw.2.insert s.draw.1 (a.withId s.draw.1)) := by
      simp only [save, hown]
    rw [hsave] at hid ⊢
    obtain rfl : s.draw.1 = id := Option.some.inj hid
    rw [find_insert, if_pos rfl]
    exact ⟨rfl, rfl⟩

theorem TableStore.recalls (s : TableStore) : Recalls s := by
  intro a saved store' id hsave hid
  change s.save a = _ at hsave
  show store'.find id = .ok (some saved) ∧ _
  have hrow (given : UInt64) (hcreated : s.created = true) :
      (s.put given.toInt64 a.serialize).find given = .ok (some (a.withId given)) := by
    rw [find_put hcreated, if_pos rfl]
  unfold save at hsave
  split at hsave
  · cases hsave
  · rename_i hcreated
    have hcreated : s.created = true := by simpa using hcreated
    split at hsave
    · cases hsave
      obtain rfl := Option.some.inj hid
      exact ⟨hrow _ hcreated, rfl⟩
    · split at hsave
      · cases hsave
      · cases hsave
        obtain rfl := Option.some.inj hid
        have hput := hrow (s.largest + 1).toUInt64 hcreated
        rw [Int64.toInt64_toUInt64] at hput
        exact ⟨hput, rfl⟩

theorem recalls_anyStore (s : Service.AnyStore) : Recalls s := by
  intro a saved store' id hsave hid
  cases s with
  | inl s =>
    obtain ⟨hanswer, rfl⟩ := Prod.mk.inj hsave
    exact s.recalls a saved _ id (Prod.ext hanswer rfl) hid
  | inr s =>
    obtain ⟨hanswer, rfl⟩ := Prod.mk.inj hsave
    exact s.recalls a saved _ id (Prod.ext hanswer rfl) hid

end AccessLog.Store

namespace AccessLog.Service
open AccessLog.Enrich AccessLog.Stats AccessLog.Store

/-! ## One call after the other -/

theorem Stage.Move.not_done {σ : Type} [SharedStore σ] {reply : Reply} {stage' : Stage}
    {s s' : Service σ} : ¬ (Stage.done reply).Move s stage' s' := by
  intro h
  cases h with
  | ask asked => cases asked

/-- All calls but the last are over. -/
structure Dialogue.Serving {σ : Type} (s : Dialogue σ) (olds : List Session) (call : Call)
    (stage : Stage) : Prop where
  sessions : s.sessions = olds ++ [⟨call, stage⟩]
  finished : ∀ x ∈ olds, ∃ reply, x.stage = .done reply

namespace Dialogue
variable {σ : Type} {olds : List Session} {call : Call} {stage : Stage}

theorem Serving.within {s : Dialogue σ} (h : s.Serving olds call stage) {names : List String}
    (hwithin : stage.Within names) : ∀ x ∈ s.sessions, x.stage.Within names := by
  intro x hx
  rw [h.sessions] at hx
  rcases List.mem_append.1 hx with hx | hx
  · obtain ⟨reply, hreply⟩ := h.finished x hx
    rw [hreply]
    trivial
  · rw [List.mem_singleton.1 hx]
    exact hwithin

theorem Serving.last {s : Dialogue σ} (h : s.Serving olds call stage) :
    s.sessions[olds.length]? = some ⟨call, stage⟩ := by
  rw [h.sessions]
  exact List.getElem?_concat_length

/-- The reply of the last call is that of its stage. -/
theorem Serving.stage_of_reply? {s : Dialogue σ} (h : s.Serving olds call stage) {reply : Reply}
    (hreply : s.reply? olds.length = some reply) : stage = .done reply := by
  obtain ⟨given, hx⟩ := Dialogue.stage_of_reply? hreply
  rw [h.last] at hx
  cases hx
  rfl

theorem Serving.unique {s : Dialogue σ} {stage' : Stage} (h : s.Serving olds call stage)
    (h' : s.Serving olds call stage') : stage = stage' := by
  simpa using h.sessions.symm.trans h'.sessions

/-- The next call is made once the last one is over. -/
theorem Serving.next_call {s : Dialogue σ} {reply : Reply}
    (h : s.Serving olds call (.done reply)) (c : Call) :
    ({ s with sessions := s.sessions ++ [⟨c, .ofCall c⟩] } : Dialogue σ).Serving
      (olds ++ [⟨call, .done reply⟩]) c (.ofCall c) := by
  refine ⟨by rw [← h.sessions], ?_⟩
  intro x hx
  rcases List.mem_append.1 hx with hx | hx
  · exact h.finished x hx
  · rw [List.mem_singleton.1 hx]
    exact ⟨reply, rfl⟩

variable [SharedStore σ] {p : BackoffPolicy} {s s' : Dialogue σ} {t : Turn} {d : Option Deed}

/-- What becomes of the last call at a turn: it makes a step, or it waits, and the store and the
pending addresses are left to others. -/
inductive Attends (s s' : Dialogue σ) : Stage → Stage → Prop
  | waits {stands} (store : s'.service.store = s.service.store)
      (pending : ∀ address ∈ s'.queue.pending, address ∈ s.queue.pending) :
      Attends s s' stands stands
  | moves {stands goes} (moved : stands.Move s.service goes s'.service) :
      Attends s s' stands goes

theorem Change.serving (h : s.Change p t d s') (hordinary : t.isOrdinary = true)
    (hs : s.Serving olds call stage) :
    s'.service.eagerTopN = s.service.eagerTopN ∧
      ∃ stage', s'.Serving olds call stage' ∧ s.Attends s' stage stage' := by
  cases h with
  | call | forget => cases hordinary
  | stop | none | lookup =>
    exact ⟨rfl, stage, ⟨hs.sessions, hs.finished⟩, .waits rfl fun _ hmem => hmem⟩
  | worker made =>
    exact ⟨rfl, stage, ⟨hs.sessions, hs.finished⟩, .waits rfl (pending_of_step made)⟩
  | @task number _ call' moving stage' service stands moved =>
    refine ⟨moved.eagerTopN, ?_⟩
    rw [hs.sessions] at stands ⊢
    rcases Nat.lt_or_ge number olds.length with hold | hlast
    · rw [List.getElem?_append_left hold] at stands
      obtain ⟨reply, hdone⟩ := hs.finished _ (List.mem_of_getElem? stands)
      cases hdone
      exact absurd moved Stage.Move.not_done
    · rw [List.getElem?_append_right hlast] at stands
      have hnumber : number - olds.length = 0 := by
        cases hn : number - olds.length with
        | zero => rfl
        | succ n => rw [hn] at stands; cases stands
      rw [hnumber] at stands
      cases stands
      refine ⟨stage', ⟨?_, hs.finished⟩, .moves moved⟩
      rw [List.set_append_right _ _ hlast, hnumber]
      rfl

/-- What is kept at every turn while a client makes its last call is kept until it is over. -/
theorem serving_induction {P : List Deed → Dialogue σ → Stage → Prop} {turns : List Turn}
    (hordinary : ∀ t ∈ turns, t.isOrdinary = true)
    (hchange : ∀ past s stage t d s' stage', Change p s t d s' → t.isOrdinary = true →
      s.Serving olds call stage → s'.service.eagerTopN = s.service.eagerTopN →
      s.Attends s' stage stage' → P past s stage → P (past ++ d.toList) s' stage')
    {s : Dialogue σ} (hs : s.Serving olds call stage) (h : P [] s stage) :
    ∃ stage', (s.play p turns).Serving olds call stage' ∧
      P (s.deeds p turns) (s.play p turns) stage' := by
  refine play_induction (P := fun past s => ∃ stage, s.Serving olds call stage ∧ P past s stage)
    ?_ ⟨stage, hs, h⟩
  rintro past s t d s' ht hstep ⟨stage, hserving, hpast⟩
  obtain ⟨heager, stage', hserving', hmove⟩ := hstep.serving (hordinary t ht) hserving
  exact ⟨stage', hserving',
    hchange past s stage t d s' stage' hstep (hordinary t ht) hserving heager hmove hpast⟩

/-- A call that is over stays so. -/
theorem done_play {reply : Reply} {turns : List Turn} (hordinary : ∀ t ∈ turns, t.isOrdinary = true)
    (hserving : s.Serving olds call (.done reply)) :
    (s.play p turns).Serving olds call (.done reply) := by
  have hend := serving_induction (p := p) (P := fun _ _ stage => stage = .done reply)
    hordinary ?_ hserving rfl
  · obtain ⟨stage, hserving', rfl⟩ := hend
    exact hserving'
  · rintro past s stage t d s' stage' - - - - hattends rfl
    cases hattends with
    | waits => rfl
    | moves moved => exact absurd moved Stage.Move.not_done

end Dialogue

/-! ## A batch is taken in -/

section Taking
variable {σ : Type} [SharedStore σ] {store store' : σ} {eagerTopN : UInt64} {a : Analysis}

/-- Where a call stands that has this analysis stored, and what the store is by then. -/
inductive Taking (store : σ) (eagerTopN : UInt64) (a : Analysis) : Stage → σ → Prop
  | saving : Taking store eagerTopN a (.saving a) store
  | keeping {id b store'} (begun : SharedStore.begin store a = (.inr (id, b), store')) :
      Taking store eagerTopN a (.keeping id b) store'
  | failed {f store'} : Taking store eagerTopN a (.done (.failed f)) store'
  | offering {saved id store' t} (kept : AnalysisStore.save store a = (.ok saved, store'))
      (numbered : saved.id = some id) (within : t.Within (rankedAddresses saved eagerTopN)) :
      Taking store eagerTopN a (.working (.accepted saved) t) store'
  | accepted {saved store'} (kept : AnalysisStore.save store a = (.ok saved, store')) :
      Taking store eagerTopN a (.done (.accepted saved)) store'

theorem taking_afterSave {answer : Except StoreError Analysis}
    (h : AnalysisStore.save store a = (answer, store')) :
    Taking store eagerTopN a (Stage.afterSave eagerTopN answer) store' := by
  cases answer with
  | error e => exact .failed
  | ok saved =>
    simp only [Stage.afterSave, Stage.afterKeep]
    split
    · exact .failed
    · rename_i id hid
      refine .offering h hid ?_
      intro action haction
      obtain ⟨address, haddress, rfl⟩ := List.mem_map.1 haction
      exact ⟨address, haddress, .inl rfl⟩

/-- What is left to do shrinks to a part of it. -/
theorem Task.Within.rest {names : List String} {t : Task} {claimed : Option String}
    {action : Action} {ahead : List Action} {infos : List (String × AddressInfo)}
    (h : t.Within names) (hahead : t.ahead = action :: ahead) :
    Task.Within names ⟨claimed, ahead, infos⟩ := by
  intro other hother
  refine h other ?_
  rw [hahead]
  exact List.mem_cons_of_mem _ hother

/-- A step of a task that only reads and offers these addresses. -/
theorem Task.Step.within {t t' : Task} {s s' : Service σ} {names : List String}
    (h : t.Step s t' s') (hwithin : t.Within names) : t'.Within names ∧ s'.store = s.store := by
  cases h with
  | push => exact ⟨hwithin, rfl⟩
  | claim | refused | known | hit => exact ⟨hwithin.rest rfl, rfl⟩
  | @miss _ address ahead _ _ _ _ =>
    refine ⟨?_, rfl⟩
    obtain ⟨name, hname, hoffer | hread⟩ := hwithin (.read address) List.mem_cons_self
    · cases hoffer
    · cases hread
      refine List.forall_mem_cons.2 ⟨⟨address, hname, .inl rfl⟩, ?_⟩
      exact fun other hother => hwithin other (List.mem_cons_of_mem _ hother)
  | @save _ a _ _ _ _ _ =>
    obtain ⟨name, -, hoffer | hread⟩ := hwithin (.save a) List.mem_cons_self
    · cases hoffer
    · cases hread
  | @find _ id topN _ _ =>
    obtain ⟨name, -, hoffer | hread⟩ := hwithin (.find id topN) List.mem_cons_self
    · cases hoffer
    · cases hread

theorem Task.Within.mono {names more : List String} {t : Task} (h : t.Within names)
    (hmore : ∀ address ∈ names, address ∈ more) : t.Within more := by
  intro action haction
  obtain ⟨address, haddress, hdoes⟩ := h action haction
  exact ⟨address, hmore address haddress, hdoes⟩

namespace Taking
variable {stage stage' : Stage} {s s' : Service σ}

/-- The addresses that are offered are among the first of the ranking. -/
theorem within (h : Taking store eagerTopN a stage store') (hrecalls : Recalls store)
    {more : UInt64} (hmore : eagerTopN ≤ more) : stage.Within (rankedAddresses a more) := by
  cases h with
  | saving | keeping | failed | accepted => trivial
  | offering kept numbered within =>
    obtain ⟨-, haddresses⟩ := hrecalls a _ _ _ kept numbered
    rw [rankedAddresses_congr haddresses] at within
    exact within.mono (rankedAddresses_mono a hmore).subset

theorem move (h : Taking store s.eagerTopN a stage s.store) (hmove : stage.Move s stage' s') :
    Taking store s.eagerTopN a stage' s'.store := by
  cases hmove with
  | @ask _ _ _ now asked =>
    show Taking store s.eagerTopN a stage' now
    have hsave := SharedStore.save_eq store a
    generalize hthere : s.store = there at h asked
    cases h with
    | saving =>
      rcases hbegin : SharedStore.begin store a with ⟨answer | ⟨id, b⟩, began⟩
      · rw [hbegin] at hsave
        simp only [Stage.consult?, hbegin] at asked
        cases asked
        exact taking_afterSave hsave
      · simp only [Stage.consult?, hbegin] at asked
        cases asked
        exact .keeping hbegin
    | keeping begun =>
      rw [begun] at hsave
      cases asked
      exact taking_afterSave hsave
    | failed | offering | accepted => cases asked
  | work made =>
    generalize hthere : s.store = there at h
    cases h with
    | offering kept numbered within =>
      obtain ⟨hwithin, hstore⟩ := made.within within
      rw [hstore, hthere]
      exact .offering kept numbered hwithin
  | reply finished =>
    cases h with
    | offering kept numbered within => exact .accepted kept

end Taking

end Taking

/-- While a batch is taken in, the cache has room for what is offered. -/
theorem Dialogue.taking_play {σ : Type} [SharedStore σ] {p : BackoffPolicy} {s : Dialogue σ}
    {olds : List Session} {call : Call} {a : Analysis} {more : UInt64} {deeds : List Deed}
    {turns : List Turn} (hordinary : ∀ t ∈ turns, t.isOrdinary = true)
    (hserving : s.Serving olds call (.saving a)) (hrecalls : Recalls s.service.store)
    (hmore : s.service.eagerTopN ≤ more) (hprovides : s.Provides (rankedAddresses a more) deeds) :
    ∃ stage, (s.play p turns).Serving olds call stage ∧
      (s.play p turns).Provides (rankedAddresses a more) (deeds ++ s.deeds p turns) ∧
      Taking s.service.store s.service.eagerTopN a stage (s.play p turns).service.store := by
  have hend := serving_induction (p := p)
    (P := fun past s' stage => s'.Provides (rankedAddresses a more) (deeds ++ past) ∧
      s'.service.eagerTopN = s.service.eagerTopN ∧
      Taking s.service.store s.service.eagerTopN a stage s'.service.store)
    hordinary ?_ hserving ⟨by simpa using hprovides, rfl, .saving⟩
  · obtain ⟨stage, hserving', hprovides', -, htaking⟩ := hend
    exact ⟨stage, hserving', hprovides', htaking⟩
  · rintro past s₁ stage t d s₂ stage' hchange ht hserving heager hmove ⟨hprovides, hsame, htaking⟩
    have hwithin := hserving.within (htaking.within hrecalls hmore)
    rw [← List.append_assoc]
    refine ⟨hchange.provides ht hprovides hwithin, heager.trans hsame, ?_⟩
    cases hmove with
    | waits store =>
      rw [store]
      exact htaking
    | moves moved =>
      rw [← hsame] at htaking ⊢
      exact htaking.move moved

end AccessLog.Service

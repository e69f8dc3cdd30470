import AccessLog.Proofs.CacheRoom
import AccessLog.Proofs.LookupResults

/-! # What a lookup has come to is kept

Where the cache has room for every address that is ever offered and entries do not run out, an
address is looked up once, and from then on its entry says what the lookup came to. The worker
caches an address before it completes it, so an address that has been offered is pending until it is
cached. -/

namespace AccessLog.Enrich

/-- An address is cached or pending. -/
def Pipeline.Covers (p : Pipeline) (address : String) : Prop :=
  (p.cache.peek? address).isSome = true ∨ address ∈ p.queue.pending

end AccessLog.Enrich

namespace AccessLog.Service
open AccessLog.Enrich AccessLog.Store

/-- What is known of an address, by the worker in this phase and by the cache, after lookups that
came to these results: nothing before a lookup of it has ended, and from then on what that one came
to. -/
inductive Known (address : String) :
    Phase → Option AddressInfo → List BackoffPolicy.Resolution → Prop
  | never {phase} (unresolved : ∀ info, phase ≠ .resolved address info)
      (uncached : phase ≠ .cached address) : Known address phase none []
  | found {result : BackoffPolicy.Resolution} :
      Known address (.resolved address (result.settled address)) none [result]
  | cached {phase} {result : BackoffPolicy.Resolution} (asked : phase ≠ .resolving address)
      (unresolved : ∀ info, phase ≠ .resolved address info) :
      Known address phase (some (result.settled address)) [result]

namespace Known
variable {address : String} {phase phase' : Phase} {info? : Option AddressInfo}
  {results : List BackoffPolicy.Resolution}

theorem eq_none {info : AddressInfo} (h : Known address (.resolved address info) info? results) :
    info? = none := by
  cases h with
  | never | found => rfl
  | cached _ unresolved => exact absurd rfl (unresolved info)

theorem isSome (h : Known address (.cached address) info? results) : info?.isSome = true := by
  cases h with
  | never _ uncached => exact absurd rfl uncached
  | cached => rfl

/-- The worker turns to something else than this address. -/
theorem turn (h : Known address phase info? results)
    (hphase : ∀ info, phase ≠ .resolved address info) (hasked : phase' ≠ .resolving address)
    (hunresolved : ∀ info, phase' ≠ .resolved address info) (huncached : phase' ≠ .cached address) :
    Known address phase' info? results := by
  cases h with
  | never => exact .never hunresolved huncached
  | found => exact absurd rfl (hphase _)
  | cached => exact .cached hasked hunresolved

theorem take (h : Known address phase info? results)
    (hphase : ∀ info, phase ≠ .resolved address info) (taken : TakeResult String) :
    Known address (Worker.afterTake taken) info? results := by
  cases taken <;> exact h.turn hphase (by simp [Worker.afterTake]) (by simp [Worker.afterTake])
    (by simp [Worker.afterTake])

/-- A step of the worker adds nothing to what its lookups have come to, and loses nothing of it. -/
theorem step {w w' : Worker} {p p' : Pipeline} {names : List String}
    (h : Known address w.phase (p.cache.peek? address) results) (hstep : w.Step p w' p')
    (hroom : p.cache.Roomy names) (hheld : ∀ held, w.held? = some held → held ∈ names) :
    Known address w'.phase (p'.cache.peek? address) results := by
  cases hstep with
  | stop | giveUp | release => exact h.turn (by simp) (by simp) (by simp) (by simp)
  | take | retake => exact h.take (by simp) _
  | @hit _ held _ info found =>
    rw [Cache.get_fst] at found
    rw [Cache.peek?_get]
    by_cases hsame : held = address
    · subst hsame
      rw [found] at h ⊢
      cases h with
      | cached => exact .cached (by simp) (by simp)
    · exact h.turn (by simp) (by simp) (by simp) (by simpa using hsame)
  | @miss _ held _ missing =>
    rw [Cache.get_fst] at missing
    rw [Cache.peek?_get]
    by_cases hsame : held = address
    · subst hsame
      rw [missing] at h ⊢
      cases h with
      | never => exact .never (by simp) (by simp)
    · exact h.turn (by simp) (by simpa using hsame) (by simp) (by simp)
  | @record _ held info _ =>
    have hmem : held ∈ names := hheld held rfl
    simp only [Pipeline.record, hroom.peek?_put hmem]
    by_cases hsame : address = held
    · -- the worker caches what it has found, and has found it in the one lookup that ended
      subst hsame
      rw [if_pos rfl]
      generalize p.cache.peek? address = info? at h
      cases h with
      | never unresolved => exact absurd rfl (unresolved info)
      | found => exact .cached (by simp) (by simp)
      | cached _ unresolved => exact absurd rfl (unresolved info)
    · rw [if_neg hsame]
      have hother : ¬ held = address := fun heq => hsame heq.symm
      exact h.turn (by simp [hother]) (by simp) (by simp) (by simpa using hother)

/-- A lookup ends that nothing was known from before. -/
theorem settle {held : String} (h : Known address (.resolving held) info? results)
    (result : BackoffPolicy.Resolution) :
    Known address (.resolved held (result.settled held)) info?
      (results ++ resultsOf address [.settled held result]) := by
  by_cases hsame : held = address
  · subst hsame
    have hresult : resultsOf held [.settled held result] = [result] := by
      simp [resultsOf, Deed.result?]
    rw [hresult]
    cases h with
    | never => exact .found
    | cached asked => exact absurd rfl asked
  · have hresult : resultsOf address [.settled held result] = [] := by
      simp [resultsOf, Deed.result?, hsame]
    rw [hresult, List.append_nil]
    exact h.turn (by simp) (by simp) (by simp [hsame]) (by simp)

end Known

/-! ## Room for all addresses -/

def Turn.isOrdinary : Turn → Bool
  | .event e _ =>
    match e with
    | .call _ | .forget _ => false
    | .task _ | .worker | .settle _ | .stop => true
  | .lookup _ => true

/-- What a call has still to do it does to these addresses. -/
def Task.Within (names : List String) (t : Task) : Prop :=
  ∀ action ∈ t.ahead, ∃ address ∈ names, action = .offer address ∨ action = .read address

def Stage.Within (names : List String) : Stage → Prop
  | working _ t => t.Within names
  | saving _ | keeping _ _ | finding _ _ | done _ => True

/-- The cache has room for all that is offered, and nothing is known about it but what its lookups
have come to. -/
structure Dialogue.Provides {σ : Type} (s : Dialogue σ) (names : List String) (deeds : List Deed) :
    Prop where
  room : s.cache.Roomy names
  balanced : s.IsBalanced
  pending : ∀ address ∈ s.queue.pending, address ∈ names
  known : ∀ address, Known address s.worker.phase (s.cache.peek? address) (resultsOf address deeds)

theorem pending_of_step {w w' : Worker} {p p' : Pipeline} (h : w.Step p w' p') :
    ∀ address ∈ p'.queue.pending, address ∈ p.queue.pending := by
  cases h with
  | stop | hit | miss | record => exact fun _ hmem => hmem
  | giveUp => exact fun _ hmem => WorkQueue.cancel_pending _ _ ▸ hmem
  | take => exact fun _ hmem => WorkQueue.begin_pending _ ▸ hmem
  | retake => exact fun _ hmem => WorkQueue.poll_pending _ _ ▸ hmem
  | release => exact fun _ hmem => List.mem_of_mem_filter hmem

theorem roomy_of_step {w w' : Worker} {p p' : Pipeline} {names : List String}
    (h : w.Step p w' p') (hroom : p.cache.Roomy names)
    (hheld : ∀ held, w.held? = some held → held ∈ names) : p'.cache.Roomy names := by
  cases h with
  | stop | giveUp | take | retake | release => exact hroom
  | hit | miss => exact hroom.get _
  | record => exact hroom.put (hheld _ rfl) _

/-- A step of a call may make one of the addresses pending that it is to offer. -/
theorem Stage.Move.pending {σ : Type} [SharedStore σ] {stage stage' : Stage} {s s' : Service σ}
    {names : List String} (h : stage.Move s stage' s') (hwithin : stage.Within names) :
    s'.pipeline.queue.pending = s.pipeline.queue.pending ∨
      ∃ address ∈ names, s'.pipeline.queue.pending = address :: s.pipeline.queue.pending := by
  cases h with
  | ask asked => exact .inl rfl
  | reply finished => exact .inl rfl
  | work made =>
    cases made with
    | push => exact .inl (WorkQueue.push_pending _ _)
    | @claim s address _ _ _ claimed =>
      obtain ⟨-, rfl⟩ := WorkQueue.claim?_eq_some claimed
      obtain ⟨name, hname, hoffer | hread⟩ := hwithin (.offer address) List.mem_cons_self
      · cases hoffer
        exact .inr ⟨address, hname, rfl⟩
      · cases hread
    | hit | miss | refused | known | save | find => exact .inl rfl

namespace Dialogue
variable {σ : Type} {names : List String} {deeds : List Deed}

theorem provides_start (store : σ) {capacity : UInt64} {ttl : Time.Duration} (eagerTopN : UInt64)
    (hlives : ttl.nanos ≠ 0) (hroom : names.length ≤ capacity.toNat) :
    (start store ⟨capacity, ttl, []⟩ eagerTopN).Provides names [] where
  room := ⟨hlives, hroom, List.nodup_nil, fun _ hmem => nomatch hmem⟩
  balanced := isBalanced_start store _ eagerTopN
  pending := fun _ hmem => nomatch hmem
  known := fun _ => .never (by simp [start, Worker.start]) (by simp [start, Worker.start])

theorem Provides.held {s : Dialogue σ} (h : s.Provides names deeds) {address : String}
    (hheld : s.worker.held? = some address) : address ∈ names := by
  refine h.pending address (h.balanced.2.mem_iff.2 ?_)
  simp [hheld]

variable [SharedStore σ] {p : BackoffPolicy} {s s' : Dialogue σ} {t : Turn} {d : Option Deed}

/-- A call that has just been made has done nothing yet. -/
theorem Provides.call (h : s.Provides names deeds) (c : Call) :
    ({ s with sessions := s.sessions ++ [⟨c, .ofCall c⟩] } : Dialogue σ).Provides names deeds :=
  ⟨h.room, (Change.call (p := .standard) (h := rfl)).isBalanced h.balanced, h.pending, h.known⟩

theorem Change.provides (h : s.Change p t d s') (hordinary : t.isOrdinary = true)
    (hs : s.Provides names deeds) (hwithin : ∀ x ∈ s.sessions, x.stage.Within names) :
    s'.Provides names (deeds ++ d.toList) := by
  have hbalanced := h.isBalanced hs.balanced
  cases h with
  | call | forget => cases hordinary
  | stop | none =>
    rw [Option.toList_none, List.append_nil]
    exact ⟨hs.room, hbalanced, hs.pending, hs.known⟩
  | lookup resolving =>
    refine ⟨hs.room, hbalanced, hs.pending, ?_⟩
    intro address
    have hknown := hs.known address
    rw [resolving] at hknown
    rw [resultsOf_append]
    exact hknown.settle _
  | @task number _ call stage stage' service stands moved =>
    have hcache := moved.cache
    have hpending := moved.pending (hwithin _ (List.mem_of_getElem? stands))
    refine ⟨?_, hbalanced, ?_, ?_⟩
    · show service.pipeline.cache.Roomy names
      rcases hcache with hsame | ⟨address, hget⟩
      · rw [hsame]
        exact hs.room
      · rw [hget]
        exact hs.room.get address
    · show ∀ address ∈ service.pipeline.queue.pending, address ∈ names
      rcases hpending with hsame | ⟨address, hname, hclaim⟩
      · rw [hsame]
        exact hs.pending
      · rw [hclaim]
        exact List.forall_mem_cons.2 ⟨hname, hs.pending⟩
    · intro address
      have hpeek : service.pipeline.cache.peek? address = s.cache.peek? address := by
        rcases hcache with hsame | ⟨other, hget⟩
        · rw [hsame]
          rfl
        · rw [hget, Cache.peek?_get]
          rfl
      show Known address s.worker.phase (service.pipeline.cache.peek? address) _
      rw [hpeek, resultsOf_append, resultsOf_ofClaims?, List.append_nil]
      exact hs.known address
  | @worker _ worker pipeline made =>
    have hheld (held : String) (h : s.worker.held? = some held) : held ∈ names := hs.held h
    have hpending (address : String) (hmem : address ∈ pipeline.queue.pending) : address ∈ names :=
      hs.pending address (pending_of_step made address hmem)
    refine ⟨roomy_of_step made hs.room hheld, hbalanced, hpending, ?_⟩
    · intro address
      show Known address worker.phase (pipeline.cache.peek? address) _
      rw [resultsOf_append, resultsOf_ofPhases?, List.append_nil]
      exact (hs.known address).step made hs.room hheld

/-- The only entry that changes at a turn is the one of the address that the worker has resolved. -/
theorem Change.peek? (h : s.Change p t d s') (hordinary : t.isOrdinary = true)
    (hs : s.Provides names deeds) (address : String) :
    s'.cache.peek? address = s.cache.peek? address ∨
      ∃ info, s.worker.phase = .resolved address info := by
  cases h with
  | call | forget => cases hordinary
  | stop | none | lookup => exact .inl rfl
  | task stands moved =>
    obtain hsame | ⟨other, hget⟩ := moved.cache
    · exact .inl (congrArg (Cache.peek? · address) hsame)
    · exact .inl ((congrArg (Cache.peek? · address) hget).trans (Cache.peek?_get _ _ _))
  | worker made =>
    obtain ⟨⟨store, pipeline, eagerTopN⟩, worker, sessions⟩ := s
    cases made with
    | stop | giveUp | take | retake | release => exact .inl rfl
    | hit | miss => exact .inl (Cache.peek?_get _ _ _)
    | @record _ held info _ =>
      by_cases hsame : address = held
      · exact .inr ⟨info, by rw [hsame]⟩
      · left
        have hput := hs.room.peek?_put (hs.held rfl) info address
        rw [if_neg hsame] at hput
        exact hput

/-- What the cache has found out it keeps. -/
theorem Change.keeps (h : s.Change p t d s') (hordinary : t.isOrdinary = true)
    (hs : s.Provides names deeds) {address : String} {info : AddressInfo}
    (hpeek : s.cache.peek? address = some info) : s'.cache.peek? address = some info := by
  rcases h.peek? hordinary hs address with hsame | ⟨info', hphase⟩
  · exact hsame.trans hpeek
  · have hknown := hs.known address
    rw [hpeek, hphase] at hknown
    cases hknown.eq_none

theorem Change.pending (h : s.Change p t d s') (hwithin : ∀ x ∈ s.sessions, x.stage.Within names)
    {address : String} (hmem : address ∈ s.queue.pending) :
    address ∈ s'.queue.pending ∨ s.worker.phase = .cached address := by
  cases h with
  | call | forget | stop | none | lookup => exact .inl hmem
  | @task _ _ _ _ _ service stands moved =>
    left
    show address ∈ service.pipeline.queue.pending
    obtain hsame | ⟨other, -, hclaim⟩ :=
      moved.pending (hwithin _ (List.mem_of_getElem? stands))
    · rw [hsame]
      exact hmem
    · rw [hclaim]
      exact List.mem_cons_of_mem _ hmem
  | worker made =>
    obtain ⟨⟨store, pipeline, eagerTopN⟩, worker, sessions⟩ := s
    cases made with
    | stop | hit | miss | record => exact .inl hmem
    | giveUp => exact .inl ((WorkQueue.cancel_pending _ _).symm ▸ hmem)
    | take => exact .inl ((WorkQueue.begin_pending _).symm ▸ hmem)
    | retake => exact .inl ((WorkQueue.poll_pending _ _).symm ▸ hmem)
    | @release _ held _ =>
      by_cases hsame : address = held
      · exact .inr (by rw [hsame])
      · exact .inl (List.mem_filter.2 ⟨hmem, by simpa using hsame⟩)

/-- An address stays pending until it is cached. -/
theorem Change.covers (h : s.Change p t d s') (hordinary : t.isOrdinary = true)
    (hs : s.Provides names deeds) (hwithin : ∀ x ∈ s.sessions, x.stage.Within names)
    {address : String} (hcovers : s.service.pipeline.Covers address) :
    s'.service.pipeline.Covers address := by
  have hkept (hcached : (s.cache.peek? address).isSome = true) :
      s'.service.pipeline.Covers address := by
    obtain ⟨info, hinfo⟩ := Option.isSome_iff_exists.1 hcached
    exact .inl (Option.isSome_iff_exists.2 ⟨info, h.keeps hordinary hs hinfo⟩)
  rcases hcovers with hcached | hpending
  · exact hkept hcached
  · rcases h.pending hwithin hpending with hpending' | hphase
    · exact .inr hpending'
    · have hknown := hs.known address
      rw [hphase] at hknown
      exact hkept hknown.isSome

end Dialogue

end AccessLog.Service

import AccessLog.Proofs.CacheBounds
import AccessLog.Store.Memory
import Mathlib.Data.List.Dedup
import Mathlib.Data.List.Infix

/-! # One lookup for an address

A call that has missed the cache may offer the address when the worker has already cached and
completed it, so an address can be queued again although it is cached. The worker looks into the
cache once more before it starts a lookup, and caches what it has found before it goes on. As long
as what it has cached stays there, no address is looked up twice; and it stays in a cache with room
for all of it whose entries live and are not dropped from outside. -/

namespace AccessLog.Enrich

/-- Whether the cache holds an entry for an address. -/
def Cache.holds (c : Cache) (address : String) : Bool := (c.peek? address).isSome

theorem Cache.get_fst (c : Cache) (address : String) : (c.get address).1 = c.peek? address := by
  unfold get
  split
  · rename_i h; exact h.symm
  · rename_i h; exact h.symm

/-- The worker is at the lookup of an address, or has its outcome and is about to cache it. -/
def Phase.isLookingUp (address : String) : Phase → Prop
  | .resolving a => a = address
  | .resolved a _ => a = address
  | _ => False

end AccessLog.Enrich

namespace AccessLog.Service
open AccessLog.Enrich AccessLog.Store

/-- The address of which a lookup starts when the worker goes from one phase to another. -/
def lookupBetween : Phase → Phase → Option String
  | .taken address, .resolving _ => some address
  | _, _ => none

/-- The address that is cached when the worker goes from one phase to another. -/
def putBetween : Phase → Phase → Option String
  | .resolved address _, .cached _ => some address
  | _, _ => none

theorem between_self (phase : Phase) :
    lookupBetween phase phase = none ∧ putBetween phase phase = none := by
  cases phase <;> exact ⟨rfl, rfl⟩

namespace System
variable {σ : Type} [AnalysisStore σ]

/-- What `between` tells of the worker's steps in the course of a schedule, in order. -/
def traceOf (between : Phase → Phase → Option String) (s : System σ) : List Event → List String
  | [] => []
  | e :: rest =>
    (between s.worker.phase (s.next e).worker.phase).toList ++ traceOf between (s.next e) rest

/-- The addresses of which lookups have started. -/
def lookups (s : System σ) (events : List Event) : List String := s.traceOf lookupBetween events

/-- The addresses that the worker has cached. -/
def puts (s : System σ) (events : List Event) : List String := s.traceOf putBetween events

/-- Whatever the worker has cached in the course of a schedule is there from then on: nothing of it
is dropped to make room, nothing lives too short, and nothing is too much for the cache. -/
def Retains (s : System σ) (events : List Event) : Prop :=
  ∀ past ∈ events.inits, ∀ address ∈ s.puts past, (s.run past).cache.holds address = true

instance (s : System σ) (events : List Event) : Decidable (s.Retains events) :=
  inferInstanceAs (Decidable (∀ past ∈ events.inits, ∀ address ∈ s.puts past, _))

theorem traceOf_append (between : Phase → Phase → Option String) (s : System σ)
    (events later : List Event) :
    s.traceOf between (events ++ later) =
      s.traceOf between events ++ (s.run events).traceOf between later := by
  induction events generalizing s with
  | nil => rfl
  | cons e rest ih => simp only [List.cons_append, traceOf, ih, run, List.foldl_cons,
      List.append_assoc]

theorem traceOf_concat (between : Phase → Phase → Option String) (s : System σ)
    (events : List Event) (e : Event) :
    s.traceOf between (events ++ [e]) = s.traceOf between events ++
      (between (s.run events).worker.phase ((s.run events).next e).worker.phase).toList := by
  rw [traceOf_append, traceOf, traceOf, List.append_nil]

theorem run_concat (s : System σ) (events : List Event) (e : Event) :
    s.run (events ++ [e]) = (s.run events).next e := by
  simp [run, List.foldl_append]

theorem Retains.before {s : System σ} {events : List Event} {e : Event}
    (h : s.Retains (events ++ [e])) : s.Retains events := by
  intro past hpast
  have hbefore := (List.mem_inits _ _).1 hpast
  exact h past ((List.mem_inits _ _).2 (hbefore.trans (List.prefix_append _ _)))

theorem Retains.now {s : System σ} {events : List Event} (h : s.Retains events) {address : String}
    (hput : address ∈ s.puts events) : (s.run events).cache.holds address = true :=
  h events ((List.mem_inits _ _).2 (List.prefix_refl _)) address hput

/-- Only a step of the worker starts a lookup or caches an address. -/
theorem between_next (s : System σ) {e : Event} (h : e ≠ .worker) :
    lookupBetween s.worker.phase (s.next e).worker.phase = none ∧
      putBetween s.worker.phase (s.next e).worker.phase = none := by
  cases e with
  | worker => exact (h rfl).elim
  | task number =>
    rcases s.next_task number with heq | ⟨_, _, _, _, _, _, _, heq⟩
    · rw [heq]
      exact between_self _
    · rw [heq]
      exact between_self _
  | settle result =>
    obtain ⟨service, ⟨phase, stopping⟩, tasks⟩ := s
    cases phase <;> exact ⟨rfl, rfl⟩
  | call | stop | forget => exact between_self _

end System

/-! ## Where entries stay -/

/-- The cache has room for these addresses, and has entries for those that were put. -/
structure Keeps (c : Cache) (names puts : List String) : Prop where
  roomy : c.Roomy names
  held : ∀ address ∈ puts, c.holds address = true

namespace Keeps
variable {c : Cache} {names puts : List String}

theorem get (h : Keeps c names puts) (address : String) : Keeps (c.get address).2 names puts := by
  refine ⟨h.roomy.get address, fun other hother => ?_⟩
  rw [Cache.holds, Cache.peek?_get]
  exact h.held other hother

theorem put (h : Keeps c names puts) {address : String} (hmem : address ∈ names)
    (info : AddressInfo) : Keeps (c.put address info) names (puts ++ [address]) := by
  refine ⟨h.roomy.put hmem info, fun other hother => ?_⟩
  rw [Cache.holds, h.roomy.peek?_put hmem]
  split
  · rfl
  · rename_i hne
    exact h.held other ((List.mem_append.1 hother).resolve_right (by simpa using hne))

theorem worker {w w' : Worker} {p p' : Pipeline} (h : Keeps p.cache names puts)
    (hstep : w.Step p w' p')
    (hput : ∀ address, putBetween w.phase w'.phase = some address → address ∈ names) :
    Keeps p'.cache names (puts ++ (putBetween w.phase w'.phase).toList) := by
  cases hstep with
  | stop | giveUp | take | retake | release => simpa [putBetween, Pipeline.release] using h
  | hit | miss => simpa [putBetween] using h.get _
  | @record _ address info => exact h.put (hput address rfl) info

variable {σ : Type} [AnalysisStore σ] {s : System σ}

theorem next (h : Keeps s.cache names puts) (e : Event) (hforget : ∀ address, e ≠ .forget address)
    (hput : ∀ address, putBetween s.worker.phase (s.next e).worker.phase = some address →
      address ∈ names) :
    Keeps (s.next e).cache names
      (puts ++ (putBetween s.worker.phase (s.next e).worker.phase).toList) := by
  by_cases hworker : e = .worker
  · subst hworker
    rcases s.next_worker with heq | ⟨worker, pipeline, hstep, heq⟩
    · rwa [heq, (between_self _).2, Option.toList_none, List.append_nil]
    · rw [heq] at hput ⊢
      exact h.worker hstep hput
  · rw [(s.between_next hworker).2, Option.toList_none, List.append_nil]
    cases e with
    | worker => exact (hworker rfl).elim
    | forget address => exact (hforget address rfl).elim
    | call | settle | stop => exact h
    | task number =>
      rcases s.next_task number with heq | ⟨_, _, _, _, _, -, hstep, heq⟩
      · rwa [heq]
      · rw [heq]
        rcases hstep.cache with hsame | ⟨address, hlooked⟩
        · rwa [System.cache, hsame]
        · rw [System.cache, hlooked]
          exact h.get address

/-- What has been cached stays as long as nothing is dropped from outside. -/
theorem run (h : s.cache.Roomy names) {events : List Event}
    (hforget : ∀ address, .forget address ∉ events)
    (hputs : ∀ address ∈ s.puts events, address ∈ names) :
    Keeps (s.run events).cache names (s.puts events) := by
  induction events using List.reverseRecOn with
  | nil => exact ⟨h, fun _ hput => (List.not_mem_nil hput).elim⟩
  | append_singleton events e ih =>
    rw [System.puts, System.traceOf_concat] at hputs ⊢
    have hkept := ih (fun address hmem => hforget address (List.mem_append_left _ hmem))
      fun address hput => hputs address (List.mem_append_left _ hput)
    rw [System.run_concat]
    refine hkept.next e ?_ ?_
    · rintro address rfl
      exact hforget address (by simp)
    · intro address hput
      exact hputs address (List.mem_append_right _ (by simp [hput]))

end Keeps

section Room
variable {σ : Type} [AnalysisStore σ]

/-- Everything stays in a cache with room for all that is put into it, whose entries live, when
nothing is dropped from outside. -/
theorem System.retains_of_roomy {s : System σ} {events : List Event} {names : List String}
    (hroomy : s.cache.Roomy names) (hforget : ∀ address, .forget address ∉ events)
    (hputs : ∀ address ∈ s.puts events, address ∈ names) : s.Retains events := by
  intro past hpast address hput
  obtain ⟨later, rfl⟩ := (List.mem_inits _ _).1 hpast
  have hfewer : ∀ other ∈ s.puts past, other ∈ names := by
    intro other hother
    refine hputs other ?_
    rw [System.puts, System.traceOf_append]
    exact List.mem_append_left _ hother
  have hkept := Keeps.run hroomy (fun a hmem => hforget a (List.mem_append_left _ hmem)) hfewer
  exact hkept.held address hput

/-- So it does in a cache that starts empty and has room for all addresses that are cached. -/
theorem System.retains_start (store : σ) {capacity : UInt64} {ttl : Time.Duration}
    (eagerTopN : UInt64) {events : List Event} (hlives : ttl.nanos ≠ 0)
    (hforget : ∀ address, .forget address ∉ events)
    (hroom : ((System.start store ⟨capacity, ttl, []⟩ eagerTopN).puts events).dedup.length ≤
      capacity.toNat) :
    (System.start store ⟨capacity, ttl, []⟩ eagerTopN).Retains events := by
  refine retains_of_roomy ⟨hlives, hroom, List.nodup_nil, ?_⟩ hforget ?_
  · intro address hmem
    exact (List.not_mem_nil hmem).elim
  · intro address hput
    exact List.mem_dedup.2 hput

end Room

/-! ## The worker and its lookups -/

/-- No address has been looked up twice, and each is cached but for the one that is being looked
up. -/
def Settled (lookups puts : List String) (phase : Phase) : Prop :=
  lookups.Nodup ∧ ∀ address ∈ lookups, address ∈ puts ∨ phase.isLookingUp address

/-- Where nothing is being looked up, everything that has been looked up is cached. -/
theorem Settled.leave {lookups puts : List String} {phase : Phase}
    (h : Settled lookups puts phase) (hidle : ∀ address, ¬ phase.isLookingUp address)
    (phase' : Phase) : Settled lookups puts phase' := by
  refine ⟨h.1, ?_⟩
  intro address ha
  exact .inl ((h.2 address ha).resolve_right (hidle address))

theorem settled_worker {lookups puts : List String} {w w' : Worker} {p p' : Pipeline}
    (h : Settled lookups puts w.phase) (hstep : w.Step p w' p')
    (hkept : ∀ address ∈ puts, p.cache.holds address = true) :
    Settled (lookups ++ (lookupBetween w.phase w'.phase).toList)
      (puts ++ (putBetween w.phase w'.phase).toList) w'.phase := by
  cases hstep with
  | stop | giveUp | take | retake | hit | release =>
    simpa [lookupBetween, putBetween] using h.leave (by simp [Phase.isLookingUp]) _
  | @miss _ address _ missing =>
    -- what has been looked up before is still cached, and this address is not
    have hnew : address ∉ lookups := by
      intro hmem
      have hput : address ∈ puts := (h.2 address hmem).resolve_right (by simp [Phase.isLookingUp])
      have hheld := hkept address hput
      rw [Cache.holds, ← Cache.get_fst, missing] at hheld
      cases hheld
    obtain ⟨hnodup, hput⟩ := h.leave (by simp [Phase.isLookingUp]) .idle
    simp only [lookupBetween, putBetween, Option.toList_some, Option.toList_none, List.append_nil]
    refine ⟨List.nodup_append.2 ⟨hnodup, by simp, ?_⟩, ?_⟩
    · rintro a ha b hb rfl
      exact hnew (List.mem_singleton.1 hb ▸ ha)
    · intro a ha
      rcases List.mem_append.1 ha with ha | ha
      · exact .inl ((hput a ha).resolve_right (by simp [Phase.isLookingUp]))
      · exact .inr (List.mem_singleton.1 ha).symm
  | record =>
    obtain ⟨hnodup, hput⟩ := h
    simp only [lookupBetween, putBetween, Option.toList_some, Option.toList_none, List.append_nil]
    refine ⟨hnodup, ?_⟩
    intro a ha
    refine .inl (List.mem_append.2 ?_)
    exact (hput a ha).imp id fun heq => List.mem_singleton.2 heq.symm

theorem settled_deliver {lookups puts : List String} {w : Worker}
    (result : BackoffPolicy.Resolution) (h : Settled lookups puts w.phase) :
    Settled lookups puts (w.deliver result).phase := by
  obtain ⟨phase, stopping⟩ := w
  cases phase <;> exact h

section Run
variable {σ : Type} [AnalysisStore σ]

/-- Only steps of the worker and ends of lookups change the worker's phase. -/
theorem settled_next {lookups puts : List String} {s : System σ}
    (h : Settled lookups puts s.worker.phase)
    (hkept : ∀ address ∈ puts, s.cache.holds address = true) (e : Event) :
    Settled (lookups ++ (lookupBetween s.worker.phase (s.next e).worker.phase).toList)
      (puts ++ (putBetween s.worker.phase (s.next e).worker.phase).toList)
      (s.next e).worker.phase := by
  by_cases hworker : e = .worker
  · subst hworker
    rcases s.next_worker with heq | ⟨worker, pipeline, hstep, heq⟩
    · rw [heq, (between_self _).1, (between_self _).2, Option.toList_none, List.append_nil,
        List.append_nil]
      exact h
    · rw [heq]
      exact settled_worker h hstep hkept
  · obtain ⟨hlookup, hput⟩ := s.between_next hworker
    rw [hlookup, hput, Option.toList_none, List.append_nil, List.append_nil]
    cases e with
    | worker => exact (hworker rfl).elim
    | settle result => exact settled_deliver result h
    | call | stop | forget => exact h
    | task number =>
      rcases s.next_task number with heq | ⟨_, _, _, _, _, _, _, heq⟩
      · rwa [heq]
      · rwa [heq]

theorem settled_run (s : System σ) (events : List Event) (hr : s.Retains events) :
    Settled (s.lookups events) (s.puts events) (s.run events).worker.phase := by
  induction events using List.reverseRecOn with
  | nil => exact ⟨List.nodup_nil, by simp [System.lookups, System.traceOf]⟩
  | append_singleton events e ih =>
    rw [System.lookups, System.puts, System.traceOf_concat, System.traceOf_concat,
      System.run_concat]
    exact settled_next (ih hr.before) (fun _ hput => hr.before.now hput) e

/-- No address is looked up twice, however the steps of the calls and of the worker fall, and
however lookups end. -/
theorem lookups_nodup (s : System σ) (events : List Event) (hr : s.Retains events) :
    (s.lookups events).Nodup := (settled_run s events hr).1

end Run

/-- Two calls miss the cache. The first has its address queued, and the worker is through with it,
after a lookup that broke down, before the second offers the address again. -/
def requeueing : List Event :=
  [.call (.read "8.8.8.8"), .call (.read "8.8.8.8"), .task 0, .task 1, .task 0, .task 0,
    .worker, .worker, .settle (.crashed "lookup exploded"), .worker, .worker, .task 1, .task 1,
    .worker, .worker, .worker]

theorem lookups_nodup_requeueing :
    (System.start MemoryStore.empty .standard 10).Retains requeueing ∧
    ((System.start MemoryStore.empty .standard 10).run (requeueing.take 13)).queue.items =
      ["8.8.8.8"] ∧
    (System.start MemoryStore.empty .standard 10).puts (requeueing.take 13) = ["8.8.8.8"] ∧
    (System.start MemoryStore.empty .standard 10).lookups requeueing = ["8.8.8.8"] ∧
    ((System.start MemoryStore.empty .standard 10).lookups requeueing).Nodup :=
  ⟨by decide, by decide, by decide, by decide, lookups_nodup _ _ (by decide)⟩

end AccessLog.Service

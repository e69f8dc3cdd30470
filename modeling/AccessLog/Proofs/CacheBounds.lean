import AccessLog.Proofs.CacheRoom
import AccessLog.Proofs.Steps

/-! # A cache within its bounds

A cache holds one entry for each address that it knows, and no more of them than it has room for.
When an address that it does not know is put into a full cache, one entry makes way for it: that of
the address which has not been used for the longest time. -/

namespace AccessLog.Enrich

namespace Cache

/-- No address has two entries, and there is room for all entries. -/
structure Fits (c : Cache) : Prop where
  distinct : c.addresses.Nodup
  room : c.entries.length ≤ c.capacity.toNat

theorem fits_of? {capacity : UInt64} {ttl : Time.Duration} {c : Cache}
    (h : of? capacity ttl = some c) : c.Fits := by
  unfold of? at h
  split at h
  · obtain rfl := Option.some.inj h
    exact ⟨.nil, Nat.zero_le _⟩
  · cases h

/-! ## Entries that make way -/

/-- The address that has not been used for the longest time. -/
def leastRecent? (c : Cache) : Option String := c.entries.getLast?.map Prod.fst

/-- The entry of an address goes if another one needs room. -/
def MakesWay (c : Cache) (address : String) : Prop :=
  c.entries.length = c.capacity.toNat ∧ c.leastRecent? = some address

instance (c : Cache) (address : String) : Decidable (c.MakesWay address) :=
  inferInstanceAs (Decidable (_ ∧ _))

theorem others_eq_self {c : Cache} {address : String} (h : c.peek? address = none) :
    others address c.entries = c.entries := by
  refine List.filter_eq_self.2 fun e he => ?_
  simpa using List.find?_eq_none.1 (Option.map_eq_none_iff.1 h) e he

/-- Without the last entry everything is found but what that entry told. -/
theorem find?_dropLast {entries : List (String × AddressInfo)} (h : (entries.map Prod.fst).Nodup)
    (address : String) :
    entries.dropLast.find? (·.1 = address) =
      if entries.getLast?.map Prod.fst = some address then none
      else entries.find? (·.1 = address) := by
  rcases entries.eq_nil_or_concat' with rfl | ⟨earlier, last, rfl⟩
  · rfl
  · rw [List.map_append, List.nodup_append] at h
    obtain ⟨-, -, happart⟩ := h
    simp only [List.dropLast_concat, List.getLast?_concat, Option.map_some, Option.some.injEq]
    split
    · rename_i hlast
      refine List.find?_eq_none.2 fun e he => ?_
      have hne := happart e.1 (List.mem_map_of_mem he) last.1 (by simp)
      simpa [hlast] using hne
    · rename_i hlast
      rw [List.find?_append, List.find?_singleton]
      simp [hlast]

variable {c : Cache} {address : String}

theorem peek?_put_self (hlives : c.ttl.nanos ≠ 0) (hroom : 0 < c.capacity.toNat)
    (info : AddressInfo) : (c.put address info).peek? address = some info := by
  obtain ⟨others, hothers⟩ : ∃ others, c.capacity.toNat = others + 1 :=
    ⟨c.capacity.toNat - 1, by omega⟩
  simp only [put, if_neg hlives, peek?, hothers, List.take_succ_cons]
  rw [List.find?_cons_of_pos (by simp)]
  rfl

namespace Fits

theorem get (h : c.Fits) (address : String) : (c.get address).2.Fits := by
  unfold Cache.get
  split
  · rename_i info hinfo
    refine ⟨nodup_front h.distinct address info, Nat.le_trans ?_ h.room⟩
    -- the entry that comes to the front has left its place
    obtain ⟨e, he, -⟩ := Option.map_eq_some_iff.1 hinfo
    have hfewer : (others address c.entries).length < c.entries.length :=
      List.length_filter_lt_length_iff_exists.2
        ⟨e, List.mem_of_find?_eq_some he, by simpa using List.find?_some he⟩
    exact hfewer
  · exact h

theorem put (h : c.Fits) (address : String) (info : AddressInfo) : (c.put address info).Fits := by
  unfold Cache.put
  split
  · exact h
  · refine ⟨?_, List.length_take_le _ _⟩
    exact (nodup_front h.distinct address info).sublist ((List.take_sublist _ _).map _)

theorem forget (h : c.Fits) (address : String) : (c.forget address).Fits :=
  ⟨h.distinct.sublist (List.filter_sublist.map _),
    Nat.le_trans (List.length_filter_le _ _) h.room⟩

theorem entries_put (h : c.Fits) (hlives : c.ttl.nanos ≠ 0) (hroom : 0 < c.capacity.toNat)
    (hmiss : c.peek? address = none) (info : AddressInfo) :
    (c.put address info).entries = (address, info) ::
      if c.entries.length = c.capacity.toNat then c.entries.dropLast else c.entries := by
  obtain ⟨others, hothers⟩ : ∃ others, c.capacity.toNat = others + 1 :=
    ⟨c.capacity.toNat - 1, by omega⟩
  have hlength := h.room
  rw [hothers] at hlength
  rw [Cache.put, if_neg hlives, others_eq_self hmiss]
  simp only [hothers, List.take_succ_cons]
  congr 1
  split
  · rename_i hfull
    rw [List.dropLast_eq_take, hfull, Nat.add_sub_cancel]
  · rename_i hfree
    exact List.take_of_length_le (by omega)

/-- Where nothing was known about an address, at most one other address is forgotten for it. -/
theorem peek?_put (h : c.Fits) (hlives : c.ttl.nanos ≠ 0) (hroom : 0 < c.capacity.toNat)
    (hmiss : c.peek? address = none) (info : AddressInfo) {other : String}
    (hother : other ≠ address) :
    (c.put address info).peek? other = if c.MakesWay other then none else c.peek? other := by
  have hne : ¬ address = other := fun heq => hother heq.symm
  rw [Cache.peek?, h.entries_put hlives hroom hmiss, List.find?_cons_of_neg (by simpa using hne)]
  by_cases hfull : c.entries.length = c.capacity.toNat
  · have hway : c.MakesWay other ↔ c.entries.getLast?.map Prod.fst = some other :=
      and_iff_right hfull
    simp only [if_pos hfull, find?_dropLast h.distinct, hway]
    split <;> rfl
  · rw [if_neg hfull, if_neg fun hway => hfull hway.1]
    rfl

end Fits

end Cache

/-! ## Every cache of a running service -/

theorem Worker.Step.fits {w w' : Worker} {p p' : Pipeline} (hstep : w.Step p w' p')
    (h : p.cache.Fits) : p'.cache.Fits := by
  cases hstep with
  | stop | giveUp | take | retake | release => exact h
  | hit | miss => exact h.get _
  | record => exact h.put _ _

end AccessLog.Enrich

namespace AccessLog.Service
open AccessLog.Enrich AccessLog.Store
variable {σ : Type} [AnalysisStore σ]

theorem Task.Step.fits {t t' : Task} {s s' : Service σ} (hstep : t.Step s t' s')
    (h : s.pipeline.cache.Fits) : s'.pipeline.cache.Fits := by
  rcases hstep.cache with hsame | ⟨address, hlooked⟩
  · rwa [hsame]
  · rw [hlooked]
    exact h.get address

namespace System
variable {s : System σ}

theorem fits_next (h : s.cache.Fits) (e : Event) : (s.next e).cache.Fits := by
  cases e with
  | call | settle | stop => exact h
  | forget address => exact h.forget address
  | task number =>
    rcases s.next_task number with heq | ⟨_, _, _, _, _, -, hstep, heq⟩
    · rw [heq]
      exact h
    · rw [heq]
      exact hstep.fits h
  | worker =>
    rcases s.next_worker with heq | ⟨_, _, hstep, heq⟩
    · rw [heq]
      exact h
    · rw [heq]
      exact hstep.fits h

/-- Whatever happens to a service, its cache stays within its bounds. -/
theorem fits_run (h : s.cache.Fits) (events : List Event) : (s.run events).cache.Fits := by
  induction events generalizing s with
  | nil => exact h
  | cons e rest ih => exact ih (fits_next h e)

end System

end AccessLog.Service

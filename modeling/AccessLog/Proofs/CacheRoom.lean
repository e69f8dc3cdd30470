import AccessLog.Enrich.Cache
import Mathlib.Data.List.Perm.Subperm

/-! # A cache with room

A cache that has room for every address that it is ever told about keeps what it is told. A look at
an entry only changes what has been used last. -/

namespace AccessLog.Enrich.Cache

/-- The addresses that have an entry. -/
def addresses (c : Cache) : List String := c.entries.map Prod.fst

theorem find?_others {address other : String} (h : other ≠ address)
    (entries : List (String × AddressInfo)) :
    (others address entries).find? (·.1 = other) = entries.find? (·.1 = other) := by
  rw [others, List.find?_filter]
  refine congrArg (entries.find? ·) (funext fun e => ?_)
  by_cases he : e.1 = other
  · simp [he, h]
  · simp [he]

/-- What is found once an entry has been put in front of the others. -/
theorem find?_front (address other : String) (info : AddressInfo)
    (entries : List (String × AddressInfo)) :
    (((address, info) :: others address entries).find? (·.1 = other)).map Prod.snd =
      if other = address then some info else (entries.find? (·.1 = other)).map Prod.snd := by
  by_cases h : other = address
  · simp [h]
  · have hne : ¬ address = other := fun heq => h heq.symm
    rw [List.find?_cons_of_neg (by simpa using hne), find?_others h, if_neg h]

/-- A look at an entry changes no entry. -/
@[simp] theorem peek?_get (c : Cache) (address other : String) :
    (c.get address).2.peek? other = c.peek? other := by
  unfold get
  split
  · rename_i info hinfo
    show (((address, info) :: others address c.entries).find? (·.1 = other)).map Prod.snd = _
    rw [find?_front]
    split
    · rename_i heq
      rw [heq, hinfo]
    · rfl
  · rfl

/-- No address has two entries once one has been put in front of the others. -/
theorem nodup_front {entries : List (String × AddressInfo)} (h : (entries.map Prod.fst).Nodup)
    (address : String) (info : AddressInfo) :
    (((address, info) :: others address entries).map Prod.fst).Nodup := by
  refine List.nodup_cons.2 ⟨by simp [others], ?_⟩
  exact h.sublist (List.filter_sublist.map _)

/-- The cache has room for all of these addresses, has entries for no others, and entries live. -/
structure Roomy (c : Cache) (names : List String) : Prop where
  lives : c.ttl.nanos ≠ 0
  room : names.length ≤ c.capacity.toNat
  distinct : c.addresses.Nodup
  known : ∀ address ∈ c.addresses, address ∈ names

theorem mem_addresses {c : Cache} {address : String} :
    address ∈ c.addresses ↔ (c.peek? address).isSome = true := by
  simp [addresses, peek?]

namespace Roomy
variable {c : Cache} {names : List String} {address : String}

/-- Entries in another order, with one for this address in front. -/
theorem front (h : c.Roomy names) (hmem : address ∈ names) (info : AddressInfo) :
    ({ c with entries := (address, info) :: others address c.entries } : Cache).Roomy names := by
  obtain ⟨hlives, hroom, hdistinct, hknown⟩ := h
  refine ⟨hlives, hroom, nodup_front hdistinct address info, ?_⟩
  intro a ha
  rcases List.mem_cons.1 ha with rfl | ha
  · exact hmem
  · exact hknown a ((List.filter_sublist.map _).subset ha)

theorem length_le (h : c.Roomy names) : c.entries.length ≤ c.capacity.toNat := by
  have hsub := (List.subperm_of_subset h.distinct h.known).length_le
  rw [addresses, List.length_map] at hsub
  exact Nat.le_trans hsub h.room

theorem get (h : c.Roomy names) (address : String) : (c.get address).2.Roomy names := by
  unfold Cache.get
  split
  · rename_i info hinfo
    exact h.front (h.known address (mem_addresses.2 (by rw [hinfo]; rfl))) info
  · exact h

/-- Nothing is dropped to make room. -/
theorem put_eq (h : c.Roomy names) (hmem : address ∈ names) (info : AddressInfo) :
    c.put address info = { c with entries := (address, info) :: others address c.entries } := by
  rw [Cache.put, if_neg h.lives, List.take_of_length_le (h.front hmem info).length_le]

theorem put (h : c.Roomy names) (hmem : address ∈ names) (info : AddressInfo) :
    (c.put address info).Roomy names := by
  rw [h.put_eq hmem]
  exact h.front hmem info

theorem peek?_put (h : c.Roomy names) (hmem : address ∈ names) (info : AddressInfo)
    (other : String) :
    (c.put address info).peek? other = if other = address then some info else c.peek? other := by
  rw [h.put_eq hmem]
  exact find?_front address other info c.entries

end Roomy

end AccessLog.Enrich.Cache

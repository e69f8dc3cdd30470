import AccessLog.Proofs.CacheRoom
import Mathlib.Data.Finset.Card

/-! # What a cache still knows

A cache that is asked and told about addresses knows an address as long as it has been told about
it and fewer other addresses have been used since than the cache has room for. A put is a use, and
so is a look that hits. What it tells is what it was told last. -/

namespace AccessLog.Enrich.Cache

/-- What a cache is asked to do. -/
inductive Operation where
  | get (address : String)
  | put (address : String) (info : AddressInfo)
  deriving DecidableEq

def apply (c : Cache) : Operation → Cache
  | .get address => (c.get address).2
  | .put address info => c.put address info

/-- The cache after operations in their order, in which any of its clones may have made them: clones
share the entries. -/
def after (c : Cache) (history : List Operation) : Cache := history.foldl apply c

/-- The address that an operation uses. -/
def used? (c : Cache) : Operation → Option String
  | .get address => if (c.get address).1.isSome then some address else none
  | .put address _ => some address

/-- The addresses used in the course of operations, in order. -/
def uses (c : Cache) : List Operation → List String
  | [] => []
  | op :: rest => (c.used? op).toList ++ uses (c.apply op) rest

/-- The uses of other addresses since an address was last used, the latest first. -/
def usesSince (address : String) (used : List String) : List String :=
  used.reverse.takeWhile (· ≠ address)

/-- The address that an operation uses, told from the uses before: a look is one if its address has
been used, and fewer others since than there is room for. -/
def useOf? (room : Nat) (used : List String) : Operation → Option String
  | .get address =>
    if address ∈ used ∧ (usesSince address used).toFinset.card < room then some address else none
  | .put address _ => some address

/-- The addresses used in the course of operations, told without a cache. -/
def usesOf (room : Nat) (history : List Operation) : List String :=
  history.foldl (fun used op => used ++ (useOf? room used op).toList) []

/-- What was put last for an address. -/
def lastPut? (address : String) (history : List Operation) : Option AddressInfo :=
  history.reverse.findSome? fun
    | .put other info => if other = address then some info else none
    | .get _ => none

/-! ## Addresses by their last use -/

/-- Each address once, in the order of the last uses, the latest first. -/
def ranking (used : List String) : List String :=
  used.foldl (fun ranked address => address :: ranked.filter (· ≠ address)) []

theorem ranking_concat (used : List String) (address : String) :
    ranking (used ++ [address]) = address :: (ranking used).filter (· ≠ address) := by
  simp [ranking, List.foldl_append]

theorem mem_ranking {used : List String} {address : String} :
    address ∈ ranking used ↔ address ∈ used := by
  induction used using List.reverseRecOn with
  | nil => rfl
  | append_singleton used last ih =>
    rw [ranking_concat]
    by_cases h : address = last <;> simp [h, ih]

theorem nodup_ranking (used : List String) : (ranking used).Nodup := by
  induction used using List.reverseRecOn with
  | nil => exact .nil
  | append_singleton used last ih =>
    rw [ranking_concat]
    exact List.nodup_cons.2 ⟨by simp, ih.filter _⟩

/-- An address stands among the first of a list if few others stand in front of it. -/
theorem mem_take_iff {ranked : List String} {address : String} {n : Nat} :
    address ∈ ranked.take n ↔
      address ∈ ranked ∧ (ranked.takeWhile (· ≠ address)).length < n := by
  induction ranked generalizing n with
  | nil => simp
  | cons first rest ih =>
    cases n with
    | zero => simp
    | succ n =>
      by_cases h : first = address
      · simp [h]
      · have hne : ¬ address = first := fun heq => h heq.symm
        simp [h, hne, ih]

/-- Passing over another address does not matter for what stands in front. -/
theorem takeWhile_filter_ne {address other : String} (h : other ≠ address) (ranked : List String) :
    (ranked.filter (· ≠ other)).takeWhile (· ≠ address) =
      (ranked.takeWhile (· ≠ address)).filter (· ≠ other) := by
  induction ranked with
  | nil => rfl
  | cons first rest ih =>
    by_cases hother : first = other
    · subst hother
      simpa [h] using ih
    · by_cases haddress : first = address
      · simp [haddress, h.symm]
      · simpa [hother, haddress] using ih

/-- In front of an address stand those that were used since, each once. -/
theorem toFinset_front (address : String) (used : List String) :
    ((ranking used).takeWhile (· ≠ address)).toFinset = (usesSince address used).toFinset := by
  induction used using List.reverseRecOn with
  | nil => rfl
  | append_singleton used last ih =>
    have hsince : usesSince address (used ++ [last]) =
        if last = address then [] else last :: usesSince address used := by
      by_cases h : last = address <;> simp [usesSince, h]
    rw [ranking_concat, hsince]
    by_cases h : last = address
    · simp [h]
    · rw [if_neg h, List.takeWhile_cons_of_pos (by simpa using h), takeWhile_filter_ne h,
        List.toFinset_cons, List.toFinset_cons, ← ih]
      ext other
      by_cases hother : other = last <;> simp [hother]

theorem length_front (address : String) (used : List String) :
    ((ranking used).takeWhile (· ≠ address)).length =
      (usesSince address used).toFinset.card := by
  rw [← toFinset_front, List.toFinset_card_of_nodup]
  exact (nodup_ranking used).sublist (List.takeWhile_sublist _)

/-- Bringing an address to the front and cutting the list commute with an earlier cut. -/
theorem take_front {ranked : List String} (h : ranked.Nodup) (address : String) (n : Nat) :
    (address :: (ranked.take n).filter (· ≠ address)).take n =
      (address :: ranked.filter (· ≠ address)).take n := by
  cases n with
  | zero => rfl
  | succ n =>
    rw [List.take_succ_cons, List.take_succ_cons]
    refine congrArg (address :: ·) ?_
    induction ranked generalizing n with
    | nil => rfl
    | cons first rest ih =>
      obtain ⟨habsent, hrest⟩ := List.nodup_cons.1 h
      by_cases hfirst : first = address
      · -- the address stands nowhere else, so nothing further is passed over
        subst hfirst
        have hall : ∀ other ∈ rest, decide (other ≠ first) = true := by
          intro other hother
          have hne : other ≠ first := by
            rintro rfl
            exact habsent hother
          simpa using hne
        have hfew : ∀ other ∈ rest.take n, decide (other ≠ first) = true :=
          fun other hother => hall other (List.mem_of_mem_take hother)
        rw [List.take_succ_cons, List.filter_cons_of_neg (by simp),
          List.filter_cons_of_neg (by simp), List.filter_eq_self.2 hall,
          List.filter_eq_self.2 hfew, List.take_take, Nat.min_self]
      · cases n with
        | zero => rfl
        | succ n =>
          rw [List.take_succ_cons, List.filter_cons_of_pos (by simpa using hfirst),
            List.filter_cons_of_pos (by simpa using hfirst), List.take_succ_cons,
            List.take_succ_cons, ih hrest]

/-! ## The cache after operations -/

section Operations
variable (c : Cache) (history : List Operation)

theorem after_concat (op : Operation) : c.after (history ++ [op]) = (c.after history).apply op := by
  simp [after, List.foldl_append]

theorem uses_concat (op : Operation) :
    c.uses (history ++ [op]) = c.uses history ++ ((c.after history).used? op).toList := by
  induction history generalizing c with
  | nil => simp [uses, after]
  | cons first rest ih =>
    rw [List.cons_append, uses, ih, uses, List.append_assoc]
    rfl

theorem fst_get (address : String) : (c.get address).1 = c.peek? address := by
  unfold get
  split <;> simp_all

end Operations

variable {c : Cache} {used : List String}

theorem addresses_others (address : String) (entries : List (String × AddressInfo)) :
    (others address entries).map Prod.fst = (entries.map Prod.fst).filter (· ≠ address) := by
  rw [others, List.filter_map]
  rfl

/-- The cache holds the addresses that were used last, as many as it has room for, and its entries
live. -/
structure Recalls (c : Cache) (used : List String) : Prop where
  lives : c.ttl.nanos ≠ 0
  addresses : c.addresses = (ranking used).take c.capacity.toNat

theorem Recalls.put (h : c.Recalls used) (address : String) (info : AddressInfo) :
    (c.put address info).Recalls (used ++ [address]) := by
  rw [Cache.put, if_neg h.lives]
  refine ⟨h.lives, ?_⟩
  show List.map Prod.fst (List.take _ (_ :: _)) = _
  rw [List.map_take, List.map_cons, addresses_others, ← Cache.addresses, h.addresses,
    take_front (nodup_ranking used), ranking_concat]

/-- A look that hits is a use, and any other changes nothing. -/
theorem Recalls.get (h : c.Recalls used) (address : String) :
    (c.get address).2.Recalls (used ++ (c.used? (.get address)).toList) := by
  rw [used?, fst_get]
  unfold Cache.get
  split
  · rename_i info hinfo
    rw [hinfo]
    refine ⟨h.lives, ?_⟩
    show address :: List.map Prod.fst (others address c.entries) =
      (ranking (used ++ [address])).take c.capacity.toNat
    have hmem : address ∈ (ranking used).take c.capacity.toNat := by
      rw [← h.addresses, mem_addresses, hinfo]
      rfl
    rw [addresses_others, ← Cache.addresses, h.addresses, ranking_concat,
      ← take_front (nodup_ranking used)]
    -- the address has left its place for the front, so there is no more to cut
    have hfewer : (((ranking used).take c.capacity.toNat).filter (· ≠ address)).length <
        ((ranking used).take c.capacity.toNat).length :=
      List.length_filter_lt_length_iff_exists.2 ⟨address, hmem, by simp⟩
    have hroom : ((ranking used).take c.capacity.toNat).length ≤ c.capacity.toNat :=
      List.length_take_le _ _
    refine (List.take_of_length_le ?_).symm
    rw [List.length_cons]
    omega
  · rename_i hinfo
    rw [hinfo]
    simpa using h

theorem Recalls.apply (h : c.Recalls used) (op : Operation) :
    (c.apply op).Recalls (used ++ (c.used? op).toList) := by
  cases op with
  | get address => exact h.get address
  | put address info => exact h.put address info

theorem Recalls.after (h : c.Recalls []) (history : List Operation) :
    (c.after history).Recalls (c.uses history) := by
  induction history using List.reverseRecOn with
  | nil => exact h
  | append_singleton history op ih =>
    rw [after_concat, uses_concat]
    exact ih.apply op

@[simp] theorem capacity_after (c : Cache) (history : List Operation) :
    (c.after history).capacity = c.capacity := by
  induction history using List.reverseRecOn with
  | nil => rfl
  | append_singleton history op ih =>
    rw [after_concat, ← ih]
    cases op with
    | get address =>
      show ((c.after history).get address).2.capacity = _
      unfold get
      split <;> rfl
    | put address info =>
      show ((c.after history).put address info).capacity = _
      unfold put
      split <;> rfl

/-- An address is known as long as fewer others have been used since than there is room for. -/
theorem Recalls.isSome_peek? (h : c.Recalls used) {address : String} :
    (c.peek? address).isSome = true ↔
      address ∈ used ∧ (usesSince address used).toFinset.card < c.capacity.toNat := by
  rw [← mem_addresses, h.addresses, mem_take_iff, mem_ranking, length_front]

theorem Recalls.used?_eq (h : c.Recalls used) (op : Operation) :
    c.used? op = useOf? c.capacity.toNat used op := by
  cases op with
  | get address => simp only [used?, useOf?, fst_get, h.isSome_peek?]
  | put address info => rfl

theorem uses_eq_usesOf (h : c.Recalls []) (history : List Operation) :
    c.uses history = usesOf c.capacity.toNat history := by
  induction history using List.reverseRecOn with
  | nil => rfl
  | append_singleton history op ih =>
    rw [uses_concat, (h.after history).used?_eq, capacity_after, ih]
    simp only [usesOf, List.foldl_append, List.foldl_cons, List.foldl_nil]

/-! ## What it tells -/

theorem lastPut?_get (address other : String) (history : List Operation) :
    lastPut? address (history ++ [.get other]) = lastPut? address history := by
  simp [lastPut?]

theorem lastPut?_put (address other : String) (info : AddressInfo) (history : List Operation) :
    lastPut? address (history ++ [.put other info]) =
      if other = address then some info else lastPut? address history := by
  by_cases h : other = address <;> simp [lastPut?, h]

theorem mem_of_lastPut? {address : String} {info : AddressInfo} {history : List Operation}
    (h : lastPut? address history = some info) : Operation.put address info ∈ history := by
  obtain ⟨op, hop, hput⟩ := List.exists_of_findSome?_eq_some h
  cases op with
  | get other => cases hput
  | put other given =>
    by_cases hother : other = address
    · simp only [hother, if_true, Option.some.injEq] at hput
      rw [← hother, ← hput] at *
      exact List.mem_reverse.1 hop
    · simp [hother] at hput

/-- What is found after a put was put just now, or was found before. -/
theorem peek?_of_put (hlives : c.ttl.nanos ≠ 0) {address other : String} {info found : AddressInfo}
    (h : (c.put address info).peek? other = some found) :
    (if other = address then some info else c.peek? other) = some found := by
  rw [put, if_neg hlives] at h
  obtain ⟨e, he, rfl⟩ := Option.map_eq_some_iff.1 h
  have hfront := List.IsPrefix.find?_eq_some (List.take_prefix _ _) he
  exact (find?_front address other info c.entries).symm.trans (congrArg _ hfront)

theorem lastPut?_of_peek? (hempty : c.entries = []) (h : c.Recalls []) {history : List Operation}
    {address : String} {info : AddressInfo}
    (hfound : (c.after history).peek? address = some info) :
    lastPut? address history = some info := by
  induction history using List.reverseRecOn generalizing info with
  | nil => simp [after, peek?, hempty] at hfound
  | append_singleton history op ih =>
    rw [after_concat] at hfound
    cases op with
    | get other =>
      rw [lastPut?_get]
      exact ih (by simpa [apply] using hfound)
    | put other given =>
      have hcases := peek?_of_put (h.after history).lives hfound
      rw [lastPut?_put]
      by_cases hother : other = address
      · subst hother
        rwa [if_pos rfl] at hcases ⊢
      · rw [if_neg hother]
        rw [if_neg fun heq => hother heq.symm] at hcases
        exact ih hcases

/-- An address is put before it is used in any other way. -/
theorem mem_uses_iff (hempty : c.entries = []) (h : c.Recalls []) {history : List Operation}
    {address : String} :
    address ∈ c.uses history ↔ ∃ info, Operation.put address info ∈ history := by
  induction history using List.reverseRecOn with
  | nil => simp [uses]
  | append_singleton history op ih =>
    rw [uses_concat, List.mem_append, ih]
    cases op with
    | get other =>
      rw [used?, fst_get]
      refine ⟨?_, fun ⟨info, hput⟩ => .inl ⟨info, by simpa using hput⟩⟩
      rintro (⟨info, hput⟩ | hused)
      · exact ⟨info, List.mem_append_left _ hput⟩
      · split at hused
        · rename_i hhit
          obtain rfl : address = other := by simpa using hused
          obtain ⟨info, hinfo⟩ := Option.isSome_iff_exists.1 hhit
          exact ⟨info, List.mem_append_left _ (mem_of_lastPut? (lastPut?_of_peek? hempty h hinfo))⟩
        · cases hused
    | put other given =>
      by_cases hother : address = other <;> simp [used?, hother]

/-- A cache that starts empty and whose entries live is asked and told about addresses. A look hits
if and only if the address has been put before and, since it was last put or hit, fewer other
addresses than there is room for were put or hit; so which looks hit can be told from the history
alone. A hit tells what was put last, and the cache never holds more than it has room for. -/
theorem hit_iff_recent {capacity : UInt64} {ttl : Time.Duration}
    (hstart : of? capacity ttl = some c) (hlives : ttl.nanos ≠ 0) (history : List Operation)
    (address : String) :
    (((c.after history).get address).1.isSome = true ↔
      (∃ info, Operation.put address info ∈ history) ∧
        (usesSince address (c.uses history)).toFinset.card < capacity.toNat) ∧
    c.uses history = usesOf capacity.toNat history ∧
    (∀ info, ((c.after history).get address).1 = some info →
      lastPut? address history = some info) ∧
    (c.after history).size ≤ capacity.toNat := by
  obtain rfl : ⟨capacity, ttl, []⟩ = c := by
    unfold of? at hstart
    split at hstart
    · exact Option.some.inj hstart
    · cases hstart
  have hempty : Recalls ⟨capacity, ttl, []⟩ [] := ⟨hlives, by simp [addresses, ranking]⟩
  have hafter := hempty.after history
  rw [fst_get]
  refine ⟨?_, uses_eq_usesOf hempty history, fun info => lastPut?_of_peek? rfl hempty, ?_⟩
  · rw [hafter.isSome_peek?, mem_uses_iff rfl hempty, capacity_after]
  · rw [size, ← List.length_map Prod.fst]
    show (Cache.addresses _).length ≤ _
    rw [hafter.addresses, capacity_after]
    exact List.length_take_le _ _

/-- Two addresses are put, the first one is looked at, and a third one is put. -/
def threePuts : List Operation :=
  [.put "1.1.1.1" (.unknown "1.1.1.1"), .put "2.2.2.2" (.unknown "2.2.2.2"), .get "1.1.1.1",
    .put "3.3.3.3" (.unknown "3.3.3.3")]

/-- Where there is room for two, the look has saved the first address, and the second has gone. -/
theorem hit_iff_recent_threePuts :
    ∃ c, of? 2 standardTtl = some c ∧ standardTtl.nanos ≠ 0 ∧
      c.uses threePuts = ["1.1.1.1", "2.2.2.2", "1.1.1.1", "3.3.3.3"] ∧
      ((c.after threePuts).get "1.1.1.1").1 = some (.unknown "1.1.1.1") ∧
      ((c.after threePuts).get "2.2.2.2").1 = none ∧ (c.after threePuts).size ≤ 2 := by
  have hstart : of? 2 standardTtl = some ⟨2, standardTtl, []⟩ := by decide
  have hlives : standardTtl.nanos ≠ 0 := by decide
  obtain ⟨hfirst, huses, htold, hsize⟩ := hit_iff_recent hstart hlives threePuts "1.1.1.1"
  obtain ⟨hsecond, -⟩ := hit_iff_recent hstart hlives threePuts "2.2.2.2"
  have hused : Cache.uses ⟨2, standardTtl, []⟩ threePuts =
      ["1.1.1.1", "2.2.2.2", "1.1.1.1", "3.3.3.3"] := by decide
  rw [hused] at hfirst hsecond
  refine ⟨_, hstart, hlives, hused, ?_, ?_, hsize⟩
  · obtain ⟨info, hinfo⟩ := Option.isSome_iff_exists.1
      (hfirst.2 ⟨⟨.unknown "1.1.1.1", by decide⟩, by decide⟩)
    have hlast : lastPut? "1.1.1.1" threePuts = some (.unknown "1.1.1.1") := by decide
    rw [hinfo, ← htold info hinfo, hlast]
  · rw [← Option.not_isSome_iff_eq_none, hsecond]
    exact fun hrecent => absurd hrecent.2 (by decide)

end AccessLog.Enrich.Cache

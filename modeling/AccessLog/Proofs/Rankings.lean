import AccessLog.Proofs.Counting
import AccessLog.Proofs.KeyOrder
import AccessLog.Service.Ingest
import Mathlib.Algebra.BigOperators.Group.List.Lemmas
import Mathlib.Algebra.GroupWithZero.Nat
import Mathlib.Data.List.Dedup
import Mathlib.Data.List.Induction

/-! # Rankings

A counter keeps an entry for each key that was counted, with the number of its occurrences. Its
ranking is settled by these: the keys with more occurrences come first, and of keys with as many the
smaller. So it does not matter in which order the keys were counted, nor in which order the entries
are gone through, nor how they are sorted.

Of an analysis only the addresses that lead in it are looked up. They are different from one
another, they are as many as are asked for at most, and a shorter ranking is the beginning of a
longer one. -/

namespace AccessLog.Stats

/-! ## Tables in any order -/

section Tables
variable {κ : Type}

/-- A table of counts after its keys were counted, with the entries in any order: an increment counts
up the entry of its key or puts one in for it, and the entries may stand otherwise afterwards. -/
inductive Tabulates : List κ → List (κ × UInt64) → Prop
  | empty : Tabulates [] []
  | again {keys entries rest now} {key : κ} {n : UInt64} (past : Tabulates keys entries)
      (held : entries.Perm ((key, n) :: rest)) (perm : now.Perm ((key, n + 1) :: rest)) :
      Tabulates (keys ++ [key]) now
  | first {keys entries now} {key : κ} (past : Tabulates keys entries)
      (missing : key ∉ entries.map Prod.fst) (perm : now.Perm ((key, 1) :: entries)) :
      Tabulates (keys ++ [key]) now

variable [DecidableEq κ] {keys : List κ} {entries others : List (κ × UInt64)}

/-- Each key has one entry, with the number of its occurrences. -/
structure Tallies (keys : List κ) (entries : List (κ × UInt64)) : Prop where
  nodup : (entries.map Prod.fst).Nodup
  mem_iff (key : κ) (n : UInt64) :
    (key, n) ∈ entries ↔ key ∈ keys ∧ n = UInt64.ofNat (keys.count key)

theorem Tallies.of_perm (h : Tallies keys entries) (hperm : others.Perm entries) :
    Tallies keys others where
  nodup := (hperm.map Prod.fst).nodup_iff.2 h.nodup
  mem_iff key n := hperm.mem_iff.trans (h.mem_iff key n)

theorem Tallies.perm {keys' : List κ} (h : Tallies keys entries) (h' : Tallies keys' others)
    (hkeys : keys'.Perm keys) : others.Perm entries := by
  refine (List.perm_ext_iff_of_nodup h'.nodup.of_map h.nodup.of_map).2 ?_
  rintro ⟨key, n⟩
  rw [h.mem_iff, h'.mem_iff, hkeys.mem_iff, hkeys.count_eq]

theorem Tallies.mem_keys_iff (h : Tallies keys entries) (key : κ) :
    key ∈ entries.map Prod.fst ↔ key ∈ keys := by
  constructor
  · intro hkey
    obtain ⟨⟨k, n⟩, hmem, rfl⟩ := List.mem_map.1 hkey
    exact ((h.mem_iff k n).1 hmem).1
  · intro hkey
    exact List.mem_map_of_mem ((h.mem_iff key _).2 ⟨hkey, rfl⟩)

/-- The entry of a key that is counted once more. -/
theorem tallies_snoc {rest : List (κ × UInt64)} {key : κ}
    (hnodup : (key :: rest.map Prod.fst).Nodup)
    (hrest : ∀ other n, other ≠ key →
      ((other, n) ∈ rest ↔ other ∈ keys ∧ n = UInt64.ofNat (keys.count other))) :
    Tallies (keys ++ [key]) ((key, UInt64.ofNat (keys.count key) + 1) :: rest) := by
  refine ⟨hnodup, fun other n => ?_⟩
  by_cases hother : other = key
  · subst hother
    have hmissing : (other, n) ∉ rest :=
      fun hmem => (List.nodup_cons.1 hnodup).1 (List.mem_map_of_mem hmem)
    simp [hmissing, List.count_append, UInt64.ofNat_add]
  · have hcount : [key].count other = 0 := List.count_eq_zero.2 (by simpa using hother)
    rw [List.mem_cons, hrest other n hother, List.count_append, hcount]
    simp [hother]

theorem Tallies.again {rest : List (κ × UInt64)} {key : κ} {n : UInt64}
    (h : Tallies keys entries) (held : entries.Perm ((key, n) :: rest)) :
    Tallies (keys ++ [key]) ((key, n + 1) :: rest) := by
  have hheld := h.of_perm held.symm
  obtain ⟨-, rfl⟩ := (hheld.mem_iff key n).1 List.mem_cons_self
  refine tallies_snoc hheld.nodup fun other m hother => ?_
  rw [← hheld.mem_iff, List.mem_cons]
  simp [hother]

theorem Tallies.first {key : κ} (h : Tallies keys entries) (missing : key ∉ entries.map Prod.fst) :
    Tallies (keys ++ [key]) ((key, 1) :: entries) := by
  have hcount : keys.count key = 0 :=
    List.count_eq_zero.2 fun hkey => missing ((h.mem_keys_iff key).2 hkey)
  have hsnoc := tallies_snoc (List.nodup_cons.2 ⟨missing, h.nodup⟩) fun other n _ => h.mem_iff other n
  rw [hcount] at hsnoc
  exact hsnoc

theorem Tabulates.tallies (h : Tabulates keys entries) : Tallies keys entries := by
  induction h with
  | empty => exact ⟨.nil, by simp⟩
  | again _ held perm ih => exact (ih.again held).of_perm perm
  | first _ missing perm ih => exact (ih.first missing).of_perm perm

/-- There is a table for all keys, whatever was counted. -/
theorem exists_tabulates (keys : List κ) : ∃ entries, Tabulates keys entries := by
  induction keys using List.reverseRecOn with
  | nil => exact ⟨[], .empty⟩
  | append_singleton keys key ih =>
    obtain ⟨entries, past⟩ := ih
    by_cases hkey : key ∈ entries.map Prod.fst
    · obtain ⟨⟨k, n⟩, hmem, rfl⟩ := List.mem_map.1 hkey
      exact ⟨_, past.again (List.perm_cons_erase hmem) (.refl _)⟩
    · exact ⟨_, past.first hkey (.refl _)⟩

/-- The tables are the lists of just these entries, in all orders. -/
theorem tabulates_iff : Tabulates keys entries ↔ Tallies keys entries := by
  refine ⟨Tabulates.tallies, fun h => ?_⟩
  obtain ⟨others, htable⟩ := exists_tabulates keys
  have hperm : entries.Perm others := htable.tallies.perm h (.refl _)
  cases htable with
  | empty => rw [hperm.eq_nil]; exact .empty
  | again past held perm => exact .again past held (hperm.trans perm)
  | first past missing perm => exact .first past missing (hperm.trans perm)

end Tables

/-! ## Counters -/

section Entries
variable {κ : Type} [Ord κ] [Std.LawfulEqOrd κ]

theorem mem_keys_setEntry (key other : κ) (count : UInt64) (entries : List (κ × UInt64)) :
    other ∈ (setEntry key count entries).map Prod.fst ↔
      other = key ∨ other ∈ entries.map Prod.fst := by
  induction entries with
  | nil => simp [setEntry]
  | cons e rest ih =>
    obtain ⟨k, n⟩ := e
    simp only [setEntry]
    split
    · simp
    · rename_i heq
      obtain rfl := Std.LawfulEqOrd.eq_of_compare heq
      simp
    · simp only [List.map_cons, List.mem_cons, ih]
      exact or_left_comm

theorem mem_iff_countOf [DecidableEq κ] {entries : List (κ × UInt64)}
    (hnodup : (entries.map Prod.fst).Nodup) (key : κ) (n : UInt64) :
    (key, n) ∈ entries ↔ key ∈ entries.map Prod.fst ∧ n = countOf key entries := by
  induction entries with
  | nil => simp
  | cons e rest ih =>
    obtain ⟨k, m⟩ := e
    obtain ⟨hk, hrest⟩ := List.nodup_cons.1 hnodup
    rw [countOf_cons, List.mem_cons, ih hrest, List.map_cons, List.mem_cons]
    by_cases hkey : key = k
    · subst hkey
      simp [hk]
    · simp [hkey]

theorem Counter.count_of_mem [Std.TransOrd κ] [DecidableEq κ] {c : Counter κ} {e : κ × UInt64}
    (h : e ∈ c.counts) : c.count e.1 = e.2 :=
  ((mem_iff_countOf c.ascending.nodup_keys e.1 e.2).1 h).2.symm

end Entries

namespace Counter

section Tally
variable {κ : Type} [Ord κ] [Std.TransOrd κ] [Std.LawfulEqOrd κ]

/-- A new counter after increments by these keys. -/
def tally (keys : List κ) : Counter κ := keys.foldl increment empty

theorem tally_snoc (keys : List κ) (key : κ) :
    tally (keys ++ [key]) = (tally keys).increment key := by
  simp [tally]

theorem total_tally (keys : List κ) : (tally keys).total = UInt64.ofNat keys.length := by
  induction keys using List.reverseRecOn with
  | nil => rfl
  | append_singleton keys key ih =>
    rw [tally_snoc, ofNat_length_append, ← ih]
    rfl

theorem mem_keys_tally (keys : List κ) (key : κ) :
    key ∈ (tally keys).counts.map Prod.fst ↔ key ∈ keys := by
  induction keys using List.reverseRecOn with
  | nil => exact Iff.rfl
  | append_singleton keys last ih =>
    rw [tally_snoc, List.mem_append, ← ih, List.mem_singleton, or_comm]
    exact mem_keys_setEntry last key _ _

variable [DecidableEq κ]

theorem count_tally (keys : List κ) (key : κ) :
    (tally keys).count key = UInt64.ofNat (keys.count key) := by
  induction keys using List.reverseRecOn with
  | nil => rfl
  | append_singleton keys last ih =>
    rw [tally_snoc, count_increment, ih, List.count_eq_countP, List.count_eq_countP,
      ofNat_countP_append]
    simp only [beq_iff_eq]

theorem tallies_tally (keys : List κ) : Tallies keys (tally keys).counts := by
  refine ⟨(tally keys).ascending.nodup_keys, fun key n => ?_⟩
  rw [mem_iff_countOf (tally keys).ascending.nodup_keys, mem_keys_tally]
  exact and_congr_right fun _ => by rw [← count_tally]; rfl

/-- The entries of a counter are those of a table, whatever their order there. -/
theorem tabulates_iff_perm {keys : List κ} {entries : List (κ × UInt64)} :
    Tabulates keys entries ↔ entries.Perm (tally keys).counts := by
  rw [tabulates_iff]
  exact ⟨fun h => (tallies_tally keys).perm h (.refl _), (tallies_tally keys).of_perm⟩

/-- The order of increments leaves no trace. -/
theorem tally_of_perm {keys others : List κ} (h : others.Perm keys) : tally others = tally keys := by
  refine eq_of_perm ((tallies_tally keys).perm (tallies_tally others) h) ?_
  rw [total_tally, total_tally, h.length_eq]

theorem keys_tally_perm (keys : List κ) : ((tally keys).counts.map Prod.fst).Perm keys.dedup := by
  refine (List.perm_ext_iff_of_nodup (tallies_tally keys).nodup (List.nodup_dedup keys)).2 ?_
  intro key
  rw [mem_keys_tally, List.mem_dedup]

/-- Below 2^64 increments every count is the number of occurrences. -/
theorem toNat_count_tally {keys : List κ} (h : keys.length < UInt64.size) (key : κ) :
    ((tally keys).count key).toNat = keys.count key := by
  rw [count_tally, UInt64.toNat_ofNat_of_lt' (Nat.lt_of_le_of_lt List.count_le_length h)]

theorem sum_counts_tally {keys : List κ} (h : keys.length < UInt64.size) :
    ((tally keys).counts.map fun e => e.2.toNat).sum = keys.length := by
  have hcounts : (tally keys).counts.map (fun e => e.2.toNat) =
      ((tally keys).counts.map Prod.fst).map fun key => keys.count key := by
    rw [List.map_map]
    refine List.map_congr_left fun e he => ?_
    rw [Function.comp_apply, ← toNat_count_tally h, count_of_mem he]
  rw [hcounts, ((keys_tally_perm keys).map _).sum_eq]
  exact List.sum_map_count_dedup_eq_length keys

end Tally

/-! ## The order of a ranking -/

section Order
variable {κ : Type} [Ord κ]

theorem rankedBefore_iff (a b : κ × UInt64) :
    rankedBefore a b = true ↔ b.2 < a.2 ∨ a.2 = b.2 ∧ (compare a.1 b.1).isLE = true := by
  simp [rankedBefore]

variable [Std.TransOrd κ]

theorem rankedBefore_trans (a b c : κ × UInt64) (hab : rankedBefore a b = true)
    (hbc : rankedBefore b c = true) : rankedBefore a c = true := by
  rw [rankedBefore_iff] at *
  rcases hab with hab | ⟨hab, habkey⟩ <;> rcases hbc with hbc | ⟨hbc, hbckey⟩
  · exact .inl (UInt64.lt_trans hbc hab)
  · exact .inl (hbc ▸ hab)
  · exact .inl (hab ▸ hbc)
  · exact .inr ⟨hab.trans hbc, Std.TransCmp.isLE_trans habkey hbckey⟩

theorem rankedBefore_total (a b : κ × UInt64) : (rankedBefore a b || rankedBefore b a) = true := by
  rw [Bool.or_eq_true, rankedBefore_iff, rankedBefore_iff]
  rcases Nat.lt_trichotomy a.2.toNat b.2.toNat with hlt | heq | hlt
  · exact .inr (.inl (UInt64.lt_iff_toNat_lt.2 hlt))
  · have heq := UInt64.toNat_inj.1 heq
    cases hkeys : compare a.1 b.1 with
    | lt | eq => exact .inl (.inr ⟨heq, rfl⟩)
    | gt =>
      have hback : compare b.1 a.1 = .lt := Std.OrientedCmp.gt_iff_lt.1 hkeys
      exact .inr (.inr ⟨heq.symm, by rw [hback]; rfl⟩)
  · exact .inl (.inl (UInt64.lt_iff_toNat_lt.2 hlt))

theorem rankedBefore_antisymm [Std.LawfulEqOrd κ] {a b : κ × UInt64}
    (hab : rankedBefore a b = true) (hba : rankedBefore b a = true) : a = b := by
  rw [rankedBefore_iff] at *
  rcases hab with hab | ⟨hab, habkey⟩ <;> rcases hba with hba | ⟨hba, hbakey⟩
  · exact absurd hba (UInt64.lt_asymm hab)
  · exact absurd (hba ▸ hab) (UInt64.lt_irrefl _)
  · exact absurd (hab ▸ hba) (UInt64.lt_irrefl _)
  · have hkeys : compare a.1 b.1 = .eq := Std.OrientedCmp.isLE_antisymm habkey hbakey
    exact Prod.ext (Std.LawfulEqOrd.eq_of_compare hkeys) hab

theorem pairwise_ranking (c : Counter κ) : c.ranking.Pairwise fun a b => rankedBefore a b = true :=
  List.pairwise_mergeSort rankedBefore_trans rankedBefore_total _

/-- However the entries are sorted, the ranking comes out. -/
theorem eq_ranking [Std.LawfulEqOrd κ] {c : Counter κ} {sorted : List (κ × UInt64)}
    (hperm : sorted.Perm c.counts)
    (hsorted : sorted.Pairwise fun a b => rankedBefore a b = true) : sorted = c.ranking :=
  (hperm.trans c.ranking_perm.symm).eq_of_pairwise (fun _ _ _ _ => rankedBefore_antisymm) hsorted
    c.pairwise_ranking

/-- What a ranking tells of an entry. -/
def item [CounterKey κ] (c : Counter κ) (e : κ × UInt64) : RankedItem :=
  ⟨CounterKey.text e.1, e.2, percentage e.2 c.total⟩

theorem top_eq_leaders [Std.LawfulEqOrd κ] [DecidableEq κ] [CounterKey κ] (c : Counter κ)
    (limit : Nat) :
    c.top limit = ((c.ranking.take limit).map Prod.fst).map fun key => c.item (key, c.count key) := by
  rw [List.map_map]
  refine List.map_congr_left fun e he => ?_
  have hmem : e ∈ c.counts := c.ranking_perm.mem_iff.1 (List.mem_of_mem_take he)
  rw [Function.comp_apply, count_of_mem hmem]
  rfl

end Order

end Counter

/-! ## The keys of a ranking -/

section Leaders
variable {κ : Type} [Ord κ] [KeyOrder κ]

namespace Counter

/-- A key comes before another by its count, and by the order of keys where the counts are the
same. -/
def RanksBefore (c : Counter κ) (a b : κ) : Prop :=
  c.count b < c.count a ∨ c.count a = c.count b ∧ KeyOrder.Precedes a b

/-- The keys that come first in a counter, up to a limit. -/
structure Leaders (c : Counter κ) (limit : Nat) (leaders : List κ) : Prop where
  length : leaders.length = min limit c.size
  counted : ∀ key ∈ leaders, key ∈ c.counts.map Prod.fst
  ordered : leaders.Pairwise c.RanksBefore
  others : ∀ key ∈ c.counts.map Prod.fst, key ∉ leaders → ∀ leader ∈ leaders,
    c.RanksBefore leader key

variable [Std.TransOrd κ] [Std.LawfulEqOrd κ] [DecidableEq κ]

theorem ranksBefore_of_rankedBefore {c : Counter κ} {a b : κ × UInt64} (ha : a ∈ c.counts)
    (hb : b ∈ c.counts) (hbefore : rankedBefore a b = true) (hne : a.1 ≠ b.1) :
    c.RanksBefore a.1 b.1 := by
  rw [rankedBefore_iff, ← count_of_mem ha, ← count_of_mem hb] at hbefore
  refine hbefore.imp id fun ⟨hcount, hkeys⟩ => ⟨hcount, ?_⟩
  rw [← KeyOrder.compare_eq_lt_iff]
  cases hcompare : compare a.1 b.1 with
  | lt => rfl
  | eq => exact absurd (Std.LawfulEqOrd.eq_of_compare hcompare) hne
  | gt => rw [hcompare] at hkeys; cases hkeys

theorem pairwise_ranksBefore (c : Counter κ) :
    (c.ranking.map Prod.fst).Pairwise c.RanksBefore := by
  refine List.pairwise_map.2 ?_
  refine (c.pairwise_ranking.and (List.pairwise_map.1 c.nodup_ranking)).imp_of_mem ?_
  rintro a b ha hb ⟨hbefore, hne⟩
  exact ranksBefore_of_rankedBefore (c.ranking_perm.mem_iff.1 ha) (c.ranking_perm.mem_iff.1 hb)
    hbefore hne

/-- The ranking begins with the leaders. -/
theorem leaders_take (c : Counter κ) (limit : Nat) :
    c.Leaders limit ((c.ranking.take limit).map Prod.fst) := by
  have hperm : (c.ranking.map Prod.fst).Perm (c.counts.map Prod.fst) := c.ranking_perm.map _
  have hpairwise := c.pairwise_ranksBefore
  rw [List.map_take]
  refine ⟨?_, fun key hkey => hperm.mem_iff.1 (List.mem_of_mem_take hkey),
    hpairwise.sublist (List.take_sublist _ _), ?_⟩
  · rw [List.length_take, hperm.length_eq, List.length_map, size]
  · intro key hkey hout leader hleader
    rw [← hperm.mem_iff, ← List.take_append_drop limit (List.map _ _), List.mem_append] at hkey
    rw [← List.take_append_drop limit (List.map _ _)] at hpairwise
    exact (List.pairwise_append.1 hpairwise).2.2 leader hleader key (hkey.resolve_left hout)

end Counter

variable [DecidableEq κ] {keys : List κ}

/-- A key comes before another by its occurrences, and by the order of keys where they are as
many. -/
def Outranks (keys : List κ) (a b : κ) : Prop :=
  keys.count b < keys.count a ∨ keys.count a = keys.count b ∧ KeyOrder.Precedes a b

/-- The first keys of a ranking, up to a limit. -/
structure Leads (keys : List κ) (limit : Nat) (leaders : List κ) : Prop where
  length : leaders.length = min limit keys.dedup.length
  counted : ∀ key ∈ leaders, key ∈ keys
  ordered : leaders.Pairwise (Outranks keys)
  others : ∀ key ∈ keys, key ∉ leaders → ∀ leader ∈ leaders, Outranks keys leader key

variable [Std.TransOrd κ] [Std.LawfulEqOrd κ]

theorem ranksBefore_tally_iff (h : keys.length < UInt64.size) (a b : κ) :
    (Counter.tally keys).RanksBefore a b ↔ Outranks keys a b := by
  rw [Counter.RanksBefore, UInt64.lt_iff_toNat_lt, ← UInt64.toNat_inj, Counter.toNat_count_tally h,
    Counter.toNat_count_tally h, Outranks]

theorem leads_take (h : keys.length < UInt64.size) (limit : Nat) :
    Leads keys limit (((Counter.tally keys).ranking.take limit).map Prod.fst) := by
  obtain ⟨hlength, hcounted, hordered, hothers⟩ := (Counter.tally keys).leaders_take limit
  simp only [Counter.mem_keys_tally, ranksBefore_tally_iff h] at hcounted hothers
  refine ⟨?_, hcounted, hordered.imp fun hab => (ranksBefore_tally_iff h _ _).1 hab, hothers⟩
  rw [hlength, ← (Counter.keys_tally_perm keys).length_eq, List.length_map, Counter.size]

/-- What is counted and ranked below 2^64 increments: the total, the counts, the room for each
increment, the first items of a ranking and those of a longer one. Neither the order of the
increments nor that of the entries has a part in it. -/
theorem tally_ranks [CounterKey κ] (keys : List κ) (h : keys.length < UInt64.size) (limit : Nat) :
    ((Counter.tally keys).total.toNat = keys.length ∧
      ((Counter.tally keys).counts.map fun e => e.2.toNat).sum = keys.length ∧
      ∀ key, ((Counter.tally keys).count key).toNat = keys.count key) ∧
    (∀ before key after, keys = before ++ key :: after →
      (Counter.tally before).total.toNat + 1 < UInt64.size ∧
      ((Counter.tally before).count key).toNat + 1 < UInt64.size) ∧
    (∃ leaders, Leads keys limit leaders ∧
      (Counter.tally keys).top limit = leaders.map fun key =>
        (Counter.tally keys).item (key, (Counter.tally keys).count key)) ∧
    (∀ more, limit ≤ more → (Counter.tally keys).top limit <+: (Counter.tally keys).top more) ∧
    (∀ others : List κ, others.Perm keys → Counter.tally others = Counter.tally keys) ∧
    (∀ entries, Tabulates keys entries ↔ entries.Perm (Counter.tally keys).counts) ∧
    ∀ entries sorted : List (κ × UInt64), Tabulates keys entries → sorted.Perm entries →
      sorted.Pairwise (fun a b => Counter.rankedBefore a b = true) →
      (sorted.take limit).map (Counter.tally keys).item = (Counter.tally keys).top limit := by
  refine ⟨⟨?_, Counter.sum_counts_tally h, Counter.toNat_count_tally h⟩, ?_,
    ⟨_, leads_take h limit, (Counter.tally keys).top_eq_leaders limit⟩,
    fun _ => Counter.top_prefix _, fun _ => Counter.tally_of_perm,
    fun _ => Counter.tabulates_iff_perm, ?_⟩
  · rw [Counter.total_tally, UInt64.toNat_ofNat_of_lt' h]
  · rintro before key after rfl
    rw [List.length_append, List.length_cons] at h
    have hbefore : before.length < UInt64.size := by omega
    have hcount : before.count key ≤ before.length := List.count_le_length
    rw [Counter.total_tally, UInt64.toNat_ofNat_of_lt' hbefore, Counter.toNat_count_tally hbefore]
    omega
  · intro entries sorted htable hentries hsorted
    rw [Counter.eq_ranking (hentries.trans (Counter.tabulates_iff_perm.1 htable)) hsorted]
    rfl

/-- Texts, codes and instants as keys. -/
theorem tally_ranks_ties :
    (["b", "a", "c", "c"].length < UInt64.size ∧
      ∃ leaders, Leads ["b", "a", "c", "c"] 2 leaders ∧
        (Counter.tally ["b", "a", "c", "c"]).top 2 = leaders.map fun key =>
          (Counter.tally ["b", "a", "c", "c"]).item
            (key, (Counter.tally ["b", "a", "c", "c"]).count key)) ∧
    (Counter.tally [500, 200, (404 : UInt16)]).total.toNat = 3 ∧
    (Counter.tally [-1, (7 : Int64)]).total.toNat = 2 :=
  ⟨⟨by decide, (tally_ranks ["b", "a", "c", "c"] (by decide) 2).2.2.1⟩,
    (tally_ranks [500, 200, (404 : UInt16)] (by decide) 0).1.1,
    (tally_ranks [-1, (7 : Int64)] (by decide) 0).1.1⟩

end Leaders

end AccessLog.Stats

/-! ## Ranked addresses -/

namespace AccessLog.Service
open AccessLog.Stats

theorem rankedAddresses_eq (a : Analysis) (limit : UInt64) :
    rankedAddresses a limit = (a.addresses.ranking.take limit.toNat).map Prod.fst := by
  rw [rankedAddresses, Counter.top, List.map_map]
  rfl

theorem rankedAddresses_congr {a b : Analysis} (h : a.addresses = b.addresses) (limit : UInt64) :
    rankedAddresses a limit = rankedAddresses b limit := by
  rw [rankedAddresses, h, rankedAddresses]

theorem length_rankedAddresses_le (a : Analysis) (limit : UInt64) :
    (rankedAddresses a limit).length ≤ limit.toNat := by
  rw [rankedAddresses_eq, List.length_map]
  exact List.length_take_le _ _

theorem rankedAddresses_mono (a : Analysis) {limit more : UInt64} (h : limit ≤ more) :
    rankedAddresses a limit <+: rankedAddresses a more :=
  (a.addresses.top_prefix (UInt64.le_iff_toNat_le.1 h)).map _

theorem nodup_rankedAddresses (a : Analysis) (limit : UInt64) :
    (rankedAddresses a limit).Nodup := by
  rw [rankedAddresses_eq, List.map_take]
  exact a.addresses.nodup_ranking.sublist (List.take_sublist _ _)

theorem leaders_rankedAddresses (a : Analysis) (limit : UInt64) :
    a.addresses.Leaders limit.toNat (rankedAddresses a limit) := by
  rw [rankedAddresses_eq]
  exact a.addresses.leaders_take limit.toNat

end AccessLog.Service

import AccessLog.Proofs.TimestampGrammar
import AccessLog.Settings.Variables

/-! # Settings that can be used

Whatever the variables of an environment hold, the settings read from them can be used. A setting
that is a number has the value that its variable denotes if that is a positive number of its width,
and its default otherwise, so none of them is zero; the time that cached entries live is cut at a
year; and the policy for further attempts takes over what is set. -/

namespace AccessLog.Text
open AccessLog.Log.Timestamp

/-! ## Trimming -/

theorem exists_trim (cs : List Char) :
    ∃ before after, cs = before ++ trim cs ++ after ∧ Blanks before ∧ Blanks after := by
  obtain ⟨before, hbefore, hblank⟩ := exists_blanks cs
  obtain ⟨after, hafter, hblank'⟩ := exists_blanks (trimStart cs).reverse
  refine ⟨before, after.reverse, ?_, hblank, fun c hc => hblank' c (List.mem_reverse.1 hc)⟩
  have hend : trimStart cs = trim cs ++ after.reverse := by
    rw [trim, trimEnd, ← List.reverse_append]
    exact List.reverse_eq_iff.1 hafter
  rw [List.append_assoc, ← hend]
  exact hbefore

/-- What stands between blanks and is not blank at its ends is all that trimming leaves. -/
theorem trim_between {before cs after : List Char} (hbefore : Blanks before) (hafter : Blanks after)
    (hopens : cs.head?.all (!isBlank ·)) (hcloses : cs.getLast?.all (!isBlank ·)) :
    trim (before ++ cs ++ after) = cs := by
  have hblank : ∀ c ∈ after.reverse, isBlank c = true := fun c hc => hafter c (List.mem_reverse.1 hc)
  cases cs with
  | nil =>
    have hall : trimStart (before ++ after) = [] :=
      (trimStart_eq_nil_iff _).2 (List.all_eq_true.2 fun c hc =>
        (List.mem_append.1 hc).elim (hbefore c) (hafter c))
    rw [List.append_nil, trim, hall]
    rfl
  | cons c rest =>
    have hstart : trimStart (before ++ (c :: rest) ++ after) = c :: rest ++ after := by
      rw [List.append_assoc, trimStart_blanks hbefore]
      exact trimStart_eq_self (by simpa using hopens)
    rw [trim, hstart, trimEnd, List.reverse_append, List.dropWhile_append_of_pos hblank]
    rw [← List.head?_reverse] at hcloses
    exact (congrArg List.reverse (trimStart_eq_self hcloses)).trans (List.reverse_reverse _)

end AccessLog.Text

namespace AccessLog.Settings
open AccessLog.Enrich AccessLog.Log.Timestamp AccessLog.Text AccessLog.Time

/-- The text is a number in digits, perhaps behind a plus, with blanks around it. -/
def Denotes (raw : String) (n : Nat) : Prop :=
  ∃ before cs after, raw.toList = before ++ cs ++ after ∧ Blanks before ∧ Blanks after ∧
    Unsigned cs n

/-- Blanks are neither digits nor signs. -/
theorem nonblank_of_unsigned {cs : List Char} {n : Nat} (h : Unsigned cs n) :
    ∀ c ∈ cs, isBlank c = false := by
  cases h with
  | bare hnumeral => exact fun c hc => isBlank_eq_false_of_isDigit (hnumeral.digits c hc)
  | plus hnumeral =>
    refine List.forall_mem_cons.2 ⟨by decide, ?_⟩
    exact fun c hc => isBlank_eq_false_of_isDigit (hnumeral.digits c hc)

theorem denotes_iff {raw : String} {n : Nat} : Denotes raw n ↔ Unsigned (trim raw.toList) n := by
  constructor
  · rintro ⟨before, cs, after, htext, hbefore, hafter, hnumber⟩
    have hnonblank := nonblank_of_unsigned hnumber
    rw [htext, trim_between hbefore hafter]
    · exact hnumber
    · rw [Option.all_eq_true]
      exact fun c hc => by simp [hnonblank c (List.mem_of_head? hc)]
    · rw [Option.all_eq_true]
      exact fun c hc => by simp [hnonblank c (List.mem_of_getLast? hc)]
  · intro h
    obtain ⟨before, after, htext, hbefore, hafter⟩ := exists_trim raw.toList
    exact ⟨before, _, after, htext, hbefore, hafter, h⟩

theorem positive?_eq_some_iff {bound n : Nat} {raw : String} :
    positive? bound raw = some n ↔ Denotes raw n ∧ 1 ≤ n ∧ n < bound := by
  rw [positive?, Option.filter_eq_some_iff, unsigned?_eq_some_iff, denotes_iff, decide_eq_true_eq]
  exact ⟨fun ⟨⟨hnumber, hless⟩, hpos⟩ => ⟨hnumber, hpos, hless⟩,
    fun ⟨hnumber, hpos, hless⟩ => ⟨⟨hnumber, hless⟩, hpos⟩⟩

/-! ## Figures -/

/-- The settings that are whole numbers. -/
inductive Figure where
  | port
  | maxConnections
  | connectTimeoutMs
  | readTimeoutMs
  | ttlMinutes
  | cacheSize
  | maxAttempts
  | waitMs
  | eagerTopN
  | maxUploadBytes
  deriving DecidableEq

namespace Figure

/-- The variable that sets it. -/
def name : Figure → String
  | port => "SERVER_PORT"
  | maxConnections => "DATABASE_MAX_CONNECTIONS"
  | connectTimeoutMs => "IPINFO_CONNECT_TIMEOUT_MS"
  | readTimeoutMs => "IPINFO_READ_TIMEOUT_MS"
  | ttlMinutes => "ENRICHMENT_CACHE_TTL_MINUTES"
  | cacheSize => "ENRICHMENT_CACHE_MAX_SIZE"
  | maxAttempts => "ENRICHMENT_RETRY_MAX_ATTEMPTS"
  | waitMs => "ENRICHMENT_RETRY_WAIT_MS"
  | eagerTopN => "ANALYSIS_EAGER_TOP_N"
  | maxUploadBytes => "ANALYSIS_MAX_UPLOAD_BYTES"

/-- The greatest number of its width. -/
def greatest : Figure → Nat
  | port => 65535
  | maxConnections | maxAttempts => 4294967295
  | connectTimeoutMs | readTimeoutMs | ttlMinutes | cacheSize | waitMs | eagerTopN
  | maxUploadBytes => 18446744073709551615

/-- What it is unless it is set. -/
def standard : Figure → Nat
  | port => 8080
  | maxConnections => 5
  | connectTimeoutMs => 2000
  | readTimeoutMs => 3000
  | ttlMinutes => 60
  | cacheSize => 1000
  | maxAttempts => 3
  | waitMs => 500
  | eagerTopN => 10
  | maxUploadBytes => 52428800

/-- The most that it can be set to: the minutes of a year for entries of the cache, and all that its
width allows for anything else. -/
def ceiling : Figure → Nat
  | ttlMinutes => 365 * 24 * 60
  | f => f.greatest

def value (s : Settings) : Figure → Nat
  | port => s.server.port.toNat
  | maxConnections => s.store.maxConnections.toNat
  | connectTimeoutMs => s.lookup.connectTimeoutMs.toNat
  | readTimeoutMs => s.lookup.readTimeoutMs.toNat
  | ttlMinutes => s.cache.ttlMinutes.toNat
  | cacheSize => s.cache.maxSize.toNat
  | maxAttempts => s.retry.maxAttempts.toNat
  | waitMs => s.retry.waitMs.toNat
  | eagerTopN => s.analysis.eagerTopN.toNat
  | maxUploadBytes => s.analysis.maxUploadBytes.toNat

/-- What a figure is when its variable holds the text `given`, or is missing. -/
inductive Reads (f : Figure) (given : Option String) : Nat → Prop
  | told {raw : String} {n : Nat} : given = some raw → Denotes raw n → 1 ≤ n → n ≤ f.greatest →
      Reads f given (min n f.ceiling)
  | untold : (∀ raw n, given = some raw → Denotes raw n → ¬ (1 ≤ n ∧ n ≤ f.greatest)) →
      Reads f given f.standard

/-- Every default can be used. -/
theorem standard_range (f : Figure) : 1 ≤ f.standard ∧ f.standard ≤ f.ceiling := by
  cases f <;> decide

theorem ceiling_range (f : Figure) : 1 ≤ f.ceiling ∧ f.ceiling ≤ f.greatest := by
  cases f <;> decide

theorem Reads.positive {f : Figure} {given : Option String} {n : Nat} (h : f.Reads given n) :
    1 ≤ n := by
  cases h with
  | told _ _ hpos _ => exact Nat.le_min.2 ⟨hpos, f.ceiling_range.1⟩
  | untold _ => exact f.standard_range.1

theorem Reads.le_ceiling {f : Figure} {given : Option String} {n : Nat} (h : f.Reads given n) :
    n ≤ f.ceiling := by
  cases h with
  | told => exact Nat.min_le_right _ _
  | untold _ => exact f.standard_range.2

/-- The number of the variable as it is read, before it is cut at the ceiling. -/
theorem reads_positive (f : Figure) (vars : Variables) :
    f.Reads (vars f.name)
      (min (Settings.positive vars f.name (f.greatest + 1) f.standard) f.ceiling) := by
  cases hread : (vars f.name).bind (positive? (f.greatest + 1)) with
  | none =>
    rw [Settings.positive, hread, Option.getD_none, Nat.min_eq_left f.standard_range.2]
    refine .untold fun raw n hgiven hdenotes ⟨hpos, hmost⟩ => ?_
    have hsome : positive? (f.greatest + 1) raw = some n :=
      positive?_eq_some_iff.2 ⟨hdenotes, hpos, Nat.lt_succ_of_le hmost⟩
    rw [hgiven, Option.bind_some, hsome] at hread
    cases hread
  | some n =>
    rw [Settings.positive, hread, Option.getD_some]
    obtain ⟨raw, hgiven, hsome⟩ := Option.bind_eq_some_iff.1 hread
    obtain ⟨hdenotes, hpos, hless⟩ := positive?_eq_some_iff.1 hsome
    exact .told hgiven hdenotes hpos (Nat.le_of_lt_succ hless)

end Figure

/-! ## Settings from variables -/

theorem positive_lt {vars : Variables} {name : String} {bound default : Nat} (h : default < bound) :
    positive vars name bound default < bound := by
  cases hread : (vars name).bind (positive? bound) with
  | none => rwa [positive, hread, Option.getD_none]
  | some n =>
    obtain ⟨raw, -, hsome⟩ := Option.bind_eq_some_iff.1 hread
    rw [positive, hread, Option.getD_some]
    exact (positive?_eq_some_iff.1 hsome).2.2

section Widths
variable (vars : Variables) (name : String) {default : Nat}

theorem toNat_positive16 (h : default < UInt16.size) :
    (positive16 vars name default).toNat = positive vars name UInt16.size default :=
  UInt16.toNat_ofNat_of_lt' (positive_lt h)

theorem toNat_positive32 (h : default < UInt32.size) :
    (positive32 vars name default).toNat = positive vars name UInt32.size default :=
  UInt32.toNat_ofNat_of_lt' (positive_lt h)

theorem toNat_positive64 (h : default < UInt64.size) :
    (positive64 vars name default).toNat = positive vars name UInt64.size default :=
  UInt64.toNat_ofNat_of_lt' (positive_lt h)

end Widths

/-- A number that fits its width is left alone by a ceiling as high as the width. -/
theorem min_greatest (vars : Variables) (f : Figure) :
    min (positive vars f.name (f.greatest + 1) f.standard) f.greatest =
      positive vars f.name (f.greatest + 1) f.standard := by
  have hstandard : f.standard < f.greatest + 1 :=
    Nat.lt_succ_of_le (Nat.le_trans f.standard_range.2 f.ceiling_range.2)
  exact Nat.min_eq_left (Nat.le_of_lt_succ (positive_lt hstandard))

theorem toNat_min (a b : UInt64) : (min a b).toNat = min a.toNat b.toNat := by
  show (if a ≤ b then a else b).toNat = _
  by_cases h : a ≤ b
  · rw [if_pos h, Nat.min_eq_left (UInt64.le_iff_toNat_le.1 h)]
  · rw [if_neg h, Nat.min_eq_right (Nat.le_of_lt (UInt64.lt_iff_toNat_lt.1 (UInt64.not_le.1 h)))]

theorem value_ofVariables (vars : Variables) (f : Figure) :
    f.value (ofVariables vars) =
      min (positive vars f.name (f.greatest + 1) f.standard) f.ceiling := by
  have hfits := min_greatest vars f
  cases f with
  | port => exact (toNat_positive16 vars _ (by decide)).trans hfits.symm
  | maxConnections | maxAttempts =>
    exact (toNat_positive32 vars _ (by decide)).trans hfits.symm
  | connectTimeoutMs | readTimeoutMs | cacheSize | waitMs | eagerTopN | maxUploadBytes =>
    exact (toNat_positive64 vars _ (by decide)).trans hfits.symm
  | ttlMinutes =>
    show (min (positive64 vars _ 60) maxTtlMinutes).toNat = _
    rw [toNat_min, toNat_positive64 vars _ (by decide)]
    rfl

theorem reads_ofVariables (vars : Variables) (f : Figure) :
    f.Reads (vars f.name) (f.value (ofVariables vars)) := by
  rw [value_ofVariables]
  exact f.reads_positive vars

/-! ## What the settings are used for -/

/-- The time that entries live is what is set, when that is no more than a year. -/
theorem ttl_eq {c : CacheSettings} (h : c.ttlMinutes.toNat ≤ 365 * 24 * 60) :
    c.ttl = .ofSeconds (c.ttlMinutes.toNat * 60) := by
  have hyear : maxTtlMinutes.toNat = 365 * 24 * 60 := by decide
  rw [CacheSettings.ttl, hyear, Nat.min_eq_left h]

/-- Attempts are taken over when there is one at least. -/
theorem maxAttempts_policy {r : RetrySettings} (h : 1 ≤ r.maxAttempts.toNat) :
    r.policy.maxAttempts = r.maxAttempts := by
  show (if r.maxAttempts ≤ 1 then 1 else r.maxAttempts) = r.maxAttempts
  split
  · rename_i hone
    exact (UInt32.toNat_inj.1 (Nat.le_antisymm (UInt32.le_iff_toNat_le.1 hone) h)).symm
  · rfl

theorem ttlMinutes_range (vars : Variables) :
    1 ≤ (ofVariables vars).cache.ttlMinutes.toNat ∧
      (ofVariables vars).cache.ttlMinutes.toNat ≤ 365 * 24 * 60 :=
  ⟨(reads_ofVariables vars .ttlMinutes).positive, (reads_ofVariables vars .ttlMinutes).le_ceiling⟩

/-- The cache that the settings ask for can be set up, and entries live in it for some time. -/
theorem cache_of?_ofVariables (vars : Variables) :
    Cache.of? (ofVariables vars).cache.maxSize (ofVariables vars).cache.ttl =
      some (ofVariables vars).cache.cache ∧ (ofVariables vars).cache.ttl.nanos ≠ 0 := by
  obtain ⟨hpos, hyear⟩ := ttlMinutes_range vars
  have hnanos : (ofVariables vars).cache.ttl.nanos =
      (ofVariables vars).cache.ttlMinutes.toNat * 60 * 1000000000 :=
    congrArg Duration.nanos (ttl_eq hyear)
  have hmost : Cache.maxTtl.nanos = 1000 * 365 * 24 * 3600 * 1000000000 := rfl
  exact ⟨if_pos (by omega), by omega⟩

/-- Every environment gives settings that can be used. A figure is what its variable denotes, a
positive number of its width with blanks around it, or else its default; entries of the cache live
exactly as long as the figure says, which is a year at most and does not overflow; no figure is
zero; and further attempts are made as often and after the wait that the figures say. -/
theorem settings_usable (vars : Variables) :
    (∀ f : Figure, f.Reads (vars f.name) (f.value (ofVariables vars))) ∧
    ((ofVariables vars).cache.ttlMinutes.toNat * 60 < UInt64.size ∧
      (ofVariables vars).cache.ttl =
        .ofSeconds ((ofVariables vars).cache.ttlMinutes.toNat * 60) ∧
      (ofVariables vars).cache.ttl.nanos ≤ (Duration.ofSeconds (365 * 24 * 60 * 60)).nanos) ∧
    (∀ f : Figure, 1 ≤ f.value (ofVariables vars)) ∧
    (ofVariables vars).retry.policy.maxAttempts = (ofVariables vars).retry.maxAttempts ∧
    (ofVariables vars).retry.policy.baseWait =
      .ofMillis (ofVariables vars).retry.waitMs.toNat := by
  obtain ⟨-, hyear⟩ := ttlMinutes_range vars
  have hattempts : 1 ≤ (ofVariables vars).retry.maxAttempts.toNat :=
    (reads_ofVariables vars .maxAttempts).positive
  have hsize : UInt64.size = 18446744073709551616 := rfl
  refine ⟨reads_ofVariables vars, ⟨by omega, ttl_eq hyear, ?_⟩,
    fun f => (reads_ofVariables vars f).positive, maxAttempts_policy hattempts, rfl⟩
  rw [ttl_eq hyear]
  exact Nat.mul_le_mul_right _ (Nat.mul_le_mul_right 60 hyear)

end AccessLog.Settings

import AccessLog.Net.Url

/-! # The laws of web addresses that are read

Web addresses as they are read here keep to what is relied on for any library of them: those of the
web have an authority and a path, the written form puts the parts together, a plain segment joins a
path as it is, and a user who goes leaves the rest alone. -/

namespace AccessLog.Net

theorem samePlace_refl {U : Type} [WebAddress U] (u : U) : SamePlace u u := ⟨rfl, rfl, rfl, rfl, rfl⟩

theorem SamePlace.trans {U : Type} [WebAddress U] {u v w : U} (h : SamePlace u v)
    (h' : SamePlace v w) : SamePlace u w where
  scheme := h'.scheme.trans h.scheme
  host := h'.host.trans h.host
  port := h'.port.trans h.port
  query := h'.query.trans h.query
  fragment := h'.fragment.trans h.fragment

namespace Url

/-! ## Parts -/

theorem parts_of_withAuthority? {scheme : String} {cs : List Char} {u : Url}
    (h : withAuthority? scheme cs = some u) :
    u.authority.isSome = true ∧ ∃ parts, u.path = .segments parts := by
  simp only [withAuthority?, ↓Option.bind_eq_bind, ↓Option.bind_eq_some_iff, Option.some.injEq] at h
  obtain ⟨authority, -, rfl⟩ := h
  exact ⟨rfl, _, rfl⟩

theorem parts_of_file? {cs : List Char} {u : Url} (h : file? cs = some u) :
    u.authority.isSome = true ∧ ∃ parts, u.path = .segments parts := by
  simp only [file?, ↓Option.bind_eq_bind, ↓Option.bind_eq_some_iff, Option.some.injEq] at h
  obtain ⟨authority, -, rfl⟩ := h
  exact ⟨rfl, _, rfl⟩

/-- A web address whose scheme needs a host has one, and a path of segments. -/
theorem parts_of_needsHost {s : String} {u : Url} (h : parse? s = some u)
    (hscheme : needsHost u.scheme = true) :
    u.authority.isSome = true ∧ ∃ parts, u.path = .segments parts := by
  simp only [parse?, ↓Option.bind_eq_bind, ↓Option.bind_eq_some_iff, Prod.exists] at h
  obtain ⟨scheme, rest, -, h⟩ := h
  split at h
  · exact parts_of_file? h
  · split at h
    · exact parts_of_withAuthority? h
    · rename_i hfree
      split at h
      · exact parts_of_withAuthority? h
      · cases h
        exact absurd hscheme hfree

theorem segments?_eq_some {u : Url} {parts : List String} :
    u.segments? = some parts ↔ u.path = .segments parts := by
  unfold segments?
  cases u.path <;> simp

/-! ## Plain segments -/

theorem percentEncode_eq_self {set : Char → Bool} {cs : List Char} (h : ∀ c ∈ cs, set c = false) :
    percentEncode set cs = cs := by
  induction cs with
  | nil => rfl
  | cons c cs ih =>
    rw [List.forall_mem_cons] at h
    rw [percentEncode, List.flatMap_cons, h.1]
    exact congrArg (c :: ·) (ih h.2)

theorem toNat_lt_of_isPlain {c : Char} (h : isPlain c = true) : c.toNat < 128 := by
  rw [isPlain, Bool.or_eq_true] at h
  rcases h with h | h
  · delta Char.isAlphanum Char.isAlpha Char.isUpper Char.isLower Char.isDigit at h
    simp only [Bool.or_eq_true, Bool.and_eq_true, decide_eq_true_eq, ge_iff_le,
      UInt32.le_iff_toNat_le] at h
    have hvalue : c.val.toNat = c.toNat := rfl
    rcases h with (⟨-, h⟩ | ⟨-, h⟩) | ⟨-, h⟩
    · exact Nat.lt_of_le_of_lt h (by decide)
    · exact Nat.lt_of_le_of_lt h (by decide)
    · exact Nat.lt_of_le_of_lt h (by decide)
  · have hall : ("-._~!$&'()*+,;=:@".toList.all fun d => decide (d.toNat < 128)) = true := by decide
    exact of_decide_eq_true (List.all_eq_true.1 hall c (List.contains_iff_mem.1 h))

/-- Plain characters are neither encoded in a segment nor passed over. -/
theorem kept_of_isPlain {c : Char} (h : isPlain c = true) (special : Bool) :
    inSegment special c = false ∧ isIgnored c = false := by
  have hall : ∀ n < 128, isPlain (Char.ofNat n) = true →
      ∀ special, inSegment special (Char.ofNat n) = false ∧ isIgnored (Char.ofNat n) = false := by
    decide +kernel
  have hc := hall c.toNat (toNat_lt_of_isPlain h)
  rw [Char.ofNat_toNat] at hc
  exact hc h special

theorem segmentText_eq_self {segment : String} (h : ∀ c ∈ segment.toList, isPlain c = true)
    (special : Bool) : segmentText special segment = segment := by
  have hkept : (segment.toList.filter fun c => !isIgnored c) = segment.toList :=
    List.filter_eq_self.2 fun c hc => by simp [(kept_of_isPlain (h c hc) special).2]
  rw [segmentText, hkept, percentEncode_eq_self fun c hc => (kept_of_isPlain (h c hc) special).1,
    String.ofList_toList]

instance : LawfulWebAddress Url where
  parts_of_parse? {text u} read web := by
    have hneeds : needsHost u.scheme = true := by
      rcases web with hscheme | hscheme
      · exact (congrArg needsHost hscheme).trans (by decide)
      · exact (congrArg needsHost hscheme).trans (by decide)
    obtain ⟨hauthority, parts, hpath⟩ := parts_of_needsHost read hneeds
    obtain ⟨authority, hauthority⟩ := Option.isSome_iff_exists.1 hauthority
    exact ⟨⟨authority.render, congrArg (Option.map Authority.render) hauthority⟩, parts,
      segments?_eq_some.2 hpath⟩
  render_eq {u written parts} place path := by
    obtain ⟨authority, hauthority, rfl⟩ := Option.map_eq_some_iff.1 place
    have hplain : renderPath (some authority) (.segments parts) = renderSegments parts := by
      simp [renderPath]
    have hmarks : "://" = ":" ++ "//" := by decide
    show render u = u.scheme ++ "://" ++ authority.render ++ renderSegments parts ++
      marked "?" u.query ++ marked "#" u.fragment
    rw [render, hauthority, segments?_eq_some.1 path, hplain, Option.map_some, marked, hmarks]
    simp only [String.append_assoc]
  segments?_popIfEmpty {u parts} path := by
    refine segments?_eq_some.2 ?_
    show popIfEmpty u.path = _
    rw [segments?_eq_some.1 path, popIfEmpty]
  segments?_push {u parts segment} path plain own upper := by
    refine segments?_eq_some.2 ?_
    show push _ segment u.path = _
    rw [segments?_eq_some.1 path, push, if_neg (not_or.2 ⟨own, upper⟩), segmentText_eq_self plain]
  samePlace_popIfEmpty u := ⟨rfl, rfl, rfl, rfl, rfl⟩
  samePlace_push u segment := ⟨rfl, rfl, rfl, rfl, rfl⟩
  authority?_popIfEmpty u := rfl
  authority?_push u segment := rfl

instance : LawfulHttpClient Url where
  samePlace_withoutUser u := by
    have hsame (a : Authority) : a.withoutUser.host = a.host ∧ a.withoutUser.port = a.port := by
      unfold Authority.withoutUser
      split <;> exact ⟨rfl, rfl⟩
    obtain ⟨scheme, authority, path, query, fragment⟩ := u
    cases authority with
    | none => exact samePlace_refl _
    | some a =>
      exact ⟨rfl, congrArg some (hsame a).1, (hsame a).2, rfl, rfl⟩
  segments?_withoutUser u := rfl
  authority?_withoutUser {u written} place := by
    obtain ⟨authority, hauthority, -⟩ := Option.map_eq_some_iff.1 place
    refine ⟨authority.withoutUser.render, ?_⟩
    show ((u.authority.map Authority.withoutUser).map Authority.render) = _
    rw [hauthority]
    rfl
  withoutUser_popIfEmpty u := rfl
  withoutUser_push u segment := rfl
  user?_popIfEmpty u := rfl
  user?_push u segment := rfl

end Url

end AccessLog.Net

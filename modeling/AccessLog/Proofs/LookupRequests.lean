import AccessLog.Enrich.InfoService
import AccessLog.Proofs.AddressGrammar
import AccessLog.Proofs.UrlLaws

/-! # What a service is asked for

Text from a log reaches the requests of an info service in one way only: an address becomes the last
segment of the service's own web address, as it is written. No character of an address is encoded
there, ends a segment, or names another level of the path, and no other text is asked for. What the
client refuses to send is not asked for either. -/

namespace AccessLog.Net
open AccessLog.Net.IpAddress

/-- The text of an extended path, up to the slash in front of the added segment. -/
def stem (parts : List String) : String := if parts = [""] then "" else renderSegments parts

theorem renderSegments_extendedBy (parts : List String) (segment : String) :
    renderSegments (extendedBy parts segment) = stem parts ++ "/" ++ segment := by
  unfold extendedBy stem
  split <;> simp [renderSegments, String.append_assoc]

theorem toNat_lt_of_isAddressChar {c : Char} (h : isAddressChar c = true) : c.toNat < 103 := by
  simp only [isAddressChar, isHexDigit, Bool.or_eq_true, Bool.and_eq_true, decide_eq_true_eq,
    beq_iff_eq, Char.le_def, UInt32.le_iff_toNat_le] at h
  rcases h with (((⟨-, h⟩ | ⟨-, h⟩) | ⟨-, h⟩) | rfl) | rfl
  · exact Nat.lt_of_le_of_lt h (by decide)
  · exact Nat.lt_of_le_of_lt h (by decide)
  · exact Nat.lt_of_le_of_lt h (by decide)
  · decide
  · decide

theorem isPlain_of_isAddressChar {c : Char} (h : isAddressChar c = true) : isPlain c = true := by
  have hall : ∀ n < 103, isAddressChar (Char.ofNat n) = true → isPlain (Char.ofNat n) = true := by
    decide
  have hc := hall c.toNat (toNat_lt_of_isAddressChar h)
  rw [Char.ofNat_toNat] at hc
  exact hc h

section Library
variable {U : Type} [WebAddress U] [LawfulWebAddress U] {u : U} {parts : List String}
  {address : String}

/-- An address joins a path as it is written. -/
theorem segments?_push_address (hpath : WebAddress.segments? u = some parts)
    (h : IsAddress address) :
    WebAddress.segments? (WebAddress.push (WebAddress.popIfEmpty u) address) =
      some (extendedBy (withoutClosing parts) address) := by
  have hown : address ≠ "." := by
    rintro rfl
    exact absurd h (by decide)
  have hupper : address ≠ ".." := by
    rintro rfl
    exact absurd h (by decide)
  exact LawfulWebAddress.segments?_push (LawfulWebAddress.segments?_popIfEmpty hpath)
    (fun c hc => isPlain_of_isAddressChar (h.chars c hc)) hown hupper

theorem samePlace_push_popIfEmpty (u : U) (segment : String) :
    SamePlace u (WebAddress.push (WebAddress.popIfEmpty u) segment) :=
  (LawfulWebAddress.samePlace_popIfEmpty u).trans (LawfulWebAddress.samePlace_push _ segment)

/-- Only the address itself differs in the written forms for two addresses. -/
theorem render_push_address {authority : String} (hplace : WebAddress.authority? u = some authority)
    (hpath : WebAddress.segments? u = some parts) :
    ∃ front behind, ∀ address, IsAddress address →
      WebAddress.render (WebAddress.push (WebAddress.popIfEmpty u) address) =
        front ++ address ++ behind := by
  refine ⟨WebAddress.scheme u ++ "://" ++ authority ++ stem (withoutClosing parts) ++ "/",
    marked "?" (WebAddress.query? u) ++ marked "#" (WebAddress.fragment? u),
    fun address h => ?_⟩
  have hsame := samePlace_push_popIfEmpty u address
  have hauthority : WebAddress.authority? (WebAddress.push (WebAddress.popIfEmpty u) address) =
      some authority := by
    rw [LawfulWebAddress.authority?_push, LawfulWebAddress.authority?_popIfEmpty, hplace]
  rw [LawfulWebAddress.render_eq hauthority (segments?_push_address hpath h), hsame.scheme,
    hsame.query, hsame.fragment, renderSegments_extendedBy]
  simp only [String.append_assoc]

end Library

end AccessLog.Net

namespace AccessLog.Enrich.InfoService
open AccessLog.Net AccessLog.Net.IpAddress

section Requests
variable {U : Type} [WebAddress U] [HttpClient U] {s : InfoService U} {address : String}

theorem request?_of_address (h : IsAddress address) : s.request? address =
    some ⟨s.target address, HttpClient.user? (s.lookupUrl address), s.token⟩ := by
  obtain ⟨value, hvalue⟩ := Option.isSome_iff_exists.1 ((isSome_parse?_iff address).2 h)
  rw [request?, hvalue]
  rfl

theorem resolve_of_not_address (exchange : Request U → Exchange) (h : ¬ IsAddress address) :
    s.resolve exchange address = (.error .notFound, none) := by
  have hnone : IpAddress.parse? address = none := by
    rwa [← isSome_parse?_iff, Option.not_isSome_iff_eq_none] at h
  rw [resolve, request?, hnone]
  rfl

variable (htoken : ∀ t ∈ s.token, HttpClient.isHeaderText U t = true)
include htoken

theorem fault?_eq {r : Request U} (hr : r.token = s.token) : r.fault? =
    if HttpClient.accepts r.url then none
    else some ("builder error for url (" ++ WebAddress.render r.url ++ ")") := by
  have hall : r.token.all (HttpClient.isHeaderText U) = true := by
    rw [hr]
    exact (Option.all_eq_true _ _).2 htoken
  rw [Request.fault?, hall]
  rfl

theorem resolve_of_accepted (exchange : Request U → Exchange) (h : IsAddress address)
    (haccepts : HttpClient.accepts (s.target address) = true) :
    s.resolve exchange address =
      let r : Request U := ⟨s.target address, HttpClient.user? (s.lookupUrl address), s.token⟩
      (conclude address r (exchange r), some r) := by
  rw [resolve, request?_of_address h]
  simp only [fault?_eq htoken, haccepts, if_true]

theorem resolve_of_refused (exchange : Request U → Exchange) (h : IsAddress address)
    (hrefuses : HttpClient.accepts (s.target address) = false) :
    s.resolve exchange address = (.error (.transport
      ("builder error for url (" ++ WebAddress.render (s.target address) ++ ")")), none) := by
  rw [resolve, request?_of_address h]
  simp only [fault?_eq htoken, hrefuses, Bool.false_eq_true, if_false]

/-- A service asks for addresses of which the client makes a request, and for no other text. -/
theorem resolve_asks_iff (exchange : Request U → Exchange) (address : String) (r : Request U) :
    (s.resolve exchange address).2 = some r ↔
      IsAddress address ∧ HttpClient.accepts (s.target address) = true ∧
        r = ⟨s.target address, HttpClient.user? (s.lookupUrl address), s.token⟩ := by
  by_cases h : IsAddress address
  · cases haccepts : HttpClient.accepts (s.target address) with
    | true =>
      rw [resolve_of_accepted htoken exchange h haccepts]
      simp [h, eq_comm]
    | false =>
      rw [resolve_of_refused htoken exchange h haccepts]
      simp
  · rw [resolve_of_not_address exchange h]
    simp [h]

end Requests

/-- Text from a log cannot steer what a service is asked for. A service at a web address of scheme
http or https asks for a text if and only if it is an address and the client can make a request of
the service's web address with it; any other text is not found, for good. What it asks for is its
own web address, whose path without an empty last segment goes on with the address as it is written;
so different addresses have different requests. -/
theorem asks_for_addresses {U : Type} [WebAddress U] [HttpClient U] [LawfulWebAddress U]
    [LawfulHttpClient U] {base : String} {u : U} {token : Option String}
    (hbase : WebAddress.parse? base = some u)
    (hscheme : WebAddress.scheme u = "http" ∨ WebAddress.scheme u = "https")
    (htoken : ∀ t ∈ token, HttpClient.isHeaderText U t = true) :
    ∃ (s : InfoService U) (parts : List String) (front behind : String),
      InfoService.of base token = .ok s ∧ WebAddress.segments? u = some parts ∧
      (∀ exchange address, (s.resolve exchange address).2.isSome = true ↔
        IsAddress address ∧ HttpClient.accepts (s.target address) = true) ∧
      (∀ exchange address, ¬ IsAddress address →
        s.resolve exchange address = (.error .notFound, none) ∧
          LookupError.notFound.isRetryable = false) ∧
      (∀ exchange address, IsAddress address → HttpClient.accepts (s.target address) = false →
        ∃ fault, s.resolve exchange address = (.error (.transport fault), none)) ∧
      (∀ exchange address r, (s.resolve exchange address).2 = some r →
        SamePlace u r.url ∧
        WebAddress.segments? r.url = some (extendedBy (withoutClosing parts) address) ∧
        WebAddress.render r.url = front ++ address ++ behind ∧ r.user = HttpClient.user? u ∧
        r.token = token ∧ ∀ c ∈ address.toList, isAddressChar c = true) ∧
      ∀ exchange exchange' address address' r r', (s.resolve exchange address).2 = some r →
        (s.resolve exchange' address').2 = some r' →
          WebAddress.render r.url = WebAddress.render r'.url → address = address' := by
  obtain ⟨⟨authority, hauthority⟩, parts, hpath⟩ := LawfulWebAddress.parts_of_parse? hbase hscheme
  have hof : InfoService.of base token = .ok ⟨u, token⟩ := by
    rw [InfoService.of, hbase]
    simp only [hpath]
  have hasks := resolve_asks_iff (s := ⟨u, token⟩) htoken
  -- the user goes out of the service's own web address just as well
  have htarget (address : String) : target ⟨u, token⟩ address =
      WebAddress.push (WebAddress.popIfEmpty (HttpClient.withoutUser u)) address := by
    rw [target, lookupUrl, LawfulHttpClient.withoutUser_push,
      LawfulHttpClient.withoutUser_popIfEmpty]
  have hbare : WebAddress.segments? (HttpClient.withoutUser u) = some parts :=
    (LawfulHttpClient.segments?_withoutUser u).trans hpath
  obtain ⟨bare, hbareAuthority⟩ := LawfulHttpClient.authority?_withoutUser hauthority
  obtain ⟨front, behind, hrender⟩ := render_push_address hbareAuthority hbare
  refine ⟨⟨u, token⟩, parts, front, behind, hof, hpath, fun exchange address => ?_,
    fun exchange address h => ⟨resolve_of_not_address exchange h, rfl⟩,
    fun exchange address h hrefuses => ⟨_, resolve_of_refused htoken exchange h hrefuses⟩,
    fun exchange address r h => ?_, fun exchange exchange' address address' r r' h h' hsame => ?_⟩
  · rw [Option.isSome_iff_exists]
    exact ⟨fun ⟨r, hr⟩ => ⟨((hasks exchange address r).1 hr).1, ((hasks exchange address r).1 hr).2.1⟩,
      fun ⟨h, haccepts⟩ => ⟨_, (hasks exchange address _).2 ⟨h, haccepts, rfl⟩⟩⟩
  · obtain ⟨haddress, -, rfl⟩ := (hasks exchange address r).1 h
    refine ⟨?_, ?_, ?_, ?_, rfl, haddress.chars⟩
    · show SamePlace u (target ⟨u, token⟩ address)
      rw [htarget]
      exact (LawfulHttpClient.samePlace_withoutUser u).trans (samePlace_push_popIfEmpty _ address)
    · show WebAddress.segments? (target ⟨u, token⟩ address) = _
      rw [htarget]
      exact segments?_push_address hbare haddress
    · show WebAddress.render (target ⟨u, token⟩ address) = _
      rw [htarget]
      exact hrender address haddress
    · show HttpClient.user? (lookupUrl ⟨u, token⟩ address) = _
      rw [lookupUrl, LawfulHttpClient.user?_push, LawfulHttpClient.user?_popIfEmpty]
  · obtain ⟨haddress, -, rfl⟩ := (hasks exchange address r).1 h
    obtain ⟨haddress', -, rfl⟩ := (hasks exchange' address' r').1 h'
    have hurl : front ++ address ++ behind = front ++ address' ++ behind := by
      rw [← hrender address haddress, ← hrender address' haddress', ← htarget, ← htarget]
      exact hsame
    exact (String.append_right_inj front).1 ((String.append_left_inj behind).1 hurl)

/-- A service with a user, a path and a query. -/
def queriedBase : String := "http://us:pw@[::1]:9000/v1/?lang=en"

/-- An address with a double colon becomes a segment behind the path, and a text that goes on behind
an address is not asked for. -/
theorem asks_for_addresses_queriedBase :
    ∃ (u : Url) (s : InfoService Url), WebAddress.parse? queriedBase = some u ∧
      InfoService.of queriedBase (some "secret") = .ok s ∧
      (∃ r, (s.resolve (fun _ => .refused) "2001:db8::1").2 = some r ∧
        r.url.render = "http://[::1]:9000/v1/2001:db8::1?lang=en" ∧
        r.user = some ("us", some "pw") ∧ r.token = some "secret") ∧
      (s.resolve (fun _ => .refused) "6.6.6.6?x=/8.8.8.8") = (.error .notFound, none) := by
  let u : Url := ⟨"http", some ⟨"us", some "pw", "[::1]", some 9000⟩, .segments ["v1", ""],
    some "lang=en", none⟩
  have hparse : WebAddress.parse? queriedBase = some u := by decide +kernel
  have htoken : ∀ t ∈ some "secret", HttpClient.isHeaderText Url t = true := by decide
  obtain ⟨s, parts, front, behind, hof, -, hasks, hrefuses, -, hrequest, -⟩ :=
    asks_for_addresses hparse (.inl rfl) htoken
  have hservice : InfoService.of queriedBase (some "secret") = .ok ⟨u, some "secret"⟩ := by
    rw [InfoService.of, hparse]
    rfl
  obtain rfl : s = ⟨u, some "secret"⟩ := Except.ok.inj (hof.symm.trans hservice)
  have haddress : IsAddress "2001:db8::1" := by decide +kernel
  have hother : ¬ IsAddress "6.6.6.6?x=/8.8.8.8" := by decide +kernel
  have haccepts : HttpClient.accepts (target ⟨u, some "secret"⟩ "2001:db8::1") = true := by
    decide +kernel
  refine ⟨u, _, hparse, hservice, ?_, (hrefuses _ _ hother).1⟩
  obtain ⟨r, hr⟩ := Option.isSome_iff_exists.1
    ((hasks (fun _ => .refused) _).2 ⟨haddress, haccepts⟩)
  obtain ⟨-, -, -, huser, htoken, -⟩ := hrequest _ _ r hr
  refine ⟨r, hr, ?_, huser.trans (by decide +kernel), htoken⟩
  obtain ⟨-, -, rfl⟩ := (resolve_asks_iff (by decide) _ _ r).1 hr
  decide +kernel

/-- A service whose host has braces in its name, which no request can be made of. -/
def bracedBase : String := "http://host@a\x7bb\x7d/"

/-- Not every address is asked for at every service of the web. -/
theorem bracedBase_asks_for_nothing :
    ∃ (u : Url) (s : InfoService Url), WebAddress.parse? bracedBase = some u ∧
      u.scheme = "http" ∧ InfoService.of bracedBase none = .ok s ∧ IsAddress "8.8.8.8" ∧
      ∀ exchange, s.resolve exchange "8.8.8.8" = (.error (.transport
        "builder error for url (http://a\x7bb\x7d/8.8.8.8)"), none) := by
  let u : Url := ⟨"http", some ⟨"host", none, "a\x7bb\x7d", none⟩, .segments [""], none, none⟩
  have hparse : WebAddress.parse? bracedBase = some u := by decide +kernel
  have hservice : InfoService.of bracedBase none = .ok ⟨u, none⟩ := by
    rw [InfoService.of, hparse]
    rfl
  have haddress : IsAddress "8.8.8.8" := by decide +kernel
  have hrefuses : HttpClient.accepts (target (⟨u, none⟩ : InfoService Url) "8.8.8.8") = false := by
    decide +kernel
  have hrendered : WebAddress.render (target (⟨u, none⟩ : InfoService Url) "8.8.8.8") =
      "http://a\x7bb\x7d/8.8.8.8" := by
    decide +kernel
  refine ⟨u, ⟨u, none⟩, hparse, rfl, hservice, haddress, fun exchange => ?_⟩
  rw [resolve_of_refused (by decide) exchange haddress hrefuses, hrendered]
  rfl

end AccessLog.Enrich.InfoService

import AccessLog.Proofs.JsonLiterals

/-! # The text of a value read back

The text of a value falls into the tokens that spell it, and from these the value is put together
again. All that is asked of the value is that its literals can be found again in a text. -/

namespace AccessLog.Json

/-! ## Values whose literals are found again -/

/-- A literal of a string, which ends at the quotation mark behind it. -/
def IsStringLiteral (literal : String) : Prop :=
  ∀ rest, stringTail (literal.toList ++ '"' :: rest) = some (literal.toList, rest)

def beginsNumber (c : Char) : Bool := c == '-' || c.isDigit

/-- A literal of a number, which ends where no number goes on. -/
def IsNumberLiteral (literal : String) : Prop :=
  literal.toList.head?.any beginsNumber = true ∧
  ∀ rest, EndsNumber rest → numberLiteral (literal.toList ++ rest) = some (literal.toList, rest)

inductive Legible : Json → Prop
  | null : Legible null
  | bool {b} : Legible (bool b)
  | number {literal} (h : IsNumberLiteral literal) : Legible (number literal)
  | string {literal} (h : IsStringLiteral literal) : Legible (string literal)
  | array {items} (h : ∀ v ∈ items, Legible v) : Legible (array items)
  | object {members} (keys : ∀ m ∈ members, IsStringLiteral m.1)
      (values : ∀ m ∈ members, Legible m.2) : Legible (object members)

theorem legible_text (s : String) : Legible (text s) := .string (stringTail_escape s)

/-- A whole number has nothing but digits, and perhaps a sign in front of them. -/
theorem beginsNumber_of_mem_toString {n : Int} {c : Char} (h : c ∈ (toString n).toList) :
    beginsNumber c = true := by
  have hdigit {m : Nat} (hc : c ∈ Nat.toDigits 10 m) : beginsNumber c = true := by
    simp [beginsNumber, Text.isDigit_toDigits m c hc]
  cases n with
  | ofNat m =>
    rw [Text.toList_toString_ofNat] at h
    exact hdigit h
  | negSucc m =>
    rw [Text.toList_toString_negSucc] at h
    rcases List.mem_cons.1 h with rfl | h
    · rfl
    · exact hdigit h

theorem legible_int (n : Int) : Legible (int n) := by
  refine .number ⟨?_, fun rest hrest => numberLiteral_toString n hrest⟩
  have hsome := numberLiteral_toString n (nofun : EndsNumber [])
  rw [List.append_nil] at hsome
  cases hcs : (toString n).toList with
  | nil => rw [hcs] at hsome; cases hsome
  | cons c cs => simpa using beginsNumber_of_mem_toString (hcs ▸ List.mem_cons_self)

theorem legible_nat (n : Nat) : Legible (nat n) := legible_int n

/-- The keys of a record are found again, and so is the record if its values are. -/
theorem legible_record {members : List (String × Json)} (h : ∀ m ∈ members, Legible m.2) :
    Legible (record members) := by
  refine .object ?_ ?_
  · intro m hm
    obtain ⟨written, -, rfl⟩ := List.mem_map.1 hm
    exact stringTail_escape written.1
  · intro m hm
    obtain ⟨written, hwritten, rfl⟩ := List.mem_map.1 hm
    exact h written hwritten

/-! ## The tokens of a value -/

mutual

/-- The tokens that spell a value. -/
def spelling : Json → List Token
  | null => [.null]
  | bool b => [.bool b]
  | number literal => [.number literal.toList]
  | string literal => [.string literal.toList]
  | array items => .openArray :: (spellingItems items ++ [.closeArray])
  | object members => .openObject :: (spellingMembers members ++ [.closeObject])

def spellingItems : List Json → List Token
  | [] => []
  | [v] => v.spelling
  | v :: w :: rest => v.spelling ++ .comma :: spellingItems (w :: rest)

def spellingMembers : List (String × Json) → List Token
  | [] => []
  | [(k, v)] => .string k.toList :: .colon :: v.spelling
  | (k, v) :: m :: rest =>
    .string k.toList :: .colon :: (v.spelling ++ .comma :: spellingMembers (m :: rest))

end

/-! ## From the text to the tokens -/

/-- The text falls into these tokens, whatever fuel beyond its length there is. -/
def Tokenizes (cs : List Char) (ts : List Token) : Prop :=
  ∀ fuel, cs.length < fuel → tokensFrom fuel cs = some ts

theorem tokenizes_nil : Tokenizes [] [] := by
  intro fuel hfuel
  cases fuel with
  | zero => simp at hfuel
  | succ fuel => rfl

theorem endsNumber_cons {c : Char} (rest : List Char)
    (h : c.isDigit = false ∧ c ≠ '.' ∧ c ≠ 'e' ∧ c ≠ 'E') : EndsNumber (c :: rest) := by
  rintro _ ⟨⟩
  exact h

theorem token?_number {c : Char} (h : beginsNumber c = true) (cs : List Char) :
    token? (c :: cs) =
      (numberLiteral (c :: cs)).map fun (literal, rest) => (.number literal, rest) := by
  unfold token?
  split
  all_goals first | rfl | (rename_i heq; cases heq; cases h)

theorem isSpace_of_beginsNumber {c : Char} (h : beginsNumber c = true) : isSpace c = false := by
  rw [Bool.eq_false_iff]
  intro hspace
  simp only [isSpace, Bool.or_eq_true, beq_iff_eq] at hspace
  rcases hspace with ((rfl | rfl) | rfl) | rfl <;> cases h

namespace Tokenizes
variable {rest : List Char} {ts : List Token}

/-- A token in front of a text, which begins with the character `c`. -/
theorem cons {c : Char} {t : Token} (h : Tokenizes rest ts) (written : List Char)
    (htoken : token? (c :: (written ++ rest)) = some (t, rest))
    (hspace : isSpace c = false) : Tokenizes (c :: (written ++ rest)) (t :: ts) := by
  intro fuel hfuel
  cases fuel with
  | zero => simp at hfuel
  | succ fuel =>
    simp only [List.length_cons, List.length_append] at hfuel
    simp [tokensFrom, hspace, htoken, h fuel (by omega)]

theorem string {literal : String} (h : Tokenizes rest ts) (hliteral : IsStringLiteral literal) :
    Tokenizes ((quoted literal).toList ++ rest) (.string literal.toList :: ts) := by
  have htoken : token? ('"' :: (literal.toList ++ ['"'] ++ rest)) =
      some (.string literal.toList, rest) := by
    simp [token?, hliteral rest]
  simpa [quoted] using h.cons (literal.toList ++ ['"']) htoken rfl

theorem number {literal : String} (h : Tokenizes rest ts) (hliteral : IsNumberLiteral literal)
    (hrest : EndsNumber rest) :
    Tokenizes (literal.toList ++ rest) (.number literal.toList :: ts) := by
  obtain ⟨hhead, hread⟩ := hliteral
  replace hread := hread rest hrest
  cases hcs : literal.toList with
  | nil => simp [hcs] at hhead
  | cons c cs =>
    rw [hcs] at hhead hread
    have hc : beginsNumber c = true := by simpa using hhead
    refine h.cons cs ?_ (isSpace_of_beginsNumber hc)
    rw [token?_number hc, ← List.cons_append, hread]
    rfl

end Tokenizes

/-- What is shown of a value in front of any text that a number does not go on into. -/
def Falls (v : Json) : Prop :=
  ∀ rest ts, EndsNumber rest → Tokenizes rest ts →
    Tokenizes (v.compact.toList ++ rest) (v.spelling ++ ts)

theorem tokenizes_items {items : List Json} (h : ∀ v ∈ items, v.Falls) {rest : List Char}
    {ts : List Token} (hrest : EndsNumber rest) (hts : Tokenizes rest ts) :
    Tokenizes ((compactItems items).toList ++ rest) (spellingItems items ++ ts) := by
  induction items with
  | nil => simpa [compactItems, spellingItems] using hts
  | cons v items ih =>
    obtain ⟨hv, hitems⟩ := List.forall_mem_cons.1 h
    cases items with
    | nil => simpa [compactItems, spellingItems] using hv rest ts hrest hts
    | cons w items =>
      have hcomma := (ih hitems).cons [] (t := .comma) (c := ',') rfl rfl
      have hvalue := hv _ _ (endsNumber_cons _ (by decide)) hcomma
      simpa [compactItems, spellingItems] using hvalue

theorem tokenizes_members {members : List (String × Json)}
    (keys : ∀ m ∈ members, IsStringLiteral m.1) (h : ∀ m ∈ members, m.2.Falls)
    {rest : List Char} {ts : List Token} (hrest : EndsNumber rest) (hts : Tokenizes rest ts) :
    Tokenizes ((compactMembers members).toList ++ rest) (spellingMembers members ++ ts) := by
  induction members with
  | nil => simpa [compactMembers, spellingMembers] using hts
  | cons m members ih =>
    obtain ⟨k, v⟩ := m
    obtain ⟨hk, hkeys⟩ := List.forall_mem_cons.1 keys
    obtain ⟨hv, hmembers⟩ := List.forall_mem_cons.1 h
    cases members with
    | nil =>
      have hcolon := (hv rest ts hrest hts).cons [] (t := .colon) (c := ':') rfl rfl
      simpa [compactMembers, spellingMembers] using hcolon.string hk
    | cons m members =>
      have hcomma := (ih hkeys hmembers).cons [] (t := .comma) (c := ',') rfl rfl
      have hvalue := hv _ _ (endsNumber_cons _ (by decide)) hcomma
      have hcolon := hvalue.cons [] (t := .colon) (c := ':') rfl rfl
      simpa [compactMembers, spellingMembers] using hcolon.string hk

theorem Legible.falls {v : Json} (h : v.Legible) : v.Falls := by
  induction h with
  | null =>
    intro rest ts _ hts
    exact hts.cons "ull".toList rfl rfl
  | @bool b =>
    intro rest ts _ hts
    cases b with
    | true => exact hts.cons "rue".toList rfl rfl
    | false => exact hts.cons "alse".toList rfl rfl
  | number h =>
    intro rest ts hrest hts
    exact hts.number h hrest
  | string h =>
    intro rest ts _ hts
    exact hts.string h
  | array _ ih =>
    intro rest ts _ hts
    have hclose := hts.cons [] (t := .closeArray) (c := ']') rfl rfl
    have hitems := tokenizes_items ih (endsNumber_cons _ (by decide)) hclose
    simpa [compact, spelling] using hitems.cons [] (t := .openArray) (c := '[') rfl rfl
  | object keys _ ih =>
    intro rest ts _ hts
    have hclose := hts.cons [] (t := .closeObject) (c := '}') rfl rfl
    have hmembers := tokenizes_members keys ih (endsNumber_cons _ (by decide)) hclose
    simpa [compact, spelling] using hmembers.cons [] (t := .openObject) (c := '{') rfl rfl

/-! ## From the tokens to the value -/

namespace Machine

/-- Where a value may stand, the tokens of one are read as that value. The end of an array may
stand there too, but no value begins with it. -/
def Reads (v : Json) : Prop :=
  ∀ frames expect rest, wantsValue expect = true →
    run ⟨frames, expect, none⟩ (v.spelling ++ rest) = (put v frames).bind (·.run rest)

theorem run_items {v : Json} {items : List Json} (h : ∀ w ∈ v :: items, Reads w)
    (done : List Json) (outer : List Frame) {expect : Expect} (hexpect : wantsValue expect = true)
    (rest : List Token) :
    run ⟨.items done :: outer, expect, none⟩
        (spellingItems (v :: items) ++ .closeArray :: rest) =
      (put (.array (done.reverse ++ v :: items)) outer).bind (·.run rest) := by
  induction items generalizing v done expect with
  | nil =>
    rw [spellingItems, h v List.mem_cons_self _ _ _ hexpect]
    simp [put, run, step]
  | cons w items ih =>
    obtain ⟨hv, hitems⟩ := List.forall_mem_cons.1 h
    have hrest := ih hitems (v :: done) (rfl : wantsValue .value = true)
    rw [spellingItems, List.append_assoc, hv _ _ _ hexpect]
    simpa [put, run, step] using hrest

/-- The key of a member and its colon, where a key may stand. -/
theorem run_key (k : String) (done : List (String × Json))
    (key : Option String)
    (outer : List Frame) {expect : Expect} (hexpect : expect = .firstKey ∨ expect = .key)
    (rest : List Token) :
    run ⟨.members done key :: outer, expect, none⟩ (.string k.toList :: .colon :: rest) =
      run ⟨.members done (some k) :: outer, .value, none⟩ rest := by
  rcases hexpect with rfl | rfl <;> simp [run, step]

theorem run_members {k : String} {v : Json} {members : List (String × Json)}
    (h : ∀ m ∈ (k, v) :: members, Reads m.2) (done : List (String × Json))
    (key : Option String)
    (outer : List Frame) {expect : Expect} (hexpect : expect = .firstKey ∨ expect = .key)
    (rest : List Token) :
    run ⟨.members done key :: outer, expect, none⟩
        (spellingMembers ((k, v) :: members) ++ .closeObject :: rest) =
      (put (.object (done.reverse ++ (k, v) :: members)) outer).bind (·.run rest) := by
  induction members generalizing k v done key expect with
  | nil =>
    have hv := h (k, v) List.mem_cons_self
    simp only [spellingMembers, List.cons_append]
    rw [run_key k done key outer hexpect, hv _ _ _ rfl]
    simp [put, run, step]
  | cons m members ih =>
    obtain ⟨hv, hmembers⟩ := List.forall_mem_cons.1 h
    have hrest := ih hmembers ((k, v) :: done) none (.inr rfl)
    simp only [spellingMembers, List.cons_append, List.append_assoc]
    rw [run_key k done key outer hexpect, hv _ _ _ rfl]
    simpa [put, run, step] using hrest

end Machine

theorem Legible.reads {v : Json} (h : v.Legible) : Machine.Reads v := by
  induction h with
  | null | bool | number | string =>
    intro frames expect rest hexpect
    cases expect <;> simp_all [spelling, Machine.run, Machine.step, Machine.wantsValue]
  | @array items _ ih =>
    intro frames expect rest hexpect
    have hopen : Machine.step ⟨frames, expect, none⟩ .openArray =
        some ⟨.items [] :: frames, .firstItem, none⟩ := by
      cases expect <;> first | rfl | cases hexpect
    simp only [spelling, List.cons_append, List.append_assoc, Machine.run, hopen, Option.bind_some]
    cases items with
    | nil => rfl
    | cons v items => exact Machine.run_items ih [] frames rfl rest
  | @object members _ _ ih =>
    intro frames expect rest hexpect
    have hopen : Machine.step ⟨frames, expect, none⟩ .openObject =
        some ⟨.members [] none :: frames, .firstKey, none⟩ := by
      cases expect <;> first | rfl | cases hexpect
    simp only [spelling, List.cons_append, List.append_assoc, Machine.run, hopen, Option.bind_some]
    cases members with
    | nil => rfl
    | cons m members => exact Machine.run_members ih [] none frames (.inl rfl) rest

/-- The text of a value denotes that value. -/
theorem parse?_compact {v : Json} (h : v.Legible) : parse? v.compact = some v := by
  have htokens : tokens v.compact.toList = some v.spelling := by
    have := h.falls [] [] nofun tokenizes_nil
    rw [List.append_nil, List.append_nil] at this
    exact this _ (Nat.lt_succ_self _)
  have hrun := h.reads [] .value [] rfl
  rw [List.append_nil] at hrun
  simp [parse?, htokens, ofTokens?, Machine.start, hrun, Machine.put, Machine.run]

end AccessLog.Json

import AccessLog.Net.IpAddress
import AccessLog.Proofs.DecimalNumbers

/-! # The grammar of internet addresses

Which texts are addresses is said here without the reader: four numbers between points, or eight
groups between colons, of which the last two may be written as four numbers, and of which a run may
be left out for a double colon. The reader takes what it can from the left and never goes back; it
accepts just these texts. -/

namespace AccessLog.Net.IpAddress
open AccessLog.Text

/-- A number up to 255 in up to three digits, with no zero in front. -/
def Octet (cs : List Char) : Prop :=
  ∃ n, Numeral cs n ∧ n ≤ 255 ∧ cs.length ≤ 3 ∧ (cs.length = 1 ∨ cs.head? ≠ some '0')

/-- Four such numbers with points between them. -/
def Quad (cs : List Char) : Prop :=
  ∃ a b c d, cs = a ++ '.' :: (b ++ '.' :: (c ++ '.' :: d)) ∧ Octet a ∧ Octet b ∧ Octet c ∧ Octet d

/-- One to four hexadecimal digits, in upper or lower case. -/
structure Group (cs : List Char) : Prop where
  nonempty : cs ≠ []
  short : cs.length ≤ 4
  digits : ∀ c ∈ cs, isHexDigit c = true

/-- Groups with colons between them, so many. The last two may be written as four numbers, which is
then said. -/
inductive Row : Bool → Nat → List Char → Prop
  | group {g : List Char} : Group g → Row false 1 g
  | quad {q : List Char} : Quad q → Row true 2 q
  | cons {dotted : Bool} {n : Nat} {g row : List Char} : Group g → Row dotted n row →
      Row dotted (n + 1) (g ++ ':' :: row)

/-- A row of groups, or nothing. -/
inductive Part : Bool → Nat → List Char → Prop
  | empty : Part false 0 []
  | row {dotted : Bool} {n : Nat} {row : List Char} : Row dotted n row → Part dotted n row

/-- Eight groups, or fewer with a double colon in the place of the missing ones. -/
inductive Groups8 : List Char → Prop
  | full {dotted : Bool} {row : List Char} : Row dotted 8 row → Groups8 row
  | shortened {dotted : Bool} {n m : Nat} {front back : List Char} : Part false n front →
      Part dotted m back → n + m ≤ 7 → Groups8 (front ++ ':' :: ':' :: back)

/-- The text is an address of version 4 or of version 6. -/
def IsAddress (s : String) : Prop := Quad s.toList ∨ Groups8 s.toList

/-! ## Characters of addresses -/

/-- Hexadecimal digits, points and colons. -/
def isAddressChar (c : Char) : Bool := isHexDigit c || c == '.' || c == ':'

theorem isHexDigit_of_isDigit {c : Char} (h : c.isDigit = true) : isHexDigit c = true := by
  simp only [Char.isDigit, Bool.and_eq_true, decide_eq_true_eq] at h
  simp only [isHexDigit, Bool.or_eq_true, Bool.and_eq_true, decide_eq_true_eq]
  exact .inl (.inl h)

theorem Octet.isDigit {cs : List Char} (h : Octet cs) : ∀ c ∈ cs, c.isDigit = true := by
  obtain ⟨n, hnumeral, -⟩ := h
  exact hnumeral.digits

theorem Octet.chars {cs : List Char} (h : Octet cs) : ∀ c ∈ cs, isAddressChar c = true :=
  fun c hc => by simp [isAddressChar, isHexDigit_of_isDigit (h.isDigit c hc)]

theorem Group.chars {cs : List Char} (h : Group cs) : ∀ c ∈ cs, isAddressChar c = true :=
  fun c hc => by simp [isAddressChar, h.digits c hc]

theorem Quad.chars {cs : List Char} (h : Quad cs) : ∀ c ∈ cs, isAddressChar c = true := by
  obtain ⟨a, b, c, d, rfl, ha, hb, hc, hd⟩ := h
  have hpoint : isAddressChar '.' = true := by decide
  simp only [List.forall_mem_append, List.forall_mem_cons]
  exact ⟨ha.chars, hpoint, hb.chars, hpoint, hc.chars, hpoint, hd.chars⟩

theorem Row.chars {dotted : Bool} {n : Nat} {row : List Char} (h : Row dotted n row) :
    ∀ c ∈ row, isAddressChar c = true := by
  induction h with
  | group hgroup => exact hgroup.chars
  | quad hquad => exact hquad.chars
  | cons hgroup _ ih =>
    simp only [List.forall_mem_append, List.forall_mem_cons]
    exact ⟨hgroup.chars, by decide, ih⟩

theorem Part.chars {dotted : Bool} {n : Nat} {part : List Char} (h : Part dotted n part) :
    ∀ c ∈ part, isAddressChar c = true := by
  cases h with
  | empty => simp
  | row hrow => exact hrow.chars

/-- A part with groups in it is a row. -/
theorem Part.toRow {dotted : Bool} {n : Nat} {part : List Char} (h : Part dotted n part)
    (hn : n ≠ 0) : Row dotted n part := by
  cases h with
  | empty => exact absurd rfl hn
  | row hrow => exact hrow

theorem Groups8.chars {cs : List Char} (h : Groups8 cs) : ∀ c ∈ cs, isAddressChar c = true := by
  cases h with
  | full hrow => exact hrow.chars
  | shortened hfront hback _ =>
    simp only [List.forall_mem_append, List.forall_mem_cons]
    exact ⟨hfront.chars, by decide, by decide, hback.chars⟩

theorem IsAddress.chars {s : String} (h : IsAddress s) : ∀ c ∈ s.toList, isAddressChar c = true :=
  h.elim Quad.chars Groups8.chars

/-! ## Reading numbers and groups -/

/-- The text does not go on with a character of this kind. -/
def Stops (p : Char → Bool) (rest : List Char) : Prop := ∀ c ∈ rest.head?, p c = false

section Pieces
variable {cs used rest : List Char} {p : Char → Bool}

theorem takeWhile_piece (hused : ∀ c ∈ used, p c = true) (hrest : Stops p rest) :
    (used ++ rest).takeWhile p = used ∧ (used ++ rest).dropWhile p = rest := by
  rw [List.takeWhile_append_of_pos hused, List.dropWhile_append_of_pos hused]
  cases rest with
  | nil => simp
  | cons c rest =>
    have hc : ¬ p c = true := by simpa [Stops] using hrest
    rw [List.takeWhile_cons_of_neg hc, List.dropWhile_cons_of_neg hc]
    exact ⟨List.append_nil _, rfl⟩

theorem skip?_eq_some {c : Char} : skip? c cs = some rest ↔ cs = c :: rest := by
  cases cs with
  | nil => simp [skip?]
  | cons d cs => by_cases h : d = c <;> simp [skip?, h]

theorem octet?_sound {n : Nat} (h : octet? cs = some (n, rest)) :
    ∃ used, cs = used ++ rest ∧ Octet used := by
  unfold octet? at h
  dsimp only at h
  split at h
  · rename_i hform
    obtain ⟨value, hvalue, hpair⟩ := Option.map_eq_some_iff.1 h
    obtain ⟨hnumeral, hsmall⟩ := Option.filter_eq_some_iff.1 hvalue
    cases hpair
    refine ⟨cs.takeWhile Char.isDigit, List.takeWhile_append_dropWhile.symm, n,
      digits?_eq_some_iff.1 hnumeral, of_decide_eq_true hsmall, ?_⟩
    simpa using hform
  · cases h

theorem octet?_complete (h : Octet used) (hrest : Stops Char.isDigit rest) :
    ∃ n, octet? (used ++ rest) = some (n, rest) := by
  obtain ⟨n, hnumeral, hsmall, hform⟩ := h
  obtain ⟨htake, hdrop⟩ := takeWhile_piece hnumeral.digits hrest
  refine ⟨n, ?_⟩
  unfold octet?
  dsimp only
  rw [htake, hdrop, digits?_eq_some_iff.2 hnumeral, if_pos (by simpa using hform),
    Option.filter_some, if_pos (decide_eq_true hsmall)]
  rfl

theorem group?_sound {n : Nat} (h : group? cs = some (n, rest)) :
    ∃ used, cs = used ++ rest ∧ Group used := by
  unfold group? at h
  dsimp only at h
  split at h
  · cases h
  · rename_i hform
    cases h
    simp only [Bool.or_eq_true, List.isEmpty_iff, decide_eq_true_eq, not_or, Nat.not_lt] at hform
    exact ⟨cs.takeWhile isHexDigit, List.takeWhile_append_dropWhile.symm, hform.1, hform.2,
      List.all_eq_true.1 List.all_takeWhile⟩

theorem group?_complete (h : Group used) (hrest : Stops isHexDigit rest) :
    ∃ n, group? (used ++ rest) = some (n, rest) := by
  obtain ⟨htake, hdrop⟩ := takeWhile_piece h.digits hrest
  have hform : ¬ (used.isEmpty || decide (4 < used.length)) = true := by
    simpa using And.intro h.nonempty h.short
  unfold group?
  dsimp only
  rw [htake, hdrop, if_neg hform]
  exact ⟨_, rfl⟩

theorem group?_eq_none (h : Stops isHexDigit cs) : group? cs = none := by
  have hnone : ∀ c ∈ ([] : List Char), isHexDigit c = true := by simp
  have htake : cs.takeWhile isHexDigit = [] := (takeWhile_piece hnone h).1
  unfold group?
  dsimp only
  rw [htake]
  rfl

/-! ## Reading addresses of version 4 -/

theorem front4?_eq_some_iff {n : Nat} :
    front4? cs = some (n, rest) ↔ ∃ a b c d cs₁ cs₂ cs₃, octet? cs = some (a, '.' :: cs₁) ∧
      octet? cs₁ = some (b, '.' :: cs₂) ∧ octet? cs₂ = some (c, '.' :: cs₃) ∧
      octet? cs₃ = some (d, rest) ∧ ((a * 256 + b) * 256 + c) * 256 + d = n := by
  simp only [front4?, ↓Option.bind_eq_bind, ↓Option.bind_eq_some_iff, Prod.exists, skip?_eq_some,
    Option.some.injEq, Prod.mk.injEq]
  constructor
  · rintro ⟨a, _, ha, cs₁, rfl, b, _, hb, cs₂, rfl, c, _, hc, cs₃, rfl, d, _, hd, hn, rfl⟩
    exact ⟨a, b, c, d, cs₁, cs₂, cs₃, ha, hb, hc, hd, hn⟩
  · rintro ⟨a, b, c, d, cs₁, cs₂, cs₃, ha, hb, hc, hd, hn⟩
    exact ⟨a, _, ha, cs₁, rfl, b, _, hb, cs₂, rfl, c, _, hc, cs₃, rfl, d, _, hd, hn, rfl⟩

theorem front4?_sound {n : Nat} (h : front4? cs = some (n, rest)) :
    ∃ used, cs = used ++ rest ∧ Quad used := by
  obtain ⟨_, _, _, _, cs₁, cs₂, cs₃, hread₁, hread₂, hread₃, hread₄, -⟩ := front4?_eq_some_iff.1 h
  obtain ⟨a, rfl, ha⟩ := octet?_sound hread₁
  obtain ⟨b, rfl, hb⟩ := octet?_sound hread₂
  obtain ⟨c, rfl, hc⟩ := octet?_sound hread₃
  obtain ⟨d, rfl, hd⟩ := octet?_sound hread₄
  exact ⟨a ++ '.' :: (b ++ '.' :: (c ++ '.' :: d)), by simp, a, b, c, d, rfl, ha, hb, hc, hd⟩

theorem front4?_complete (h : Quad used) (hrest : Stops Char.isDigit rest) :
    ∃ n, front4? (used ++ rest) = some (n, rest) := by
  obtain ⟨a, b, c, d, rfl, ha, hb, hc, hd⟩ := h
  have hpoint (cs : List Char) : Stops Char.isDigit ('.' :: cs) := by simp [Stops]
  obtain ⟨_, ha⟩ := octet?_complete ha (hpoint (b ++ '.' :: (c ++ '.' :: d) ++ rest))
  obtain ⟨_, hb⟩ := octet?_complete hb (hpoint (c ++ '.' :: d ++ rest))
  obtain ⟨_, hc⟩ := octet?_complete hc (hpoint (d ++ rest))
  obtain ⟨_, hd⟩ := octet?_complete hd hrest
  simp only [List.append_assoc, List.cons_append] at ha hb hc ⊢
  exact ⟨_, front4?_eq_some_iff.2 ⟨_, _, _, _, _, _, _, ha, hb, hc, hd, rfl⟩⟩

/-- A group that no point follows is not the beginning of an address of version 4. -/
theorem front4?_group (hused : ∀ c ∈ used, isHexDigit c = true) (hrest : Stops isHexDigit rest)
    (hpoint : rest.head? ≠ some '.') : front4? (used ++ rest) = none := by
  refine Option.eq_none_iff_forall_ne_some.2 fun (n, rest') h => ?_
  obtain ⟨a, -, -, -, cs₁, -, -, ha, -⟩ := front4?_eq_some_iff.1 h
  obtain ⟨o, hcut, hoctet⟩ := octet?_sound ha
  -- both cuts are made where the hexadecimal digits end
  have hstops : Stops isHexDigit ('.' :: cs₁) := by simp [Stops, isHexDigit]
  have hdigits : ∀ c ∈ o, isHexDigit c = true :=
    fun c hc => isHexDigit_of_isDigit (hoctet.isDigit c hc)
  have hsame : rest = '.' :: cs₁ := by
    rw [← (takeWhile_piece hused hrest).2, hcut, (takeWhile_piece hdigits hstops).2]
  exact hpoint (by rw [hsame]; rfl)

end Pieces

/-! ## Reading groups -/

section Groups
variable {cs rest : List Char} {dotted : Bool}

/-- What the reader of a row does next: it takes four numbers, or a group, or stops. -/
theorem groups_succ (first : Bool) (cs : List Char) (room : Nat) :
    (∃ tail value rest, room ≠ 0 ∧ behindColon? first cs = some tail ∧
      front4? tail = some (value, rest) ∧
      groups first cs (room + 1) = ⟨[value / 65536, value % 65536], true, rest⟩) ∨
    (∃ tail value rest, behindColon? first cs = some tail ∧ group? tail = some (value, rest) ∧
      groups first cs (room + 1) =
        { groups false rest room with values := value :: (groups false rest room).values }) ∨
    groups first cs (room + 1) = ⟨[], false, cs⟩ := by
  rw [groups]
  dsimp only
  split
  · rename_i value rest hquad
    by_cases hroom : room = 0
    · simp [hroom] at hquad
    · rw [if_neg hroom] at hquad
      obtain ⟨tail, htail, hread⟩ := Option.bind_eq_some_iff.1 hquad
      exact .inl ⟨tail, value, rest, hroom, htail, hread, rfl⟩
  · split
    · rename_i value rest hgroup
      obtain ⟨tail, htail, hread⟩ := Option.bind_eq_some_iff.1 hgroup
      exact .inr (.inl ⟨tail, value, rest, htail, hread, rfl⟩)
    · exact .inr (.inr rfl)

theorem groups_quad {first : Bool} {tail : List Char} {value : Nat} (room : Nat)
    (htail : behindColon? first cs = some tail) (hread : front4? tail = some (value, rest)) :
    groups first cs (room + 2) = ⟨[value / 65536, value % 65536], true, rest⟩ := by
  rw [groups, if_neg (Nat.succ_ne_zero room), htail, Option.bind_some, hread]

/-- Nothing, or a colon, stands where a group could stand. -/
def Ends (tail : List Char) : Prop := ∀ c ∈ tail.head?, c = ':'

theorem Ends.stops {tail : List Char} (h : Ends tail) : Stops isHexDigit tail :=
  fun c hc => by rw [h c hc]; decide

theorem groups_group {first : Bool} {g : List Char} (hgroup : Group g) (room : Nat)
    (htail : behindColon? first cs = some (g ++ rest)) (hrest : Ends rest) :
    ∃ value, groups first cs (room + 1) =
      { groups false rest room with values := value :: (groups false rest room).values } := by
  have hpoint : rest.head? ≠ some '.' := fun hdot => by simpa using hrest '.' hdot
  have hplain : front4? (g ++ rest) = none := front4?_group hgroup.digits hrest.stops hpoint
  obtain ⟨value, hread⟩ := group?_complete hgroup hrest.stops
  have hnone : (if room = 0 then none else (behindColon? first cs).bind front4?) = none := by
    rw [htail, Option.bind_some, hplain, ite_self]
  refine ⟨value, ?_⟩
  rw [groups, hnone, htail, Option.bind_some, hread]

/-- A reader that finds no group stops. -/
theorem groups_stop {first : Bool} (h : ∀ tail ∈ behindColon? first cs, Ends tail) (room : Nat) :
    groups first cs room = ⟨[], false, cs⟩ := by
  cases room with
  | zero => rfl
  | succ room =>
    rcases groups_succ first cs room with ⟨tail, _, _, -, htail, hread, -⟩ |
      ⟨tail, _, _, htail, hread, -⟩ | hstop
    · have hpoint : tail.head? ≠ some '.' := fun hdot => by simpa using h tail htail '.' hdot
      rw [← List.nil_append tail, front4?_group (by simp) (h tail htail).stops hpoint] at hread
      cases hread
    · rw [group?_eq_none (h tail htail).stops] at hread
      cases hread
    · exact hstop

theorem length_groups_le (first : Bool) (cs : List Char) (room : Nat) :
    (groups first cs room).values.length ≤ room := by
  induction room generalizing first cs with
  | zero => exact Nat.le_refl 0
  | succ room ih =>
    rcases groups_succ first cs room with ⟨_, _, _, hroom, -, -, heq⟩ | ⟨_, _, rest, -, -, heq⟩ | heq
    · rw [heq]
      show 2 ≤ room + 1
      omega
    · rw [heq]
      exact Nat.succ_le_succ (ih false rest)
    · rw [heq]
      exact Nat.zero_le _

/-- What the reader of a row takes is nothing, or a row behind its colon. -/
theorem groups_sound (first : Bool) (cs : List Char) (room : Nat) :
    let read := groups first cs room
    read = ⟨[], false, cs⟩ ∨
      ∃ row, behindColon? first cs = some (row ++ read.rest) ∧
        Row read.dotted read.values.length row := by
  induction room generalizing first cs with
  | zero => exact .inl rfl
  | succ room ih =>
    rcases groups_succ first cs room with ⟨tail, value, rest, -, htail, hread, heq⟩ |
      ⟨tail, value, rest, htail, hread, heq⟩ | heq
    · obtain ⟨row, rfl, hquad⟩ := front4?_sound hread
      simp only [heq]
      exact .inr ⟨row, htail, .quad hquad⟩
    · obtain ⟨g, rfl, hgroup⟩ := group?_sound hread
      simp only [heq]
      refine .inr ?_
      rcases ih false rest with hstop | ⟨row, hrow, hform⟩
      · simp only [hstop]
        exact ⟨g, htail, .group hgroup⟩
      · have hcut : rest = ':' :: (row ++ (groups false rest room).rest) := skip?_eq_some.1 hrow
        refine ⟨g ++ ':' :: row, ?_, .cons hgroup hform⟩
        rw [htail, List.append_assoc, List.cons_append, ← hcut]
    · exact .inl heq

/-- A row with enough room is read to its end, where the text ends or goes on with a double
colon. -/
theorem groups_row {n : Nat} {row : List Char} (h : Row dotted n row) {first : Bool} {room : Nat}
    (hcs : behindColon? first cs = some (row ++ rest)) (hroom : n ≤ room)
    (hrest : rest = [] ∨ dotted = false ∧ ∃ back, rest = ':' :: ':' :: back) :
    ∃ values, values.length = n ∧ groups first cs room = ⟨values, dotted, rest⟩ := by
  have hends : Ends rest := by
    obtain rfl | ⟨-, back, rfl⟩ := hrest <;> simp [Ends]
  induction h generalizing first cs room with
  | group hgroup =>
    obtain ⟨room, rfl⟩ := Nat.exists_eq_add_of_le' hroom
    obtain ⟨value, heq⟩ := groups_group hgroup room hcs hends
    have hstop : groups false rest room = ⟨[], false, rest⟩ := by
      refine groups_stop (fun tail htail => ?_) room
      obtain rfl | ⟨-, back, rfl⟩ := hrest
      · cases htail
      · cases htail
        simp [Ends]
    exact ⟨[value], rfl, by rw [heq, hstop]⟩
  | quad hquad =>
    obtain ⟨room, rfl⟩ := Nat.exists_eq_add_of_le' hroom
    have hstops : Stops Char.isDigit rest := fun c hc => by rw [hends c hc]; decide
    obtain ⟨value, hread⟩ := front4?_complete hquad hstops
    exact ⟨_, rfl, groups_quad room hcs hread⟩
  | @cons dotted n g row hgroup hrow ih =>
    obtain ⟨room, rfl⟩ := Nat.exists_eq_add_of_le' (Nat.le_of_add_left_le hroom)
    rw [List.append_assoc, List.cons_append] at hcs
    obtain ⟨value, heq⟩ := groups_group hgroup room hcs (by simp [Ends])
    have hcolon : behindColon? false (':' :: (row ++ rest)) = some (row ++ rest) := rfl
    obtain ⟨values, hlength, hmore⟩ := ih hcolon (Nat.le_of_succ_le_succ hroom) hrest
    exact ⟨value :: values, by rw [List.length_cons, hlength], by rw [heq, hmore]⟩

/-- The reader of a row that no colon comes before takes one part of the text. -/
theorem groups_part_sound (cs : List Char) (room : Nat) :
    ∃ part, cs = part ++ (groups true cs room).rest ∧
      Part (groups true cs room).dotted (groups true cs room).values.length part := by
  rcases groups_sound true cs room with hstop | ⟨row, hrow, hform⟩
  · rw [hstop]
    exact ⟨[], rfl, .empty⟩
  · exact ⟨row, Option.some.inj hrow, .row hform⟩

theorem groups_part {n room : Nat} {part : List Char} (h : Part dotted n part) (hroom : n ≤ room)
    (hrest : rest = [] ∨ dotted = false ∧ ∃ back, rest = ':' :: ':' :: back) :
    ∃ values, values.length = n ∧ groups true (part ++ rest) room = ⟨values, dotted, rest⟩ := by
  cases h with
  | empty =>
    refine ⟨[], rfl, groups_stop (fun tail htail => ?_) room⟩
    cases htail
    obtain rfl | ⟨-, back, rfl⟩ := hrest <;> simp [Ends]
  | row hrow => exact groups_row hrow rfl hroom hrest

end Groups

/-! ## Reading addresses -/

section Addresses
variable {cs : List Char}

theorem front6?_sound {value : Nat} {rest : List Char} (h : front6? cs = some (value, rest)) :
    ∃ used, cs = used ++ rest ∧ Groups8 used := by
  obtain ⟨front, hcut, hfront⟩ := groups_part_sound cs 8
  unfold front6? at h
  dsimp only at h
  split at h
  · rename_i hfull
    cases h
    rw [hfull] at hfront
    exact ⟨front, hcut, .full (hfront.toRow (Nat.succ_ne_zero 7))⟩
  · rename_i hshort
    split at h
    · cases h
    · rename_i hplain
      simp only [↓Option.bind_eq_bind, ↓Option.bind_eq_some_iff, skip?_eq_some,
        Option.some.injEq, Prod.mk.injEq] at h
      obtain ⟨_, hcolons, behind, rfl, -, rfl⟩ := h
      obtain ⟨back, hback, hform⟩ := groups_part_sound behind (7 - (groups true cs 8).values.length)
      have hle := length_groups_le true cs 8
      have hle' := length_groups_le true behind (7 - (groups true cs 8).values.length)
      rw [Bool.not_eq_true] at hplain
      rw [hplain] at hfront
      refine ⟨front ++ ':' :: ':' :: back, ?_, .shortened hfront hform (by omega)⟩
      rw [List.append_assoc, List.cons_append, List.cons_append, ← hback, ← hcolons]
      exact hcut

theorem front6?_complete (h : Groups8 cs) : ∃ value, front6? cs = some (value, []) := by
  unfold front6?
  cases h with
  | full hrow =>
    obtain ⟨values, hlength, hread⟩ := groups_part (.row hrow) (Nat.le_refl 8) (.inl rfl)
    rw [List.append_nil] at hread
    simp only [hread, hlength, if_true]
    exact ⟨_, rfl⟩
  | @shortened dotted n m front back hfront hback hroom =>
    have hn : n ≤ 8 := by omega
    obtain ⟨values, rfl, hread⟩ := groups_part hfront hn (.inr ⟨rfl, back, rfl⟩)
    have hm : m ≤ 7 - values.length := by omega
    obtain ⟨values', hlength, hread'⟩ := groups_part hback hm (.inl rfl)
    rw [List.append_nil] at hread'
    have hshort : values.length ≠ 8 := by omega
    simp only [hread, if_neg hshort, Bool.false_eq_true, if_false, skip?, if_true,
      ↓Option.bind_eq_bind, Option.bind_some, hread']
    exact ⟨_, rfl⟩

theorem isSome_whole {α : Type} {read : Option (α × List Char)} :
    (whole read).isSome ↔ ∃ a, read = some (a, []) := by
  unfold whole
  split <;> simp_all

/-- What the reader accepts is what the grammar says. -/
theorem isSome_parse?_iff (s : String) : (parse? s).isSome ↔ IsAddress s := by
  have h4 : (parse4? s.toList).isSome ↔ Quad s.toList := by
    refine isSome_whole.trans ⟨fun ⟨value, hread⟩ => ?_, fun h => ?_⟩
    · obtain ⟨used, hcut, hquad⟩ := front4?_sound hread
      rwa [hcut, List.append_nil]
    · have hend : Stops Char.isDigit [] := by simp [Stops]
      have hread := front4?_complete h hend
      rwa [List.append_nil] at hread
  have h6 : (parse6? s.toList).isSome ↔ Groups8 s.toList := by
    refine isSome_whole.trans ⟨fun ⟨value, hread⟩ => ?_, front6?_complete⟩
    obtain ⟨used, hcut, hgroups⟩ := front6?_sound hread
    rwa [hcut, List.append_nil]
  unfold parse? IsAddress
  rw [← h4, ← h6]
  cases parse4? s.toList <;> simp

instance (s : String) : Decidable (IsAddress s) :=
  decidable_of_iff _ (isSome_parse?_iff s)

example : IsAddress "::FFFF:1.2.3.4" ∧ ¬ IsAddress "1.2.3.04" := by decide +kernel

end Addresses

end AccessLog.Net.IpAddress

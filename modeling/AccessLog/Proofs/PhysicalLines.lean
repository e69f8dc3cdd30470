import AccessLog.Log.Line

/-! # The lines of a byte stream

A stream is a list of reads that deliver bytes, are interrupted or fail; it ends with the list, or
with a read that delivers nothing. Its physical lines are laid down here from its bytes alone: they
are what stands between line feeds, one carriage return before a line feed left aside, and behind
the last line feed what is left, unless that is nothing. What a failed read had begun is no line.
However the bytes are cut into reads, the lines of a source up to its first failed read are
these. -/

namespace AccessLog.Log
open AccessLog.Text

/-- How a source stops before its end. -/
inductive Halt where
  | failed (message : String)
  | crashed (message : String)
  deriving DecidableEq

def Halt.delivery {α : Type} : Halt → Delivery α
  | failed message => .fault (.failed message)
  | crashed message => .crash message

/-- What a source delivers before it ends or stops. -/
structure Content where
  bytes : List UInt8
  halt : Option Halt
  deriving DecidableEq

def content : List Read → Content
  | [] => ⟨[], none⟩
  | .bytes chunk :: rest => ⟨chunk ++ (content rest).bytes, (content rest).halt⟩
  | .interrupted :: rest => content rest
  | .failed message :: _ => ⟨[], some (.failed message)⟩
  | .crashed message :: _ => ⟨[], some (.crashed message)⟩

/-- Once a read has delivered nothing, nothing comes any more. -/
def EndsOnce (reads : List Read) : Prop :=
  reads.Pairwise fun read next => read = .bytes [] → next = .bytes []

instance (reads : List Read) : Decidable (EndsOnce reads) :=
  inferInstanceAs (Decidable (reads.Pairwise fun read next => read = .bytes [] → next = .bytes []))

/-- The bytes of a line without one carriage return at their end. -/
def withoutReturn (line : List UInt8) : List UInt8 :=
  if line.getLast? = some 13 then line.dropLast else line

/-- The lines that a line feed ends. -/
def endedLines (bytes : List UInt8) : List (List UInt8) :=
  (bytes.splitOn 10).dropLast.map withoutReturn

/-- What stands behind the last line feed. -/
def lastLine (bytes : List UInt8) : List UInt8 := (bytes.splitOn 10).getLastD []

/-- The lines of what has been delivered, of which the last may lack its end. -/
def Content.lines (c : Content) : List (List UInt8) :=
  if c.halt.isSome || (lastLine c.bytes).isEmpty then endedLines c.bytes
  else endedLines c.bytes ++ [lastLine c.bytes]

/-- The text of a line, if it is one. -/
def deliver (line : List UInt8) : Delivery String :=
  match decode? line with
  | some text => .item text
  | none => .fault .notText

theorem delivered_eq (reversed : List UInt8) : delivered reversed = deliver reversed.reverse := by
  unfold delivered deliver
  rfl

theorem ended_eq (reversed : List UInt8) : ended reversed = deliver (withoutReturn reversed.reverse) := by
  unfold ended
  split
  · rename_i rest
    simp [delivered_eq, withoutReturn]
  · rename_i hreturn
    rw [delivered_eq]
    cases reversed with
    | nil => rfl
    | cons b rest =>
      have hb : b ≠ 13 := by
        rintro rfl
        exact hreturn rest rfl
      simp [withoutReturn, hb]

/-! ## Cutting at line feeds -/

theorem endedLines_of_not_mem {line : List UInt8} (h : 10 ∉ line) : endedLines line = [] := by
  simp [endedLines, List.splitOn_eq_singleton h]

theorem lastLine_of_not_mem {line : List UInt8} (h : 10 ∉ line) : lastLine line = line := by
  simp [lastLine, List.splitOn_eq_singleton h]

theorem endedLines_append {line : List UInt8} (h : 10 ∉ line) (rest : List UInt8) :
    endedLines (line ++ 10 :: rest) = withoutReturn line :: endedLines rest := by
  have hrest := List.splitOn_ne_nil 10 rest
  simp [endedLines, List.splitOn_append_cons_self_of_not_mem h, List.dropLast_cons_of_ne_nil hrest]

theorem lastLine_append {line : List UInt8} (h : 10 ∉ line) (rest : List UInt8) :
    lastLine (line ++ 10 :: rest) = lastLine rest := by
  unfold lastLine
  rw [List.splitOn_append_cons_self_of_not_mem h]
  cases hrest : rest.splitOn 10 with
  | nil => exact absurd hrest (List.splitOn_ne_nil 10 rest)
  | cons piece pieces => rfl

/-! ## Reading line by line

What a reader has yet to deliver is seen as the content that would follow what it has read of the
present line. -/

/-- The deliveries for a content, when `later` would follow its failure. -/
def Content.deliveries (c : Content) (later : List (Delivery String)) : List (Delivery String) :=
  c.lines.map deliver ++
    match c.halt with
    | none => []
    | some halt => halt.delivery :: later

theorem deliveries_halt {line : List UInt8} (h : 10 ∉ line) (halt : Halt)
    (later : List (Delivery String)) :
    Content.deliveries ⟨line, some halt⟩ later = halt.delivery :: later := by
  simp [Content.deliveries, Content.lines, endedLines_of_not_mem h]

theorem deliveries_last {line : List UInt8} (h : 10 ∉ line) (later : List (Delivery String)) :
    Content.deliveries ⟨line, none⟩ later = if line.isEmpty then [] else [deliver line] := by
  simp only [Content.deliveries, Content.lines, endedLines_of_not_mem h, lastLine_of_not_mem h]
  cases line <;> rfl

theorem deliveries_feed {line : List UInt8} (h : 10 ∉ line) (rest : List UInt8)
    (halt : Option Halt) (later : List (Delivery String)) :
    Content.deliveries ⟨line ++ 10 :: rest, halt⟩ later =
      deliver (withoutReturn line) :: Content.deliveries ⟨rest, halt⟩ later := by
  simp only [Content.deliveries, Content.lines, endedLines_append h, lastLine_append h]
  split <;> simp

/-- A chunk of bytes moves the reader on, over line feeds or within a line. -/
theorem linesFrom_chunk (chunk : List UInt8) {reversed : List UInt8} (hline : 10 ∉ reversed)
    {signals : List Signal} {c : Content} {later : List (Delivery String)}
    (h : ∀ rest, 10 ∉ rest →
      linesFrom rest signals = Content.deliveries ⟨rest.reverse ++ c.bytes, c.halt⟩ later) :
    linesFrom reversed (chunk.map .byte ++ signals) =
      Content.deliveries ⟨reversed.reverse ++ (chunk ++ c.bytes), c.halt⟩ later := by
  induction chunk generalizing reversed with
  | nil => exact h reversed hline
  | cons b chunk ih =>
    by_cases hb : b = 10
    · subst hb
      have hfeed : linesFrom reversed (.byte 10 :: (chunk.map .byte ++ signals)) =
          ended reversed :: linesFrom [] (chunk.map .byte ++ signals) := by
        simp [linesFrom]
      rw [List.map_cons, List.cons_append, hfeed, ih (by simp), ended_eq, List.cons_append,
        deliveries_feed (by simpa using hline)]
      rfl
    · have hstep : linesFrom reversed (.byte b :: (chunk.map .byte ++ signals)) =
          linesFrom (b :: reversed) (chunk.map .byte ++ signals) := by
        simp [linesFrom, hb]
      rw [List.map_cons, List.cons_append, hstep, ih (by simp [hline, Ne.symm hb])]
      simp

/-- Behind the end of a stream no line begins. -/
theorem linesFrom_ended {rest : List Read} (h : ∀ read ∈ rest, read = .bytes []) :
    linesFrom [] (rest.flatMap Read.signals) = [] ∧ content rest = ⟨[], none⟩ := by
  induction rest with
  | nil => exact ⟨rfl, rfl⟩
  | cons read rest ih =>
    obtain rfl := h read List.mem_cons_self
    obtain ⟨-, hcontent⟩ := ih fun other hmem => h other (List.mem_cons_of_mem _ hmem)
    exact ⟨rfl, by simp [content, hcontent]⟩

theorem linesFrom_eq (reads : List Read) (hends : EndsOnce reads) :
    ∃ later, ∀ reversed, 10 ∉ reversed →
      linesFrom reversed (reads.flatMap Read.signals) =
        Content.deliveries ⟨reversed.reverse ++ (content reads).bytes, (content reads).halt⟩
          later := by
  induction reads with
  | nil =>
    refine ⟨[], ?_⟩
    intro reversed hline
    simp only [List.flatMap_nil, linesFrom, content, List.append_nil]
    rw [deliveries_last (by simpa using hline), delivered_eq]
    simp
  | cons read rest ih =>
    obtain ⟨hread, hrest⟩ := List.pairwise_cons.1 hends
    obtain ⟨later, ih⟩ := ih hrest
    cases read with
    | bytes chunk =>
      by_cases hchunk : chunk = []
      · subst hchunk
        obtain ⟨hnone, hcontent⟩ := linesFrom_ended fun next hmem => hread next hmem rfl
        refine ⟨[], ?_⟩
        intro reversed hline
        have hstep : linesFrom reversed ((Read.bytes [] :: rest).flatMap Read.signals) =
            if reversed.isEmpty then [] else [delivered reversed] := by
          simp [Read.signals, linesFrom, hnone]
        rw [hstep, content, hcontent, List.append_nil, List.append_nil,
          deliveries_last (by simpa using hline), delivered_eq]
        simp
      · have hsignals : (Read.bytes chunk).signals = chunk.map .byte := by
          cases chunk with
          | nil => exact absurd rfl hchunk
          | cons b chunk => rfl
        refine ⟨later, ?_⟩
        intro reversed hline
        rw [List.flatMap_cons, hsignals]
        exact linesFrom_chunk chunk hline ih
    | interrupted => exact ⟨later, ih⟩
    | failed message =>
      refine ⟨linesFrom [] (rest.flatMap Read.signals), ?_⟩
      intro reversed hline
      rw [content, List.append_nil, deliveries_halt (by simpa using hline)]
      rfl
    | crashed message =>
      refine ⟨[], ?_⟩
      intro reversed hline
      rw [content, List.append_nil, deliveries_halt (by simpa using hline)]
      rfl

/-- A source delivers its physical lines, and then its first failure if one of its reads fails. -/
theorem lines_eq_deliveries (reads : List Read) (hends : EndsOnce reads) :
    ∃ later, lines reads = (content reads).deliveries later := by
  obtain ⟨later, h⟩ := linesFrom_eq reads hends
  exact ⟨later, h [] (by simp)⟩

/-! ## Streams that end -/

/-- The reads bring these bytes, in whatever pieces and with whatever interruptions, and then the
stream ends. -/
structure Delivers (reads : List Read) (bytes : List UInt8) : Prop where
  ends : EndsOnce reads
  content : content reads = ⟨bytes, none⟩

instance (reads : List Read) (bytes : List UInt8) : Decidable (Delivers reads bytes) :=
  decidable_of_iff (EndsOnce reads ∧ content reads = ⟨bytes, none⟩)
    ⟨fun h => ⟨h.1, h.2⟩, fun h => ⟨h.ends, h.content⟩⟩

/-- The lines of a stream that ends behind these bytes. -/
def physicalLines (bytes : List UInt8) : List (List UInt8) := Content.lines ⟨bytes, none⟩

theorem physicalLines_append {line : List UInt8} (h : 10 ∉ line) (rest : List UInt8) :
    physicalLines (line ++ 10 :: rest) = withoutReturn line :: physicalLines rest := by
  simp only [physicalLines, Content.lines, endedLines_append h, lastLine_append h]
  split <;> rfl

theorem Delivers.lines {reads : List Read} {bytes : List UInt8} (h : Delivers reads bytes) :
    lines reads = (physicalLines bytes).map deliver := by
  obtain ⟨later, hlines⟩ := lines_eq_deliveries reads h.ends
  rw [hlines, h.content, Content.deliveries, List.append_nil, physicalLines]

end AccessLog.Log

import TrustStore.Pem.Block
import TrustStore.Proofs.Bytes

/-!
# The grammar of PEM text

What the lines of a text are, said without the reader: `Written` lines are blocks in full with any
other text between them, `Malformed` lines begin with something that ends the reading for good, and
an `Opening` is a block that is not closed yet.  The lines of every text are written ones, followed
by nothing, by an unfinished block or by malformed lines (`cut_lines`).

Text after written lines is read as if it stood alone (`Written.scanLines_append`), and text after
malformed lines is not read at all (`Malformed.scanLines_append`).  So the blocks of a text are
the first ones of every longer text, provided that the shorter one ends a line (`blocks_prefix`); and
a text that is read to its end, which is one that is written in full (`scan_eq_iff`), can be cut off
and read alone (`scan_append`).
-/

namespace TrustStore.Pem

/-! ### Lines of joined texts -/

/-- The text is empty or ends with the end of a line. -/
def EndsLine (a : Bytes) : Prop := ∀ b ∈ a.getLast?, b = Ascii.lineFeed

instance (a : Bytes) : Decidable (EndsLine a) :=
  inferInstanceAs (Decidable (∀ b ∈ a.getLast?, b = Ascii.lineFeed))

theorem EndsLine.of_cons {x : UInt8} {a : Bytes} (h : EndsLine (x :: a)) : EndsLine a := by
  intro b hb
  refine h b ?_
  rw [List.getLast?_cons, Option.mem_def.mp hb]
  rfl

theorem lines_ne_nil {a : Bytes} (h : a ≠ []) : lines a ≠ [] := by
  cases a with
  | nil => exact absurd rfl h
  | cons x rest =>
    unfold lines
    split
    · exact List.cons_ne_nil _ _
    · split <;> exact List.cons_ne_nil _ _

/-- After the end of a line the lines of two texts come one after the other. -/
theorem lines_append {a : Bytes} (h : EndsLine a) (b : Bytes) :
    lines (a ++ b) = lines a ++ lines b := by
  induction a with
  | nil => rfl
  | cons x rest ih =>
    have ih := ih h.of_cons
    rw [List.cons_append, lines, lines, ih]
    split
    · rfl
    · rename_i hx
      -- the line of this byte goes on, and it ends within the text
      have hrest : rest ≠ [] := by
        rintro rfl
        exact hx (h x rfl)
      rcases hlines : lines rest with - | ⟨line, more⟩
      · exact absurd hlines (lines_ne_nil hrest)
      · rfl

/-! ### Marks -/

theorem hasDashes_iff {s : List Char} : hasDashes s = true ↔ dashes <:+: s := by
  induction s with
  | nil => exact ⟨nofun, fun h => absurd (List.infix_nil.mp h) (by decide)⟩
  | cons c rest ih =>
    rw [hasDashes, Bool.or_eq_true, ih, List.isPrefixOf_iff_prefix, List.infix_cons_iff]

/-- The label in what follows the mark of a header: up to the first dash. -/
def labelOf (rest : List Char) : String := String.ofList (rest.takeWhile (· != '-'))

theorem label?_of_infix {rest : List Char} (h : dashes <:+: rest) :
    label? rest = some (labelOf rest) :=
  if_pos (hasDashes_iff.mpr h)

theorem label?_eq_none {rest : List Char} (h : ¬ dashes <:+: rest) : label? rest = none :=
  if_neg fun hdashes => h (hasDashes_iff.mp hdashes)

/-! ### Steps of reading -/

namespace Scan

/-- The scan of a text with some blocks before it. -/
def after (blocks : List Block) (s : Scan) : Scan := ⟨blocks ++ s.blocks, s.clean⟩

theorem after_append (front back : List Block) (s : Scan) :
    (s.after back).after front = s.after (front ++ back) := by
  rw [after, after, after, List.append_assoc]

end Scan

section Steps

variable {s : List Char} (rest : List Bytes)

/-- A line outside a block is skipped unless it opens one. -/
theorem scanLines_filler (h : ¬ beginMark <+: s) :
    scanLines .outside (Bytes.ofChars s :: rest) = scanLines .outside rest := by
  rw [scanLines, Bytes.text?_ofChars]
  dsimp only
  rw [String.toList_ofList, if_neg]
  rwa [List.isPrefixOf_iff_prefix]

/-- An opening line starts a block, if it has a label. -/
theorem scanLines_header :
    scanLines .outside (Bytes.ofChars (beginMark ++ s) :: rest)
      = match label? s with
        | none => .malformed
        | some label => scanLines (.inside label []) rest := by
  have hmark : beginMark.isPrefixOf (beginMark ++ s) = true :=
    List.isPrefixOf_iff_prefix.mpr (List.prefix_append beginMark s)
  rw [scanLines, Bytes.text?_ofChars]
  dsimp only
  rw [String.toList_ofList, List.drop_left]
  exact if_pos hmark

variable (label : String) (body : List Char)

/-- A line inside a block adds to its content. -/
theorem scanLines_body (h : ¬ endMark <+: s) :
    scanLines (.inside label body) (Bytes.ofChars s :: rest)
      = scanLines (.inside label (body ++ Text.trimEnd s)) rest := by
  rw [scanLines, Bytes.text?_ofChars]
  dsimp only
  rw [String.toList_ofList, if_neg]
  rwa [List.isPrefixOf_iff_prefix]

/-- The lines of a body are read one after the other. -/
theorem scanLines_inner {more : List (List Char)} (h : ∀ s ∈ more, ¬ endMark <+: s) :
    scanLines (.inside label body) (more.map Bytes.ofChars ++ rest)
      = scanLines (.inside label (body ++ more.flatMap Text.trimEnd)) rest := by
  induction more generalizing body with
  | nil =>
    rw [List.flatMap_nil, List.append_nil]
    rfl
  | cons s more ih =>
    obtain ⟨hs, hmore⟩ := List.forall_mem_cons.mp h
    rw [List.map_cons, List.cons_append, scanLines_body _ _ _ hs, ih _ hmore, List.flatMap_cons,
      List.append_assoc]

/-- A closing line ends the block, if its content decodes. -/
theorem scanLines_footer :
    scanLines (.inside label body) (Bytes.ofChars (endMark ++ s) :: rest)
      = match Base64.decode body with
        | none => .malformed
        | some content => (scanLines .outside rest).after [⟨label, content⟩] := by
  have hmark : endMark.isPrefixOf (endMark ++ s) = true :=
    List.isPrefixOf_iff_prefix.mpr (List.prefix_append endMark s)
  rw [scanLines, Bytes.text?_ofChars]
  dsimp only
  rw [String.toList_ofList]
  exact if_pos hmark

/-- A line that is not text ends the scan. -/
theorem scanLines_notText (reading : Reading) {line : Bytes} (h : line.text? = none) :
    scanLines reading (line :: rest) = .malformed := by
  cases reading <;> rw [scanLines, h]

end Steps

/-! ### Written and malformed lines -/

/-- A block without its footer: what follows the mark of its header, and the lines of its body. -/
structure Opening where
  header : List Char
  body : List (List Char)
  /-- The closing dashes of the header are there. -/
  named : dashes <:+: header
  inner : ∀ s ∈ body, ¬ endMark <+: s

namespace Opening

variable (o : Opening)

def label : String := labelOf o.header

/-- The body in one text, without the blanks at the ends of its lines. -/
def encoded : List Char := o.body.flatMap Text.trimEnd

def lines : List Bytes := Bytes.ofChars (beginMark ++ o.header) :: o.body.map Bytes.ofChars

/-- The block with one more line. -/
def snoc {s : List Char} (h : ¬ endMark <+: s) : Opening where
  header := o.header
  body := o.body ++ [s]
  named := o.named
  inner := by
    intro t ht
    rcases List.mem_append.mp ht with ht | ht
    · exact o.inner t ht
    · rwa [List.mem_singleton.mp ht]

theorem lines_snoc {s : List Char} (h : ¬ endMark <+: s) :
    (o.snoc h).lines = o.lines ++ [Bytes.ofChars s] := by
  show _ :: (o.body ++ [s]).map Bytes.ofChars = _
  rw [List.map_append]
  rfl

theorem scanLines_lines_append (rest : List Bytes) :
    scanLines .outside (o.lines ++ rest) = scanLines (.inside o.label o.encoded) rest := by
  rw [lines, List.cons_append, scanLines_header, label?_of_infix o.named]
  exact scanLines_inner rest o.label [] o.inner

end Opening

/-- The lines are blocks in full, with lines between them that begin no block. -/
inductive Written : List Bytes → List Block → Prop
  | nil : Written [] []
  | filler {s : List Char} {ls : List Bytes} {blocks : List Block} (h : ¬ beginMark <+: s)
      (rest : Written ls blocks) : Written (Bytes.ofChars s :: ls) blocks
  | block {o : Opening} {content : Bytes} {ls : List Bytes} {blocks : List Block}
      (h : Base64.decode o.encoded = some content) (footer : List Char)
      (rest : Written ls blocks) :
      Written (o.lines ++ Bytes.ofChars (endMark ++ footer) :: ls) (⟨o.label, content⟩ :: blocks)

/-- The lines begin with a header without its closing dashes, a block whose body is not Base64, or
a line that is not text, which may stand within a block. -/
inductive Malformed : List Bytes → Prop
  | header {s : List Char} (h : ¬ dashes <:+: s) (more : List Bytes) :
      Malformed (Bytes.ofChars (beginMark ++ s) :: more)
  | body {o : Opening} (h : Base64.decode o.encoded = none) (footer : List Char)
      (more : List Bytes) : Malformed (o.lines ++ Bytes.ofChars (endMark ++ footer) :: more)
  | outside {line : Bytes} (h : line.text? = none) (more : List Bytes) : Malformed (line :: more)
  | inside {line : Bytes} (o : Opening) (h : line.text? = none) (more : List Bytes) :
      Malformed (o.lines ++ line :: more)

variable {ls : List Bytes} {blocks : List Block}

theorem Written.append {ls' : List Bytes} {blocks' : List Block} (h : Written ls blocks)
    (h' : Written ls' blocks') : Written (ls ++ ls') (blocks ++ blocks') := by
  induction h with
  | nil => exact h'
  | filler hs _ ih => exact .filler hs ih
  | block hcontent footer _ ih =>
    rw [List.append_assoc]
    exact .block hcontent footer ih

/-- What follows written lines is read as if it stood alone. -/
theorem Written.scanLines_append (h : Written ls blocks) (rest : List Bytes) :
    scanLines .outside (ls ++ rest) = (scanLines .outside rest).after blocks := by
  -- on the way the lines are written: after a whole block the reader is outside again
  induction h with
  | nil => rfl
  | filler hs _ ih => rw [List.cons_append, scanLines_filler _ hs, ih]
  | block hcontent footer _ ih =>
    rw [List.append_assoc, Opening.scanLines_lines_append, List.cons_append, scanLines_footer,
      hcontent]
    dsimp only
    rw [ih, Scan.after_append]
    rfl

/-- What follows malformed lines is not read. -/
theorem Malformed.scanLines_append (h : Malformed ls) (rest : List Bytes) :
    scanLines .outside (ls ++ rest) = .malformed := by
  -- the scan stops at the part that is malformed, whatever follows
  cases h with
  | header hs more => rw [List.cons_append, scanLines_header, label?_eq_none hs]
  | body hdecode footer more =>
    rw [List.append_assoc, Opening.scanLines_lines_append, List.cons_append, scanLines_footer,
      hdecode]
  | outside hline more => rw [List.cons_append, scanLines_notText _ _ hline]
  | inside o hline more =>
    rw [List.append_assoc, Opening.scanLines_lines_append, List.cons_append,
      scanLines_notText _ _ hline]

theorem Malformed.scanLines (h : Malformed ls) : scanLines .outside ls = .malformed := by
  rw [← List.append_nil ls, h.scanLines_append]

theorem Opening.scanLines_lines (o : Opening) : scanLines .outside o.lines = .malformed := by
  rw [← List.append_nil o.lines, o.scanLines_lines_append, scanLines]

/-! ### The lines of any text -/

/-- What stands after the written lines of a text. -/
inductive Remainder : List Bytes → Prop
  | none : Remainder []
  | unfinished (o : Opening) : Remainder o.lines
  | malformed {ls : List Bytes} (h : Malformed ls) : Remainder ls

/-- A remainder that is not empty yields nothing but the end of the reading. -/
theorem Remainder.eq_nil_or {rest : List Bytes} (h : Remainder rest) :
    rest = [] ∨ scanLines .outside rest = .malformed := by
  cases h with
  | none => exact Or.inl rfl
  | unfinished o => exact Or.inr o.scanLines_lines
  | malformed h => exact Or.inr h.scanLines

theorem Remainder.blocks_eq_nil {rest : List Bytes} (h : Remainder rest) :
    (scanLines .outside rest).blocks = [] := by
  rcases h.eq_nil_or with rfl | hscan
  · rfl
  · rw [hscan]
    rfl

/-- Lines can be cut into written ones and a remainder. -/
def Cut (ls : List Bytes) : Prop :=
  ∃ front rest blocks, ls = front ++ rest ∧ Written front blocks ∧ Remainder rest

theorem Remainder.cut {rest : List Bytes} (h : Remainder rest) : Cut rest :=
  ⟨[], rest, [], rfl, .nil, h⟩

theorem Written.cut_append (h : Written ls blocks) {more : List Bytes} (hmore : Cut more) :
    Cut (ls ++ more) := by
  obtain ⟨front, rest, blocks', rfl, hfront, hrest⟩ := hmore
  exact ⟨ls ++ front, rest, _, (List.append_assoc ..).symm, h.append hfront, hrest⟩

/-- Any lines can be cut so, also after the beginning of a block. -/
theorem cut_lines (ls : List Bytes) : Cut ls ∧ ∀ o : Opening, Cut (o.lines ++ ls) := by
  -- a header leads from the first half to the second one, and a footer back
  induction ls with
  | nil =>
    refine ⟨Remainder.none.cut, fun o => ?_⟩
    rw [List.append_nil]
    exact (Remainder.unfinished o).cut
  | cons line ls ih =>
    obtain ⟨ihoutside, ihinside⟩ := ih
    rcases htext : line.text? with - | text
    · exact ⟨(Remainder.malformed (.outside htext ls)).cut,
        fun o => (Remainder.malformed (.inside o htext ls)).cut⟩
    obtain ⟨s, rfl⟩ : ∃ s, line = Bytes.ofChars s := ⟨_, Bytes.eq_ofChars_of_text? htext⟩
    refine ⟨?_, fun o => ?_⟩
    · by_cases hmark : beginMark <+: s
      · obtain ⟨header, rfl⟩ := hmark
        by_cases hnamed : dashes <:+: header
        · exact ihinside ⟨header, [], hnamed, nofun⟩
        · exact (Remainder.malformed (.header hnamed ls)).cut
      · exact (Written.filler hmark .nil).cut_append ihoutside
    · by_cases hmark : endMark <+: s
      · obtain ⟨footer, rfl⟩ := hmark
        rcases hdecode : Base64.decode o.encoded with - | content
        · exact (Remainder.malformed (.body hdecode footer ls)).cut
        · have hblock := (Written.block hdecode footer .nil).cut_append ihoutside
          rwa [List.append_assoc] at hblock
      · have hlonger := ihinside (o.snoc hmark)
        rwa [o.lines_snoc, List.append_assoc] at hlonger

/-! ### Scans of joined texts -/

section Joined

variable {a : Bytes}

/-- What is written is scanned, to a clean end. -/
theorem scan_of_written (h : Written (lines a) blocks) : scan a = ⟨blocks, true⟩ := by
  have hscan := h.scanLines_append []
  rw [List.append_nil, scanLines, Scan.after, List.append_nil] at hscan
  exact hscan

/-- A clean end has only written blocks before it. -/
theorem exists_written_of_clean (h : (scan a).clean = true) :
    ∃ blocks, Written (lines a) blocks := by
  obtain ⟨⟨front, rest, blocks, hlines, hfront, hrest⟩, -⟩ := cut_lines (lines a)
  rcases hrest.eq_nil_or with rfl | hscan
  · rw [hlines, List.append_nil]
    exact ⟨blocks, hfront⟩
  · rw [scan, hlines, hfront.scanLines_append, hscan] at h
    cases h

/-- A text is read to its end if and only if it is written in full. -/
theorem scan_eq_iff : scan a = ⟨blocks, true⟩ ↔ Written (lines a) blocks := by
  constructor
  · intro h
    obtain ⟨blocks', hwritten⟩ := exists_written_of_clean (congrArg Scan.clean h)
    obtain rfl : blocks' = blocks :=
      congrArg Scan.blocks ((scan_of_written hwritten).symm.trans h)
    exact hwritten
  · exact scan_of_written

variable (ha : EndsLine a)

include ha

/-- A text that is read to its end comes before whatever follows it. -/
theorem scan_append (h : (scan a).clean = true) (b : Bytes) :
    scan (a ++ b) = (scan b).after (scan a).blocks := by
  obtain ⟨blocks, hwritten⟩ := exists_written_of_clean h
  rw [scan_of_written hwritten, scan, lines_append ha]
  exact hwritten.scanLines_append (lines b)

/-- What follows a text takes away none of its blocks. -/
theorem blocks_prefix (b : Bytes) : (scan a).blocks <+: (scan (a ++ b)).blocks := by
  obtain ⟨⟨front, rest, blocks, hlines, hfront, hrest⟩, -⟩ := cut_lines (lines a)
  rw [scan, scan, lines_append ha, hlines, List.append_assoc, hfront.scanLines_append,
    hfront.scanLines_append, Scan.after, hrest.blocks_eq_nil, List.append_nil]
  exact List.prefix_append blocks _

/-- What follows a malformed part is not read. -/
theorem scan_append_malformed {m : Bytes} (h : (scan a).clean = true) (hm : EndsLine m)
    (hmalformed : Malformed (lines m)) (b : Bytes) :
    scan (a ++ (m ++ b)) = ⟨(scan a).blocks, false⟩ := by
  have hrest : scan (m ++ b) = .malformed := by
    rw [scan, lines_append hm]
    exact hmalformed.scanLines_append (lines b)
  rw [scan_append ha h, hrest, Scan.after, Scan.malformed, List.append_nil]

end Joined

end TrustStore.Pem

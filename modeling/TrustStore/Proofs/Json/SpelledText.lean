import TrustStore.Json.Decoder
import TrustStore.Proofs.Json.NumberText
import TrustStore.Proofs.Json.StringText

/-!
# Texts of the grammar read back

A text of the grammar is read as the source that it spells, and nothing of it is left over
(`read_of_spells`).

The proof follows the derivation.  Each call of the reader takes at least one byte of the text, so
the length of the text is fuel enough; and what follows a value inside a container, white space and
then a comma or the closing bracket, carries no numeral on.  A derivation gives the white space
after a value to that value, where the reader leaves it to its caller: what the reader of an element
leaves is therefore known up to white space only (`SpellsElement.read`).
-/

namespace TrustStore.Json

/-! ### White space -/

theorem isSpace_gap {c : Char} (h : c ∈ [' ', '\t', '\n', '\r']) :
    c.toNat < 0x80 ∧ isSpace c.toNat.toUInt8 = true := by
  simp only [List.mem_cons, List.not_mem_nil, or_false] at h
  rcases h with rfl | rfl | rfl | rfl <;> decide

/-- A numeral does not go on with white space. -/
theorem endsNumeral_gap {c : Char} (h : c ∈ [' ', '\t', '\n', '\r']) (rest : Bytes) :
    EndsNumeral (c.toNat.toUInt8 :: rest) := by
  simp only [List.mem_cons, List.not_mem_nil, or_false] at h
  rcases h with rfl | rfl | rfl | rfl <;> exact endsNumeral_cons (by decide) rest

theorem skipSpace_cons {b : UInt8} (h : isSpace b = true) (s : Bytes) :
    skipSpace (b :: s) = skipSpace s :=
  List.dropWhile_cons_of_pos h

theorem skipSpace_skipSpace (s : Bytes) : skipSpace (skipSpace s) = skipSpace s := by
  induction s with
  | nil => rfl
  | cons b s ih =>
    by_cases hspace : isSpace b = true
    · rw [skipSpace_cons hspace, ih]
    · have hstop : skipSpace (b :: s) = b :: s := List.dropWhile_cons_of_neg hspace
      rw [hstop, hstop]

/-- Reading goes on after a gap. -/
theorem IsGap.skipSpace {gap : List Char} (h : IsGap gap) (s : Bytes) :
    skipSpace (Bytes.ofChars gap ++ s) = skipSpace s := by
  induction gap with
  | nil => rfl
  | cons c gap ih =>
    obtain ⟨hlt, hspace⟩ := isSpace_gap (h c List.mem_cons_self)
    rw [Bytes.ofChars_cons_of_lt hlt, List.cons_append, skipSpace_cons hspace]
    exact ih fun d hd => h d (List.mem_cons_of_mem c hd)

/-- White space carries no numeral on. -/
theorem IsGap.endsNumeral {gap : List Char} (h : IsGap gap) {rest : Bytes}
    (hrest : EndsNumeral rest) : EndsNumeral (Bytes.ofChars gap ++ rest) := by
  rcases gap with - | ⟨c, gap⟩
  · exact hrest
  · have hc := h c List.mem_cons_self
    rw [Bytes.ofChars_cons_of_lt (isSpace_gap hc).1]
    exact endsNumeral_gap hc _

/-! ### First bytes -/

/-- The bytes begin with one that is no space and closes no container. -/
def Opens (s : Bytes) : Prop :=
  ∃ b bs, s = b :: bs ∧ isSpace b = false ∧ b ≠ Ascii.closeBracket ∧ b ≠ Ascii.closeBrace

theorem Opens.append {s : Bytes} (h : Opens s) (t : Bytes) : Opens (s ++ t) := by
  obtain ⟨b, bs, rfl, hb⟩ := h
  exact ⟨b, bs ++ t, rfl, hb⟩

theorem Opens.skipSpace {s : Bytes} (h : Opens s) : skipSpace s = s := by
  obtain ⟨b, bs, rfl, hspace, -⟩ := h
  exact List.dropWhile_cons_of_neg (by simp [hspace])

theorem BeginsNumeral.bounds {b : UInt8} (h : BeginsNumeral b) :
    0x2D ≤ b.toNat ∧ b.toNat ≤ 0x39 := by
  rcases h with hdigit | rfl
  · rw [Ascii.isDigit, decide_eq_true_eq, UInt8.le_iff_toNat_le, UInt8.le_iff_toNat_le] at hdigit
    have hlo : 0x30 ≤ b.toNat := hdigit.1
    have hhi : b.toNat ≤ 0x39 := hdigit.2
    omega
  · decide

theorem BeginsNumeral.ne {b c : UInt8} (h : BeginsNumeral b)
    (hc : c.toNat < 0x2D ∨ 0x39 < c.toNat) : b ≠ c := by
  rintro rfl
  have hb := h.bounds
  omega

theorem BeginsNumeral.opens {b : UInt8} (h : BeginsNumeral b) (bs : Bytes) : Opens (b :: bs) := by
  refine ⟨b, bs, rfl, ?_, h.ne (by decide), h.ne (by decide)⟩
  have htab := h.ne (c := Ascii.tab) (by decide)
  have hfeed := h.ne (c := Ascii.lineFeed) (by decide)
  have hreturn := h.ne (c := Ascii.carriageReturn) (by decide)
  have hspace := h.ne (c := Ascii.space) (by decide)
  simp [isSpace, htab, hfeed, hreturn, hspace]

theorem SpellsNumeral.opens {n : Numeral} {t : List Char} (h : SpellsNumeral n t) :
    Opens (Bytes.ofChars t) := by
  obtain ⟨b, bs, hbytes, hb⟩ := ofChars_numeral h
  rw [hbytes]
  exact hb.opens bs

/-- A text that begins with an ASCII character that is no space and closes nothing. -/
theorem opens_cons {c : Char} (hlt : c.toNat < 0x80)
    (hc : isSpace c.toNat.toUInt8 = false ∧ c.toNat.toUInt8 ≠ Ascii.closeBracket ∧
      c.toNat.toUInt8 ≠ Ascii.closeBrace) (t : List Char) : Opens (Bytes.ofChars (c :: t)) := by
  rw [Bytes.ofChars_cons_of_lt hlt]
  exact ⟨_, _, rfl, hc⟩

/-- No value begins with a space or a closing mark. -/
theorem Spells.opens {s : Source} {t : List Char} (h : Spells s t) : Opens (Bytes.ofChars t) := by
  rcases h with - | - | - | hn | hn | - | - | - | - | - | -
  · exact opens_cons (by decide) (by decide) _
  · exact opens_cons (by decide) (by decide) _
  · exact opens_cons (by decide) (by decide) _
  · obtain ⟨m, hm, -⟩ := spellsNumeral_int hn
    exact hm.opens
  · exact hn.opens
  · exact opens_cons (by decide) (by decide) _
  · exact opens_cons (by decide) (by decide) _
  · exact opens_cons (by decide) (by decide) _
  · exact opens_cons (by decide) (by decide) _
  · exact opens_cons (by decide) (by decide) _
  · exact opens_cons (by decide) (by decide) _

theorem SpellsElement.opens {s : Source} {t : List Char} (h : SpellsElement s t) (rest : Bytes) :
    Opens (skipSpace (Bytes.ofChars t ++ rest)) := by
  obtain ⟨hbefore, hs, -⟩ := h
  rw [Bytes.ofChars_append, Bytes.ofChars_append, List.append_assoc, List.append_assoc,
    hbefore.skipSpace, (hs.opens.append _).skipSpace]
  exact hs.opens.append _

theorem SpellsItems.opens {items : List Source} {t : List Char} (h : SpellsItems items t)
    (rest : Bytes) : Opens (skipSpace (Bytes.ofChars t ++ rest)) := by
  rcases h with h | ⟨h, -⟩
  · exact h.opens rest
  · rw [Bytes.ofChars_append, List.append_assoc]
    exact h.opens _

theorem SpellsMembers.opens {members : List (Source × Source)} {t : List Char}
    (h : SpellsMembers members t) (rest : Bytes) :
    Opens (skipSpace (Bytes.ofChars t ++ rest)) := by
  rcases h with ⟨hkey, -⟩ | ⟨hkey, -, -⟩
  · rw [Bytes.ofChars_append, List.append_assoc]
    exact hkey.opens _
  · rw [Bytes.ofChars_append, Bytes.ofChars_append, List.append_assoc, List.append_assoc]
    exact hkey.opens _

/-! ### Calls of the reader -/

theorem readValue_skipSpace (fuel : Nat) (s : Bytes) :
    readValue fuel (skipSpace s) = readValue fuel s := by
  cases fuel with
  | zero => rfl
  | succ fuel => rw [readValue, readValue, skipSpace_skipSpace]

theorem readItems_skipSpace (fuel : Nat) (s : Bytes) :
    readItems fuel (skipSpace s) = readItems fuel s := by
  cases fuel with
  | zero => rfl
  | succ fuel => rw [readItems, readItems, readValue_skipSpace]

theorem readMembers_skipSpace (fuel : Nat) (s : Bytes) :
    readMembers fuel (skipSpace s) = readMembers fuel s := by
  cases fuel with
  | zero => rfl
  | succ fuel => rw [readMembers, readMembers, readValue_skipSpace]

theorem readValue_quote (fuel : Nat) (s : Bytes) :
    readValue (fuel + 1) (Ascii.quote :: s) = readString s := rfl

theorem readValue_numeral (fuel : Nat) {b : UInt8} (hb : BeginsNumeral b) (bs : Bytes) :
    readValue (fuel + 1) (b :: bs) = readNumber (b :: bs) := by
  rw [readValue, (hb.opens bs).skipSpace]
  -- the first byte is none of those that open another kind of value
  split
  · contradiction
  iterate 6
    · rename_i heq
      exact absurd (List.cons.inj heq).1 (hb.ne (by decide))
  · rfl

theorem readValue_openBracket_eq (fuel : Nat) (s : Bytes) :
    readValue (fuel + 1) (Ascii.openBracket :: s) = match skipSpace s with
      | Ascii.closeBracket :: rest => (.array [] true, some rest)
      | rest => (.array (readItems fuel rest).1.1 (readItems fuel rest).1.2,
          (readItems fuel rest).2) := rfl

theorem readValue_openBracket (fuel : Nat) {s : Bytes} (h : Opens (skipSpace s)) :
    readValue (fuel + 1) (Ascii.openBracket :: s)
      = (.array (readItems fuel s).1.1 (readItems fuel s).1.2, (readItems fuel s).2) := by
  rw [readValue_openBracket_eq, ← readItems_skipSpace fuel s]
  obtain ⟨b, bs, heq, -, hbracket, -⟩ := h
  rw [heq]
  split
  · rename_i heq
    exact absurd (List.cons.inj heq).1 hbracket
  · rfl

theorem readValue_openBrace_eq (fuel : Nat) (s : Bytes) :
    readValue (fuel + 1) (Ascii.openBrace :: s) = match skipSpace s with
      | Ascii.closeBrace :: rest => (.object [] true, some rest)
      | rest => (.object (readMembers fuel rest).1.1 (readMembers fuel rest).1.2,
          (readMembers fuel rest).2) := rfl

theorem readValue_openBrace (fuel : Nat) {s : Bytes} (h : Opens (skipSpace s)) :
    readValue (fuel + 1) (Ascii.openBrace :: s)
      = (.object (readMembers fuel s).1.1 (readMembers fuel s).1.2, (readMembers fuel s).2) := by
  rw [readValue_openBrace_eq, ← readMembers_skipSpace fuel s]
  obtain ⟨b, bs, heq, -, -, hbrace⟩ := h
  rw [heq]
  split
  · rename_i heq
    exact absurd (List.cons.inj heq).1 hbrace
  · rfl

section

variable {fuel : Nat} {s r t rest : Bytes} {item value : Source} {key : Option String}

theorem readItems_last (h : readValue fuel s = (item, some r))
    (hr : skipSpace r = Ascii.closeBracket :: rest) :
    readItems (fuel + 1) s = (([item], true), some rest) := by
  have hnext : (some r).map skipSpace = some (Ascii.closeBracket :: rest) := congrArg some hr
  rw [readItems, h]
  dsimp only
  rw [hnext]
  rfl

theorem readItems_comma_eq (h : readValue fuel s = (item, some r))
    (hr : skipSpace r = Ascii.comma :: t) :
    readItems (fuel + 1) s = match skipSpace t with
      | Ascii.closeBracket :: _ => (([item], false), none)
      | rest => ((item :: (readItems fuel rest).1.1, (readItems fuel rest).1.2),
          (readItems fuel rest).2) := by
  have hnext : (some r).map skipSpace = some (Ascii.comma :: t) := congrArg some hr
  rw [readItems, h]
  dsimp only
  rw [hnext]
  rfl

/-- After a comma the list goes on, since a value opens there. -/
theorem readItems_comma (h : readValue fuel s = (item, some r))
    (hr : skipSpace r = Ascii.comma :: t) (ht : Opens (skipSpace t)) :
    readItems (fuel + 1) s
      = ((item :: (readItems fuel t).1.1, (readItems fuel t).1.2), (readItems fuel t).2) := by
  rw [readItems_comma_eq h hr, ← readItems_skipSpace fuel t]
  obtain ⟨b, bs, heq, -, hbracket, -⟩ := ht
  rw [heq]
  split
  · rename_i heq
    exact absurd (List.cons.inj heq).1 hbracket
  · rfl

/-- A key and a colon take the reading to the value. -/
theorem readMembers_key (hkey : readValue fuel s = (.string key, some r))
    (hr : skipSpace r = Ascii.colon :: t) :
    readMembers (fuel + 1) s = match (readValue fuel t).2.map skipSpace with
      | some (Ascii.closeBrace :: rest) =>
        (([(.string key, (readValue fuel t).1)], true), some rest)
      | some (Ascii.comma :: rest) =>
        match skipSpace rest with
        | Ascii.closeBrace :: _ => (([(.string key, (readValue fuel t).1)], false), none)
        | rest => (((.string key, (readValue fuel t).1) :: (readMembers fuel rest).1.1,
            (readMembers fuel rest).1.2), (readMembers fuel rest).2)
      | _ => (([(.string key, (readValue fuel t).1)], false), none) := by
  rw [readMembers, hkey]
  dsimp only
  rw [hr]
  rfl

theorem readMembers_last {u : Bytes} (hkey : readValue fuel s = (.string key, some r))
    (hr : skipSpace r = Ascii.colon :: t) (hvalue : readValue fuel t = (value, some u))
    (hu : skipSpace u = Ascii.closeBrace :: rest) :
    readMembers (fuel + 1) s = (([(.string key, value)], true), some rest) := by
  have hnext : (some u).map skipSpace = some (Ascii.closeBrace :: rest) := congrArg some hu
  rw [readMembers_key hkey hr, hvalue]
  dsimp only
  rw [hnext]
  rfl

theorem readMembers_comma_eq {u v : Bytes} (hkey : readValue fuel s = (.string key, some r))
    (hr : skipSpace r = Ascii.colon :: t) (hvalue : readValue fuel t = (value, some u))
    (hu : skipSpace u = Ascii.comma :: v) :
    readMembers (fuel + 1) s = match skipSpace v with
      | Ascii.closeBrace :: _ => (([(.string key, value)], false), none)
      | rest => (((.string key, value) :: (readMembers fuel rest).1.1,
          (readMembers fuel rest).1.2), (readMembers fuel rest).2) := by
  have hnext : (some u).map skipSpace = some (Ascii.comma :: v) := congrArg some hu
  rw [readMembers_key hkey hr, hvalue]
  dsimp only
  rw [hnext]
  rfl

/-- After a comma the object goes on, since a key opens there. -/
theorem readMembers_comma {u v : Bytes} (hkey : readValue fuel s = (.string key, some r))
    (hr : skipSpace r = Ascii.colon :: t) (hvalue : readValue fuel t = (value, some u))
    (hu : skipSpace u = Ascii.comma :: v) (hv : Opens (skipSpace v)) :
    readMembers (fuel + 1) s
      = (((.string key, value) :: (readMembers fuel v).1.1, (readMembers fuel v).1.2),
          (readMembers fuel v).2) := by
  rw [readMembers_comma_eq hkey hr hvalue hu, ← readMembers_skipSpace fuel v]
  obtain ⟨b, bs, heq, -, -, hbrace⟩ := hv
  rw [heq]
  split
  · rename_i heq
    exact absurd (List.cons.inj heq).1 hbrace
  · rfl

end

/-! ### Values -/

/-- A text around which two ASCII characters stand. -/
theorem ofChars_bracketed (opening closing : Char) (ho : opening.toNat < 0x80)
    (hc : closing.toNat < 0x80) (t : List Char) :
    Bytes.ofChars (opening :: t ++ [closing])
      = opening.toNat.toUInt8 :: (Bytes.ofChars t ++ [closing.toNat.toUInt8]) := by
  rw [List.cons_append, Bytes.ofChars_cons_of_lt ho, Bytes.ofChars_append,
    Bytes.ofChars_cons_of_lt hc]
  rfl

theorem ofChars_array (t : List Char) :
    Bytes.ofChars ('[' :: t ++ [']'])
      = Ascii.openBracket :: (Bytes.ofChars t ++ [Ascii.closeBracket]) :=
  ofChars_bracketed '[' ']' (by decide) (by decide) t

theorem ofChars_object (t : List Char) :
    Bytes.ofChars ('{' :: t ++ ['}'])
      = Ascii.openBrace :: (Bytes.ofChars t ++ [Ascii.closeBrace]) :=
  ofChars_bracketed '{' '}' (by decide) (by decide) t

theorem ofChars_comma (t u : List Char) :
    Bytes.ofChars (t ++ ',' :: u) = Bytes.ofChars t ++ Ascii.comma :: Bytes.ofChars u := by
  rw [Bytes.ofChars_append, Bytes.ofChars_cons_of_lt (by decide)]
  rfl

theorem ofChars_colon (t u : List Char) :
    Bytes.ofChars (t ++ ':' :: u) = Bytes.ofChars t ++ Ascii.colon :: Bytes.ofChars u := by
  rw [Bytes.ofChars_append, Bytes.ofChars_cons_of_lt (by decide)]
  rfl

theorem endsNumeral_comma (rest : Bytes) : EndsNumeral (Ascii.comma :: rest) :=
  endsNumeral_cons (by decide) rest

theorem endsNumeral_colon (rest : Bytes) : EndsNumeral (Ascii.colon :: rest) :=
  endsNumeral_cons (by decide) rest

theorem endsNumeral_closeBracket (rest : Bytes) : EndsNumeral (Ascii.closeBracket :: rest) :=
  endsNumeral_cons (by decide) rest

theorem endsNumeral_closeBrace (rest : Bytes) : EndsNumeral (Ascii.closeBrace :: rest) :=
  endsNumeral_cons (by decide) rest

theorem readValue_pieces (fuel : Nat) {ps : List Piece} {t : List Char} (h : SpellsPieces ps t)
    (rest : Bytes) :
    readValue (fuel + 1) (Bytes.ofChars ('"' :: t ++ ['"']) ++ rest)
      = (.string (piecesText? ps), some rest) := by
  rw [List.cons_append, Bytes.ofChars_cons_of_lt (by decide)]
  exact (readValue_quote fuel _).trans (readString_of_spells h rest)

theorem readValue_of_spellsNumeral (fuel : Nat) {n : Numeral} {t : List Char}
    (h : SpellsNumeral n t) {rest : Bytes} (hrest : EndsNumeral rest) :
    readValue (fuel + 1) (Bytes.ofChars t ++ rest) = (.number n.value?, some rest) := by
  have hread := readNumber_of_spells h hrest
  obtain ⟨b, bs, hbytes, hb⟩ := ofChars_numeral h
  rw [hbytes, List.cons_append] at hread ⊢
  rw [readValue_numeral fuel hb, hread]

mutual

/-- A text is read as what it spells, with as much fuel as it has bytes. -/
theorem Spells.read {s : Source} {t : List Char} : Spells s t → ∀ (fuel : Nat) (rest : Bytes),
    (Bytes.ofChars t).length ≤ fuel → EndsNumeral rest →
    readValue fuel (Bytes.ofChars t ++ rest) = (s, some rest)
  | h, 0, rest, hfuel, _ => by
    obtain ⟨b, bs, hbytes, -⟩ := h.opens
    rw [hbytes] at hfuel
    exact absurd hfuel (Nat.not_succ_le_zero _)
  | .null, fuel + 1, rest, _, _ => rfl
  | .true, fuel + 1, rest, _, _ => rfl
  | .false, fuel + 1, rest, _, _ => rfl
  -- the reader takes a whole number as a numeral without fraction and exponent
  | .integer hn, fuel + 1, rest, _, hrest => by
    obtain ⟨m, hm, hvalue⟩ := spellsNumeral_int hn
    rw [readValue_of_spellsNumeral fuel hm hrest, hvalue]
  | .numeral hn, fuel + 1, rest, _, hrest => readValue_of_spellsNumeral fuel hn hrest
  | .characters hs, fuel + 1, rest, _, _ => by
    obtain ⟨ps, hps, htext⟩ := hs.pieces
    rw [readValue_pieces fuel hps, htext]
  | .pieces hps, fuel + 1, rest, _, _ => readValue_pieces fuel hps rest
  | .emptyArray hgap, fuel + 1, rest, _, _ => by
    rw [ofChars_array, List.cons_append, List.append_assoc, readValue_openBracket_eq,
      hgap.skipSpace]
    rfl
  | .array hitems, fuel + 1, rest, hfuel, _ => by
    rw [ofChars_array, List.length_cons, List.length_append, List.length_singleton] at hfuel
    have hread := hitems.read fuel rest (by omega)
    rw [ofChars_array, List.cons_append, List.append_assoc, List.singleton_append,
      readValue_openBracket fuel (hitems.opens _), hread]
  | .emptyObject hgap, fuel + 1, rest, _, _ => by
    rw [ofChars_object, List.cons_append, List.append_assoc, readValue_openBrace_eq,
      hgap.skipSpace]
    rfl
  -- the braces take two bytes, so there is fuel for the members
  | .object hmembers, fuel + 1, rest, hfuel, _ => by
    rw [ofChars_object, List.length_cons, List.length_append, List.length_singleton] at hfuel
    have hread := hmembers.read fuel rest (by omega)
    rw [ofChars_object, List.cons_append, List.append_assoc, List.singleton_append,
      readValue_openBrace fuel (hmembers.opens _), hread]

/-- What the reader leaves of an element is the white space after the value. -/
theorem SpellsElement.read {s : Source} {t : List Char} : SpellsElement s t →
    ∀ (fuel : Nat) (rest : Bytes), (Bytes.ofChars t).length ≤ fuel → EndsNumeral rest →
    ∃ r, readValue fuel (Bytes.ofChars t ++ rest) = (s, some r) ∧ skipSpace r = skipSpace rest
  | @SpellsElement.mk _ before t after hbefore hs hafter, fuel, rest, hfuel, hrest => by
    rw [Bytes.ofChars_append, Bytes.ofChars_append, List.length_append, List.length_append]
      at hfuel
    have hread := hs.read fuel (Bytes.ofChars after ++ rest) (by omega) (hafter.endsNumeral hrest)
    refine ⟨Bytes.ofChars after ++ rest, ?_, hafter.skipSpace rest⟩
    rw [Bytes.ofChars_append, Bytes.ofChars_append, List.append_assoc, List.append_assoc,
      ← readValue_skipSpace, hbefore.skipSpace, readValue_skipSpace, hread]

/-- Items are read to the closing bracket, one unit of fuel for each. -/
theorem SpellsItems.read {items : List Source} {t : List Char} : SpellsItems items t →
    ∀ (fuel : Nat) (rest : Bytes), (Bytes.ofChars t).length < fuel →
    readItems fuel (Bytes.ofChars t ++ Ascii.closeBracket :: rest) = ((items, true), some rest)
  | _, 0, _, hfuel => absurd hfuel (Nat.not_lt_zero _)
  | .last hitem, fuel + 1, rest, hfuel => by
    obtain ⟨r, hread, hr⟩ := hitem.read fuel (Ascii.closeBracket :: rest)
      (Nat.le_of_lt_succ hfuel) (endsNumeral_closeBracket rest)
    exact readItems_last hread hr
  | @SpellsItems.cons _ _ _ u hitem hitems, fuel + 1, rest, hfuel => by
    rw [ofChars_comma, List.length_append, List.length_cons] at hfuel
    rw [ofChars_comma, List.append_assoc, List.cons_append]
    obtain ⟨r, hread, hr⟩ := hitem.read fuel
      (Ascii.comma :: (Bytes.ofChars u ++ Ascii.closeBracket :: rest)) (by omega)
      (endsNumeral_comma _)
    have htail := hitems.read fuel rest (by omega)
    rw [readItems_comma hread hr (hitems.opens _), htail]

/-- Members are read to the closing brace, one unit of fuel for each. -/
theorem SpellsMembers.read {members : List (Source × Source)} {t : List Char} :
    SpellsMembers members t → ∀ (fuel : Nat) (rest : Bytes), (Bytes.ofChars t).length < fuel →
    readMembers fuel (Bytes.ofChars t ++ Ascii.closeBrace :: rest) = ((members, true), some rest)
  | _, 0, _, hfuel => absurd hfuel (Nat.not_lt_zero _)
  | @SpellsMembers.last _ _ _ v hkey hvalue, fuel + 1, rest, hfuel => by
    rw [ofChars_colon, List.length_append, List.length_cons] at hfuel
    rw [ofChars_colon, List.append_assoc, List.cons_append]
    -- first the key to its colon, then the value to the comma or the brace
    obtain ⟨r, hread, hr⟩ := hkey.read fuel
      (Ascii.colon :: (Bytes.ofChars v ++ Ascii.closeBrace :: rest)) (by omega)
      (endsNumeral_colon _)
    obtain ⟨u, hreadValue, hu⟩ := hvalue.read fuel (Ascii.closeBrace :: rest) (by omega)
      (endsNumeral_closeBrace rest)
    exact readMembers_last hread hr hreadValue hu
  | @SpellsMembers.cons _ _ _ _ v w hkey hvalue hmembers, fuel + 1, rest, hfuel => by
    rw [ofChars_comma, ofChars_colon, List.length_append, List.length_append, List.length_cons,
      List.length_cons] at hfuel
    rw [ofChars_comma, ofChars_colon, List.append_assoc, List.append_assoc, List.cons_append,
      List.cons_append]
    obtain ⟨r, hread, hr⟩ := hkey.read fuel (Ascii.colon :: (Bytes.ofChars v
      ++ Ascii.comma :: (Bytes.ofChars w ++ Ascii.closeBrace :: rest))) (by omega)
      (endsNumeral_colon _)
    obtain ⟨u, hreadValue, hu⟩ := hvalue.read fuel
      (Ascii.comma :: (Bytes.ofChars w ++ Ascii.closeBrace :: rest)) (by omega)
      (endsNumeral_comma _)
    have htail := hmembers.read fuel rest (by omega)
    rw [readMembers_comma hread hr hreadValue hu (hmembers.opens _), htail]

end

/-! ### Whole texts -/

/-- A text is read as what it spells, and only white space is left. -/
theorem read_of_spells {s : Source} {t : List Char} (h : SpellsElement s t) :
    ∃ r, Source.read (Bytes.ofChars t) = (s, some r) ∧ skipSpace r = [] := by
  obtain ⟨r, hread, hr⟩ :=
    h.read (2 * (Bytes.ofChars t).length + 1) [] (by omega) endsNumeral_nil
  rw [List.append_nil] at hread
  exact ⟨r, hread, hr⟩

/-- Decoding a text is decoding what it spells. -/
theorem decodeBytes_of_spells {α : Type} (decoder : Decoder α) {s : Source} {t : List Char}
    (h : SpellsElement s t) : decodeBytes decoder (Bytes.ofChars t) = decoder .whole s := by
  obtain ⟨r, hread, hr⟩ := read_of_spells h
  rw [decodeBytes, hread]
  show (decoder .whole s >>= fun a => if (skipSpace r).isEmpty then .ok a else _) = _
  rw [hr]
  rcases decoder .whole s with e | a <;> rfl

end TrustStore.Json

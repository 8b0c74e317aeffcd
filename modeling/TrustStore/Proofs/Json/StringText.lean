import TrustStore.Proofs.Bytes
import TrustStore.Proofs.Json.Grammar

/-!
# Strings read back

A reader takes a string apart into pieces, a byte each for most characters and a unit for an escaped
code.  It finds the pieces that the text is made of (`readString_of_spells`), and those of a string
of characters, however each is written, are again those characters (`SpellsChars.pieces`).
-/

namespace TrustStore.Json

/-! ### Reading pieces -/

def consPieces (ps : List Piece) (r : Option (List Piece × Bytes)) : Option (List Piece × Bytes) :=
  ps.foldr consPiece r

theorem consPieces_some (ps qs : List Piece) (rest : Bytes) :
    consPieces ps (some (qs, rest)) = some (ps ++ qs, rest) := by
  induction ps with
  | nil => rfl
  | cons p ps ih =>
    show consPiece p (consPieces ps (some (qs, rest))) = _
    rw [ih]
    rfl

theorem consPieces_append (ps qs : List Piece) (r : Option (List Piece × Bytes)) :
    consPieces (ps ++ qs) r = consPieces ps (consPieces qs r) :=
  List.foldr_append

/-- A byte that stands for itself in a string. -/
def IsPlain (b : UInt8) : Prop := ¬ b < 0x20 ∧ b ≠ Ascii.quote ∧ b ≠ Ascii.backslash

theorem readPieces_plain {b : UInt8} (h : IsPlain b) (rest : Bytes) :
    readPieces (b :: rest) = consPiece (.byte b) (readPieces rest) := by
  obtain ⟨hspace, hquote, hbackslash⟩ := h
  rw [readPieces.eq_def]
  split
  · contradiction
  · simp_all
  · simp_all
  · simp_all
  · rename_i heq
    obtain ⟨rfl, rfl⟩ := List.cons.inj heq
    simp [hspace, hbackslash]

/-- Plain bytes are read one by one. -/
theorem readPieces_plains {bs : Bytes} (h : ∀ b ∈ bs, IsPlain b) (rest : Bytes) :
    readPieces (bs ++ rest) = consPieces (bs.map .byte) (readPieces rest) := by
  induction bs with
  | nil => rfl
  | cons b bs ih =>
    rw [List.cons_append, readPieces_plain (h b List.mem_cons_self),
      ih fun c hc => h c (List.mem_cons_of_mem b hc)]
    rfl

/-- A character that stands for itself has plain bytes only. -/
theorem StandsForItself.isPlain {c : Char} (h : StandsForItself c) {b : UInt8}
    (hb : b ∈ String.utf8EncodeChar c) : IsPlain b := by
  obtain ⟨hspace, hquote, hbackslash⟩ := h
  by_cases hascii : c.toNat < 0x80
  · rw [Bytes.utf8EncodeChar_of_lt hascii] at hb
    obtain rfl := List.mem_singleton.mp hb
    have hnat : c.toNat.toUInt8.toNat = c.toNat := by
      rw [UInt8.toNat_ofNat']
      omega
    refine ⟨?_, ?_, ?_⟩
    · rw [UInt8.lt_iff_toNat_lt, hnat]
      exact Nat.not_lt.mpr hspace
    · intro h
      exact hquote (Char.toNat_inj.mp (hnat.symm.trans (congrArg UInt8.toNat h)))
    · intro h
      exact hbackslash (Char.toNat_inj.mp (hnat.symm.trans (congrArg UInt8.toNat h)))
  -- the bytes of longer encodings are above all marks
  · have hhigh := UInt8.le_iff_toNat_le.mp
      (Bytes.le_of_mem_utf8EncodeChar (Nat.not_lt.mp hascii) hb)
    refine ⟨?_, ?_, ?_⟩
    · rw [UInt8.lt_iff_toNat_lt]
      exact Nat.not_lt.mpr (Nat.le_trans (by decide) hhigh)
    · rintro rfl
      exact absurd hhigh (by decide)
    · rintro rfl
      exact absurd hhigh (by decide)

theorem readPieces_letter {c letter : Char} (h : (letter, c) ∈ shortEscapes) (rest : Bytes) :
    readPieces (Bytes.ofChars ['\\', letter] ++ rest)
      = consPieces ((String.utf8EncodeChar c).map .byte) (readPieces rest) := by
  simp only [shortEscapes, List.mem_cons, List.not_mem_nil, or_false, Prod.mk.injEq] at h
  rcases h with ⟨rfl, rfl⟩ | ⟨rfl, rfl⟩ | ⟨rfl, rfl⟩ | ⟨rfl, rfl⟩ | ⟨rfl, rfl⟩ | ⟨rfl, rfl⟩ |
    ⟨rfl, rfl⟩ | ⟨rfl, rfl⟩ <;> rfl

/-- A digit has one value in either case. -/
theorem IsHexDigit.hexValue? {c : Char} {value : Nat} (h : IsHexDigit c value) :
    c.toNat < 0x80 ∧ Ascii.hexValue? c.toNat.toUInt8 = some value := by
  have hsmall : ∀ v < 16, (Nat.digitChar v).toNat < 0x80 ∧
      Ascii.hexValue? (Nat.digitChar v).toNat.toUInt8 = some v := by
    decide
  have hcapital : ∀ v < 16, (Nat.digitChar v).toUpper.toNat < 0x80 ∧
      Ascii.hexValue? (Nat.digitChar v).toUpper.toNat.toUInt8 = some v := by
    decide
  obtain ⟨hlt, rfl | rfl⟩ := h
  · exact hsmall value hlt
  · exact hcapital value hlt

theorem readPieces_smallU (a b c d : UInt8) (rest : Bytes) :
    readPieces (Ascii.backslash :: Ascii.smallU :: a :: b :: c :: d :: rest)
      = match unit? a b c d with
        | some n => consPiece (.unit n) (readPieces rest)
        | none => none := rfl

/-- Four digits give one unit. -/
theorem readPieces_code {digits : List Char} {n : Nat} (h : FourDigits digits n) (rest : Bytes) :
    readPieces (Bytes.ofChars ('\\' :: 'u' :: digits) ++ rest)
      = consPieces [.unit n] (readPieces rest) := by
  rcases h with @⟨a, b, c, d, w, x, y, z, ha, hb, hc, hd⟩
  have hbytes : Bytes.ofChars ['\\', 'u', a, b, c, d]
      = [Ascii.backslash, Ascii.smallU, a.toNat.toUInt8, b.toNat.toUInt8, c.toNat.toUInt8,
          d.toNat.toUInt8] := by
    rw [Bytes.ofChars_cons_of_lt (by decide), Bytes.ofChars_cons_of_lt (by decide),
      Bytes.ofChars_cons_of_lt ha.hexValue?.1, Bytes.ofChars_cons_of_lt hb.hexValue?.1,
      Bytes.ofChars_cons_of_lt hc.hexValue?.1, Bytes.ofChars_cons_of_lt hd.hexValue?.1]
    rfl
  have hunit : unit? a.toNat.toUInt8 b.toNat.toUInt8 c.toNat.toUInt8 d.toNat.toUInt8
      = some (((w * 16 + x) * 16 + y) * 16 + z) := by
    simp only [unit?, ha.hexValue?.2, hb.hexValue?.2, hc.hexValue?.2, hd.hexValue?.2]
  rw [hbytes]
  simp only [List.cons_append, List.nil_append]
  rw [readPieces_smallU, hunit]
  rfl

/-- The pieces of a text are read before those that follow. -/
theorem readPieces_of_spells {ps : List Piece} {t : List Char} (h : SpellsPieces ps t)
    (rest : Bytes) : readPieces (Bytes.ofChars t ++ rest) = consPieces ps (readPieces rest) := by
  induction h generalizing rest with
  | plain h =>
    rw [Bytes.ofChars_cons, Bytes.ofChars_nil, List.append_nil]
    exact readPieces_plains (fun b => h.isPlain) rest
  | letter h => exact readPieces_letter h rest
  | code h => exact readPieces_code h rest
  | nil => rfl
  | append _ _ ihfirst ihrest =>
    rw [Bytes.ofChars_append, List.append_assoc, ihfirst, ihrest, consPieces_append]

theorem readString_of_spells {ps : List Piece} {t : List Char} (h : SpellsPieces ps t)
    (rest : Bytes) :
    readString (Bytes.ofChars (t ++ ['"']) ++ rest) = (.string (piecesText? ps), some rest) := by
  have hpieces : readPieces (Bytes.ofChars (t ++ ['"']) ++ rest) = some (ps, rest) := by
    rw [Bytes.ofChars_append, List.append_assoc, readPieces_of_spells h]
    show consPieces ps (some ([], rest)) = _
    rw [consPieces_some, List.append_nil]
  rw [readString, hpieces]

/-! ### The text of pieces -/

theorem piecesBytes?_bytes (bs : Bytes) (ps : List Piece) :
    piecesBytes? (bs.map .byte ++ ps) = (piecesBytes? ps).map (bs ++ ·) := by
  induction bs with
  | nil => simp
  | cons b bs ih =>
    rw [List.map_cons, List.cons_append, piecesBytes?, ih, Option.map_map]
    rfl

/-- A unit that is no surrogate is the character of its code. -/
theorem piecesBytes?_unit {n : Nat} (h : n < 0xD800 ∨ 0xE000 ≤ n) (ps : List Piece) :
    piecesBytes? (.unit n :: ps)
      = (piecesBytes? ps).map (String.utf8EncodeChar (Char.ofNat n) ++ ·) := by
  have hhigh : ¬ (0xD800 ≤ n ∧ n < 0xDC00) := by omega
  have hlow : ¬ (0xDC00 ≤ n ∧ n < 0xE000) := by omega
  have hlone : ¬ (0xD800 ≤ n ∧ n < 0xE000) := by omega
  -- what follows cannot pair with a unit that is no surrogate
  rcases ps with - | ⟨b | m, ps⟩
  · simp only [piecesBytes?, if_neg hlone]
  · simp only [piecesBytes?, if_neg hlone]
  · simp only [piecesBytes?, if_neg hhigh, if_neg hlow]

/-- Two surrogates give one character. -/
theorem piecesBytes?_pair {high low : Nat} (hhigh : high < 0x400) (hlow : low < 0x400)
    (ps : List Piece) :
    piecesBytes? (.unit (0xD800 + high) :: .unit (0xDC00 + low) :: ps)
      = (piecesBytes? ps).map
          (String.utf8EncodeChar (Char.ofNat (0x10000 + high * 0x400 + low)) ++ ·) := by
  have hchar : pairChar (0xD800 + high) (0xDC00 + low)
      = Char.ofNat (0x10000 + high * 0x400 + low) := by
    rw [pairChar, Nat.add_sub_cancel_left, Nat.add_sub_cancel_left]
  rw [piecesBytes?, if_pos (by omega), if_pos (by omega), hchar]

theorem char_not_surrogate (c : Char) : c.toNat < 0xD800 ∨ 0xE000 ≤ c.toNat := by
  rcases c.valid with h | h
  · exact Or.inl h
  · exact Or.inr (Nat.succ_le_of_lt h.1)

/-- However a character is written, its pieces are the bytes of the character. -/
theorem SpellsChar.pieces {c : Char} {t : List Char} (h : SpellsChar c t) :
    ∃ ps, SpellsPieces ps t ∧
      ∀ qs, piecesBytes? (ps ++ qs) = (piecesBytes? qs).map (String.utf8EncodeChar c ++ ·) := by
  rcases h with h | h | h | @⟨_, _, high, low, hhigh, hlow, hhighlt, hlowlt, hc⟩
  · exact ⟨_, .plain h, piecesBytes?_bytes _⟩
  · exact ⟨_, .letter h, piecesBytes?_bytes _⟩
  · refine ⟨_, .code h, fun qs => ?_⟩
    rw [List.singleton_append, piecesBytes?_unit (char_not_surrogate c), Char.ofNat_toNat]
  · refine ⟨_, .append (.code hhigh) (.code hlow), fun qs => ?_⟩
    show piecesBytes? (.unit (0xD800 + high) :: .unit (0xDC00 + low) :: qs) = _
    rw [piecesBytes?_pair hhighlt hlowlt, ← hc, Char.ofNat_toNat]

theorem SpellsChars.piecesBytes {s t : List Char} (h : SpellsChars s t) :
    ∃ ps, SpellsPieces ps t ∧ piecesBytes? ps = some (Bytes.ofChars s) := by
  induction h with
  | nil => exact ⟨[], .nil, rfl⟩
  | cons hc _ ih =>
    obtain ⟨ps, hps, hbytes⟩ := hc.pieces
    obtain ⟨qs, hqs, hrest⟩ := ih
    refine ⟨ps ++ qs, .append hps hqs, ?_⟩
    rw [hbytes, hrest]
    rfl

/-- The pieces of a string of characters are its text. -/
theorem SpellsChars.pieces {s t : List Char} (h : SpellsChars s t) :
    ∃ ps, SpellsPieces ps t ∧ piecesText? ps = some (String.ofList s) := by
  obtain ⟨ps, hps, hbytes⟩ := h.piecesBytes
  refine ⟨ps, hps, ?_⟩
  rw [piecesText?, hbytes, Option.bind_some, Bytes.text?_ofChars]

/-! ### Written strings -/

theorem isHexDigit_hexDigit {n : Nat} (h : n < 16) : IsHexDigit (hexDigit n) n := by
  have hall : ∀ n < 16, hexDigit n = Nat.digitChar n := by decide
  exact ⟨h, Or.inl (hall n h)⟩

/-- A control is written with its code. -/
theorem fourDigits_control {n : Nat} (h : n < 0x20) :
    FourDigits ['0', '0', hexDigit (n / 16), hexDigit (n % 16)] n := by
  have hzero : IsHexDigit '0' 0 := ⟨by decide, Or.inl rfl⟩
  have hfour := FourDigits.mk hzero hzero (isHexDigit_hexDigit (n := n / 16) (by omega))
    (isHexDigit_hexDigit (n := n % 16) (by omega))
  have hvalue : ((0 * 16 + 0) * 16 + n / 16) * 16 + n % 16 = n := by omega
  rw [hvalue] at hfour
  exact hfour

theorem spellsChar_escapedChar (c : Char) : SpellsChar c (escapedChar c) := by
  unfold escapedChar
  split
  -- the quote, the backslash and the controls with a letter
  iterate 7 exact .letter (by decide)
  rename_i hquote hbackslash _ _ _ _ _
  split
  · rename_i hcontrol
    exact .code (fourDigits_control hcontrol)
  · rename_i hspace
    exact .plain ⟨Nat.not_lt.mp hspace, hquote, hbackslash⟩

theorem spellsChars_flatMap (s : List Char) : SpellsChars s (s.flatMap escapedChar) := by
  induction s with
  | nil => exact .nil
  | cons c s ih => exact .cons (spellsChar_escapedChar c) ih

/-- A written string spells the string. -/
theorem spells_stringText (s : String) : Spells (.string (some s)) (stringText s) := by
  have h := Spells.characters (spellsChars_flatMap s.toList)
  rw [String.ofList_toList] at h
  exact h

end TrustStore.Json

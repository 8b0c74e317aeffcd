import TrustStore.Bytes

/-!
# The bytes of a text

The bytes of a text are those of its characters, one after the other.  A character below `U+0080`
is the byte of its code point, and any other one has bytes from `0x80` on only, so a reader that
looks for ASCII bytes never stops inside a character.
-/

namespace TrustStore.Bytes

/-- The bytes of a sequence of characters. -/
def ofChars (s : List Char) : Bytes := s.flatMap String.utf8EncodeChar

@[simp] theorem ofChars_nil : ofChars [] = [] := rfl

theorem ofChars_cons (c : Char) (s : List Char) :
    ofChars (c :: s) = String.utf8EncodeChar c ++ ofChars s := rfl

@[simp] theorem ofChars_append (s t : List Char) : ofChars (s ++ t) = ofChars s ++ ofChars t :=
  List.flatMap_append

theorem ofText_eq_ofChars (s : String) : ofText s = ofChars s.toList := by
  have h : s.toUTF8 = (s.toList.flatMap String.utf8EncodeChar).toByteArray := by
    rw [String.toUTF8_eq_toByteArray, ← String.utf8Encode_toList]
    rfl
  rw [ofText, h, List.data_toByteArray, ofChars]

theorem ofText_ofList (s : List Char) : ofText (String.ofList s) = ofChars s := by
  rw [ofText_eq_ofChars, String.toList_ofList]

theorem ofText_append (s t : String) : ofText (s ++ t) = ofText s ++ ofText t := by
  rw [ofText_eq_ofChars, String.toList_append, ofChars_append, ← ofText_eq_ofChars,
    ← ofText_eq_ofChars]

/-- The encoding of a text is read back. -/
theorem text?_ofChars (s : List Char) : (ofChars s).text? = some (String.ofList s) := by
  rw [← ofText_ofList, text?_ofText]

/-- And what is read as a text is the text's encoding. -/
theorem eq_ofText_of_text? {b : Bytes} {text : String} (h : b.text? = some text) :
    b = ofText text := by
  unfold text? String.fromUTF8? at h
  split at h
  · cases h
    rfl
  · cases h

theorem eq_ofChars_of_text? {b : Bytes} {text : String} (h : b.text? = some text) :
    b = ofChars text.toList := by
  rw [eq_ofText_of_text? h, ofText_eq_ofChars]

/-! ### Characters -/

theorem utf8EncodeChar_of_lt {c : Char} (h : c.toNat < 0x80) :
    String.utf8EncodeChar c = [c.toNat.toUInt8] := by
  have hle : c.val.toNat ≤ 0x7F := Nat.le_of_lt_succ h
  rw [String.utf8EncodeChar, if_pos hle]
  rfl

theorem ofChars_cons_of_lt {c : Char} (h : c.toNat < 0x80) (s : List Char) :
    ofChars (c :: s) = c.toNat.toUInt8 :: ofChars s := by
  rw [ofChars_cons, utf8EncodeChar_of_lt h]
  rfl

theorem le_of_mem_utf8EncodeChar {c : Char} (h : 0x80 ≤ c.toNat) {b : UInt8}
    (hb : b ∈ String.utf8EncodeChar c) : 0x80 ≤ b := by
  have hv : c.toNat = c.val.toNat := rfl
  rw [UInt8.le_iff_toNat_le]
  unfold String.utf8EncodeChar at hb
  dsimp only at hb
  split at hb
  · omega
  · -- every byte of a longer form has its high bit set
    split at hb
    · simp only [List.mem_cons, List.not_mem_nil, or_false] at hb
      rcases hb with rfl | rfl <;> simp [UInt8.toNat_ofNat'] <;> omega
    · split at hb
      · simp only [List.mem_cons, List.not_mem_nil, or_false] at hb
        rcases hb with rfl | rfl | rfl <;> simp [UInt8.toNat_ofNat'] <;> omega
      · simp only [List.mem_cons, List.not_mem_nil, or_false] at hb
        rcases hb with rfl | rfl | rfl | rfl <;> simp [UInt8.toNat_ofNat'] <;> omega

end TrustStore.Bytes

/-!
# Byte strings

Values in storage, files and certificates are lists of bytes.  A text is turned into bytes by its
UTF-8 encoding, and bytes are read as a text only if they are valid UTF-8.
-/

namespace TrustStore

abbrev Bytes := List UInt8

/-- The number that bytes stand for, the most significant first. -/
def Bytes.value (b : Bytes) : Nat := b.foldl (fun n x => n * 256 + x.toNat) 0

/-- The two hexadecimal digits of a byte. -/
def Bytes.hexDigits (b : UInt8) : List Char :=
  [Nat.digitChar (b.toNat / 16), Nat.digitChar (b.toNat % 16)]

/-- The UTF-8 encoding of a text. -/
def Bytes.ofText (s : String) : Bytes := s.toUTF8.data.toList

/-- The text that the bytes encode, if they are valid UTF-8. -/
def Bytes.text? (b : Bytes) : Option String := String.fromUTF8? ⟨b.toArray⟩

theorem Bytes.text?_ofText (s : String) : (Bytes.ofText s).text? = some s := by
  have h : (⟨(Bytes.ofText s).toArray⟩ : ByteArray) = s.toUTF8 := by simp [Bytes.ofText]
  simp only [Bytes.text?, h, String.fromUTF8?]
  rw [dif_pos (by simpa using s.isValidUTF8)]
  rfl

end TrustStore

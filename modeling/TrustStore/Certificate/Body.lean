import TrustStore.Certificate.DistinguishedName
import TrustStore.Certificate.Extension
import TrustStore.Certificate.Validity

/-!
# Certificates

The structure of an X.509 certificate, of which the subject and the extensions are kept.  The
signature is not verified and the issuer not looked at beyond its shape.
-/

namespace TrustStore.Certificate

structure Body where
  subject : DistinguishedName
  extensions : List Extension
deriving DecidableEq, Repr

namespace Body

/-! ### Parts that are passed over -/

/-- The class of identifiers that stand for a part of a certificate. -/
def contextSpecific : Nat := 2

/-- The content has bytes, of which none at the front can be left out. -/
def isShortest : Bytes → Bool
  | [] => false
  | 0 :: b :: _ => decide (0x80 ≤ b)
  | _ => true

/-- The version, under the tag 0: an unsigned integer of 32 bits, which may be left out. -/
def skipVersion (s : Bytes) : Option Bytes := do
  if s.isEmpty then return s
  let (e, rest) ← Element.read s
  if e.tag ≠ 0 then return s
  if e.cls ≠ contextSpecific then none
  let (version, _) ← Element.readTagged Element.integer e.content
  let number ← Extension.unsigned? version.content
  if number < UInt32.size ∧ isShortest version.content ∧ !version.constructed then some rest else none

/-- The serial number, an integer that may follow the basic rules and is not looked into. -/
def skipSerial (s : Bytes) : Option Bytes := do
  let (e, rest) ← Element.readBasic s
  if e.tag = Element.integer then some rest else none

/-- An algorithm: an identifier, and perhaps an element with its parameters.  What follows that is
not looked at. -/
def skipAlgorithm (s : Bytes) : Option Bytes := do
  let (content, rest) ← Element.readSequence s
  let (_, parameters) ← ObjectId.read content
  if parameters.isEmpty || (Element.read parameters).isSome then some rest else none

/-- The number of zero bits at the low end of a byte, eight for zero. -/
def trailingZeros (b : UInt8) : Nat :=
  ((List.range 8).find? b.toNat.testBit).getD 8

/-- The content of a bit string: the number of unused bits, and bytes whose unused bits are
zero. -/
def isBitString : Bytes → Bool
  | [] => false
  | [unused] => unused == 0
  | unused :: rest => decide (unused.toNat ≤ trailingZeros (rest.getLastD 0))

def skipBitString (s : Bytes) : Option Bytes := do
  let (e, rest) ← Element.readTagged Element.bitString s
  if !e.constructed && isBitString e.content then some rest else none

def skipPublicKey (s : Bytes) : Option Bytes := do
  let (content, rest) ← Element.readSequence s
  let content ← skipAlgorithm content
  let _ ← skipBitString content
  return rest

/-- A unique identifier under the given tag, which may be left out.  It must not be empty. -/
def skipUniqueId (tag : Nat) (s : Bytes) : Option Bytes := do
  if s.isEmpty then return s
  let (h, _) ← Header.readDefinite s
  if h.tag ≠ tag then return s
  let (e, rest) ← Element.read s
  if e.cls = contextSpecific ∧ e.content ≠ [] then some rest else none

/-! ### Extensions -/

/-- The extensions, under the tag 3 at the very end, or nothing.  The length of the element with
that tag is not looked at. -/
def extensions? (s : Bytes) : Option (List Extension) := do
  if s.isEmpty then return []
  let (h, _, s) ← Header.readDefinite s
  if h.tag ≠ 3 then none
  let (content, rest) ← Element.readSequence s
  if rest.isEmpty then Element.all? Extension.read content else none

/-! ### The whole -/

def ofSigned? (s : Bytes) : Option Body := do
  let s ← skipVersion s
  let s ← skipSerial s
  let s ← skipAlgorithm s
  let (_, s) ← DistinguishedName.read s
  let s ← Validity.read s
  let (subject, s) ← DistinguishedName.read s
  let s ← skipPublicKey s
  let s ← skipUniqueId 1 s
  let s ← skipUniqueId 2 s
  let extensions ← extensions? s
  return ⟨subject, extensions⟩

/-- The certificate at the front of the bytes. -/
def ofBytes? (s : Bytes) : Option Body := do
  let (content, _) ← Element.readSequence s
  let (signed, rest) ← Element.readSequence content
  let body ← ofSigned? signed
  let rest ← skipAlgorithm rest
  let _ ← skipBitString rest
  return body

end Body

end TrustStore.Certificate

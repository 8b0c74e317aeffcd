import TrustStore.Certificate.KeyUsage

/-!
# Extensions

Two extensions matter: the basic constraints, for the CA flag, and the extended key usages.
-/

namespace TrustStore.Certificate

structure Extension where
  id : ObjectId
  value : Bytes
deriving DecidableEq, Repr

namespace Extension

/-! ### Reading -/

/-- Passes over a Boolean of one byte, if there is one. -/
def skipBoolean (s : Bytes) : Bytes :=
  match Element.readTagged Element.boolean s with
  | some (e, rest) => if e.content.length = 1 then rest else s
  | none => s

/-- The extension in the content of its sequence: an identifier, perhaps a Boolean, and the value
in an octet string. -/
def ofContent? (content : Bytes) : Option Extension := do
  let (id, s) ← ObjectId.read content
  let (e, _) ← Element.readTagged Element.octetString (skipBoolean s)
  if e.constructed then none else some ⟨id, e.content⟩

def read (s : Bytes) : Option (Extension × Bytes) := do
  let (content, rest) ← Element.readSequence s
  let extension ← ofContent? content
  return (extension, rest)

/-! ### Values -/

def basicConstraintsId : ObjectId := [0x55, 0x1D, 0x13]

def keyUsagesId : ObjectId := [0x55, 0x1D, 0x25]

/-- A Boolean of one byte; any byte but zero is true. -/
def boolean? (e : Element) : Option Bool :=
  match e.content with
  | [b] =>
    if e.cls = 0 ∧ e.tag = Element.boolean ∧ e.length? = some 1 then some (b != 0) else none
  | _ => none

/-- The number in the content of an integer, unless it is negative.  No bytes stand for zero. -/
def unsigned? (content : Bytes) : Option Nat :=
  if content.headD 0 < 0x80 then some content.value else none

/-- The number in the content of a bit string of up to 64 bits, after the number of its unused
bits. -/
def bitsNumber? : Bytes → Option Nat
  | [] => none
  | unused :: bytes =>
    let bits := 8 * bytes.length - unused.toNat
    if 8 * bytes.length < unused.toNat ∨ 64 < bits then none
    else some (Bytes.value (bytes.take ((bits + 7) / 8)) >>> (unused.toNat % 8))

/-- The number that an integer, an enumerated value or a bit string stands for. -/
def number? (e : Element) : Option Nat :=
  if e.cls ≠ 0 then none
  else if e.tag = Element.integer then unsigned? e.content
  else if e.tag = Element.enumerated ∧ !e.constructed then some e.content.value
  else if e.tag = Element.bitString then bitsNumber? e.content
  else none

/-- A path length is a number of 32 bits. -/
def isPathLength (e : Element) : Bool := (number? e).any fun n => decide (n < UInt32.size)

/-- The elements of basic constraints, which may follow the basic rules. -/
def constraints? (value : Bytes) : Option (List Element) := do
  let (e, _) ← Element.readTagged Element.sequence value
  if e.constructed then Element.all? Element.readBasic e.content else none

/-- The CA flag of basic constraints: the flag, a path length, both, or nothing. -/
def caFlag? (value : Bytes) : Option Bool := do
  match ← constraints? value with
  | [] => some false
  | [e] =>
    match boolean? e with
    | some ca => some ca
    | none => if isPathLength e then some false else none
  | [e, length] => if isPathLength length then boolean? e else none
  | _ => none

/-- The identifiers in extended key usages. -/
def keyUsageIds? (value : Bytes) : Option (List ObjectId) := do
  let (content, _) ← Element.readSequence value
  Element.all? ObjectId.read content

/-! ### Look-up -/

/-- The one extension with the given identifier, if any; there must not be two. -/
def unique? (extensions : List Extension) (id : ObjectId) : Option (Option Extension) :=
  match extensions.filter (·.id == id) with
  | [] => some none
  | [extension] => some (some extension)
  | _ => none

/-- Whether the certificate is a CA: basic constraints that cannot be read count as absent. -/
def isCa? (extensions : List Extension) : Option Bool :=
  (unique? extensions basicConstraintsId).map fun found =>
    (found.bind fun extension => caFlag? extension.value).getD false

/-- The extended key usages, which must be readable if they are there. -/
def keyUsages? (extensions : List Extension) : Option KeyUsages := do
  match ← unique? extensions keyUsagesId with
  | none => return .none
  | some extension => return .ofIds (← keyUsageIds? extension.value)

end Extension

end TrustStore.Certificate

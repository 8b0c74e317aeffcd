import TrustStore.Certificate.ShortName

/-!
# Distinguished names

A name is a sequence of sets of attributes.  Reading a name or a set stops without complaint at the
first part that does not fit; a set has at least one attribute.
-/

namespace TrustStore.Certificate

structure Attribute where
  type : ObjectId
  value : Element
deriving DecidableEq, Repr

/-- The sets of attributes, in their order. -/
abbrev DistinguishedName := List (List Attribute)

/-! ### Reading -/

namespace Attribute

/-- The attribute in the content of its sequence.  What follows its value is not looked at. -/
def ofContent? (content : Bytes) : Option Attribute := do
  let (type, s) ← ObjectId.read content
  let (value, _) ← Element.read s
  return ⟨type, value⟩

def read (s : Bytes) : Option (Attribute × Bytes) := do
  let (content, rest) ← Element.readSequence s
  let a ← ofContent? content
  return (a, rest)

end Attribute

namespace DistinguishedName

def readSet (s : Bytes) : Option (List Attribute × Bytes) := do
  let (e, rest) ← Element.readTagged Element.set s
  match (Element.many Attribute.read e.content).1 with
  | [] => none
  | attributes => some (attributes, rest)

def read (s : Bytes) : Option (DistinguishedName × Bytes) :=
  (Element.readSequence s).map fun (content, rest) => ((Element.many readSet content).1, rest)

end DistinguishedName

/-! ### Values as text -/

/-- The 16-bit units of a text in big-endian order.  A byte that is left over is a unit. -/
def units : Bytes → List Nat
  | [] => []
  | [a] => [a.toNat]
  | a :: b :: rest => (a.toNat * 256 + b.toNat) :: units rest

/-- The characters of 16-bit units, unless a surrogate stands alone. -/
def unitsChars? : List Nat → Option (List Char)
  | [] => some []
  | [n] => if 0xD800 ≤ n ∧ n < 0xE000 then none else some [Char.ofNat n]
  | high :: low :: rest =>
    if 0xD800 ≤ high ∧ high < 0xDC00 then
      if 0xDC00 ≤ low ∧ low < 0xE000 then
        (unitsChars? rest).map
          (Char.ofNat (0x10000 + (high - 0xD800) * 0x400 + (low - 0xDC00)) :: ·)
      else none
    else if 0xDC00 ≤ high ∧ high < 0xE000 then none
    else (unitsChars? (low :: rest)).map (Char.ofNat high :: ·)

def hexText (b : Bytes) : String := String.ofList ((b.flatMap Bytes.hexDigits).map Char.toUpper)

/-- The tags of the string types whose content is UTF-8 or a part of it. -/
def textTags : List Nat := [7, 12, 18, 19, 20, 21, 22, 25, 26, 27]

/-- The tag of strings of 16-bit units. -/
def wideTag : Nat := 30

/-- A value as text: strings as they are, anything else as hexadecimal digits of its content. -/
def valueText? (value : Element) : Option String :=
  if value.tag ∈ textTags then value.content.text?
  else if value.tag = wideTag then
    (unitsChars? (units value.content)).map String.ofList
  else some (hexText value.content)

/-! ### Names as text -/

/-- The name of an attribute type, or its identifier if it has none. -/
def typeText (type : ObjectId) : String :=
  (shortName? type).getD ("OID(" ++ type.text ++ ")")

def Attribute.text? (a : Attribute) : Option String :=
  (valueText? a.value).map fun value => typeText a.type ++ "=" ++ value

/-- Appends a part; a separator stands only where there is something before it. -/
def appendPart (separator done part : String) : String :=
  if done = "" then part else done ++ separator ++ part

def setText? (attributes : List Attribute) : Option String :=
  (attributes.mapM Attribute.text?).map (·.foldl (appendPart " + ") "")

namespace DistinguishedName

def text? (name : DistinguishedName) : Option String :=
  (name.mapM setText?).map (·.foldl (appendPart ", ") "")

/-- The text of a name, or a notice if one of its values is no text. -/
def text (name : DistinguishedName) : String :=
  name.text?.getD "<X509Error: Invalid X.509 name>"

end DistinguishedName

end TrustStore.Certificate

import TrustStore.Bytes

/-!
# Encoded elements

An element is a header and a content; the header holds an identifier and a length.  A long length
need not be written in the shortest way, as long as it is below `2 ^ 64`.

`Element.read` follows the distinguished rules, by which every length is definite.  By the basic
rules, which `Element.readBasic` follows, a constructed element may also be of indefinite length:
its content is then a series of elements up to an end mark, an empty element with the tag 0.
-/

namespace TrustStore.Certificate

/-- The class of an identifier is kept as its two bits: 0 is universal, 2 context specific.  No
length stands for an indefinite one. -/
structure Header where
  cls : Nat
  constructed : Bool
  tag : Nat
  length? : Option Nat
deriving DecidableEq, Repr

structure Element extends Header where
  content : Bytes
deriving DecidableEq, Repr

namespace Element

/-! ### Tags of the universal class -/

def endMark : Nat := 0
def boolean : Nat := 1
def integer : Nat := 2
def bitString : Nat := 3
def octetString : Nat := 4
def enumerated : Nat := 10
def sequence : Nat := 16
def set : Nat := 17

end Element

/-! ### Headers -/

namespace Header

/-- The header marks the end of a content of indefinite length. -/
def isEndMark (h : Header) : Bool := h.tag == Element.endMark && h.length? == some 0

/-- The rest of a tag above 30: up to five bytes of seven bits, the last with its high bit clear.
The tag is kept in 32 bits. -/
def readLongTag : Nat → Nat → Bytes → Option (Nat × Bytes)
  | 0, _, _ => none
  | _, _, [] => none
  | left + 1, tag, b :: rest =>
    let tag := (tag * 128 + b.toNat % 128) % UInt32.size
    if b < 0x80 then some (tag, rest) else readLongTag left tag rest

/-- The identifier: class, form and tag. -/
def readIdentifier : Bytes → Option ((Nat × Bool × Nat) × Bytes)
  | [] => none
  | b :: rest =>
    let cls := b.toNat / 64
    let constructed := b.toNat / 32 % 2 == 1
    let tag := b.toNat % 32
    if tag = 31 then
      (readLongTag 5 0 rest).map fun (tag, rest) => ((cls, constructed, tag), rest)
    else some ((cls, constructed, tag), rest)

def readLength : Bytes → Option (Option Nat × Bytes)
  | [] => none
  | b :: rest =>
    if b < 0x80 then some (b.toNat, rest)
    else if b = 0x80 then some (none, rest)
    else
      let count := b.toNat - 0x80
      let length := Bytes.value (rest.take count)
      if count = 127 ∨ rest.length < count ∨ UInt64.size ≤ length then none
      else some (length, rest.drop count)

/-- Reads a header from the front. -/
def read (s : Bytes) : Option (Header × Bytes) := do
  let ((cls, constructed, tag), s) ← readIdentifier s
  let (length?, s) ← readLength s
  return (⟨cls, constructed, tag, length?⟩, s)

/-- Reads a header of definite length. -/
def readDefinite (s : Bytes) : Option (Header × Nat × Bytes) := do
  let (h, s) ← read s
  let length ← h.length?
  return (h, length, s)

end Header

/-! ### Elements -/

namespace Element

/-- Reads an element from the front by the distinguished rules. -/
def read (s : Bytes) : Option (Element × Bytes) := do
  let (h, length, s) ← Header.readDefinite s
  if s.length < length then none else some (⟨h, s.take length⟩, s.drop length)

/-- Reads an element with the given tag. -/
def readTagged (tag : Nat) (s : Bytes) : Option (Element × Bytes) := do
  let (e, rest) ← read s
  if e.tag = tag then some (e, rest) else none

/-- The content of a sequence at the front, and what follows it. -/
def readSequence (s : Bytes) : Option (Bytes × Bytes) :=
  (readTagged sequence s).map fun (e, rest) => (e.content, rest)

/-! ### The basic rules -/

/-- Passes over elements up to an end mark, and over the mark.  `skip` passes over the content of
each, the mark included. -/
def skipToEndMark (skip : Header → Bytes → Option Bytes) (s : Bytes) : Option Bytes :=
  match Header.read s with
  | none => none
  | some (h, content) =>
    match skip h content with
    | none => none
    | some rest =>
      if h.isEndMark then some rest
      else if rest.length < s.length then skipToEndMark skip rest
      else none
termination_by s.length

/-- Passes over the content of an element, in which others lie at most `depth - 1` deep. -/
def skipContent : (depth : Nat) → Header → Bytes → Option Bytes
  | 0, _, _ => none
  | depth + 1, h, s =>
    match h.length? with
    | some length => if s.length < length then none else some (s.drop length)
    | none => if h.constructed then skipToEndMark (skipContent depth) s else none

/-- How deep elements of indefinite length may be nested, the innermost mark included. -/
def depthLimit : Nat := 50

/-- The length of an end mark. -/
def endMarkLength : Nat := 2

/-- Reads an element from the front by the basic rules. -/
def readBasic (s : Bytes) : Option (Element × Bytes) := do
  let (h, s) ← Header.read s
  let rest ← skipContent depthLimit h s
  let length := s.length - rest.length
  return (⟨h, s.take (if h.length?.isNone then length - endMarkLength else length)⟩, rest)

/-! ### Several parts -/

/-- Reads parts from the front as long as one fits: the parts and what is left. -/
def many {α : Type} (part : Bytes → Option (α × Bytes)) (s : Bytes) : List α × Bytes :=
  match part s with
  | none => ([], s)
  | some (a, rest) =>
    if rest.length < s.length then
      let (l, left) := many part rest
      (a :: l, left)
    else ([], s)
termination_by s.length

/-- Reads parts that make up the whole. -/
def all? {α : Type} (part : Bytes → Option (α × Bytes)) (s : Bytes) : Option (List α) :=
  match many part s with
  | (l, []) => some l
  | _ => none

end Element

end TrustStore.Certificate

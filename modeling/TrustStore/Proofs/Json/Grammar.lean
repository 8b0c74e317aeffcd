import TrustStore.Json.Printer
import TrustStore.Json.Reader

/-!
# The grammar of JSON texts

What texts spell a value, said without a reader.  The grammar is that of the standard: white space
around every value and key, a string whose characters each stand for themselves or are escaped in
one of several ways, a numeral with an optional fraction and exponent, and items and members divided
by commas.

A text spells a `Source`, so that also values which no decoder can take are texts of the grammar: a
string in which a surrogate stands alone, or a numeral that is out of range.  What a string of
characters and an integer spell is fixed by the rules `characters` and `integer`, which know nothing
of the pieces and digits that a reader works with.
-/

namespace TrustStore.Json

/-! ### White space -/

/-- A text of white space. -/
def IsGap (t : List Char) : Prop := ∀ c ∈ t, c ∈ [' ', '\t', '\n', '\r']

instance (t : List Char) : Decidable (IsGap t) :=
  List.decidableBAll (fun c => c ∈ [' ', '\t', '\n', '\r']) t

/-! ### Strings -/

/-- A hexadecimal digit, of either case, and its value. -/
def IsHexDigit (c : Char) (value : Nat) : Prop :=
  value < 16 ∧ (c = Nat.digitChar value ∨ c = (Nat.digitChar value).toUpper)

instance (c : Char) (value : Nat) : Decidable (IsHexDigit c value) :=
  inferInstanceAs (Decidable (value < 16 ∧ (c = Nat.digitChar value ∨
    c = (Nat.digitChar value).toUpper)))

/-- Four hexadecimal digits and the number that they stand for. -/
inductive FourDigits : List Char → Nat → Prop
  | mk {a b c d : Char} {w x y z : Nat} : IsHexDigit a w → IsHexDigit b x → IsHexDigit c y →
      IsHexDigit d z → FourDigits [a, b, c, d] (((w * 16 + x) * 16 + y) * 16 + z)

/-- The letters of the short escapes and what each stands for. -/
def shortEscapes : List (Char × Char) :=
  [('"', '"'), ('\\', '\\'), ('/', '/'), ('b', '\x08'), ('f', '\x0c'), ('n', '\n'), ('r', '\r'),
    ('t', '\t')]

/-- A character that may stand for itself. -/
def StandsForItself (c : Char) : Prop := 0x20 ≤ c.toNat ∧ c ≠ '"' ∧ c ≠ '\\'

instance (c : Char) : Decidable (StandsForItself c) :=
  inferInstanceAs (Decidable (0x20 ≤ c.toNat ∧ c ≠ '"' ∧ c ≠ '\\'))

/-- The ways to write a character in a string: as itself, with a letter, with its code, or, beyond
four digits, with the codes of two surrogates. -/
inductive SpellsChar : Char → List Char → Prop
  | plain {c : Char} : StandsForItself c → SpellsChar c [c]
  | letter {c letter : Char} : (letter, c) ∈ shortEscapes → SpellsChar c ['\\', letter]
  | code {c : Char} {digits : List Char} : FourDigits digits c.toNat →
      SpellsChar c ('\\' :: 'u' :: digits)
  | pair {c : Char} {highDigits lowDigits : List Char} {high low : Nat} :
      FourDigits highDigits (0xD800 + high) → FourDigits lowDigits (0xDC00 + low) → high < 0x400 →
      low < 0x400 → c.toNat = 0x10000 + high * 0x400 + low →
      SpellsChar c ('\\' :: 'u' :: highDigits ++ '\\' :: 'u' :: lowDigits)

/-- The texts between the quotes of a string of characters. -/
inductive SpellsChars : List Char → List Char → Prop
  | nil : SpellsChars [] []
  | cons {c : Char} {s t u : List Char} : SpellsChar c t → SpellsChars s u →
      SpellsChars (c :: s) (t ++ u)

/-- A part of a string, and the pieces that it is made of: a character, or an escaped code, which
may be that of a surrogate. -/
inductive SpellsPieces : List Piece → List Char → Prop
  | plain {c : Char} : StandsForItself c →
      SpellsPieces ((String.utf8EncodeChar c).map .byte) [c]
  | letter {c letter : Char} : (letter, c) ∈ shortEscapes →
      SpellsPieces ((String.utf8EncodeChar c).map .byte) ['\\', letter]
  | code {n : Nat} {digits : List Char} : FourDigits digits n →
      SpellsPieces [.unit n] ('\\' :: 'u' :: digits)
  | nil : SpellsPieces [] []
  | append {ps qs : List Piece} {t u : List Char} : SpellsPieces ps t → SpellsPieces qs u →
      SpellsPieces (ps ++ qs) (t ++ u)

/-! ### Numerals -/

/-- The text of decimal digits. -/
def digitsText (digits : List Nat) : List Char := digits.map Nat.digitChar

/-- At least one digit. -/
def AreDigits (digits : List Nat) : Prop := digits ≠ [] ∧ ∀ d ∈ digits, d < 10

/-- One digit, or digits of which the first is not zero. -/
def AreWhole (digits : List Nat) : Prop :=
  AreDigits digits ∧ (digits.head? = some 0 → digits = [0])

inductive SpellsFraction : List Nat → List Char → Prop
  | none : SpellsFraction [] []
  | digits {digits : List Nat} : AreDigits digits → SpellsFraction digits ('.' :: digitsText digits)

inductive SpellsExponent : Option (Bool × List Nat) → List Char → Prop
  | none : SpellsExponent none []
  | unsigned {mark : Char} {digits : List Nat} : mark ∈ ['e', 'E'] → AreDigits digits →
      SpellsExponent (some (false, digits)) (mark :: digitsText digits)
  | plus {mark : Char} {digits : List Nat} : mark ∈ ['e', 'E'] → AreDigits digits →
      SpellsExponent (some (false, digits)) (mark :: '+' :: digitsText digits)
  | minus {mark : Char} {digits : List Nat} : mark ∈ ['e', 'E'] → AreDigits digits →
      SpellsExponent (some (true, digits)) (mark :: '-' :: digitsText digits)

/-- The sign of a numeral, which is written if it is negative. -/
def signText (negative : Bool) : List Char := if negative then ['-'] else []

inductive SpellsNumeral : Numeral → List Char → Prop
  | mk {negative : Bool} {whole fraction : List Nat} {exponent : Option (Bool × List Nat)}
      {t u : List Char} : AreWhole whole → SpellsFraction fraction t → SpellsExponent exponent u →
      SpellsNumeral ⟨negative, whole, fraction, exponent⟩
        (signText negative ++ digitsText whole ++ t ++ u)

/-- The integers that a numeral can be read as. -/
def FitsWord (n : Int) : Prop := Int64.minValue.toInt ≤ n ∧ n < UInt64.size

instance (n : Int) : Decidable (FitsWord n) :=
  inferInstanceAs (Decidable (Int64.minValue.toInt ≤ n ∧ n < UInt64.size))

/-! ### Values -/

mutual

/-- The text of a value. -/
inductive Spells : Source → List Char → Prop
  | null : Spells .null ['n', 'u', 'l', 'l']
  | true : Spells (.bool true) ['t', 'r', 'u', 'e']
  | false : Spells (.bool false) ['f', 'a', 'l', 's', 'e']
  | integer {n : Int} : FitsWord n → Spells (.number (some (.int n))) (Number.text (.int n))
  | numeral {n : Numeral} {t : List Char} : SpellsNumeral n t → Spells (.number n.value?) t
  | characters {s t : List Char} : SpellsChars s t →
      Spells (.string (some (String.ofList s))) ('"' :: t ++ ['"'])
  | pieces {ps : List Piece} {t : List Char} : SpellsPieces ps t →
      Spells (.string (piecesText? ps)) ('"' :: t ++ ['"'])
  | emptyArray {gap : List Char} : IsGap gap → Spells (.array [] true) ('[' :: gap ++ [']'])
  | array {items : List Source} {t : List Char} : SpellsItems items t →
      Spells (.array items true) ('[' :: t ++ [']'])
  | emptyObject {gap : List Char} : IsGap gap → Spells (.object [] true) ('{' :: gap ++ ['}'])
  | object {members : List (Source × Source)} {t : List Char} : SpellsMembers members t →
      Spells (.object members true) ('{' :: t ++ ['}'])

/-- The text of a value with white space around it. -/
inductive SpellsElement : Source → List Char → Prop
  | mk {s : Source} {before t after : List Char} : IsGap before → Spells s t → IsGap after →
      SpellsElement s (before ++ t ++ after)

/-- The text of at least one item. -/
inductive SpellsItems : List Source → List Char → Prop
  | last {item : Source} {t : List Char} : SpellsElement item t → SpellsItems [item] t
  | cons {item : Source} {items : List Source} {t u : List Char} : SpellsElement item t →
      SpellsItems items u → SpellsItems (item :: items) (t ++ ',' :: u)

/-- The text of at least one member. -/
inductive SpellsMembers : List (Source × Source) → List Char → Prop
  | last {key : Option String} {value : Source} {k v : List Char} : SpellsElement (.string key) k →
      SpellsElement value v → SpellsMembers [(.string key, value)] (k ++ ':' :: v)
  | cons {key : Option String} {value : Source} {members : List (Source × Source)}
      {k v t : List Char} : SpellsElement (.string key) k → SpellsElement value v →
      SpellsMembers members t →
      SpellsMembers ((.string key, value) :: members) (k ++ ':' :: v ++ ',' :: t)

end

theorem isGap_nil : IsGap [] := by
  intro c hc
  cases hc

/-- White space may be left out. -/
theorem Spells.element {s : Source} {t : List Char} (h : Spells s t) : SpellsElement s t := by
  have helement := SpellsElement.mk isGap_nil h isGap_nil
  rw [List.nil_append, List.append_nil] at helement
  exact helement

/-! ### Nothing is missing from what is spelled -/

mutual

theorem Spells.readable {s : Source} {t : List Char} : Spells s t → s.readable = true
  | .null | .true | .false | .integer _ | .numeral _ | .characters _ | .pieces _ => rfl
  | .emptyArray _ | .emptyObject _ => rfl
  | .array h => h.readable
  | .object h => h.readable

theorem SpellsElement.readable {s : Source} {t : List Char} :
    SpellsElement s t → s.readable = true
  | .mk _ h _ => h.readable

theorem SpellsItems.readable {items : List Source} {t : List Char} :
    SpellsItems items t → Source.readableItems items = true
  | .last h => by
    rw [Source.readableItems, h.readable]
    rfl
  | .cons h hrest => by
    rw [Source.readableItems, h.readable, hrest.readable]
    rfl

theorem SpellsMembers.readable {members : List (Source × Source)} {t : List Char} :
    SpellsMembers members t → Source.readableMembers members = true
  | .last hkey hvalue => by
    rw [Source.readableMembers, hkey.readable, hvalue.readable]
    rfl
  | .cons hkey hvalue hrest => by
    rw [Source.readableMembers, hkey.readable, hvalue.readable, hrest.readable]
    rfl

end

end TrustStore.Json

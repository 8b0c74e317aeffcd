import TrustStore.Bytes
import TrustStore.Json.Numeral
import TrustStore.Json.Source

/-!
# Reading JSON

`Source.read` reads one value from the front of a text.  It always yields a source; what follows
the value is given too, unless the reading broke off inside it.  The text need not be UTF-8: bytes
beyond ASCII can stand in a string only, and a string of other bytes has no value.
-/

namespace TrustStore.Json

/-! ### White space -/

def isSpace (b : UInt8) : Bool :=
  b == Ascii.space || b == Ascii.tab || b == Ascii.lineFeed || b == Ascii.carriageReturn

def skipSpace (s : Bytes) : Bytes := s.dropWhile isSpace

/-! ### Strings -/

/-- A piece of a string: a byte, or a 16-bit unit that was written as an escape. -/
inductive Piece where
  | byte (b : UInt8)
  | unit (n : Nat)
deriving DecidableEq, Repr

/-- The byte that a backslash and a letter stand for. -/
def unescape? (letter : UInt8) : Option UInt8 :=
  match letter with
  | Ascii.quote => some Ascii.quote
  | Ascii.backslash => some Ascii.backslash
  | Ascii.slash => some Ascii.slash
  | Ascii.smallB => some 0x08
  | Ascii.smallF => some 0x0C
  | Ascii.smallN => some Ascii.lineFeed
  | Ascii.smallR => some Ascii.carriageReturn
  | Ascii.smallT => some Ascii.tab
  | _ => none

/-- The unit that four hexadecimal digits stand for. -/
def unit? (a b c d : UInt8) : Option Nat :=
  match Ascii.hexValue? a, Ascii.hexValue? b, Ascii.hexValue? c, Ascii.hexValue? d with
  | some a, some b, some c, some d => some (((a * 16 + b) * 16 + c) * 16 + d)
  | _, _, _, _ => none

/-- Puts a piece before the pieces of the rest. -/
def consPiece (p : Piece) (r : Option (List Piece × Bytes)) : Option (List Piece × Bytes) :=
  r.map fun (ps, rest) => (p :: ps, rest)

/-- The pieces up to the closing quote, and what follows it. -/
def readPieces : Bytes → Option (List Piece × Bytes)
  | [] => none
  | Ascii.quote :: rest => some ([], rest)
  | Ascii.backslash :: Ascii.smallU :: a :: b :: c :: d :: rest =>
    match unit? a b c d with
    | some n => consPiece (.unit n) (readPieces rest)
    | none => none
  | Ascii.backslash :: letter :: rest =>
    match unescape? letter with
    | some b => consPiece (.byte b) (readPieces rest)
    | none => none
  | b :: rest =>
    if b < 0x20 || b == Ascii.backslash then none else consPiece (.byte b) (readPieces rest)

/-- The character of a pair of surrogate units. -/
def pairChar (high low : Nat) : Char :=
  Char.ofNat (0x10000 + (high - 0xD800) * 0x400 + (low - 0xDC00))

/-- The bytes of a string, unless a surrogate unit stands alone. -/
def piecesBytes? : List Piece → Option Bytes
  | [] => some []
  | .byte b :: rest => (piecesBytes? rest).map (b :: ·)
  | .unit high :: .unit low :: rest =>
    if 0xD800 ≤ high ∧ high < 0xDC00 then
      if 0xDC00 ≤ low ∧ low < 0xE000 then
        (piecesBytes? rest).map (String.utf8EncodeChar (pairChar high low) ++ ·)
      else none
    else if 0xDC00 ≤ high ∧ high < 0xE000 then none
    else (piecesBytes? (.unit low :: rest)).map (String.utf8EncodeChar (Char.ofNat high) ++ ·)
  | .unit n :: rest =>
    if 0xD800 ≤ n ∧ n < 0xE000 then none
    else (piecesBytes? rest).map (String.utf8EncodeChar (Char.ofNat n) ++ ·)

def piecesText? (pieces : List Piece) : Option String := (piecesBytes? pieces).bind Bytes.text?

/-! ### Numerals -/

def readDigits (s : Bytes) : List Nat × Bytes :=
  ((s.takeWhile Ascii.isDigit).map Ascii.digitValue, s.dropWhile Ascii.isDigit)

/-- The whole part: one zero, or digits of which the first is not zero. -/
def readWhole (s : Bytes) : Option (List Nat × Bytes) :=
  match readDigits s with
  | ([], _) => none
  | (0 :: _ :: _, _) => none
  | r => some r

def readFraction (s : Bytes) : Option (List Nat × Bytes) :=
  match s with
  | Ascii.dot :: rest =>
    match readDigits rest with
    | ([], _) => none
    | r => some r
  | _ => some ([], s)

def readExponent (s : Bytes) : Option (Option (Bool × List Nat) × Bytes) :=
  match s with
  | Ascii.smallE :: rest | Ascii.capitalE :: rest =>
    let (negative, rest) :=
      match rest with
      | Ascii.plus :: r => (false, r)
      | Ascii.minus :: r => (true, r)
      | r => (false, r)
    match readDigits rest with
    | ([], _) => none
    | (digits, r) => some (some (negative, digits), r)
  | _ => some (none, s)

def readNumeral (s : Bytes) : Option (Numeral × Bytes) := do
  let (negative, s) :=
    match s with
    | Ascii.minus :: rest => (true, rest)
    | _ => (false, s)
  let (whole, s) ← readWhole s
  let (fraction, s) ← readFraction s
  let (exponent, s) ← readExponent s
  return (⟨negative, whole, fraction, exponent⟩, s)

/-! ### Values -/

/-- A value with what follows it, or nothing if reading broke off. -/
abbrev Reading (α : Type) := α × Option Bytes

def readString (s : Bytes) : Reading Source :=
  match readPieces s with
  | some (pieces, rest) => (.string (piecesText? pieces), some rest)
  | none => (.fault, none)

def readNumber (s : Bytes) : Reading Source :=
  match readNumeral s with
  | some (n, rest) => (.number n.value?, some rest)
  | none => (.fault, none)

def readWord (word : List Char) (source : Source) (s : Bytes) : Reading Source :=
  let letters := word.map fun c => c.toNat.toUInt8
  if letters.isPrefixOf s then (source, some (s.drop letters.length)) else (.fault, none)

mutual

/-- Reads a value.  The fuel bounds the depth of the calls. -/
def readValue : Nat → Bytes → Reading Source
  | 0, _ => (.fault, none)
  | fuel + 1, s =>
    match skipSpace s with
    | [] => (.fault, none)
    | Ascii.quote :: rest => readString rest
    | Ascii.openBracket :: rest =>
      match skipSpace rest with
      | Ascii.closeBracket :: rest => (.array [] true, some rest)
      | rest =>
        let ((items, complete), rest) := readItems fuel rest
        (.array items complete, rest)
    | Ascii.openBrace :: rest =>
      match skipSpace rest with
      | Ascii.closeBrace :: rest => (.object [] true, some rest)
      | rest =>
        let ((members, complete), rest) := readMembers fuel rest
        (.object members complete, rest)
    | Ascii.smallN :: rest => readWord ['u', 'l', 'l'] .null rest
    | Ascii.smallT :: rest => readWord ['r', 'u', 'e'] (.bool true) rest
    | Ascii.smallF :: rest => readWord ['a', 'l', 's', 'e'] (.bool false) rest
    | s => readNumber s

/-- Reads the items of an array from its next item on. -/
def readItems : Nat → Bytes → Reading (List Source × Bool)
  | 0, _ => (([.fault], false), none)
  | fuel + 1, s =>
    let (item, rest) := readValue fuel s
    match rest.map skipSpace with
    | some (Ascii.closeBracket :: rest) => (([item], true), some rest)
    | some (Ascii.comma :: rest) =>
      match skipSpace rest with
      | Ascii.closeBracket :: _ => (([item], false), none)
      | rest =>
        let ((items, complete), rest) := readItems fuel rest
        ((item :: items, complete), rest)
    | _ => (([item], false), none)

/-- Reads the members of an object from its next key on. -/
def readMembers : Nat → Bytes → Reading (List (Source × Source) × Bool)
  | 0, _ => (([(.fault, .fault)], false), none)
  | fuel + 1, s =>
    match readValue fuel s with
    | (.string key, some rest) =>
      match skipSpace rest with
      | Ascii.colon :: rest =>
        let (value, rest) := readValue fuel rest
        match rest.map skipSpace with
        | some (Ascii.closeBrace :: rest) => (([(.string key, value)], true), some rest)
        | some (Ascii.comma :: rest) =>
          match skipSpace rest with
          | Ascii.closeBrace :: _ => (([(.string key, value)], false), none)
          | rest =>
            let ((members, complete), rest) := readMembers fuel rest
            (((.string key, value) :: members, complete), rest)
        | _ => (([(.string key, value)], false), none)
      | _ => (([(.string key, .fault)], false), none)
    | (key, _) => (([(key, .fault)], false), none)

end

/-- Reads one value from the front of a text. -/
def Source.read (s : Bytes) : Reading Source := readValue (2 * s.length + 1) s

end TrustStore.Json

import TrustStore.Numeric.Binary64
import TrustStore.Text.Blank

/-!
# Lease durations

A duration is a number of whole seconds in 64 bits, signed: a negative one can be read, and it is
for the reader to refuse it.  Its text is empty, for zero, or a decimal integer, or a signed
sequence of segments such as `1h30m`, each a number and a unit.  The segments are added up as
binary64 nanoseconds in their order, and what is left below a second is cut off.
-/

namespace TrustStore.Lease

open Numeric

/-! ### Units -/

inductive TimeUnit where
  | nanosecond
  | microsecond
  | millisecond
  | second
  | minute
  | hour
  | day
deriving DecidableEq, Repr

namespace TimeUnit

/-- The unit with the given symbol.  The micro sign and the Greek letter mu are both accepted. -/
def ofSymbol? : List Char → Option TimeUnit
  | ['n', 's'] => some nanosecond
  | ['u', 's'] => some microsecond
  | ['\u00b5', 's'] => some microsecond
  | ['\u03bc', 's'] => some microsecond
  | ['m', 's'] => some millisecond
  | ['s'] => some second
  | ['m'] => some minute
  | ['h'] => some hour
  | ['d'] => some day
  | _ => none

def nanoseconds : TimeUnit → Nat
  | nanosecond => 1
  | microsecond => 1000
  | millisecond => 1000000
  | second => 1000000000
  | minute => 60 * 1000000000
  | hour => 3600 * 1000000000
  | day => 86400 * 1000000000

end TimeUnit

/-! ### Numbers -/

def digitsValue (digits : List Char) : Nat :=
  digits.foldl (fun n c => n * 10 + (c.toNat - '0'.toNat)) 0

/-- The decimal integer with optional sign that the text spells. -/
def integer? (s : List Char) : Option Int :=
  let (negative, digits) :=
    match s with
    | '-' :: rest => (true, rest)
    | '+' :: rest => (false, rest)
    | _ => (false, s)
  if digits.isEmpty || !digits.all Char.isDigit then none
  else if negative then some (-(digitsValue digits)) else some (digitsValue digits)

/-- The 64-bit integer that the text spells. -/
def literal? (s : List Char) : Option Int64 :=
  match integer? s with
  | some n =>
    if Int64.minValue.toInt ≤ n ∧ n ≤ Int64.maxValue.toInt then some (Int64.ofInt n) else none
  | none => none

/-- A number with `places` digits after the point: `digits / 10 ^ places`. -/
structure Amount where
  digits : Nat
  places : Nat
deriving DecidableEq, Repr

def isNumberChar (c : Char) : Bool := c.isDigit || c == '.'

/-- The number that a text of digits and points spells: at least one digit, at most one point. -/
def Amount.ofText? (s : List Char) : Option Amount :=
  let whole := s.takeWhile (· != '.')
  let fraction := (s.dropWhile (· != '.')).drop 1
  if fraction.contains '.' || (whole ++ fraction).isEmpty then none
  else some ⟨digitsValue (whole ++ fraction), fraction.length⟩

/-! ### Segments -/

structure Segment where
  amount : Amount
  unit : TimeUnit
deriving DecidableEq, Repr

/-- The segments of a text, of which nothing may be left over. -/
def segments? (s : List Char) : Option (List Segment) :=
  if s.isEmpty then some []
  else
    match _spelled : Amount.ofText? (s.takeWhile isNumberChar) with
    | none => none
    | some amount =>
      match TimeUnit.ofSymbol? ((s.dropWhile isNumberChar).takeWhile (!isNumberChar ·)) with
      | none => none
      | some unit =>
        (segments? ((s.dropWhile isNumberChar).dropWhile (!isNumberChar ·))).map
          (⟨amount, unit⟩ :: ·)
termination_by s.length
decreasing_by
  -- a number has at least one character
  have taken : (s.takeWhile isNumberChar).length ≠ 0 := by
    intro h
    rw [List.length_eq_zero_iff.1 h] at _spelled
    cases _spelled
  have parts := congrArg List.length (List.takeWhile_append_dropWhile (p := isNumberChar) (l := s))
  have rest := (List.dropWhile_sublist (l := s.dropWhile isNumberChar) (!isNumberChar ·)).length_le
  simp only [List.length_append] at parts
  omega

/-- The nanoseconds of a segment: the number is rounded, and its product with the unit again. -/
def Segment.nanoseconds (g : Segment) : Binary64 :=
  (Binary64.ofDecimal g.amount.digits g.amount.places).mul (.ofNat g.unit.nanoseconds)

def totalNanoseconds (l : List Segment) : Binary64 :=
  l.foldl (fun total g => total.add g.nanoseconds) (.finite 0)

/-- The whole seconds of a total, unless they lie beyond `2 ^ 63`, which itself counts as the
greatest duration. -/
def wholeSeconds? (l : List Segment) : Option Nat :=
  match ((totalNanoseconds l).div (.ofNat TimeUnit.second.nanoseconds)).floor? with
  | some n => if n ≤ UInt64.size / 2 then some (min n (UInt64.size / 2 - 1)) else none
  | none => none

/-! ### Texts -/

/-- Why a text is no duration.  The text is given without the blanks around it. -/
inductive DurationError where
  | invalid (text : String)
  | outOfRange (text : String)
deriving DecidableEq, Repr

def DurationError.message : DurationError → String
  | .invalid text => "invalid duration: " ++ text
  | .outOfRange text => "duration out of range: " ++ text

/-- Takes off one sign; true is negative. -/
def splitSign : List Char → Bool × List Char
  | '-' :: rest => (true, rest)
  | '+' :: rest => (false, rest)
  | s => (false, s)

/-- The seconds of a text of segments. -/
def parseSegments (s : List Char) : Except DurationError Int64 :=
  let (negative, body) := splitSign s
  match segments? body with
  | none | some [] => .error (.invalid (String.ofList s))
  | some l =>
    match wholeSeconds? l with
    | none => .error (.outOfRange (String.ofList s))
    | some n => .ok (Int64.ofInt (if negative then -(n : Int) else n))

/-- The seconds of a text. -/
def parseDuration (text : String) : Except DurationError Int64 :=
  let s := Text.trim text.toList
  if s.isEmpty then .ok 0
  else
    match literal? s with
    | some n => .ok n
    | none => parseSegments s

end TrustStore.Lease

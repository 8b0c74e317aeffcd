import TrustStore.Numeric.Binary64

/-!
# Shortest decimal texts

A binary64 value is written with the fewest digits that identify it: of the decimals that round to
the value it is one with the least number of digits, and of those the nearest, the even one if two
are equally near.  `shortest` selects the digits by exact integer arithmetic; a `Layout` says how
they are written.
-/

namespace TrustStore.Numeric

/-- The number `digits * 10 ^ exponent`. -/
structure Decimal where
  digits : Nat
  exponent : Int
deriving DecidableEq, Repr

/-! ### Selecting the digits -/

/-- A positive binary64 value stands for the decimals that round to it.  `d` is one of them if it
lies between the midpoints to the neighbouring values; the midpoints count if the value is even. -/
def readsBack (quanta : Nat) (d : Decimal) : Bool :=
  let step := Binary64.spacing quanta
  let below := if 1 < step ∧ quanta = step <<< 52 then step else 2 * step
  let low := (4 * quanta - below) * Nat.pow 10 (-d.exponent).toNat
  let high := (4 * quanta + 2 * step) * Nat.pow 10 (-d.exponent).toNat
  let value := d.digits * Nat.pow 10 d.exponent.toNat * (4 * Binary64.one)
  if (quanta / step) % 2 = 0 then decide (low ≤ value ∧ value ≤ high)
  else decide (low < value ∧ value < high)

/-- The least `k` such that the value lies below `10 ^ k`. -/
def magnitude (quanta : Nat) : Int :=
  (Nat.toDigits 10 (quanta * Nat.pow 10 400 / Binary64.one)).length - 400

/-- The nearer of the two neighbours of the value on the grid `10 ^ exponent`, among those that
read back. -/
def onGrid (quanta : Nat) (exponent : Int) : Option Decimal :=
  let num := quanta * Nat.pow 10 (-exponent).toNat
  let den := Binary64.one * Nat.pow 10 exponent.toNat
  let q := num / den
  let lower : Decimal := ⟨q, exponent⟩
  let upper : Decimal := ⟨q + 1, exponent⟩
  match readsBack quanta lower, readsBack quanta upper with
  | false, false => none
  | true, false => some lower
  | false, true => some upper
  | true, true =>
    let r := 2 * (num % den)
    if r < den ∨ (r = den ∧ q % 2 = 0) then some lower else some upper

/-- The fewest digits for a positive value.  Seventeen always suffice. -/
def shortest (quanta : Nat) : Decimal :=
  let k := magnitude quanta
  ((List.range 17).findSome? fun (n : Nat) => onGrid quanta (k - (n + 1))).getD
    ⟨quanta * Nat.pow 5 1074, -1074⟩

/-! ### Writing them -/

/-- How selected digits are written: in positional notation if the exponent of the leading digit
lies in a range, and in scientific notation otherwise. -/
structure Layout where
  least : Int
  greatest : Int
deriving DecidableEq, Repr

/-- Moves trailing zeros of the digits into the exponent. -/
def trimZeros (digits : List Char) (exponent : Int) : List Char × Int :=
  let zeros := (digits.reverse.takeWhile (· == '0')).length
  (digits.take (digits.length - zeros), exponent + zeros)

namespace Layout

def positionalText (digits : List Char) (exponent : Int) : List Char :=
  let point := digits.length + exponent
  if 0 ≤ exponent then digits ++ List.replicate exponent.toNat '0' ++ ['.', '0']
  else if 0 < point then digits.take point.toNat ++ '.' :: digits.drop point.toNat
  else '0' :: '.' :: List.replicate (-point).toNat '0' ++ digits

/-- An exponent, always with its sign. -/
def powerText (power : Int) : List Char :=
  (if power < 0 then '-' else '+') :: Nat.toDigits 10 power.natAbs

def scientificText (digits : List Char) (exponent : Int) : List Char :=
  let power := powerText (digits.length + exponent - 1)
  match digits with
  | [] => []
  | [d] => d :: 'e' :: power
  | d :: rest => d :: '.' :: rest ++ 'e' :: power

def isPositional (layout : Layout) (power : Int) : Bool :=
  decide (layout.least ≤ power ∧ power ≤ layout.greatest)

/-- The text of a finite value with a sign. -/
def write (layout : Layout) (negative : Bool) (quanta : Nat) : List Char :=
  let sign := if negative then ['-'] else []
  if quanta = 0 then sign ++ ['0', '.', '0']
  else
    let d := shortest quanta
    let (digits, exponent) := trimZeros (Nat.toDigits 10 d.digits) d.exponent
    if layout.isPositional (digits.length + exponent - 1) then
      sign ++ positionalText digits exponent
    else sign ++ scientificText digits exponent

end Layout

end TrustStore.Numeric

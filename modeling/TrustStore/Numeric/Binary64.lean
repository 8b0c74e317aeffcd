/-!
# Non-negative binary64 values

The least positive binary64 value is `2^-1074`, and every finite non-negative one is a multiple of
it.  A finite value is kept as that multiple, so an operation is exact arithmetic on natural
numbers followed by one rounding: to the nearest value with 53 significant bits, and on a tie to
the even one.
-/

namespace TrustStore.Numeric

inductive Binary64 where
  | finite (quanta : Nat)
  | infinite
deriving DecidableEq, Repr

/-- The quotient rounded to the nearest integer, a tie to the even one. -/
def roundQuotient (num den : Nat) : Nat :=
  let q := num / den
  let r := num % den
  if 2 * r < den then q
  else if den < 2 * r then q + 1
  else if q % 2 = 0 then q else q + 1

namespace Binary64

/-- The number of quanta in one. -/
def one : Nat := Nat.pow 2 1074

/-- From this number of quanta on, a value is infinite. -/
def limit : Nat := Nat.pow 2 2098

/-- The distance, in quanta, between neighbouring values around `quanta`. -/
def spacing (quanta : Nat) : Nat := Nat.pow 2 (quanta.log2 - 52)

/-- The value nearest to `num / den` quanta. -/
def nearest (num den : Nat) : Binary64 :=
  let step := spacing (num / den)
  let quanta := roundQuotient num (den * step) * step
  if quanta < limit then finite quanta else infinite

/-- The value nearest to `digits / 10 ^ places`. -/
def ofDecimal (digits places : Nat) : Binary64 := nearest (digits * one) (Nat.pow 10 places)

def ofNat (n : Nat) : Binary64 := ofDecimal n 0

/-! ### Operations -/

def add : Binary64 → Binary64 → Binary64
  | finite a, finite b => nearest (a + b) 1
  | _, _ => infinite

def mul : Binary64 → Binary64 → Binary64
  | finite a, finite b => nearest (a * b) one
  | _, _ => infinite

/-- Division by a positive value. -/
def div : Binary64 → Binary64 → Binary64
  | finite a, finite b => nearest (a * one) b
  | finite _, infinite => finite 0
  | infinite, _ => infinite

/-- The integer part of a finite value. -/
def floor? : Binary64 → Option Nat
  | finite a => some (a / one)
  | infinite => none

end Binary64

end TrustStore.Numeric

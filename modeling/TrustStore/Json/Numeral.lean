import TrustStore.Json.Basic
import TrustStore.Numeric.Binary64
import TrustStore.Text.Ascii

/-!
# Numerals

A JSON numeral without fraction and exponent is an integer if it fits 64 bits, and any other one a
float.  The digits of a float are taken into a 64-bit significand as long as they fit; further
digits of the whole part only move the exponent, and further digits of the fraction are dropped.
The significand is then scaled by powers of ten, each step rounded.  `-0` is a float.
-/

namespace TrustStore.Json

open Numeric

/-- The parts of a numeral, each a list of digit values. -/
structure Numeral where
  negative : Bool
  whole : List Nat
  fraction : List Nat
  exponent : Option (Bool × List Nat)
deriving DecidableEq, Repr

namespace Numeral

/-- The largest significand. -/
def capacity : Nat := UInt64.size - 1

/-- The significand after the whole part, and the number of digits it had no room for. -/
def takeWhole (significand : Nat) : List Nat → Nat × Nat
  | [] => (significand, 0)
  | d :: rest =>
    if significand * 10 + d ≤ capacity then takeWhole (significand * 10 + d) rest
    else (significand, rest.length + 1)

/-- The significand after the fraction, and the number of digits taken. -/
def takeFraction (significand : Nat) : List Nat → Nat × Nat
  | [] => (significand, 0)
  | d :: rest =>
    if significand * 10 + d ≤ capacity then
      let (s, places) := takeFraction (significand * 10 + d) rest
      (s, places + 1)
    else (significand, 0)

def digitsValue (digits : List Nat) : Nat := digits.foldl (fun n d => n * 10 + d) 0

/-! ### Scaling -/

/-- Division by `10 ^ power`, in steps of at most `10 ^ 308`. -/
def scaleDown (x : Binary64) (power : Nat) : Binary64 :=
  if power ≤ 308 then x.div (.ofNat (Nat.pow 10 power))
  else if x = .finite 0 then x
  else scaleDown (x.div (.ofNat (Nat.pow 10 308))) (power - 308)
termination_by power

/-- The float `significand * 10 ^ power`, unless it is infinite. -/
def scaled? (negative : Bool) (significand : Nat) (power : Int) : Option Number :=
  let x := Binary64.ofNat significand
  let y :=
    if power < 0 then scaleDown x (-power).toNat
    else if power ≤ 308 then x.mul (.ofNat (Nat.pow 10 power.toNat))
    else if significand = 0 then x
    else .infinite
  match y with
  | .finite quanta => some (.float negative quanta)
  | .infinite => none

/-- The greatest exponent that is counted. -/
def exponentLimit : Nat := UInt32.size / 2 - 1

/-! ### Values -/

def float? (n : Numeral) : Option Number :=
  let (s, dropped) := takeWhole 0 n.whole
  let (s, places) := takeFraction s n.fraction
  let power : Int := dropped - places
  match n.exponent with
  | none => scaled? n.negative s power
  | some (negative, digits) =>
    let e := digitsValue digits
    if exponentLimit < e then
      if s ≠ 0 && !negative then none else some (.float n.negative 0)
    else scaled? n.negative s (if negative then power - e else power + e)

/-- The value of a numeral, unless it is out of range. -/
def value? (n : Numeral) : Option Number :=
  let whole := digitsValue n.whole
  if n.fraction.isEmpty && n.exponent.isNone then
    if n.negative then
      if 0 < whole ∧ whole ≤ UInt64.size / 2 then some (.int (-whole)) else n.float?
    else if whole ≤ capacity then some (.int whole) else n.float?
  else n.float?

end Numeral

end TrustStore.Json

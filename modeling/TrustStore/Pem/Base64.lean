import TrustStore.Bytes

/-!
# Base64

The standard alphabet, in groups of four characters.  A group may be padded wherever it stands,
and the bits of a padded group that belong to no byte are zero.
-/

namespace TrustStore.Pem.Base64

/-- The six bits of a character of the alphabet. -/
def sextet? (c : Char) : Option Nat :=
  if 'A' ≤ c ∧ c ≤ 'Z' then some (c.toNat - 'A'.toNat)
  else if 'a' ≤ c ∧ c ≤ 'z' then some (c.toNat - 'a'.toNat + 26)
  else if '0' ≤ c ∧ c ≤ '9' then some (c.toNat - '0'.toNat + 52)
  else if c = '+' then some 62
  else if c = '/' then some 63
  else none

/-- The bytes of a group. -/
def group? (a b c d : Char) : Option Bytes := do
  let a ← sextet? a
  let b ← sextet? b
  let first := (a * 4 + b / 16).toUInt8
  if c = '=' then
    if d = '=' ∧ b % 16 = 0 then some [first] else none
  else
    let c ← sextet? c
    let second := (b % 16 * 16 + c / 4).toUInt8
    if d = '=' then
      if c % 4 = 0 then some [first, second] else none
    else
      let d ← sextet? d
      some [first, second, (c % 4 * 64 + d).toUInt8]

def decode : List Char → Option Bytes
  | [] => some []
  | a :: b :: c :: d :: rest => do
    let bytes ← group? a b c d
    let more ← decode rest
    return bytes ++ more
  | _ => none

end TrustStore.Pem.Base64

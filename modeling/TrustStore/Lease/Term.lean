import TrustStore.Json.Decoder
import TrustStore.Lease.Duration

/-!
# Lease terms

How long a lease shall last, as a caller states it: a number of seconds or the text of a duration.
-/

namespace TrustStore.Lease

inductive Term where
  | seconds (n : Int64)
  | text (s : String)
deriving DecidableEq, Repr

namespace Term

/-- The term of a caller who states none. -/
def zero : Term := .seconds 0

def shown : Term → String
  | seconds n => toString n.toInt
  | text s => s

/-- The whole seconds of a term. -/
def resolve : Term → Except DurationError Int64
  | seconds n => .ok n
  | text s => parseDuration s

/-! ### As JSON -/

def toJson : Term → Json
  | seconds n => .ofInt n.toInt
  | text s => .string s

/-- An integer of 64 bits or a string, and no other value. -/
def ofJson? : Json → Option Term
  | .number (.int n) => 
    if Int64.minValue.toInt ≤ n ∧ n ≤ Int64.maxValue.toInt then some (.seconds (.ofInt n)) else none
  | .string s => some (.text s)
  | _ => none

def decoder : Json.Decoder Term := fun form source => do
  match ofJson? (← Json.any form source) with
  | some term => .ok term
  | none => .error (.noAlternative "DurationInput")

end Term

end TrustStore.Lease

import TrustStore.Json.Decoder
import TrustStore.Policies
import TrustStore.Text.Split

/-!
# Policies as supplied

A caller states policies in one text, with commas between the names, or in a list.
-/

namespace TrustStore.Policies

inductive Choice where
  | delimited (text : String)
  | list (names : List String)
deriving DecidableEq, Repr

namespace Choice

/-- The choice of a caller who states none. -/
def empty : Choice := .list []

def names : Choice → List String
  | delimited text => (Text.splitOn ',' text.toList).map String.ofList
  | list names => names

/-- The policies that are meant. -/
def resolve (choice : Choice) : List String := Policies.resolve choice.names

/-! ### As JSON -/

def toJson : Choice → Json
  | delimited text => .string text
  | list names => .ofTexts names

/-- The strings of a list that holds nothing else. -/
def texts? : List Json → Option (List String)
  | [] => some []
  | .string s :: rest => (texts? rest).map (s :: ·)
  | _ :: _ => none

def ofJson? : Json → Option Choice
  | .string text => some (.delimited text)
  | .array items => (texts? items).map .list
  | _ => none

def decoder : Json.Decoder Choice := fun form source => do
  match ofJson? (← Json.any form source) with
  | some choice => .ok choice
  | none => .error (.noAlternative "PolicyInput")

end Choice

end TrustStore.Policies

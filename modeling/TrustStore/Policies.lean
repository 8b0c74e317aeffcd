import TrustStore.Text.Blank
import TrustStore.Text.Lowercase
import TrustStore.Text.Order

/-!
# Policies

The policies granted through an entry are a set of names without blanks around them and in lower
case.  The policy `root` grants everything, so a set that holds it is that policy alone.
-/

namespace TrustStore.Policies

def root : String := "root"

def normalize (name : String) : String :=
  String.ofList (Text.lowercase (Text.trim name.toList))

/-- The set of the given names: ascending, without empty names and repetitions. -/
def resolve (names : List String) : List String :=
  let names := (names.map normalize).filter (· ≠ "")
  if root ∈ names then [root] else Text.sortDistinct names

end TrustStore.Policies

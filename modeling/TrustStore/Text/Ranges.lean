/-!
# Tables of code points

A table is a list of closed ranges, ascending and apart.  A look-up stops at the first range that
ends at or after the code point it looks for.
-/

namespace TrustStore.Text

abbrev Ranges := List (Nat × Nat)

namespace Ranges

def contains : Ranges → Nat → Bool
  | [], _ => false
  | (lo, hi) :: rest, n => if hi < n then contains rest n else decide (lo ≤ n)

end Ranges

end TrustStore.Text

/-!
# Lease ceilings

The system's ceilings, in seconds: one for the default lease and one for the longest.  A ceiling
may be any number of 64 bits; leases are compared with it as signed numbers, so a ceiling beyond
their range is their greatest value.
-/

namespace TrustStore.Lease

structure Ceilings where
  defaultTtl : UInt64
  maxTtl : UInt64
deriving DecidableEq, Repr

/-- A ceiling as a duration. -/
def ceiling (seconds : UInt64) : Int64 :=
  Int64.ofInt (min seconds.toNat Int64.maxValue.toInt)

/-- A warning to the caller: what was asked for lies above a ceiling. -/
inductive Warning where
  | ttl (requested ceiling : Int64)
  | maxTtl (requested ceiling : Int64)
deriving DecidableEq, Repr

def Warning.excessText (field : String) (requested ceiling : Int64) : String :=
  "Given " ++ field ++ " of " ++ toString requested.toInt
    ++ " seconds is greater than current mount/system default of " ++ toString ceiling.toInt
    ++ " seconds"

def Warning.text : Warning → String
  | ttl requested ceiling => excessText "ttl" requested ceiling
  | maxTtl requested ceiling => excessText "max_ttl" requested ceiling

/-- The warnings for a request, that for `ttl` first. -/
def Ceilings.warnings (c : Ceilings) (ttl maxTtl : Int64) : List Warning :=
  (if ceiling c.defaultTtl < ttl then [.ttl ttl (ceiling c.defaultTtl)] else [])
    ++ if ceiling c.maxTtl < maxTtl then [.maxTtl maxTtl (ceiling c.maxTtl)] else []

end TrustStore.Lease

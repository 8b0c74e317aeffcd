import TrustStore.Lease.Ceilings

/-!
# Lease lengths and ceilings

A lease length is a signed number and a ceiling an unsigned one.  The greatest value that stands in
for a ceiling beyond the signed range lets every length pass, so the comparison is that of the
numbers themselves (`ceiling_lt_iff`), and there is no warning exactly where both lengths lie within
their ceilings (`Ceilings.warnings_eq_nil_iff`).  A warning is about a ceiling below some length, so
the number that it shows is that of the ceiling (`Ceilings.texts_warnings`).
-/

namespace TrustStore.Lease

/-- A ceiling beyond the signed range is cut off at its end. -/
theorem toInt_ceiling (seconds : UInt64) :
    (ceiling seconds).toInt = min (seconds.toNat : Int) Int64.maxValue.toInt := by
  have hmax : Int64.maxValue.toInt = 2 ^ 63 - 1 := rfl
  have hnonneg : 0 ≤ (seconds.toNat : Int) := Int.natCast_nonneg _
  exact Int64.toInt_ofInt_of_le (by omega) (by omega)

/-- A length exceeds a ceiling as it exceeds the number of its seconds. -/
theorem ceiling_lt_iff {seconds : UInt64} {n : Int64} :
    ceiling seconds < n ↔ (seconds.toNat : Int) < n.toInt := by
  have hrange : n.toInt ≤ Int64.maxValue.toInt := Int64.toInt_le n
  rw [Int64.lt_iff_toInt_lt, toInt_ceiling]
  omega

/-- There is no warning exactly if both lengths are within their ceilings. -/
theorem Ceilings.warnings_eq_nil_iff {c : Ceilings} {ttl maxTtl : Int64} :
    c.warnings ttl maxTtl = [] ↔
      ttl.toInt ≤ c.defaultTtl.toNat ∧ maxTtl.toInt ≤ c.maxTtl.toNat := by
  rw [← Int.not_lt, ← Int.not_lt, ← ceiling_lt_iff, ← ceiling_lt_iff, warnings,
    List.append_eq_nil_iff]
  constructor
  · rintro ⟨httl, hmax⟩
    refine ⟨fun h => ?_, fun h => ?_⟩
    · rw [if_pos h] at httl
      cases httl
    · rw [if_pos h] at hmax
      cases hmax
  · rintro ⟨httl, hmax⟩
    exact ⟨if_neg httl, if_neg hmax⟩

/-! ### What warnings say -/

/-- The text for a length above a ceiling. -/
def excess (field : String) (requested : Int) (ceiling : Nat) : String :=
  "Given " ++ field ++ " of " ++ toString requested
    ++ " seconds is greater than current mount/system default of " ++ toString ceiling ++ " seconds"

/-- The texts for the lengths that lie above their ceilings as whole numbers. -/
def Ceilings.excessTexts (c : Ceilings) (ttl maxTtl : Int64) : List String :=
  (if (c.defaultTtl.toNat : Int) < ttl.toInt
    then [excess "ttl" ttl.toInt c.defaultTtl.toNat] else [])
    ++ if (c.maxTtl.toNat : Int) < maxTtl.toInt
      then [excess "max_ttl" maxTtl.toInt c.maxTtl.toNat] else []

/-- A ceiling below some length is not cut off. -/
theorem excessText_ceiling {seconds : UInt64} {n : Int64} (h : (seconds.toNat : Int) < n.toInt)
    (field : String) :
    Warning.excessText field n (ceiling seconds) = excess field n.toInt seconds.toNat := by
  have hrange : n.toInt ≤ Int64.maxValue.toInt := Int64.toInt_le n
  have hceiling : (ceiling seconds).toInt = (seconds.toNat : Int) := by
    rw [toInt_ceiling]
    omega
  rw [Warning.excessText, hceiling]
  rfl

/-- The warnings say which lengths are beyond which ceilings. -/
theorem Ceilings.texts_warnings (c : Ceilings) (ttl maxTtl : Int64) :
    (c.warnings ttl maxTtl).map Warning.text = c.excessTexts ttl maxTtl := by
  rw [warnings, excessTexts, List.map_append]
  simp only [ceiling_lt_iff]
  -- the two lengths are compared apart from each other
  congr 1
  · split
    · rename_i h
      exact congrArg (fun text => [text]) (excessText_ceiling h "ttl")
    · rfl
  · split
    · rename_i h
      exact congrArg (fun text => [text]) (excessText_ceiling h "max_ttl")
    · rfl

/-! ### Lengths without their sign -/

/-- A length that is not negative is the same number without its sign. -/
theorem toNat_toUInt64 {n : Int64} (h : 0 ≤ n) : (n.toUInt64.toNat : Int) = n.toInt := by
  have hn : 0 ≤ n.toInt := Int64.le_iff_toInt_le.mp h
  rw [Int64.toNat_toUInt64_of_le h, Int64.toNatClampNeg, Int.toNat_of_nonneg hn]

theorem toUInt64_le_iff {n : Int64} (h : 0 ≤ n) {seconds : UInt64} :
    n.toUInt64 ≤ seconds ↔ n.toInt ≤ seconds.toNat := by
  rw [UInt64.le_iff_toNat_le, ← Int.ofNat_le, toNat_toUInt64 h]

end TrustStore.Lease

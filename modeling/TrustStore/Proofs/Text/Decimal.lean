/-!
# Decimal texts

The decimal text of a natural number is made of digits, whose values taken together are the number
again (`foldl_toDigits`).  That of an integer has a minus sign before it if it is negative
(`toList_toString`).
-/

namespace TrustStore.Text

theorem isDigit_bounds {c : Char} (h : c.isDigit = true) : 48 ≤ c.toNat ∧ c.toNat ≤ 57 := by
  simp only [Char.isDigit, Bool.and_eq_true, decide_eq_true_eq] at h
  exact h

theorem isDigit_of_mem_toDigits {n : Nat} {c : Char} (h : c ∈ Nat.toDigits 10 n) :
    c.isDigit = true :=
  Nat.isDigit_of_mem_toDigits (by decide) (by decide) h

theorem foldl_eq_ofDigitChars (l : List Char) (k : Nat) :
    l.foldl (fun k c => k * 10 + (c.toNat - '0'.toNat)) k = Nat.ofDigitChars 10 l k := by
  induction l generalizing k with
  | nil => exact Nat.ofDigitChars_nil.symm
  | cons c l ih => rw [List.foldl_cons, ih, Nat.ofDigitChars_cons, Nat.mul_comm]

/-- A number's digits, read back from the left, are the number. -/
theorem foldl_toDigits (n : Nat) :
    (Nat.toDigits 10 n).foldl (fun k c => k * 10 + (c.toNat - '0'.toNat)) 0 = n := by
  rw [foldl_eq_ofDigitChars, Nat.ofDigitChars_ten_toDigits]

theorem toList_toString (n : Int) :
    (toString n).toList
      = if 0 ≤ n then Nat.toDigits 10 n.toNat else '-' :: Nat.toDigits 10 (-n).toNat := by
  rw [Int.toString_eq_repr, Int.repr_eq_if]
  split
  · exact Nat.toList_repr
  · rw [String.toList_append, Nat.toList_repr]
    rfl

end TrustStore.Text

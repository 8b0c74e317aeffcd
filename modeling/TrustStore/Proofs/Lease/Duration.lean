import TrustStore.Lease.Term
import TrustStore.Proofs.Text.Decimal
import TrustStore.Proofs.Text.Lowercase

/-!
# Durations in decimal

The decimal text of a number of seconds is the duration of so many seconds, for every number of 64
bits (`parseDuration_toString`): it is read as an integer before it could be taken for a segment.
-/

namespace TrustStore.Lease

/-! ### Signs -/

theorem isNumberChar_of_isDigit {c : Char} (h : c.isDigit = true) : isNumberChar c = true := by
  rw [isNumberChar, h, Bool.true_or]

/-- A character of a number is no sign. -/
theorem splitSign_cons {c : Char} {rest : List Char} (h : isNumberChar c = true) :
    splitSign (c :: rest) = (false, c :: rest) := by
  unfold splitSign
  split
  · rename_i heq
    cases heq
    cases h
  · rename_i heq
    cases heq
    cases h
  · rfl

theorem integer?_eq (s : List Char) :
    integer? s = if (splitSign s).2.isEmpty || !(splitSign s).2.all Char.isDigit then none
      else if (splitSign s).1 then some (-(digitsValue (splitSign s).2 : Int))
      else some (digitsValue (splitSign s).2 : Int) := by
  unfold integer?
  split
  rename_i negative digits hsign
  have hsplit : splitSign s = (negative, digits) := by
    rw [← hsign]
    unfold splitSign
    split
    · rfl
    · rfl
    · rfl
  rw [hsplit]

/-! ### Integers -/

theorem integer?_of_digits {digits : List Char} (hne : digits ≠ [])
    (h : ∀ c ∈ digits, c.isDigit = true) :
    integer? digits = some (digitsValue digits : Int) ∧
      integer? ('-' :: digits) = some (-(digitsValue digits : Int)) := by
  have hnonempty : (digits.isEmpty || !digits.all Char.isDigit) = false := by
    rw [List.isEmpty_eq_false_iff.mpr hne, List.all_eq_true.mpr h]
    rfl
  have hplain : splitSign digits = (false, digits) := by
    obtain ⟨c, rest, rfl⟩ := List.exists_cons_of_ne_nil hne
    exact splitSign_cons (isNumberChar_of_isDigit (h c List.mem_cons_self))
  have hminus : splitSign ('-' :: digits) = (true, digits) := rfl
  rw [integer?_eq, integer?_eq, hplain, hminus, hnonempty]
  exact ⟨rfl, rfl⟩

/-- An integer is read back from its decimal text. -/
theorem integer?_toString (n : Int) : integer? (toString n).toList = some n := by
  rw [Text.toList_toString]
  split
  · rename_i hsign
    rw [(integer?_of_digits Nat.toDigits_ne_nil fun _ => Text.isDigit_of_mem_toDigits).1,
      digitsValue, Text.foldl_toDigits, Int.toNat_of_nonneg hsign]
  · rename_i hsign
    have hneg : 0 ≤ -n := by omega
    rw [(integer?_of_digits Nat.toDigits_ne_nil fun _ => Text.isDigit_of_mem_toDigits).2,
      digitsValue, Text.foldl_toDigits, Int.toNat_of_nonneg hneg, Int.neg_neg]

theorem literal?_toString (n : Int64) : literal? (toString n.toInt).toList = some n := by
  rw [literal?, integer?_toString]
  show (if _ then some (Int64.ofInt n.toInt) else none) = _
  rw [if_pos ⟨Int64.le_toInt n, Int64.toInt_le n⟩, Int64.ofInt_toInt]

theorem not_isBlank_of_isDigit {c : Char} (h : c.isDigit = true) : Text.isBlank c = false := by
  have hall : ∀ code < 58, 48 ≤ code → Text.blankRanges.contains code = false := by decide
  have hbounds := Text.isDigit_bounds h
  exact hall c.toNat (Nat.lt_succ_of_le hbounds.2) hbounds.1

theorem not_isBlank_of_isNumberChar {c : Char} (h : isNumberChar c = true) :
    Text.isBlank c = false := by
  rw [isNumberChar, Bool.or_eq_true, beq_iff_eq] at h
  rcases h with hdigit | rfl
  · exact not_isBlank_of_isDigit hdigit
  · decide

/-- The characters of a decimal text are not blank. -/
theorem not_isBlank_of_mem_toString {n : Int} {c : Char} (h : c ∈ (toString n).toList) :
    Text.isBlank c = false := by
  rw [Text.toList_toString] at h
  split at h
  · exact not_isBlank_of_isDigit (Text.isDigit_of_mem_toDigits h)
  · rcases List.mem_cons.mp h with rfl | h
    · decide
    · exact not_isBlank_of_isDigit (Text.isDigit_of_mem_toDigits h)

/-- A decimal text is the duration of its number. -/
theorem parseDuration_toString (n : Int64) : parseDuration (toString n.toInt) = .ok n := by
  -- a decimal text has no blanks, and is not empty
  have htrim : Text.trim (toString n.toInt).toList = (toString n.toInt).toList := by
    refine Text.Trimmed.trim ⟨fun c hc => ?_, fun c hc => ?_⟩
    · exact not_isBlank_of_mem_toString (List.mem_of_mem_head? hc)
    · exact not_isBlank_of_mem_toString (List.mem_of_mem_getLast? hc)
  have hne : (toString n.toInt).toList.isEmpty = false := by
    refine List.isEmpty_eq_false_iff.mpr fun hnil => ?_
    have hread := integer?_toString n.toInt
    rw [hnil] at hread
    cases hread
  rw [parseDuration, htrim, hne]
  simp only [Bool.false_eq_true, if_false, literal?_toString]

theorem Term.resolve_toString (n : Int64) :
    (Term.text (toString n.toInt)).resolve = (Term.seconds n).resolve :=
  parseDuration_toString n

end TrustStore.Lease

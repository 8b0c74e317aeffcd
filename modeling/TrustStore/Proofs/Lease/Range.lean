import Mathlib.Algebra.Order.Ring.Pow
import TrustStore.Proofs.Lease.Grammar
import TrustStore.Proofs.Lease.Rounding
import TrustStore.Proofs.Numeric.LowerBound

/-!
# Durations beyond the range

A sum of segments beyond the range of 64 bits may lose so much in rounding that it falls back into
it.  What is left at least is bounded for texts of any length and numbers of any size
(`atLeast_totalNanoseconds`), so a text is refused if it lies farther beyond the range than the sum
may be off, and else is read as a duration that close, if it is read (`refused_or_close`).  Numbers
just beyond the range are read, as the greatest duration (`parseDuration_near`).
-/

namespace TrustStore.Lease

open Numeric Numeric.Binary64

/-! ### Lower bounds -/

/-- What is left of a segment when it is rounded down, the number first and then the product. -/
theorem WrittenSegment.exists_atLeast (g : WrittenSegment) :
    ∃ y, g.segment.nanoseconds.AtLeast y ∧ 0 ≤ y ∧
      g.nanoseconds * (1 - 1 / 2 ^ 53) ^ 2 - 1 / 2 ^ 80 ≤ y := by
  have hunit : (g.unit.nanoseconds : ℚ) ≤ 86400 * 1000000000 := by
    exact_mod_cast g.unit.nanoseconds_le
  have hproduct := (AtLeast.ofDecimal g.number.value_eq.le).mul g.unit.denotes_nanoseconds
  -- a term is not negative, however far the bound is moved
  refine ⟨max 0 (leftBy (leftBy g.number.value * g.unit.nanoseconds)), ?_, le_max_left _ _, ?_⟩
  · rcases le_total 0 (leftBy (leftBy g.number.value * g.unit.nanoseconds)) with h | h
    · rw [max_eq_right h]
      exact hproduct
    · rw [max_eq_left h]
      exact AtLeast.zero _
  · refine le_trans ?_ (le_max_right _ _)
    rw [WrittenSegment.nanoseconds, leftBy, leftBy]
    linarith

/-- Each term of the sum is bounded from below. -/
theorem exists_atLeast_terms (l : List WrittenSegment) :
    ∃ ys : List ℚ, List.Forall₂ AtLeast (l.map (·.segment.nanoseconds)) ys ∧
      (∀ y ∈ ys, 0 ≤ y) ∧ ys.length = l.length ∧
      exactNanoseconds l * (1 - 1 / 2 ^ 53) ^ 2 - l.length / 2 ^ 80 ≤ ys.sum := by
  induction l with
  | nil => exact ⟨[], .nil, by simp, rfl, by simp [exactNanoseconds]⟩
  | cons g l ih =>
    obtain ⟨y, hy, hnonneg, hle⟩ := g.exists_atLeast
    obtain ⟨ys, hys, hnonnegs, hlength, hles⟩ := ih
    refine ⟨y :: ys, .cons hy hys, List.forall_mem_cons.mpr ⟨hnonneg, hnonnegs⟩, ?_, ?_⟩
    · rw [List.length_cons, hlength, List.length_cons]
    · rw [exactNanoseconds_cons, List.sum_cons, List.length_cons]
      push_cast
      linarith

/-- The sum of segments takes its part of all of them once more for each. -/
theorem atLeast_totalNanoseconds (l : List WrittenSegment) :
    (totalNanoseconds (l.map WrittenSegment.segment)).AtLeast
      (exactNanoseconds l * (1 - 1 / 2 ^ 53) ^ (l.length + 2) - l.length / 2 ^ 79) := by
  obtain ⟨ys, hys, hnonneg, hlength, hle⟩ := exists_atLeast_terms l
  have hsum := AtLeast.foldl_add (AtLeast.zero (.finite 0)) hys hnonneg
  rw [← totalNanoseconds_eq, zero_add, hlength] at hsum
  refine hsum.mono ?_
  have hpow : (0 : ℚ) ≤ (1 - 1 / 2 ^ 53) ^ l.length := pow_nonneg (by norm_num) _
  have hpowle : ((1 : ℚ) - 1 / 2 ^ 53) ^ l.length ≤ 1 := pow_le_one₀ (by norm_num) (by norm_num)
  have hcount : (0 : ℚ) ≤ l.length := Nat.cast_nonneg _
  rw [pow_add]
  -- what each addition loses is the same factor
  generalize ((1 : ℚ) - 1 / 2 ^ 53) ^ l.length = p at hpow hpowle
  have hterms := mul_le_mul_of_nonneg_right hle hpow
  have hloss := mul_le_mul_of_nonneg_left hpowle hcount
  linarith

namespace WrittenDuration

variable {d : WrittenDuration}

/-- By how much the whole seconds of the rounded sum may fall short of those that are meant. -/
theorem seconds_lt_of_floor? {k : ℕ}
    (h : ((totalNanoseconds (d.segments.map WrittenSegment.segment)).div
      (.ofNat TimeUnit.second.nanoseconds)).floor? = some k) :
    d.seconds - (d.segments.length + 3) * d.seconds / 2 ^ 53 - (d.segments.length + 1) / 2 ^ 79
      < k + 1 := by
  have hquotient := (atLeast_totalNanoseconds d.segments).div denotes_second (by norm_num)
  refine lt_of_le_of_lt ?_ (hquotient.lt_of_floor? h)
  have hseconds := d.seconds_nonneg
  have hmagnitude : exactNanoseconds d.segments = 1000000000 * d.seconds := by
    rw [seconds, magnitude]
    ring
  have hcount : (0 : ℚ) ≤ d.segments.length := Nat.cast_nonneg _
  -- a part for each of the roundings is at most the sum of these parts
  have hbernoulli := one_add_mul_sub_le_pow (a := (1 - 1 / 2 ^ 53 : ℚ)) (by norm_num)
    (d.segments.length + 3)
  rw [pow_succ _ (d.segments.length + 2)] at hbernoulli
  have hkept := mul_le_mul_of_nonneg_left hbernoulli hseconds
  rw [hmagnitude, leftBy]
  push_cast at hkept ⊢
  linarith

/-- Of seconds beyond the range only as many are lost as the sum may be off, even where a number
just beyond it stands for the greatest duration. -/
theorem sub_le_tolerance {n : ℕ} (hbeyond : 2 ^ 63 ≤ d.seconds)
    (h : wholeSeconds? (d.segments.map WrittenSegment.segment) = some n) :
    d.seconds - n ≤ d.tolerance ∧ n ≤ 2 ^ 63 - 1 := by
  unfold wholeSeconds? at h
  split at h
  · rename_i k hk
    split at h
    · rename_i hle
      obtain rfl := Option.some.inj h
      have hlt := seconds_lt_of_floor? hk
      have hcount : (0 : ℚ) ≤ d.segments.length := Nat.cast_nonneg _
      -- the seconds are cut off at the largest signed value, one below the power
      have hkept : (k : ℚ) - 1 ≤ (min k (UInt64.size / 2 - 1) : ℕ) := by
        have hnat : k ≤ min k (UInt64.size / 2 - 1) + 1 := by
          have hsize : UInt64.size / 2 = 2 ^ 63 := rfl
          omega
        have hcast : (k : ℚ) ≤ (min k (UInt64.size / 2 - 1) + 1 : ℕ) := Nat.cast_le.mpr hnat
        push_cast at hcast ⊢
        linarith
      refine ⟨?_, Nat.min_le_right _ _⟩
      have hproduct : d.segments.length * 2 ^ 63 ≤ d.segments.length * d.seconds :=
        mul_le_mul_of_nonneg_left hbeyond hcount
      rw [tolerance]
      linarith
    · cases h
  · cases h

end WrittenDuration

/-- Whole seconds beyond the range are `2 ^ 63` at least, whatever the sign. -/
theorem two_pow_le_seconds {d : WrittenDuration}
    (h : ¬ (Int64.minValue.toInt ≤ truncated (d.nanoseconds / 1000000000) ∧
      truncated (d.nanoseconds / 1000000000) ≤ Int64.maxValue.toInt)) : 2 ^ 63 ≤ d.seconds := by
  by_contra hlt
  rw [d.nanoseconds_div, d.sign.truncated_apply d.seconds_nonneg] at h
  -- were there fewer seconds, either sign would be in range
  have hfloor : ⌊d.seconds⌋₊ < 2 ^ 63 := by
    rw [Nat.floor_lt d.seconds_nonneg]
    push_cast
    exact not_le.mp hlt
  have hmin : Int64.minValue.toInt = -2 ^ 63 := rfl
  have hmax : Int64.maxValue.toInt = 2 ^ 63 - 1 := rfl
  rw [hmin, hmax] at h
  refine h ?_
  rcases d.sign <;> (simp only [Sign.apply]; omega)

/-- A text whose whole seconds lie beyond the range is refused if they lie beyond it by more than
the sum may be off.  Else it is refused, or read as a duration that is no farther from them. -/
theorem refused_or_close {text : String} {d : WrittenDuration} (htext : d.SpelledBy text)
    (hbeyond : ¬ (Int64.minValue.toInt ≤ truncated (d.nanoseconds / 1000000000) ∧
      truncated (d.nanoseconds / 1000000000) ≤ Int64.maxValue.toInt)) :
    (2 ^ 63 + d.tolerance ≤ d.seconds →
      Entry.seconds (.text text) = refused (.outOfRange (trimmed text))) ∧
    (Entry.seconds (.text text) = refused (.outOfRange (trimmed text)) ∨
      ∃ n : Int64, Entry.seconds (.text text) = .ok n ∧
        |n.toInt - d.nanoseconds / 1000000000| ≤ d.tolerance) := by
  have hseconds := two_pow_le_seconds hbeyond
  have hread := d.parseDuration_of_spelledBy htext
  rcases hwhole : wholeSeconds? (d.segments.map WrittenSegment.segment) with - | n
  · rw [hwhole] at hread
    have hrefused : Entry.seconds (.text text) = refused (.outOfRange (trimmed text)) := by
      rw [seconds_text_of_error hread, trimmed, htext]
    exact ⟨fun _ => hrefused, .inl hrefused⟩
  · rw [hwhole] at hread
    obtain ⟨hclose, hle⟩ := WrittenDuration.sub_le_tolerance hseconds hwhole
    have hlecast : (n : ℚ) ≤ 2 ^ 63 - 1 := by
      have hcast : (n : ℚ) ≤ (2 ^ 63 - 1 : ℕ) := Nat.cast_le.mpr hle
      norm_num at hcast ⊢
      exact hcast
    refine ⟨fun hfar => ?_, .inr ⟨_, seconds_text_of_ok hread, ?_⟩⟩
    · linarith
    -- the sign does not change the distance
    · have hsigned : ((d.sign.apply (n : ℤ) : ℤ) : ℚ) - d.sign.apply d.seconds
          = d.sign.apply (n - d.seconds) := by
        rcases d.sign <;> (simp only [Sign.apply]; push_cast; ring)
      have hlt : n < 2 ^ 63 := Nat.lt_of_le_pred (by decide) hle
      rw [d.sign.toInt_ofInt_apply hlt, d.nanoseconds_div, hsigned, d.sign.abs_apply,
        abs_sub_comm, abs_of_nonneg (by linarith)]
      exact hclose

theorem isDigit_none : ((none : Option (List Char)).getD []).all Char.isDigit = true := rfl

def manyDays : WrittenSegment :=
  ⟨⟨['1', '0', '0', '0', '0', '0', '0', '0', '0', '0', '0', '0', '0', '0', '0', '0'], none, rfl,
    isDigit_none, List.cons_ne_nil _ _⟩, .day, ['d'], .day⟩

theorem many_days_are_refused :
    manyDays.alone.SpelledBy "1000000000000000d" ∧
      ¬ (Int64.minValue.toInt ≤ truncated (manyDays.alone.nanoseconds / 1000000000) ∧
        truncated (manyDays.alone.nanoseconds / 1000000000) ≤ Int64.maxValue.toInt) ∧
      2 ^ 63 + manyDays.alone.tolerance ≤ manyDays.alone.seconds ∧
      Entry.seconds (.text "1000000000000000d") = refused (.outOfRange "1000000000000000d") := by
  have htext : manyDays.alone.SpelledBy "1000000000000000d" := rfl
  have hbeyond : ¬ (Int64.minValue.toInt ≤ truncated (manyDays.alone.nanoseconds / 1000000000) ∧
      truncated (manyDays.alone.nanoseconds / 1000000000) ≤ Int64.maxValue.toInt) := by
    decide +kernel
  have hfar : 2 ^ 63 + manyDays.alone.tolerance ≤ manyDays.alone.seconds := by decide +kernel
  exact ⟨htext, hbeyond, hfar, (refused_or_close htext hbeyond).1 hfar⟩

/-! ### Beyond the range by little -/

/-- Less than half way to the next value, a number is rounded down to `2 ^ 63`. -/
theorem ofDecimal_near {digits places : ℕ} {x : ℚ} (hx : (digits : ℚ) / 10 ^ places = x)
    (hlow : 2 ^ 63 ≤ x) (hhigh : x < 2 ^ 63 + 2 ^ 10) :
    ofDecimal digits places = finite (2 ^ 63 * one) := by
  have hden : 0 < Nat.pow 10 places := Nat.pow_pos (by decide)
  have hquanta : ((digits * one : ℕ) : ℚ) / (Nat.pow 10 places : ℕ) = x * one :=
    hx ▸ decimal_quanta digits places
  have hlowone := mul_le_mul_of_nonneg_right hlow cast_one_pos.le
  have hhighone := mul_lt_mul_of_pos_right hhigh cast_one_pos
  have hpower : IsValue (2 ^ 63 * one) := isValue_mul_one (Nat.one_mul _).symm (by decide)
  -- the power itself is not farther than that
  have hclose := abs_rounded_sub_le_of_isValue (digits * one) hden hpower
  rw [hquanta, Nat.cast_mul, Nat.cast_pow, Nat.cast_ofNat, abs_sub_comm (2 ^ 63 * (one : ℚ)),
    abs_of_nonneg (sub_nonneg.mpr hlowone), abs_le] at hclose
  have hlower : 2 ^ 63 * one ≤ rounded (digits * one) (Nat.pow 10 places) := by
    rw [← Nat.cast_le (α := ℚ), Nat.cast_mul, Nat.cast_pow, Nat.cast_ofNat]
    linarith
  have hupper : rounded (digits * one) (Nat.pow 10 places) < (2 ^ 63 + 2 ^ 11) * one := by
    rw [← Nat.cast_lt (α := ℚ), Nat.cast_mul, Nat.cast_add, Nat.cast_pow, Nat.cast_pow,
      Nat.cast_ofNat]
    linarith
  have heq := eq_of_isValue (n := 2 ^ 63) (k := 11) (by decide)
    (isValue_rounded (digits * one) hden) hlower hupper
  have hlt : rounded (digits * one) (Nat.pow 10 places) < limit := by
    rw [heq]
    exact mul_one_lt_limit (by decide)
  rw [ofDecimal, nearest_of_lt hlt, heq]

/-- So many seconds, written as one segment, are read as the greatest duration. -/
theorem parseDuration_near {text : String} {d : WrittenDuration} {g : WrittenSegment}
    (htext : d.SpelledBy text) (hsegments : d.segments = [g]) (hunit : g.unit = .second)
    (hlow : 2 ^ 63 ≤ g.number.value) (hhigh : g.number.value < 2 ^ 63 + 2 ^ 10) :
    parseDuration text = .ok (.ofInt (d.sign.apply (2 ^ 63 - 1 : ℤ))) := by
  have hsecond : ofNat TimeUnit.second.nanoseconds = finite (1000000000 * one) := by
    rw [TimeUnit.nanoseconds]
    exact ofNat_whole (isValue_mul_one (k := 5 ^ 9) (e := 9) (by decide) (by decide)) (by decide)
  have htotal : IsValue (2 ^ 63 * 1000000000 * one) :=
    isValue_mul_one (k := 5 ^ 9) (e := 72) (by decide) (by decide)
  have hseconds : IsValue (2 ^ 63 * one) := isValue_mul_one (Nat.one_mul _).symm (by decide)
  have hterm : g.segment.nanoseconds = finite (2 ^ 63 * 1000000000 * one) := by
    rw [Segment.nanoseconds, WrittenSegment.segment, hunit,
      ofDecimal_near g.number.value_eq.symm hlow hhigh, hsecond]
    exact mul_whole htotal (by decide)
  -- product, sum and quotient are exact, so only reading the number rounds
  have hsum : totalNanoseconds [g.segment] = finite (2 ^ 63 * 1000000000 * one) := by
    rw [totalNanoseconds, List.foldl_cons, List.foldl_nil, hterm]
    exact zero_add_whole htotal (by decide)
  have hwhole : wholeSeconds? [g.segment] = some (2 ^ 63 - 1) := by
    rw [wholeSeconds?, hsum, hsecond, div_whole (by decide) hseconds (by decide), floor?_whole]
    rfl
  rw [d.parseDuration_of_spelledBy htext, hsegments, List.map_cons, List.map_nil, hwhole]
  rfl

def secondBeyond : WrittenSegment :=
  ⟨⟨['9', '2', '2', '3', '3', '7', '2', '0', '3', '6', '8', '5', '4', '7', '7', '5', '8', '0', '8'],
    none, rfl, isDigit_none, List.cons_ne_nil _ _⟩, .second, ['s'], .second⟩

/-- The first second beyond the range is read as the last one in it. -/
theorem beyond_range_may_be_read :
    ¬ ∀ (text : String) (d : WrittenDuration), d.SpelledBy text →
      ¬ (Int64.minValue.toInt ≤ truncated (d.nanoseconds / 1000000000) ∧
        truncated (d.nanoseconds / 1000000000) ≤ Int64.maxValue.toInt) →
      Entry.seconds (.text text) = refused (.outOfRange (trimmed text)) := by
  intro h
  have htext : secondBeyond.alone.SpelledBy "9223372036854775808s" := rfl
  have hrefused := h _ _ htext (by decide +kernel)
  have hread := parseDuration_near htext rfl rfl (by decide +kernel) (by decide +kernel)
  rw [seconds_text_of_ok hread] at hrefused
  cases hrefused

end TrustStore.Lease

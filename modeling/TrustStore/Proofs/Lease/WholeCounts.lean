import TrustStore.Proofs.Lease.Rounding

/-!
# Durations in whole counts

Segments whose numbers are plain integers lose nothing to rounding, in two ranges.  Below `2 ^ 53`
nanoseconds every product and every sum is a whole number of 53 bits.  From seconds on, the units
are multiples of `2 ^ 9` nanoseconds, and 53 bits over that go beyond `2 ^ 32` seconds; at such
lengths the total is a whole number of seconds besides, so that not even the division rounds.  In
both ranges what is read are the whole seconds of the length that is meant
(`whole_counts_are_exact`).
-/

namespace TrustStore.Lease

open Numeric Numeric.Binary64

/-- The number has no point, and so no fraction. -/
def WrittenNumber.IsPlain (n : WrittenNumber) : Prop := n.fraction = none

theorem WrittenNumber.IsPlain.value_eq {n : WrittenNumber} (h : n.IsPlain) :
    n.value = Nat.ofDigitChars 10 n.whole 0 := by
  have hfraction : n.fraction.getD [] = [] := by rw [h, Option.getD_none]
  rw [WrittenNumber.value, hfraction, Nat.ofDigitChars_nil]
  simp

/-- The number that is written in digits alone. -/
def WrittenNumber.plain (digits : List Char) (hdigits : digits.all Char.isDigit = true)
    (hne : digits ≠ []) : WrittenNumber where
  whole := digits
  fraction := none
  whole_digits := hdigits
  fraction_digits := List.all_nil
  digits_ne_nil := List.append_ne_nil_of_left_ne_nil hne _

/-- The units of a second and more. -/
def TimeUnit.IsCoarse : TimeUnit → Prop
  | second | minute | hour | day => True
  | nanosecond | microsecond | millisecond => False

/-- The coarse units are whole seconds. -/
theorem TimeUnit.IsCoarse.exists_seconds {unit : TimeUnit} (h : unit.IsCoarse) :
    ∃ k : ℕ, 0 < k ∧ unit.nanoseconds = k * 1000000000 := by
  cases unit
  case nanosecond | microsecond | millisecond => cases h
  case second => exact ⟨1, by decide, rfl⟩
  case minute => exact ⟨60, by decide, rfl⟩
  case hour => exact ⟨3600, by decide, rfl⟩
  case day => exact ⟨86400, by decide, rfl⟩

/-! ### Segments -/

namespace WrittenSegment

variable {g : WrittenSegment} (hplain : g.number.IsPlain)

include hplain

theorem exists_value_eq : ∃ m : ℕ, g.number.value = m := ⟨_, hplain.value_eq⟩

/-- A plain number of any unit is a whole number of nanoseconds. -/
theorem isExact_of_isPlain (h : g.nanoseconds ≤ 2 ^ 53) : g.IsExact := by
  obtain ⟨m, hm⟩ := exists_value_eq hplain
  have hle : m ≤ 2 ^ 53 := by
    have hvalue := g.value_le_nanoseconds.trans h
    rw [hm] at hvalue
    exact_mod_cast hvalue
  refine ⟨⟨m, 0, hle, Nat.zero_le _, by rw [hm, pow_zero, div_one]⟩, m * g.unit.nanoseconds, ?_⟩
  rw [nanoseconds, hm, Nat.cast_mul]

/-- A plain number of a coarse unit is a whole number of seconds. -/
theorem exists_seconds (hcoarse : g.unit.IsCoarse) :
    ∃ s : ℕ, g.nanoseconds = (s * 1000000000 : ℕ) ∧ g.number.value ≤ s := by
  obtain ⟨m, hm⟩ := exists_value_eq hplain
  obtain ⟨k, hk, hunit⟩ := hcoarse.exists_seconds
  refine ⟨m * k, ?_, ?_⟩
  · rw [nanoseconds, hm, hunit, ← Nat.cast_mul, Nat.mul_assoc]
  · rw [hm]
    exact Nat.cast_le.mpr (Nat.le_mul_of_pos_right m hk)

theorem isExactOn_of_isCoarse (hcoarse : g.unit.IsCoarse)
    (h : g.nanoseconds ≤ 2 ^ 32 * 1000000000) : g.IsExactOn 9 := by
  obtain ⟨m, hm⟩ := exists_value_eq hplain
  obtain ⟨s, hs, hvalue⟩ := exists_seconds hplain hcoarse
  have hle : m ≤ 2 ^ 53 := by
    have hseconds : s ≤ 2 ^ 32 := by
      rw [hs] at h
      have hcount : s * 1000000000 ≤ 2 ^ 32 * 1000000000 := by exact_mod_cast h
      exact Nat.le_of_mul_le_mul_right hcount (by decide)
    rw [hm] at hvalue
    have hm' : m ≤ s := Nat.cast_le.mp hvalue
    omega
  refine ⟨⟨m, 0, hle, Nat.zero_le _, by rw [hm, pow_zero, div_one]⟩, _, ?_, hs⟩
  -- a second is `2 ^ 9 * 5 ^ 9` nanoseconds
  exact Dvd.dvd.mul_left (by decide) s

end WrittenSegment

theorem nanoseconds_le_of_mem {l : List WrittenSegment} {g : WrittenSegment} (h : g ∈ l) :
    g.nanoseconds ≤ exactNanoseconds l := by
  refine List.single_le_sum ?_ _ (List.mem_map_of_mem h)
  intro q hq
  obtain ⟨g', -, rfl⟩ := List.mem_map.mp hq
  exact g'.nanoseconds_nonneg

/-- Whole seconds add up to whole seconds. -/
theorem exists_exactSeconds {l : List WrittenSegment} (hplain : ∀ g ∈ l, g.number.IsPlain)
    (hcoarse : ∀ g ∈ l, g.unit.IsCoarse) :
    ∃ s : ℕ, exactNanoseconds l = (s * 1000000000 : ℕ) := by
  induction l with
  | nil => exact ⟨0, by rw [exactNanoseconds]; simp⟩
  | cons g l ih =>
    obtain ⟨s, hs, -⟩ :=
      WrittenSegment.exists_seconds (hplain g List.mem_cons_self) (hcoarse g List.mem_cons_self)
    obtain ⟨t, ht⟩ :=
      ih (fun g' hg' => hplain g' (List.mem_cons_of_mem g hg'))
        (fun g' hg' => hcoarse g' (List.mem_cons_of_mem g hg'))
    -- whole seconds add up to whole seconds
    refine ⟨s + t, ?_⟩
    rw [exactNanoseconds_cons, hs, ht, ← Nat.cast_add, Nat.add_mul]

/-! ### Durations -/

namespace WrittenDuration

variable {d : WrittenDuration}

/-- The numbers are plain integers. -/
def IsPlain (d : WrittenDuration) : Prop := ∀ g ∈ d.segments, g.number.IsPlain

/-- The units are of a second and more. -/
def IsCoarse (d : WrittenDuration) : Prop := ∀ g ∈ d.segments, g.unit.IsCoarse

theorem IsPlain.isExact (hplain : d.IsPlain) (h : d.magnitude ≤ 2 ^ 53) : d.IsExact :=
  fun g hg => WrittenSegment.isExact_of_isPlain (hplain g hg) ((nanoseconds_le_of_mem hg).trans h)

/-- The whole seconds of a coarse duration are read exactly. -/
theorem wholeSeconds?_of_isCoarse (hplain : d.IsPlain) (hcoarse : d.IsCoarse)
    (h : d.seconds ≤ 2 ^ 32) :
    wholeSeconds? (d.segments.map WrittenSegment.segment) = some ⌊d.seconds⌋₊ := by
  obtain ⟨s, hs⟩ := exists_exactSeconds hplain hcoarse
  have hseconds : d.seconds = s := by
    rw [seconds, magnitude, hs, Nat.cast_mul]
    push_cast
    exact mul_div_cancel_right₀ _ (by norm_num)
  have hle : s ≤ 2 ^ 32 := by
    rw [hseconds] at h
    exact_mod_cast h
  have hmagnitude : exactNanoseconds d.segments ≤ 2 ^ 32 * 1000000000 := by
    rw [hs]
    exact_mod_cast Nat.mul_le_mul_right 1000000000 hle
  have hexact : ∀ g ∈ d.segments, g.IsExactOn 9 := by
    intro g hg
    exact WrittenSegment.isExactOn_of_isCoarse (hplain g hg) (hcoarse g hg)
      ((nanoseconds_le_of_mem hg).trans hmagnitude)
  -- the total may need 62 bits, but the last 9 of them are zero
  obtain ⟨n, hn, hdenotes⟩ := exists_denotes_of_isExactOn (by decide) hexact
    (hmagnitude.trans (by norm_num))
  obtain rfl : n = s * 1000000000 := Nat.cast_injective (hn.symm.trans hs)
  have hfloor := hdenotes.floor?_div_mul denotes_second (by omega) (by decide)
  rw [hseconds, Nat.floor_natCast]
  exact wholeSeconds?_eq hfloor (by omega)

/-- A duration whose seconds are found exactly is read as these with its sign. -/
theorem exists_parseDuration_of_wholeSeconds? {text : String} (htext : d.SpelledBy text)
    (h : wholeSeconds? (d.segments.map WrittenSegment.segment) = some ⌊d.seconds⌋₊) :
    ∃ n : Int64, parseDuration text = .ok n ∧
      n.toInt = truncated (d.nanoseconds / 1000000000) := by
  refine ⟨Int64.ofInt (d.sign.apply (⌊d.seconds⌋₊ : ℤ)), ?_, ?_⟩
  · rw [d.parseDuration_of_spelledBy htext, h]
  · rw [d.sign.toInt_ofInt_apply (wholeSeconds?_lt h), nanoseconds_div,
      d.sign.truncated_apply d.seconds_nonneg]

end WrittenDuration

/-- Durations in plain integers are read without an error: of less than `2 ^ 53` nanoseconds in any
units, and of at most `2 ^ 32` seconds in units that are not below the second. -/
theorem whole_counts_are_exact {text : String} {d : WrittenDuration} (htext : d.SpelledBy text)
    (hplain : d.IsPlain) (h : d.magnitude < 2 ^ 53 ∨ d.IsCoarse ∧ d.seconds ≤ 2 ^ 32) :
    ∃ n : Int64, parseDuration text = .ok n ∧
      n.toInt = truncated (d.nanoseconds / 1000000000) := by
  refine WrittenDuration.exists_parseDuration_of_wholeSeconds? htext ?_
  -- few nanoseconds are exact as they are; whole seconds have nine factors of two to spare
  rcases h with hfine | ⟨hcoarse, hle⟩
  · exact WrittenDuration.wholeSeconds?_of_isExact (hplain.isExact hfine.le) hfine
  · exact WrittenDuration.wholeSeconds?_of_isCoarse hplain hcoarse hle

/-- The greatest length of the second range, with its units out of order and a sign. -/
def longestMixed : WrittenDuration where
  sign := .minus
  segments :=
    [⟨.plain ['1', '6'] rfl (List.cons_ne_nil _ _), .second, ['s'], .second⟩,
      ⟨.plain ['4', '9', '7', '1', '0'] rfl (List.cons_ne_nil _ _), .day, ['d'], .day⟩,
      ⟨.plain ['3', '8', '8'] rfl (List.cons_ne_nil _ _), .minute, ['m'], .minute⟩]
  segments_ne_nil := List.cons_ne_nil _ _

theorem longest_mixed_is_exact :
    longestMixed.SpelledBy "-16s49710d388m" ∧ longestMixed.IsPlain ∧
      longestMixed.IsCoarse ∧ longestMixed.seconds = 2 ^ 32 ∧
      ∃ n : Int64, parseDuration "-16s49710d388m" = .ok n ∧ n.toInt = -2 ^ 32 := by
  have htext : longestMixed.SpelledBy "-16s49710d388m" := rfl
  have hplain : longestMixed.IsPlain := by
    simp [WrittenDuration.IsPlain, WrittenNumber.IsPlain, WrittenNumber.plain, longestMixed]
  have hcoarse : longestMixed.IsCoarse := by
    simp [WrittenDuration.IsCoarse, TimeUnit.IsCoarse, longestMixed]
  have hseconds : longestMixed.seconds = 2 ^ 32 := by decide +kernel
  have htruncated : truncated (longestMixed.nanoseconds / 1000000000) = -2 ^ 32 := by
    decide +kernel
  obtain ⟨n, hread, hn⟩ :=
    whole_counts_are_exact htext hplain (.inr ⟨hcoarse, hseconds.le⟩)
  exact ⟨htext, hplain, hcoarse, hseconds, n, hread, hn.trans htruncated⟩

end TrustStore.Lease

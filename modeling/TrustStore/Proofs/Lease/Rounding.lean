import TrustStore.Proofs.Lease.Spelling
import TrustStore.Proofs.Numeric.Binary64

/-!
# Durations of equal length

The seconds of a text of segments are those of a rounded sum of rounded products of rounded numbers,
so texts of the same length of time are read alike only as far as rounding goes.  It loses nothing
where the numbers are binary fractions and the segments whole nanoseconds
(`wholeSeconds?_of_isExact`).  Else the sum may be off by a part in `2 ^ 49` for each segment
(`exists_wholeSeconds?`), which shows only where the exact length is as close to a whole number of
seconds: one text may then be read as less, or more, than another (`equal_lengths_are_read_alike`).
-/

namespace TrustStore.Lease

open Numeric Numeric.Binary64

theorem TimeUnit.nanoseconds_pos (unit : TimeUnit) : 0 < unit.nanoseconds := by
  cases unit <;> decide

theorem TimeUnit.nanoseconds_le (unit : TimeUnit) : unit.nanoseconds ≤ 86400 * 1000000000 := by
  cases unit <;> decide

theorem TimeUnit.denotes_nanoseconds (unit : TimeUnit) :
    Denotes (.ofNat unit.nanoseconds) unit.nanoseconds :=
  denotes_ofNat (unit.nanoseconds_le.trans (by decide))

/-! ### One segment -/

namespace WrittenSegment

variable (g : WrittenSegment)

theorem value_le_nanoseconds : g.number.value ≤ g.nanoseconds :=
  le_mul_of_one_le_right g.number.value_nonneg (Nat.one_le_cast.mpr g.unit.nanoseconds_pos)

/-- The number is rounded and then the product, each time by a part in `2 ^ 53` at most. -/
theorem exists_denotes_nanoseconds (h : g.nanoseconds ≤ 2 ^ 53) :
    ∃ y, Denotes g.segment.nanoseconds y ∧ y ≤ 4 * g.nanoseconds ∧
      |y - g.nanoseconds| ≤ 3 * g.nanoseconds / 2 ^ 53 + 1 / 2 ^ 80 := by
  have hunit : (g.unit.nanoseconds : ℚ) ≤ 86400 * 1000000000 := by
    exact_mod_cast g.unit.nanoseconds_le
  have hunitnonneg : (0 : ℚ) ≤ g.unit.nanoseconds := Nat.cast_nonneg _
  have hvalue : g.number.value ≤ 2 ^ 63 := by
    have := g.value_le_nanoseconds
    linarith
  obtain ⟨v, hv, hvround⟩ := exists_ofDecimal g.number.value_eq.symm hvalue
  have hvle := hvround.le_two_mul g.number.value_nonneg
  have hproduct : v * g.unit.nanoseconds ≤ 2 * g.nanoseconds := by
    calc v * g.unit.nanoseconds ≤ 2 * g.number.value * g.unit.nanoseconds := by gcongr
      _ = 2 * g.nanoseconds := by rw [nanoseconds]; ring
  obtain ⟨y, hy, hyround⟩ := hv.exists_mul g.unit.denotes_nanoseconds (by linarith)
  have hyle := hyround.le_two_mul (mul_nonneg hv.nonneg hunitnonneg)
  refine ⟨y, hy, by linarith, ?_⟩
  -- the product carries the error of the number along
  have hnumber : |v * g.unit.nanoseconds - g.nanoseconds|
      ≤ g.nanoseconds / 2 ^ 53 + 1 / 2 ^ 81 := by
    calc |v * g.unit.nanoseconds - g.nanoseconds|
        = |v - g.number.value| * g.unit.nanoseconds := by
          rw [nanoseconds, ← sub_mul, abs_mul, abs_of_nonneg hunitnonneg]
      _ ≤ (g.number.value / 2 ^ 53 + 1 / 2 ^ 128) * g.unit.nanoseconds := by
          gcongr
          exact hvround.abs_sub_le
      _ = g.nanoseconds / 2 ^ 53 + g.unit.nanoseconds / 2 ^ 128 := by rw [nanoseconds]; ring
      _ ≤ g.nanoseconds / 2 ^ 53 + 1 / 2 ^ 81 := by linarith
  calc |y - g.nanoseconds|
      ≤ |y - v * g.unit.nanoseconds| + |v * g.unit.nanoseconds - g.nanoseconds| :=
        abs_sub_le _ _ _
    _ ≤ (2 * g.nanoseconds / 2 ^ 53 + 1 / 2 ^ 128) + (g.nanoseconds / 2 ^ 53 + 1 / 2 ^ 81) := by
        have := hyround.abs_sub_le
        linarith
    _ ≤ 3 * g.nanoseconds / 2 ^ 53 + 1 / 2 ^ 80 := by linarith

/-- Nothing is rounded: the number is a binary fraction, and the segment is whole nanoseconds. -/
structure IsExact : Prop where
  fraction : ∃ m k : ℕ, m ≤ 2 ^ 53 ∧ k ≤ 1074 ∧ g.number.value = m / 2 ^ k
  whole : ∃ n : ℕ, g.nanoseconds = n

/-- Nothing is rounded, and the segment is a multiple of a power of two nanoseconds. -/
structure IsExactOn (e : ℕ) : Prop where
  fraction : ∃ m k : ℕ, m ≤ 2 ^ 53 ∧ k ≤ 1074 ∧ g.number.value = m / 2 ^ k
  multiple : ∃ n : ℕ, 2 ^ e ∣ n ∧ g.nanoseconds = n

variable {g}

theorem IsExact.isExactOn (h : g.IsExact) : g.IsExactOn 0 :=
  let ⟨n, hn⟩ := h.whole
  ⟨h.fraction, n, one_dvd n, hn⟩

/-- A segment on the grid is read without any rounding. -/
theorem IsExactOn.exists_denotes {e : ℕ} (h : g.IsExactOn e) (he : e ≤ 10)
    (hle : g.nanoseconds ≤ 2 ^ (53 + e)) :
    ∃ n : ℕ, 2 ^ e ∣ n ∧ g.nanoseconds = n ∧ Denotes g.segment.nanoseconds n := by
  obtain ⟨m, k, hm, hk, hvalue⟩ := h.fraction
  obtain ⟨n, hdvd, hn⟩ := h.multiple
  have hnle : n ≤ 2 ^ (53 + e) := by
    rw [hn] at hle
    exact_mod_cast hle
  have hbound : g.nanoseconds ≤ 2 ^ 63 := hn ▸ natCast_le he hnle
  obtain ⟨v, hv, hvround⟩ :=
    exists_ofDecimal g.number.value_eq.symm (g.value_le_nanoseconds.trans hbound)
  obtain ⟨b, hb⟩ := Binary64.exists_denotes hm hk
  rw [← hvalue] at hb
  -- the number itself is a value, so it is not rounded
  rw [hvround.eq hb] at hv
  obtain ⟨y, hy, hyround⟩ := hv.exists_mul g.unit.denotes_nanoseconds hbound
  obtain ⟨whole, hwhole⟩ := exists_denotes_of_dvd hdvd hnle
  have hproduct : g.number.value * g.unit.nanoseconds = n := hn
  rw [hproduct] at hyround
  rw [hyround.eq hwhole] at hy
  exact ⟨n, hdvd, hn, hy⟩

end WrittenSegment

/-! ### Sums of segments -/

section

variable (l : List WrittenSegment)

theorem totalNanoseconds_eq : totalNanoseconds (l.map WrittenSegment.segment)
    = (l.map (·.segment.nanoseconds)).foldl add (finite 0) := by
  rw [totalNanoseconds, List.foldl_map, List.foldl_map]

/-- The terms together are off by what each of them is. -/
theorem exists_terms (h : exactNanoseconds l ≤ 2 ^ 53) :
    ∃ ys : List ℚ, List.Forall₂ Denotes (l.map (·.segment.nanoseconds)) ys ∧
      ys.length = l.length ∧ ys.sum ≤ 4 * exactNanoseconds l ∧
      |ys.sum - exactNanoseconds l| ≤ 3 * exactNanoseconds l / 2 ^ 53 + l.length / 2 ^ 80 := by
  induction l with
  | nil => exact ⟨[], .nil, rfl, by simp [exactNanoseconds], by simp [exactNanoseconds]⟩
  | cons g l ih =>
    rw [exactNanoseconds_cons] at h ⊢
    have hg := g.nanoseconds_nonneg
    have hl := exactNanoseconds_nonneg l
    obtain ⟨y, hy, hyle, hyerror⟩ := g.exists_denotes_nanoseconds (by linarith)
    obtain ⟨ys, hys, hlength, hysle, hyserror⟩ := ih (by linarith)
    -- the errors add up term by term
    refine ⟨y :: ys, .cons hy hys, by rw [List.length_cons, hlength, List.length_cons], ?_, ?_⟩
    · rw [List.sum_cons]
      linarith
    · rw [List.sum_cons, List.length_cons, add_sub_add_comm]
      push_cast
      refine (abs_add_le _ _).trans ?_
      linarith

/-- Every addition errs by a part of the greatest that the sum may get. -/
theorem exists_denotes_totalNanoseconds (h : exactNanoseconds l ≤ 2 ^ 53) :
    ∃ t, Denotes (totalNanoseconds (l.map WrittenSegment.segment)) t ∧
      t ≤ 8 * exactNanoseconds l ∧
      |t - exactNanoseconds l|
        ≤ (3 + 8 * l.length) * exactNanoseconds l / 2 ^ 53 + l.length / 2 ^ 79 := by
  obtain ⟨ys, hys, hlength, hysle, hyserror⟩ := exists_terms l h
  generalize exactNanoseconds l = total at h hysle hyserror ⊢
  obtain ⟨t, ht, htle, hterror⟩ :=
    exists_foldl_add Denotes.zero hys (by linarith : 0 + 2 * ys.sum ≤ 8 * total) (by linarith)
  rw [← totalNanoseconds_eq] at ht
  rw [zero_add] at hterror htle
  rw [hlength] at hterror
  refine ⟨t, ht, by linarith, ?_⟩
  calc |t - total| ≤ |t - ys.sum| + |ys.sum - total| := abs_sub_le _ _ _
    _ ≤ l.length * (8 * total / 2 ^ 53 + 1 / 2 ^ 128)
          + (3 * total / 2 ^ 53 + l.length / 2 ^ 80) := add_le_add hterror hyserror
    _ ≤ (3 + 8 * l.length) * total / 2 ^ 53 + l.length / 2 ^ 79 := by
        have hcount : (0 : ℚ) ≤ l.length := Nat.cast_nonneg _
        linarith

section

variable {l} {e : ℕ} (he : e ≤ 10)

include he

/-- Segments on the grid are counts of its steps. -/
theorem exists_counts (hexact : ∀ g ∈ l, g.IsExactOn e)
    (h : exactNanoseconds l ≤ 2 ^ (53 + e)) :
    ∃ ns : List ℕ,
      List.Forall₂ (fun b n => Denotes b (n : ℕ) ∧ 2 ^ e ∣ n)
        (l.map (·.segment.nanoseconds)) ns ∧
        exactNanoseconds l = (ns.sum : ℕ) := by
  induction l with
  | nil => exact ⟨[], .nil, rfl⟩
  | cons g l ih =>
    rw [exactNanoseconds_cons] at h ⊢
    have hg := g.nanoseconds_nonneg
    have hl := exactNanoseconds_nonneg l
    obtain ⟨n, hdvd, hn, hdenotes⟩ :=
      (hexact g List.mem_cons_self).exists_denotes he (by linarith)
    obtain ⟨ns, hns, hsum⟩ :=
      ih (fun g' hg' => hexact g' (List.mem_cons_of_mem g hg')) (by linarith)
    refine ⟨n :: ns, .cons ⟨hdenotes, hdvd⟩ hns, ?_⟩
    rw [hn, hsum, List.sum_cons, Nat.cast_add]

/-- Segments of whole nanoseconds are added without an error, as far as 53 bits go over what they
are multiples of. -/
theorem exists_denotes_of_isExactOn (hexact : ∀ g ∈ l, g.IsExactOn e)
    (h : exactNanoseconds l ≤ 2 ^ (53 + e)) :
    ∃ n : ℕ, exactNanoseconds l = n ∧
      Denotes (totalNanoseconds (l.map WrittenSegment.segment)) n := by
  obtain ⟨ns, hns, hsum⟩ := exists_counts he hexact h
  -- the sum stays among the integers that are values
  have hle : 0 + ns.sum ≤ 2 ^ (53 + e) := by
    rw [hsum] at h
    rw [Nat.zero_add]
    exact_mod_cast h
  have htotal :=
    denotes_foldl_add he (Nat.cast_zero (R := ℚ) ▸ Denotes.zero) (dvd_zero _) hns hle
  rw [← totalNanoseconds_eq, Nat.zero_add] at htotal
  exact ⟨ns.sum, hsum, htotal⟩

end

end

/-! ### Seconds -/

theorem denotes_second : Denotes (.ofNat TimeUnit.second.nanoseconds) (1000000000 : ℕ) :=
  TimeUnit.second.denotes_nanoseconds

/-- Below the range the seconds are the floor of the quotient. -/
theorem wholeSeconds?_eq {l : List Segment} {n : ℕ}
    (h : ((totalNanoseconds l).div (.ofNat TimeUnit.second.nanoseconds)).floor? = some n)
    (hn : n < 2 ^ 63) : wholeSeconds? l = some n := by
  have hle : n ≤ UInt64.size / 2 := hn.le
  have hmin : min n (UInt64.size / 2 - 1) = n := Nat.min_eq_left (Nat.le_pred_of_lt hn)
  rw [wholeSeconds?, h]
  dsimp only
  rw [if_pos hle, hmin]

namespace WrittenDuration

variable (d : WrittenDuration)

/-- The seconds that are meant, without the sign. -/
def seconds : ℚ := d.magnitude / 1000000000

/-- By how many seconds the sum may be off. -/
def tolerance : ℚ := (d.segments.length + 1) * (d.seconds + 1) / 2 ^ 49

def IsExact : Prop := ∀ g ∈ d.segments, g.IsExact

theorem seconds_nonneg : 0 ≤ d.seconds := div_nonneg d.magnitude_nonneg (by norm_num)

variable {d}

theorem wholeSeconds?_of_isExact (hexact : d.IsExact) (h : d.magnitude < 2 ^ 53) :
    wholeSeconds? (d.segments.map WrittenSegment.segment) = some ⌊d.seconds⌋₊ := by
  obtain ⟨n, hn, hdenotes⟩ :=
    exists_denotes_of_isExactOn (Nat.zero_le 10) (fun g hg => (hexact g hg).isExactOn) h.le
  have hmagnitude : d.magnitude = n := hn
  have hlt : n < 2 ^ 53 := by
    rw [hmagnitude] at h
    exact_mod_cast h
  have hfloor := hdenotes.floor?_div denotes_second hlt (by decide) (by decide)
  have hseconds : ⌊d.seconds⌋₊ = n / 1000000000 := by
    rw [seconds, hmagnitude, ← Nat.floor_div_eq_div (K := ℚ)]
    norm_num
  rw [hseconds]
  exact wholeSeconds?_eq hfloor (lt_of_le_of_lt (Nat.div_le_self _ _) (by omega))

theorem exists_wholeSeconds? (h : d.magnitude ≤ 2 ^ 53) :
    ∃ y, wholeSeconds? (d.segments.map WrittenSegment.segment) = some ⌊y⌋₊ ∧ 0 ≤ y ∧
      y ≤ 16 * d.seconds ∧ |y - d.seconds| ≤ d.tolerance := by
  have hseconds := d.seconds_nonneg
  have hmagnitude : d.magnitude = 1000000000 * d.seconds := by
    rw [seconds]
    ring
  obtain ⟨t, ht, htle, hterror⟩ := exists_denotes_totalNanoseconds d.segments h
  have hexact : exactNanoseconds d.segments = d.magnitude := rfl
  rw [hexact] at htle hterror
  obtain ⟨y, hy, hround⟩ := ht.exists_div denotes_second (by norm_num) (by
    rw [div_le_iff₀ (by norm_num)]
    push_cast
    linarith)
  have hyle := hround.le_two_mul (div_nonneg ht.nonneg (Nat.cast_nonneg _))
  push_cast at hyle
  have hle : y ≤ 16 * d.seconds := by linarith
  refine ⟨y, wholeSeconds?_eq hy.floor?_eq ?_, hy.nonneg, hle, ?_⟩
  · rw [Nat.floor_lt hy.nonneg]
    push_cast
    linarith
  · have hquotient := hround.abs_sub_le
    push_cast at hquotient
    have htotal : |t / 1000000000 - d.seconds|
        ≤ ((3 + 8 * d.segments.length) * d.magnitude / 2 ^ 53 + d.segments.length / 2 ^ 79)
          / 1000000000 := by
      rw [seconds, ← sub_div, abs_div, abs_of_nonneg (by norm_num : (0 : ℚ) ≤ 1000000000)]
      exact div_le_div_of_nonneg_right hterror (by norm_num)
    have hcount : (0 : ℚ) ≤ d.segments.length := Nat.cast_nonneg _
    have hproduct : 0 ≤ d.segments.length * d.seconds := mul_nonneg hcount hseconds
    rw [hmagnitude] at htotal htle
    calc |y - d.seconds| ≤ |y - t / 1000000000| + |t / 1000000000 - d.seconds| := abs_sub_le _ _ _
      _ ≤ (11 + 8 * d.segments.length) * d.seconds / 2 ^ 53
            + (d.segments.length + 1) / 2 ^ 79 := by linarith
      _ ≤ d.tolerance := by
          -- for `n` segments, since `11 + 8 * n` is less than `16 * (n + 1)`
          rw [tolerance]
          linarith

variable (d) in
/-- A duration that is read as `n`: the integer part, with the sign, of a number `y` close to the
seconds that are meant, or of these seconds themselves. -/
structure ReadAs (n : Int64) (y : ℚ) : Prop where
  toInt_eq : n.toInt = d.sign.apply (⌊y⌋₊ : ℤ)
  nonneg : 0 ≤ y
  le : y ≤ 16 * d.seconds
  close : |y - d.seconds| ≤ d.tolerance
  exact (h : d.IsExact) : ⌊y⌋₊ = ⌊d.seconds⌋₊

/-- A short duration is read, with an error that the tolerance bounds. -/
theorem exists_parseDuration {text : String} (htext : d.SpelledBy text)
    (h : d.magnitude < 2 ^ 53) : ∃ n y, parseDuration text = .ok n ∧ d.ReadAs n y := by
  obtain ⟨y, hread, hnonneg, hle, herror⟩ := exists_wholeSeconds? h.le
  refine ⟨Int64.ofInt (d.sign.apply (⌊y⌋₊ : ℤ)), y, ?_, ?_, hnonneg, hle, herror, fun hexact => ?_⟩
  · rw [d.parseDuration_of_spelledBy htext, hread]
  · exact d.sign.toInt_ofInt_apply (wholeSeconds?_lt hread)
  · rw [wholeSeconds?_of_isExact hexact h] at hread
    exact (Option.some.inj hread).symm

end WrittenDuration

/-! ### Equal lengths -/

/-- The integer part, towards zero. -/
def truncated (q : ℚ) : ℤ := if 0 ≤ q then ⌊q⌋ else ⌈q⌉

namespace Sign

variable (s : Sign)

/-- The sign comes after the fraction is cut off. -/
theorem truncated_apply {q : ℚ} (h : 0 ≤ q) : truncated (s.apply q) = s.apply (⌊q⌋₊ : ℤ) := by
  have hfloor : ⌊q⌋ = (⌊q⌋₊ : ℤ) := (Int.natCast_floor_eq_floor h).symm
  cases s
  case minus =>
    show truncated (-q) = -(⌊q⌋₊ : ℤ)
    rw [truncated]
    split
    · have hzero : q = 0 := by linarith
      rw [hzero]
      simp
    · rw [Int.ceil_neg, hfloor]
  all_goals
    rw [truncated]
    exact (if_pos h).trans hfloor

theorem abs_apply {α : Type*} [Lattice α] [AddGroup α] (a : α) : |s.apply a| = |a| := by
  cases s
  case minus => exact abs_neg a
  all_goals rfl

theorem apply_div (q r : ℚ) : s.apply q / r = s.apply (q / r) := by
  cases s
  case minus => exact neg_div r q
  all_goals rfl

/-- A signed number determines its magnitude, and the sign if it is not zero. -/
theorem eq_of_apply_eq {s s' : Sign} {q q' : ℚ} (hq : 0 ≤ q) (hq' : 0 ≤ q')
    (h : s.apply q = s'.apply q') : q' = q ∧ (q = 0 ∨ ∀ k : ℤ, s'.apply k = s.apply k) := by
  have habs : q' = q := by
    rw [← abs_of_nonneg hq', ← s'.abs_apply, ← h, s.abs_apply, abs_of_nonneg hq]
  subst habs
  refine ⟨rfl, ?_⟩
  -- opposite signs leave zero only
  cases s <;> cases s'
  case implicit.minus | plus.minus =>
    left
    simp only [apply] at h
    linarith
  case minus.implicit | minus.plus =>
    left
    simp only [apply] at h
    linarith
  all_goals exact .inr fun _ => rfl

end Sign

namespace WrittenDuration

variable {d : WrittenDuration}

theorem nanoseconds_div : d.nanoseconds / 1000000000 = d.sign.apply d.seconds :=
  d.sign.apply_div _ _

/-- What is meant exactly is cut off and nothing else. -/
theorem ReadAs.toInt_eq_truncated {n : Int64} {y : ℚ} (h : d.ReadAs n y) (hexact : d.IsExact) :
    n.toInt = truncated (d.nanoseconds / 1000000000) := by
  rw [h.toInt_eq, h.exact hexact, nanoseconds_div, d.sign.truncated_apply d.seconds_nonneg]

end WrittenDuration

/-- Between numbers with different integer parts there is a whole number, which lies as close to any
third number as they do. -/
theorem abs_sub_floor_le {y y' q t : ℚ} (hlt : ⌊y⌋₊ < ⌊y'⌋₊) (hy : |y - q| ≤ t) (hy' : |y' - q| ≤ t)
    (hnonneg : 0 ≤ y') : |q - ⌊y'⌋₊| ≤ t := by
  have hbelow : y < ⌊y'⌋₊ := Nat.lt_of_floor_lt hlt
  have habove : (⌊y'⌋₊ : ℚ) ≤ y' := Nat.floor_le hnonneg
  rw [abs_le] at hy hy' ⊢
  constructor <;> linarith

/-- Texts for one length of time are both read.  The exact ones give its whole seconds; others may
differ, but only across a whole number of seconds to which the length is as close as rounding is
fine. -/
theorem equal_lengths_are_read_alike {text text' : String} {d d' : WrittenDuration}
    (htext : d.SpelledBy text) (htext' : d'.SpelledBy text')
    (hequal : d.nanoseconds = d'.nanoseconds) (hlt : |d.nanoseconds| < 2 ^ 53) :
    ∃ n n' : Int64, parseDuration text = .ok n ∧ parseDuration text' = .ok n' ∧
      (d.IsExact → n.toInt = truncated (d.nanoseconds / 1000000000)) ∧
      (d'.IsExact → n'.toInt = truncated (d.nanoseconds / 1000000000)) ∧
      (n = n' ∨ ∃ k : ℕ, |d.seconds - k| ≤ max d.tolerance d'.tolerance ∧
        min |n.toInt| |n'.toInt| < k ∧ k ≤ max |n.toInt| |n'.toInt|) := by
  obtain ⟨hmagnitude, hsign⟩ := Sign.eq_of_apply_eq d.magnitude_nonneg d'.magnitude_nonneg hequal
  have hseconds : d'.seconds = d.seconds := by
    rw [WrittenDuration.seconds, hmagnitude, WrittenDuration.seconds]
  rw [WrittenDuration.nanoseconds, d.sign.abs_apply, abs_of_nonneg d.magnitude_nonneg] at hlt
  obtain ⟨n, y, hread, hn⟩ := WrittenDuration.exists_parseDuration htext hlt
  obtain ⟨n', y', hread', hn'⟩ := WrittenDuration.exists_parseDuration htext' (hmagnitude ▸ hlt)
  have hclose := hn.close
  have hclose' := hn'.close
  rw [hseconds] at hclose'
  refine ⟨n, n', hread, hread', hn.toInt_eq_truncated, hequal ▸ hn'.toInt_eq_truncated, ?_⟩
  rw [hn.toInt_eq, hn'.toInt_eq, d.sign.abs_apply, d'.sign.abs_apply, Nat.abs_cast, Nat.abs_cast]
  rcases lt_trichotomy ⌊y⌋₊ ⌊y'⌋₊ with hbelow | hsame | habove
  · refine .inr ⟨⌊y'⌋₊, ?_, ?_, ?_⟩
    · exact abs_sub_floor_le hbelow (hclose.trans (le_max_left _ _))
        (hclose'.trans (le_max_right _ _)) hn'.nonneg
    · exact min_lt_of_left_lt (Int.ofNat_lt.mpr hbelow)
    · exact le_max_right _ _
  · refine .inl (Int64.toInt_inj.mp ?_)
    rw [hn.toInt_eq, hn'.toInt_eq, ← hsame]
    -- the signs may differ before a zero
    rcases hsign with hzero | hsign
    · have hy : y = 0 := by
        have hle := hn.le
        have hnonneg := hn.nonneg
        rw [WrittenDuration.seconds, hzero] at hle
        linarith
      rw [hy, Nat.floor_zero]
      cases d.sign <;> cases d'.sign <;> rfl
    · exact (hsign _).symm
  · refine .inr ⟨⌊y⌋₊, ?_, ?_, ?_⟩
    · exact abs_sub_floor_le habove (hclose'.trans (le_max_right _ _))
        (hclose.trans (le_max_left _ _)) hn.nonneg
    · exact min_lt_of_right_lt (Int.ofNat_lt.mpr habove)
    · exact le_max_left _ _

/-- The duration of one segment without a sign. -/
def WrittenSegment.alone (g : WrittenSegment) : WrittenDuration :=
  ⟨.implicit, [g], List.cons_ne_nil g []⟩

def hourAndHalf : WrittenSegment :=
  ⟨⟨['1'], some ['5'], rfl, rfl, List.cons_ne_nil _ _⟩, .hour, ['h'], .hour⟩

def ninetyMinutes : WrittenSegment :=
  ⟨⟨['9', '0'], none, rfl, rfl, List.cons_ne_nil _ _⟩, .minute, ['m'], .minute⟩

theorem hour_and_half_is_ninety_minutes :
    hourAndHalf.alone.SpelledBy "1.5h" ∧ ninetyMinutes.alone.SpelledBy "90m" ∧
      hourAndHalf.alone.nanoseconds = ninetyMinutes.alone.nanoseconds ∧
      |hourAndHalf.alone.nanoseconds| < 2 ^ 53 ∧
      ∃ n : Int64, parseDuration "1.5h" = .ok n ∧ parseDuration "90m" = .ok n ∧
        n.toInt = 5400 := by
  have htext : hourAndHalf.alone.SpelledBy "1.5h" := rfl
  have htext' : ninetyMinutes.alone.SpelledBy "90m" := rfl
  have hequal : hourAndHalf.alone.nanoseconds = ninetyMinutes.alone.nanoseconds := by
    decide +kernel
  have hlt : |hourAndHalf.alone.nanoseconds| < 2 ^ 53 := by decide +kernel
  have hexact : hourAndHalf.alone.IsExact := by
    intro g hg
    rw [List.mem_singleton.mp hg]
    exact ⟨⟨3, 1, by decide, by decide, by decide +kernel⟩, ⟨5400000000000, by decide +kernel⟩⟩
  have hexact' : ninetyMinutes.alone.IsExact := by
    intro g hg
    rw [List.mem_singleton.mp hg]
    exact ⟨⟨90, 0, by decide, by decide, by decide +kernel⟩, ⟨5400000000000, by decide +kernel⟩⟩
  have htruncated : truncated (hourAndHalf.alone.nanoseconds / 1000000000) = 5400 := by
    decide +kernel
  obtain ⟨n, n', hread, hread', hn, hn', -⟩ :=
    equal_lengths_are_read_alike htext htext' hequal hlt
  have hsame : n' = n := Int64.toInt_inj.mp ((hn' hexact').trans (hn hexact).symm)
  refine ⟨htext, htext', hequal, hlt, n, hread, ?_, ?_⟩
  · rw [hread', hsame]
  · rw [hn hexact, htruncated]

def minutesAndTenth : WrittenSegment :=
  ⟨⟨['4'], some ['1'], rfl, rfl, List.cons_ne_nil _ _⟩, .minute, ['m'], .minute⟩

def secondsOfMinutesAndTenth : WrittenSegment :=
  ⟨⟨['2', '4', '6'], none, rfl, rfl, List.cons_ne_nil _ _⟩, .second, ['s'], .second⟩

/-- A tenth is no binary fraction: `4.1m` is rounded to less than its 246 seconds, and cut off. -/
theorem equal_lengths_may_be_read_apart :
    ¬ ∀ (text text' : String) (d d' : WrittenDuration), d.SpelledBy text → d'.SpelledBy text' →
      d.nanoseconds = d'.nanoseconds → |d.nanoseconds| < 2 ^ 53 →
        parseDuration text = parseDuration text' := by
  intro h
  have htext : minutesAndTenth.alone.SpelledBy "4.1m" := rfl
  have htext' : secondsOfMinutesAndTenth.alone.SpelledBy "246s" := rfl
  have hequal : minutesAndTenth.alone.nanoseconds = secondsOfMinutesAndTenth.alone.nanoseconds := by
    decide +kernel
  -- the product for minutes rounds down, just below a whole second
  have hread := h _ _ _ _ htext htext' hequal (by decide +kernel)
  have hless : wholeSeconds? [minutesAndTenth.segment] = some 245 := by decide +kernel
  have hwhole : wholeSeconds? [secondsOfMinutesAndTenth.segment] = some 246 := by decide +kernel
  rw [WrittenDuration.parseDuration_of_spelledBy _ htext,
    WrittenDuration.parseDuration_of_spelledBy _ htext'] at hread
  simp only [WrittenSegment.alone, List.map_cons, List.map_nil, hless, hwhole] at hread
  revert hread
  decide

end TrustStore.Lease

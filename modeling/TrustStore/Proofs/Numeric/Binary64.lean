import Mathlib.Algebra.Order.Floor.Semifield
import Mathlib.Data.Nat.Cast.Order.Field
import Mathlib.Data.Rat.Cast.Order
import Mathlib.Data.Rat.Floor
import Mathlib.Tactic.FieldSimp
import Mathlib.Tactic.Linarith
import Mathlib.Tactic.Ring
import TrustStore.Numeric.Binary64

/-!
# Rounding to binary64

An exact number of quanta is rounded to a value that no other value is closer to
(`abs_rounded_sub_le_of_isValue`), and is off by half a quantum and one part in `2 ^ 53` at most
(`abs_rounded_sub_le`).  In the numbers that values stand for (`Denotes`), an operation gives its
exact result, rounded (`Rounds`).  That says when nothing is lost (`Rounds.eq`), that a sum errs by
no more than what was added (`exists_foldl_add`), and that a quotient of whole numbers keeps its
integer part (`Denotes.floor?_div`).
-/

namespace TrustStore.Numeric

/-! ### Rounded quotients -/

section

variable (num : ℕ) {den : ℕ} (hden : 0 < den)

include hden

/-- The rounded quotient is off by half a unit at most. -/
theorem roundQuotient_bounds :
    2 * num ≤ (2 * roundQuotient num den + 1) * den ∧
      2 * roundQuotient num den * den ≤ 2 * num + den := by
  have hdiv : den * (num / den) + num % den = num := Nat.div_add_mod num den
  have hmod : num % den < den := Nat.mod_lt num hden
  unfold roundQuotient
  dsimp only
  generalize num / den = q at hdiv ⊢
  generalize num % den = r at hdiv hmod ⊢
  subst hdiv
  split
  · constructor <;> nlinarith
  · split
    · constructor <;> nlinarith
    · split <;> constructor <;> nlinarith

/-- The rounded quotient is off by a half at most. -/
theorem abs_roundQuotient_sub_le : |(roundQuotient num den : ℚ) - num / den| ≤ 1 / 2 := by
  obtain ⟨hlow, hhigh⟩ := roundQuotient_bounds num hden
  have hden' : (0 : ℚ) < den := Nat.cast_pos.mpr hden
  have hlow' : (2 * num : ℚ) ≤ (2 * roundQuotient num den + 1) * den := by exact_mod_cast hlow
  have hhigh' : (2 * roundQuotient num den * den : ℚ) ≤ 2 * num + den := by exact_mod_cast hhigh
  rw [abs_le]
  constructor
  · rw [neg_le_sub_iff_le_add, div_le_iff₀ hden']
    linarith
  · rw [sub_le_iff_le_add, ← sub_le_iff_le_add', le_div_iff₀ hden']
    linarith

/-- No integer is closer to the quotient. -/
theorem abs_roundQuotient_sub_le_of_nat (k : ℕ) :
    |(roundQuotient num den : ℚ) - num / den| ≤ |(k : ℚ) - num / den| := by
  have hround := abs_roundQuotient_sub_le num hden
  rcases eq_or_ne k (roundQuotient num den) with rfl | hne
  · exact le_rfl
  -- another integer is at least one away, so it is no nearer
  · have hapart : (1 : ℚ) ≤ |(k : ℚ) - roundQuotient num den| := by
      have hint : (1 : ℤ) ≤ |(k : ℤ) - roundQuotient num den| := by
        refine Int.one_le_abs (sub_ne_zero.mpr ?_)
        exact_mod_cast hne
      exact_mod_cast hint
    have htri := abs_sub_le (k : ℚ) (num / den) (roundQuotient num den)
    rw [abs_sub_comm (num / den : ℚ)] at htri
    linarith

theorem roundQuotient_le {k : ℕ} (h : num ≤ k * den) : roundQuotient num den ≤ k := by
  obtain ⟨-, hhigh⟩ := roundQuotient_bounds num hden
  have hlt : 2 * roundQuotient num den * den < (2 * k + 2) * den := by nlinarith
  have := Nat.lt_of_mul_lt_mul_right hlt
  omega

end

namespace Binary64

/-! ### Values -/

theorem spacing_pos (quanta : ℕ) : 0 < spacing quanta := Nat.two_pow_pos _

theorem spacing_dvd {a b : ℕ} (h : a.log2 ≤ b.log2) : spacing a ∣ spacing b :=
  pow_dvd_pow 2 (Nat.sub_le_sub_right h 52)

/-- The values: numbers of quanta that are multiples of the distance between neighbours. -/
def IsValue (quanta : ℕ) : Prop := spacing quanta ∣ quanta

theorem isValue_zero : IsValue 0 := dvd_zero _

/-- Any 53 bits and an exponent make a value. -/
theorem isValue_mul_pow {k : ℕ} (hk : k ≤ 2 ^ 53) (e : ℕ) : IsValue (k * 2 ^ e) := by
  rcases Nat.eq_zero_or_pos k with rfl | hpos
  · rw [Nat.zero_mul]
    exact isValue_zero
  -- the power of two itself starts the next, coarser range
  rcases Nat.lt_or_eq_of_le hk with hlt | rfl
  · have hne : k * 2 ^ e ≠ 0 := Nat.mul_ne_zero hpos.ne' (Nat.two_pow_pos e).ne'
    have hlog : (k * 2 ^ e).log2 < 53 + e := by
      rw [Nat.log2_lt hne, Nat.pow_add]
      exact Nat.mul_lt_mul_of_pos_right hlt (Nat.two_pow_pos e)
    exact (pow_dvd_pow 2 (by omega)).trans (Nat.dvd_mul_left _ k)
  · rw [← Nat.pow_add, IsValue, spacing, Nat.log2_two_pow]
    exact pow_dvd_pow 2 (by omega)

/-- A neighbour is at a distance of one quantum, or of one part in `2 ^ 52`. -/
theorem spacing_le (quanta : ℕ) : (spacing quanta : ℚ) ≤ 1 + quanta / 2 ^ 52 := by
  rcases Nat.lt_or_ge quanta.log2 52 with hsmall | hlarge
  · have hone : spacing quanta = 1 := by
      rw [spacing, Nat.sub_eq_zero_of_le hsmall.le]
    rw [hone, Nat.cast_one]
    have : (0 : ℚ) ≤ quanta / 2 ^ 52 := by positivity
    linarith
  -- in the coarse range the spacing is a fixed part of the number
  · have hne : quanta ≠ 0 := by
      rintro rfl
      exact absurd hlarge (by decide)
    have hpow : spacing quanta * 2 ^ 52 ≤ quanta := by
      rw [spacing, Nat.pow_eq, ← Nat.pow_add, Nat.sub_add_cancel hlarge]
      exact Nat.log2_self_le hne
    have hpow' : (spacing quanta : ℚ) * 2 ^ 52 ≤ quanta := by exact_mod_cast hpow
    have : (spacing quanta : ℚ) ≤ quanta / 2 ^ 52 := (le_div_iff₀ (by positivity)).mpr hpow'
    linarith

/-! ### Rounding -/

/-- The quanta of the value nearest to `num / den` quanta, were there no limit. -/
def rounded (num den : ℕ) : ℕ :=
  roundQuotient num (den * spacing (num / den)) * spacing (num / den)

theorem nearest_of_lt {num den : ℕ} (h : rounded num den < limit) :
    nearest num den = finite (rounded num den) := by
  rw [nearest]
  exact if_pos h

section

variable (num : ℕ) {den : ℕ} (hden : 0 < den)

include hden

theorem lt_pow_mul_spacing : num < 2 ^ 53 * (den * spacing (num / den)) := by
  have hlog : num / den < 2 ^ ((num / den).log2 + 1) := Nat.lt_log2_self
  have hpow : 2 ^ ((num / den).log2 + 1) ≤ 2 ^ 53 * spacing (num / den) := by
    rw [spacing, Nat.pow_eq, ← Nat.pow_add]
    exact Nat.pow_le_pow_right (by decide) (by omega)
  have hlt := (Nat.div_lt_iff_lt_mul hden).mp (lt_of_lt_of_le hlog hpow)
  rwa [Nat.mul_assoc, Nat.mul_comm (spacing _)] at hlt

/-- What is rounded to is a value. -/
theorem isValue_rounded : IsValue (rounded num den) := by
  have hstep := Nat.mul_pos hden (spacing_pos (num / den))
  exact isValue_mul_pow (roundQuotient_le num hstep (lt_pow_mul_spacing num hden).le) _

/-- In steps, the distance to a quotient is that to a quotient of integers again. -/
theorem abs_mul_sub_div {step : ℕ} (hstep : 0 < step) (m : ℚ) :
    |m * step - num / den| = |m - num / (den * step : ℕ)| * step := by
  have hstep' : (0 : ℚ) < step := Nat.cast_pos.mpr hstep
  have hden' : (den : ℚ) ≠ 0 := Nat.cast_ne_zero.mpr hden.ne'
  rw [← abs_of_pos hstep', ← abs_mul, abs_of_pos hstep']
  congr 1
  push_cast
  field_simp

theorem abs_rounded_sub_le_spacing :
    |(rounded num den : ℚ) - num / den| ≤ spacing (num / den) / 2 := by
  have hstep := spacing_pos (num / den)
  have hround := abs_roundQuotient_sub_le num (Nat.mul_pos hden hstep)
  rw [rounded, Nat.cast_mul, abs_mul_sub_div num hden hstep, div_eq_mul_one_div (_ : ℚ) 2,
    mul_comm]
  exact mul_le_mul_of_nonneg_left hround (Nat.cast_nonneg _)

/-- Rounding errs by half a quantum and one part in `2 ^ 53`. -/
theorem abs_rounded_sub_le :
    |(rounded num den : ℚ) - num / den| ≤ 1 / 2 + (num / den : ℚ) / 2 ^ 53 := by
  have hround := abs_rounded_sub_le_spacing num hden
  have hspacing := spacing_le (num / den)
  have hfloor : ((num / den : ℕ) : ℚ) ≤ num / den := Nat.cast_div_le
  linarith

/-- Rounding is to a multiple of the distance between neighbours, of which none is closer. -/
theorem abs_rounded_sub_le_of_dvd {v : ℕ} (h : spacing (num / den) ∣ v) :
    |(rounded num den : ℚ) - num / den| ≤ |(v : ℚ) - num / den| := by
  obtain ⟨k, hk⟩ := h
  have hstep := spacing_pos (num / den)
  have hnear := abs_roundQuotient_sub_le_of_nat num (Nat.mul_pos hden hstep) k
  rw [rounded, hk, mul_comm _ k, Nat.cast_mul, Nat.cast_mul, abs_mul_sub_div num hden hstep,
    abs_mul_sub_div num hden hstep]
  exact mul_le_mul_of_nonneg_right hnear (Nat.cast_nonneg _)

/-- No value is closer. -/
theorem abs_rounded_sub_le_of_isValue {v : ℕ} (h : IsValue v) :
    |(rounded num den : ℚ) - num / den| ≤ |(v : ℚ) - num / den| := by
  rcases Nat.lt_or_ge v.log2 (num / den).log2 with hlt | hge
  -- a value of fewer bits is farther than the least number of as many bits
  · have hne : num / den ≠ 0 := by
      intro hzero
      rw [hzero] at hlt
      exact Nat.not_lt_zero _ hlt
    have hleast : 2 ^ (num / den).log2 ≤ num / den := Nat.log2_self_le hne
    have hfewer : v < 2 ^ (num / den).log2 := by
      rcases eq_or_ne v 0 with rfl | hv
      · exact Nat.two_pow_pos _
      · exact (Nat.log2_lt hv).mp hlt
    have hdvd : spacing (num / den) ∣ 2 ^ (num / den).log2 := pow_dvd_pow 2 (Nat.sub_le _ _)
    have hfloor : ((num / den : ℕ) : ℚ) ≤ num / den := Nat.cast_div_le
    have hleast' : ((2 ^ (num / den).log2 : ℕ) : ℚ) ≤ (num / den : ℕ) := Nat.cast_le.mpr hleast
    have hfewer' : (v : ℚ) ≤ (2 ^ (num / den).log2 : ℕ) := Nat.cast_le.mpr hfewer.le
    refine (abs_rounded_sub_le_of_dvd num hden hdvd).trans ?_
    rw [abs_of_nonpos (by linarith), abs_of_nonpos (by linarith)]
    linarith
  · exact abs_rounded_sub_le_of_dvd num hden ((spacing_dvd hge).trans h)

/-- Rounding at most doubles. -/
theorem rounded_le_two_mul : (rounded num den : ℚ) ≤ 2 * (num / den) := by
  have hclose := abs_rounded_sub_le_of_isValue num hden isValue_zero
  have hnonneg : (0 : ℚ) ≤ num / den := by positivity
  rw [Nat.cast_zero, zero_sub, abs_neg, abs_of_nonneg hnonneg, abs_le] at hclose
  linarith

end

/-- A quotient that is a value is not rounded. -/
theorem nearest_mul_of_isValue {q den : ℕ} (hden : 0 < den) (h : IsValue q) (hlt : q < limit) :
    nearest (q * den) den = finite q := by
  have hexact : ((q * den : ℕ) : ℚ) / den = q := by
    rw [Nat.cast_mul, mul_div_cancel_right₀ _ (Nat.cast_ne_zero.mpr hden.ne')]
  have hclose := abs_rounded_sub_le_of_isValue (q * den) hden h
  rw [hexact, sub_self, abs_zero, abs_nonpos_iff, sub_eq_zero, Nat.cast_inj] at hclose
  rw [nearest_of_lt (by rwa [hclose]), hclose]

/-! ### Numbers

The exponents are kept as variables here: powers so great are not to be computed. -/

theorem one_pos : 0 < one := by
  unfold one
  generalize 1074 = e
  exact Nat.two_pow_pos e

theorem cast_one_pos : (0 : ℚ) < one := Nat.cast_pos.mpr one_pos

theorem two_pow_le_one : (2 : ℚ) ^ 128 ≤ one := by
  have hexponent : 128 ≤ 1074 := by decide
  unfold one
  generalize 1074 = e at hexponent
  have hpow : 2 ^ 128 ≤ 2 ^ e := Nat.pow_le_pow_right Nat.two_pos hexponent
  exact_mod_cast hpow

theorem mul_one_lt_limit {k : ℕ} (h : k < 2 ^ 128) : k * one < limit := by
  have hexponent : 128 + 1074 ≤ 2098 := by decide
  unfold one limit
  generalize 1074 = e, 2098 = f at hexponent
  calc k * Nat.pow 2 e < 2 ^ 128 * 2 ^ e := Nat.mul_lt_mul_of_pos_right h (Nat.two_pow_pos e)
    _ = 2 ^ (128 + e) := (Nat.pow_add ..).symm
    _ ≤ 2 ^ f := Nat.pow_le_pow_right Nat.two_pos hexponent

theorem two_pow_mul_one_lt_limit : ((2 : ℚ) ^ 64) * one < limit := by
  exact_mod_cast mul_one_lt_limit (k := 2 ^ 64) (by decide)

/-- Whole numbers of 53 bits, and their multiples by powers of two, are values. -/
theorem isValue_mul_one {n k e : ℕ} (hn : n = k * 2 ^ e) (hk : k ≤ 2 ^ 53) :
    IsValue (n * one) := by
  subst hn
  unfold one
  generalize 1074 = f
  rw [Nat.pow_eq, Nat.mul_assoc, ← Nat.pow_add]
  exact isValue_mul_pow hk _

/-- From a power of two on, values are multiples of the distance to its next neighbour. -/
theorem dvd_of_isValue {q k : ℕ} (h : IsValue q) (hle : 2 ^ (52 + k) * one ≤ q) :
    2 ^ k * one ∣ q := by
  refine dvd_trans ?_ h
  unfold one at hle ⊢
  generalize 1074 = e at hle ⊢
  rw [Nat.pow_eq, ← Nat.pow_add] at hle ⊢
  have hne : q ≠ 0 := by
    rintro rfl
    exact absurd hle (Nat.not_le.mpr (Nat.two_pow_pos _))
  have hlog : 52 + k + e ≤ q.log2 := (Nat.le_log2 hne).mpr hle
  exact pow_dvd_pow 2 (by omega)

/-- No value lies between a power of two and its next neighbour. -/
theorem eq_of_isValue {q n k : ℕ} (hn : n = 2 ^ (52 + k)) (h : IsValue q) (hle : n * one ≤ q)
    (hlt : q < (n + 2 ^ k) * one) : q = n * one := by
  subst hn
  obtain ⟨m, rfl⟩ := dvd_of_isValue h hle
  have hstep : 0 < 2 ^ k * one := Nat.mul_pos (Nat.two_pow_pos k) one_pos
  have hpower : 2 ^ (52 + k) * one = 2 ^ k * one * 2 ^ 52 := by ring
  have hnext : (2 ^ (52 + k) + 2 ^ k) * one = 2 ^ k * one * (2 ^ 52 + 1) := by ring
  rw [hpower] at hle ⊢
  rw [hnext] at hlt
  have hlow : 2 ^ 52 ≤ m := Nat.le_of_mul_le_mul_left hle hstep
  have hhigh : m < 2 ^ 52 + 1 := Nat.lt_of_mul_lt_mul_left hlt
  rw [Nat.le_antisymm (Nat.le_of_lt_succ hhigh) hlow]

/-- A finite value stands for a number. -/
def Denotes (b : Binary64) (x : ℚ) : Prop := ∃ q : ℕ, b = finite q ∧ IsValue q ∧ (q : ℚ) = x * one

namespace Denotes

variable {b : Binary64} {x : ℚ}

theorem zero : Denotes (finite 0) 0 := ⟨0, rfl, isValue_zero, by rw [Nat.cast_zero, zero_mul]⟩

theorem nonneg (h : Denotes b x) : 0 ≤ x := by
  obtain ⟨q, -, -, hq⟩ := h
  exact nonneg_of_mul_nonneg_left (hq ▸ Nat.cast_nonneg q) cast_one_pos

theorem floor?_eq (h : Denotes b x) : b.floor? = some ⌊x⌋₊ := by
  obtain ⟨q, rfl, -, hq⟩ := h
  have hx : x = q / one := by rw [hq, mul_div_cancel_right₀ x cast_one_pos.ne']
  rw [hx, Nat.floor_div_eq_div]
  rfl

end Denotes

/-- There is a value for 53 bits over a power of two. -/
theorem exists_denotes {m k : ℕ} (hm : m ≤ 2 ^ 53) (hk : k ≤ 1074) :
    ∃ b, Denotes b (m / 2 ^ k) := by
  obtain ⟨e, he⟩ : ∃ e, one = 2 ^ k * 2 ^ e := by
    unfold one
    generalize 1074 = f at hk
    exact ⟨f - k, by rw [Nat.pow_eq, ← Nat.pow_add, Nat.add_sub_cancel' hk]⟩
  have hone : (one : ℚ) = 2 ^ k * 2 ^ e := by exact_mod_cast congrArg (Nat.cast (R := ℚ)) he
  refine ⟨finite (m * 2 ^ e), m * 2 ^ e, rfl, isValue_mul_pow hm e, ?_⟩
  rw [hone]
  push_cast
  field_simp

/-- Whole numbers of 53 bits are values, and so are their multiples by powers of two. -/
theorem exists_denotes_of_dvd {n e : ℕ} (hdvd : 2 ^ e ∣ n) (h : n ≤ 2 ^ (53 + e)) :
    ∃ b, Denotes b n := by
  obtain ⟨k, rfl⟩ := hdvd
  have hk : k ≤ 2 ^ 53 := by
    rw [Nat.add_comm, Nat.pow_add] at h
    exact Nat.le_of_mul_le_mul_left h (Nat.two_pow_pos e)
  exact ⟨finite (2 ^ e * k * one), _, rfl, isValue_mul_one (Nat.mul_comm _ k) hk,
    Nat.cast_mul _ _⟩

theorem exists_denotes_natCast {n : ℕ} (h : n ≤ 2 ^ 53) : ∃ b, Denotes b n :=
  exists_denotes_of_dvd (e := 0) (one_dvd n) h

theorem natCast_le {n e : ℕ} (he : e ≤ 10) (h : n ≤ 2 ^ (53 + e)) : (n : ℚ) ≤ 2 ^ 63 := by
  have hle : n ≤ 2 ^ 63 := h.trans (Nat.pow_le_pow_right Nat.two_pos (by omega))
  exact_mod_cast hle

theorem natCast_le_of_le {n : ℕ} (h : n ≤ 2 ^ 53) : (n : ℚ) ≤ 2 ^ 63 :=
  natCast_le (Nat.zero_le 10) h

/-- A number is rounded to one that a value stands for, of which none is closer. -/
structure Rounds (x y : ℚ) : Prop where
  closest : ∀ {b v}, Denotes b v → |y - x| ≤ |v - x|
  abs_sub_le : |y - x| ≤ x / 2 ^ 53 + 1 / 2 ^ 128

namespace Rounds

variable {x y : ℚ}

theorem le_two_mul (h : Rounds x y) (hx : 0 ≤ x) : y ≤ 2 * x := by
  have hzero := h.closest Denotes.zero
  rw [zero_sub, abs_neg, abs_of_nonneg hx, abs_le] at hzero
  linarith

theorem eq (h : Rounds x y) {b : Binary64} (hb : Denotes b x) : y = x := by
  have hclose := h.closest hb
  rw [sub_self, abs_zero] at hclose
  exact sub_eq_zero.mp (abs_nonpos_iff.mp hclose)

/-- Rounding does not go below a number that is not above what is rounded. -/
theorem le_of_denotes (h : Rounds x y) {b : Binary64} {v : ℚ} (hb : Denotes b v) (hv : v ≤ x) :
    v ≤ y := by
  have hclose := h.closest hb
  rw [abs_of_nonpos (sub_nonpos.mpr hv), abs_le] at hclose
  linarith

end Rounds

/-- Up to `2 ^ 63`, and far beyond, the nearest value is finite. -/
theorem exists_nearest {num den : ℕ} (hden : 0 < den) {x : ℚ} (hx : (num : ℚ) / den = x * one)
    (hle : x ≤ 2 ^ 63) : ∃ y, Denotes (nearest num den) y ∧ Rounds x y := by
  have hone := two_pow_le_one
  have hlimit : (rounded num den : ℚ) < limit := by
    refine lt_of_le_of_lt (rounded_le_two_mul num hden) (lt_of_le_of_lt ?_ two_pow_mul_one_lt_limit)
    rw [hx]
    have := mul_le_mul_of_nonneg_right hle cast_one_pos.le
    linarith
  -- distances are the same in quanta
  have hquanta (q : ℕ) : |(q : ℚ) / one - x| = |(q : ℚ) - num / den| / one := by
    rw [hx, ← abs_of_pos cast_one_pos, ← abs_div, abs_of_pos cast_one_pos, sub_div,
      mul_div_cancel_right₀ x cast_one_pos.ne']
  refine ⟨rounded num den / one, ⟨rounded num den, nearest_of_lt (Nat.cast_lt.mp hlimit),
    isValue_rounded num hden, (div_mul_cancel₀ _ cast_one_pos.ne').symm⟩, ?_, ?_⟩
  · rintro b v ⟨q, -, hvalue, hq⟩
    have hv : v = q / one := by rw [hq, mul_div_cancel_right₀ v cast_one_pos.ne']
    rw [hv, hquanta, hquanta]
    exact div_le_div_of_nonneg_right (abs_rounded_sub_le_of_isValue num hden hvalue) cast_one_pos.le
  · rw [hquanta, div_le_iff₀ cast_one_pos, hx]
    have herror := abs_rounded_sub_le num hden
    rw [hx] at herror
    have hhalf : (1 : ℚ) / 2 ≤ 1 / 2 ^ 128 * one := by
      rw [one_div_mul_eq_div, le_div_iff₀ (by norm_num)]
      linarith
    linarith

/-! ### Operations -/

/-- The quanta that a decimal is rounded from. -/
theorem decimal_quanta (digits places : ℕ) :
    ((digits * one : ℕ) : ℚ) / (Nat.pow 10 places : ℕ) = digits / 10 ^ places * one := by
  rw [Nat.pow_eq]
  push_cast
  ring

theorem exists_ofDecimal {digits places : ℕ} {x : ℚ} (hx : (digits : ℚ) / 10 ^ places = x)
    (hle : x ≤ 2 ^ 63) : ∃ y, Denotes (ofDecimal digits places) y ∧ Rounds x y := by
  subst hx
  rw [ofDecimal]
  exact exists_nearest (Nat.pow_pos (by decide)) (decimal_quanta digits places) hle

theorem denotes_ofNat {n : ℕ} (h : n ≤ 2 ^ 53) : Denotes (ofNat n) n := by
  have hn : (n : ℚ) / 10 ^ 0 = n := by rw [pow_zero, div_one]
  obtain ⟨y, hy, hround⟩ := exists_ofDecimal hn (natCast_le_of_le h)
  obtain ⟨b, hb⟩ := exists_denotes_natCast h
  rw [hround.eq hb] at hy
  rw [ofNat]
  exact hy

section

variable {a b : Binary64} {x y : ℚ} (ha : Denotes a x) (hb : Denotes b y)

include ha hb

/-- A sum is rounded once. -/
theorem Denotes.exists_add (hle : x + y ≤ 2 ^ 63) :
    ∃ z, Denotes (a.add b) z ∧ Rounds (x + y) z := by
  obtain ⟨p, rfl, -, hp⟩ := ha
  obtain ⟨q, rfl, -, hq⟩ := hb
  have hquanta : ((p + q : ℕ) : ℚ) / (1 : ℕ) = (x + y) * one := by
    push_cast
    rw [hp, hq]
    ring
  rw [add]
  exact exists_nearest Nat.one_pos hquanta hle

/-- A product is rounded once. -/
theorem Denotes.exists_mul (hle : x * y ≤ 2 ^ 63) :
    ∃ z, Denotes (a.mul b) z ∧ Rounds (x * y) z := by
  obtain ⟨p, rfl, -, hp⟩ := ha
  obtain ⟨q, rfl, -, hq⟩ := hb
  have hquanta : ((p * q : ℕ) : ℚ) / one = x * y * one := by
    rw [div_eq_iff cast_one_pos.ne', Nat.cast_mul, hp, hq]
    ring
  rw [mul]
  exact exists_nearest one_pos hquanta hle

/-- A quotient is rounded once. -/
theorem Denotes.exists_div (hy : 0 < y) (hle : x / y ≤ 2 ^ 63) :
    ∃ z, Denotes (a.div b) z ∧ Rounds (x / y) z := by
  obtain ⟨p, rfl, -, hp⟩ := ha
  obtain ⟨q, rfl, -, hq⟩ := hb
  have hqpos : (0 : ℚ) < q := hq ▸ mul_pos hy cast_one_pos
  have hquanta : ((p * one : ℕ) : ℚ) / q = x / y * one := by
    rw [div_eq_iff hqpos.ne', Nat.cast_mul, hp, hq, div_mul_eq_mul_div, div_mul_eq_mul_div,
      eq_div_iff hy.ne']
    ring
  rw [div]
  exact exists_nearest (Nat.cast_pos.mp hqpos) hquanta hle

end

/-- The quotient of whole numbers of at most 53 bits may be rounded, but not as far as to the next
whole number. -/
theorem Denotes.floor?_div {b c : Binary64} {n d : ℕ} (hb : Denotes b n) (hc : Denotes c d)
    (hn : n < 2 ^ 53) (hd : 0 < d) (hd' : d ≤ 2 ^ 53) : (b.div c).floor? = some (n / d) := by
  have hdpos : (0 : ℚ) < d := Nat.cast_pos.mpr hd
  have hdle : (d : ℚ) ≤ 2 ^ 53 := by exact_mod_cast hd'
  have hnle : (n : ℚ) ≤ 2 ^ 53 - 1 := by
    have hsucc : ((n + 1 : ℕ) : ℚ) ≤ (2 ^ 53 : ℕ) := Nat.cast_le.mpr hn
    push_cast at hsucc
    linarith
  have hle : (n : ℚ) / d ≤ 2 ^ 63 :=
    (div_le_self (Nat.cast_nonneg n) (Nat.one_le_cast.mpr hd)).trans (natCast_le_of_le hn.le)
  obtain ⟨y, hy, hround⟩ := hb.exists_div hc hdpos hle
  have hfloor : ((n / d : ℕ) : ℚ) ≤ n / d := Nat.cast_div_le
  obtain ⟨whole, hwhole⟩ := exists_denotes_natCast ((Nat.div_le_self n d).trans hn.le)
  have hlow := hround.le_of_denotes hwhole hfloor
  have hhigh : y < (n / d : ℕ) + 1 := by
    have hnext : ((n + 1 : ℕ) : ℚ) ≤ ((n / d + 1) * d : ℕ) :=
      Nat.cast_le.mpr (Nat.lt_mul_of_div_lt (Nat.lt_succ_self (n / d)) hd)
    push_cast at hnext
    have hgap : (n : ℚ) / d + 1 / d ≤ (n / d : ℕ) + 1 := by
      rw [← add_div, div_le_iff₀ hdpos]
      exact hnext
    have herror := hround.abs_sub_le
    rw [abs_le] at herror
    -- what is lost lies below one part in `d`
    have hloss : (n : ℚ) / d / 2 ^ 53 ≤ 1 / d - 1 / 2 ^ 106 := by
      have hpart : (1 : ℚ) / 2 ^ 53 ≤ 1 / d := one_div_le_one_div_of_le hdpos hdle
      have hmul := mul_le_mul_of_nonneg_right hnle (one_div_pos.mpr hdpos).le
      rw [div_eq_mul_one_div (n : ℚ)]
      linarith
    have hsmall : (1 : ℚ) / 2 ^ 128 < 1 / 2 ^ 106 := by norm_num
    linarith
  rw [hy.floor?_eq]
  exact congrArg some ((Nat.floor_eq_iff hy.nonneg).mpr ⟨hlow, hhigh⟩)

/-- A quotient that is a whole number itself is not rounded at all. -/
theorem Denotes.floor?_div_mul {b c : Binary64} {n d : ℕ} (hb : Denotes b (n * d : ℕ))
    (hc : Denotes c d) (hn : n ≤ 2 ^ 53) (hd : 0 < d) : (b.div c).floor? = some n := by
  have hdpos : (0 : ℚ) < d := Nat.cast_pos.mpr hd
  have hquotient : ((n * d : ℕ) : ℚ) / d = n := by
    rw [Nat.cast_mul, mul_div_cancel_right₀ _ hdpos.ne']
  obtain ⟨y, hy, hround⟩ := hb.exists_div hc hdpos (hquotient ▸ natCast_le_of_le hn)
  rw [hquotient] at hround
  obtain ⟨whole, hwhole⟩ := exists_denotes_natCast hn
  rw [hy.floor?_eq, hround.eq hwhole, Nat.floor_natCast]

/-! ### Whole numbers

Where the result of an operation on whole numbers is a value, it is that number. -/

section

variable {m n : ℕ}

theorem nearest_whole {num den : ℕ} (hden : 0 < den) (hnum : num = n * one * den)
    (h : IsValue (n * one)) (hlt : n < 2 ^ 128) : nearest num den = finite (n * one) := by
  rw [hnum]
  exact nearest_mul_of_isValue hden h (mul_one_lt_limit hlt)

theorem ofNat_whole (h : IsValue (n * one)) (hlt : n < 2 ^ 128) : ofNat n = finite (n * one) := by
  rw [ofNat, ofDecimal]
  exact nearest_whole (Nat.pow_pos (by decide)) (by rw [Nat.pow_eq, Nat.pow_zero, Nat.mul_one]) h hlt

theorem zero_add_whole (h : IsValue (n * one)) (hlt : n < 2 ^ 128) :
    (finite 0).add (finite (n * one)) = finite (n * one) := by
  rw [add]
  exact nearest_whole Nat.one_pos (by rw [Nat.zero_add, Nat.mul_one]) h hlt

theorem mul_whole (h : IsValue (m * n * one)) (hlt : m * n < 2 ^ 128) :
    (finite (m * one)).mul (finite (n * one)) = finite (m * n * one) := by
  rw [mul]
  exact nearest_whole one_pos (by ring) h hlt

theorem div_whole (hn : 0 < n) (h : IsValue (m * one)) (hlt : m < 2 ^ 128) :
    (finite (m * n * one)).div (finite (n * one)) = finite (m * one) := by
  rw [div]
  exact nearest_whole (Nat.mul_pos hn one_pos) (by ring) h hlt

theorem floor?_whole : (finite (n * one)).floor? = some n := by
  rw [floor?, Nat.mul_div_cancel n one_pos]

end

/-! ### Sums -/

theorem sum_nonneg_of_denotes {terms : List Binary64} {xs : List ℚ}
    (h : List.Forall₂ Denotes terms xs) : 0 ≤ xs.sum := by
  induction h with
  | nil => exact le_rfl
  | cons hb _ ih =>
    rw [List.sum_cons]
    exact add_nonneg hb.nonneg ih

/-- A sum that starts from a value is at most twice too large, since adding to a value errs by no
more than what is added; and every addition errs by one part in `2 ^ 53` of a bound for all. -/
theorem exists_foldl_add {start : Binary64} {s bound : ℚ} {terms : List Binary64} {xs : List ℚ}
    (hstart : Denotes start s) (hterms : List.Forall₂ Denotes terms xs)
    (hbound : s + 2 * xs.sum ≤ bound) (hle : bound ≤ 2 ^ 63) :
    ∃ t, Denotes (terms.foldl add start) t ∧ t ≤ s + 2 * xs.sum ∧
      |t - (s + xs.sum)| ≤ xs.length * (bound / 2 ^ 53 + 1 / 2 ^ 128) := by
  induction hterms generalizing start s with
  | nil => exact ⟨s, hstart, by simp, by simp⟩
  | @cons b x terms xs hb hterms ih =>
    rw [List.sum_cons] at hbound
    have hs := hstart.nonneg
    have hx := hb.nonneg
    have hxs : 0 ≤ xs.sum := sum_nonneg_of_denotes hterms
    obtain ⟨next, hnext, hround⟩ := hstart.exists_add hb (by linarith)
    -- the sum so far is a value itself, and no value is closer
    have hnextLe : next ≤ s + 2 * x := by
      have hclose := hround.closest hstart
      rw [abs_of_nonpos (by linarith : s - (s + x) ≤ 0), abs_le] at hclose
      linarith
    obtain ⟨t, ht, hle, hsum⟩ := ih hnext (by linarith)
    refine ⟨t, ht, by rw [List.sum_cons]; linarith, ?_⟩
    have hstep : |next - (s + x)| ≤ bound / 2 ^ 53 + 1 / 2 ^ 128 := by
      have herror := hround.abs_sub_le
      have hmono : (s + x) / 2 ^ 53 ≤ bound / 2 ^ 53 := by
        refine div_le_div_of_nonneg_right ?_ (by positivity)
        linarith
      linarith
    rw [List.sum_cons, List.length_cons]
    push_cast
    calc |t - (s + (x + xs.sum))| = |(t - (next + xs.sum)) + (next - (s + x))| := by
          congr 1
          ring
      _ ≤ |t - (next + xs.sum)| + |next - (s + x)| := abs_add_le _ _
      _ ≤ xs.length * (bound / 2 ^ 53 + 1 / 2 ^ 128) + (bound / 2 ^ 53 + 1 / 2 ^ 128) :=
          add_le_add hsum hstep
      _ = (xs.length + 1) * (bound / 2 ^ 53 + 1 / 2 ^ 128) := by ring

/-- Multiples of a power of two are added without an error, as far as 53 bits go. -/
theorem denotes_foldl_add {start : Binary64} {s e : ℕ} {terms : List Binary64} {ns : List ℕ}
    (he : e ≤ 10) (hstart : Denotes start s) (hs : 2 ^ e ∣ s)
    (hterms : List.Forall₂ (fun b n => Denotes b (n : ℕ) ∧ 2 ^ e ∣ n) terms ns)
    (hle : s + ns.sum ≤ 2 ^ (53 + e)) :
    Denotes (terms.foldl add start) (s + ns.sum : ℕ) := by
  induction hterms generalizing start s with
  | nil => exact hstart
  | @cons b n terms ns hb hterms ih =>
    obtain ⟨hb, hn⟩ := hb
    rw [List.sum_cons] at hle ⊢
    have hwhole : (s : ℚ) + n = (s + n : ℕ) := by push_cast; rfl
    have hsn : 2 ^ e ∣ s + n := Nat.dvd_add hs hn
    obtain ⟨whole, hb'⟩ := exists_denotes_of_dvd hsn (by omega)
    have hbound : ((s + n : ℕ) : ℚ) ≤ 2 ^ 63 := natCast_le he (by omega)
    obtain ⟨next, hnext, hround⟩ := hstart.exists_add hb (by rw [hwhole]; exact hbound)
    rw [hwhole] at hround
    -- the partial sum is a value, so it is not rounded
    rw [hround.eq hb'] at hnext
    rw [← Nat.add_assoc]
    exact ih hnext hsn (by omega)

end Binary64

end TrustStore.Numeric

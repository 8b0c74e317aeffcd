import Mathlib.Algebra.Order.BigOperators.Group.List
import TrustStore.Proofs.Numeric.Binary64

/-!
# What rounding leaves at least

An operation on values that are at least some numbers gives a value that is at least the exact
result for these numbers, less what rounding may take away (`leftBy`).  An infinite value is at
least any number, so unlike the error of an operation this needs no bound on the numbers, and it
holds of sums of any length and size (`AtLeast.foldl_add`).
-/

namespace TrustStore.Numeric.Binary64

/-- A value is at least a number, as an infinite one always is. -/
def AtLeast (b : Binary64) (x : ℚ) : Prop := ∀ q : ℕ, b = finite q → x * one ≤ q

/-- What is left of a number that is rounded down. -/
def leftBy (x : ℚ) : ℚ := x * (1 - 1 / 2 ^ 53) - 1 / 2 ^ 128

namespace AtLeast

theorem infinite (x : ℚ) : AtLeast infinite x := by
  rintro q ⟨⟩

variable {a b : Binary64} {x y : ℚ}

theorem mono (h : a.AtLeast x) (hy : y ≤ x) : a.AtLeast y :=
  fun q hq => (mul_le_mul_of_nonneg_right hy cast_one_pos.le).trans (h q hq)

theorem zero (a : Binary64) : a.AtLeast 0 := by
  intro q _
  rw [zero_mul]
  exact Nat.cast_nonneg q

/-- A value is at least what is left of the quotient that it was rounded from. -/
theorem nearest {num den : ℕ} (hden : 0 < den) (h : x * one ≤ num / den) :
    (nearest num den).AtLeast (leftBy x) := by
  intro q hq
  obtain rfl : rounded num den = q := by
    unfold Binary64.nearest at hq
    dsimp only at hq
    split at hq
    · exact Binary64.finite.inj hq
    · cases hq
  -- rounding moves a number down by the error at most
  have herror := abs_rounded_sub_le num hden
  rw [abs_le] at herror
  have hone := two_pow_le_one
  calc leftBy x * one = x * one * (1 - 1 / 2 ^ 53) - 1 / 2 ^ 128 * one := by
        rw [leftBy]
        ring
    _ ≤ num / den * (1 - 1 / 2 ^ 53) - 1 / 2 := by linarith
    _ ≤ rounded num den := by linarith

theorem ofDecimal {digits places : ℕ} (hx : x ≤ digits / 10 ^ places) :
    (ofDecimal digits places).AtLeast (leftBy x) := by
  have hquanta : x * one ≤ ((digits * one : ℕ) : ℚ) / (Nat.pow 10 places : ℕ) := by
    rw [decimal_quanta]
    exact mul_le_mul_of_nonneg_right hx cast_one_pos.le
  rw [Binary64.ofDecimal]
  exact nearest (Nat.pow_pos (by decide)) hquanta

/-- A sum that is cut off at infinity is above every bound. -/
theorem add (ha : a.AtLeast x) (hb : b.AtLeast y) : (a.add b).AtLeast (leftBy (x + y)) := by
  rcases a with p | -
  · rcases b with q | -
    · have hquanta : (x + y) * one ≤ ((p + q : ℕ) : ℚ) / (1 : ℕ) := by
        have hp := ha p rfl
        have hq := hb q rfl
        push_cast
        linarith
      rw [Binary64.add]
      exact nearest Nat.one_pos hquanta
    · exact infinite _
  · exact infinite _

theorem mul (ha : a.AtLeast x) (hb : Denotes b y) : (a.mul b).AtLeast (leftBy (x * y)) := by
  obtain ⟨q, rfl, -, hq⟩ := hb
  rcases a with p | -
  · have hquanta : x * y * one ≤ ((p * q : ℕ) : ℚ) / one := by
      rw [le_div_iff₀ cast_one_pos, Nat.cast_mul, hq]
      calc x * y * one * one = x * one * (y * one) := by ring
        _ ≤ p * (y * one) := mul_le_mul_of_nonneg_right (ha p rfl) (hq ▸ Nat.cast_nonneg q)
    rw [Binary64.mul]
    exact nearest one_pos hquanta
  · exact infinite _

theorem div (ha : a.AtLeast x) (hb : Denotes b y) (hy : 0 < y) :
    (a.div b).AtLeast (leftBy (x / y)) := by
  obtain ⟨q, rfl, -, hq⟩ := hb
  rcases a with p | -
  · have hqpos : (0 : ℚ) < q := hq ▸ mul_pos hy cast_one_pos
    have hquanta : x / y * one ≤ ((p * one : ℕ) : ℚ) / q := by
      rw [le_div_iff₀ hqpos, Nat.cast_mul, hq]
      calc x / y * one * (y * one) = x * one * one := by
            rw [mul_mul_mul_comm, div_mul_cancel₀ x hy.ne', mul_assoc]
        _ ≤ p * one := mul_le_mul_of_nonneg_right (ha p rfl) cast_one_pos.le
    rw [Binary64.div]
    exact nearest (Nat.cast_pos.mp hqpos) hquanta
  · exact infinite _

theorem lt_of_floor? {n : ℕ} (h : a.AtLeast x) (hn : a.floor? = some n) : x < n + 1 := by
  rcases a with q | -
  · obtain rfl := Option.some.inj hn
    have hlt : q < (q / one + 1) * one := Nat.lt_mul_of_div_lt (Nat.lt_succ_self _) one_pos
    have hlt' : (q : ℚ) < ((q / one : ℕ) + 1) * one := by exact_mod_cast hlt
    exact lt_of_mul_lt_mul_right (lt_of_le_of_lt (h q rfl) hlt') cast_one_pos.le
  · cases hn

/-- Each addition of a sum takes its part of all that is there. -/
theorem foldl_add {start : Binary64} {s : ℚ} {terms : List Binary64} {xs : List ℚ}
    (hstart : start.AtLeast s) (hterms : List.Forall₂ AtLeast terms xs) (hxs : ∀ x ∈ xs, 0 ≤ x) :
    (terms.foldl Binary64.add start).AtLeast
      ((s + xs.sum) * (1 - 1 / 2 ^ 53) ^ xs.length - xs.length / 2 ^ 128) := by
  induction hterms generalizing start s with
  | nil =>
    refine hstart.mono ?_
    simp
  | @cons b x terms xs hb hterms ih =>
    refine (ih (hstart.add hb) fun x hx => hxs x (List.mem_cons_of_mem _ hx)).mono ?_
    have hsum : 0 ≤ xs.sum := List.sum_nonneg fun x hx => hxs x (List.mem_cons_of_mem _ hx)
    have hpow : (0 : ℚ) ≤ (1 - 1 / 2 ^ 53) ^ xs.length := pow_nonneg (by norm_num) _
    have hle : ((1 : ℚ) - 1 / 2 ^ 53) ^ xs.length ≤ 1 := pow_le_one₀ (by norm_num) (by norm_num)
    rw [List.sum_cons, List.length_cons, pow_succ]
    -- the terms to come are rounded less often than the factor allows
    generalize ((1 : ℚ) - 1 / 2 ^ 53) ^ xs.length = p at hpow hle
    have hrest : 0 ≤ xs.sum * p := mul_nonneg hsum hpow
    rw [leftBy]
    push_cast
    linarith

end AtLeast

end TrustStore.Numeric.Binary64

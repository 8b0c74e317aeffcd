import TrustStore.Text.Ranges

/-!
# Tables and intervals

A code point that a table holds lies in one of its ranges (`exists_of_contains`).  What a table says
about all code points of an interval is read off its ranges: one of them may hold the interval
(`covers`), or all of them may lie apart from it (`misses`).  Both are evaluated once, and the
theorems here carry the answer to each code point.
-/

namespace TrustStore.Text.Ranges

/-- One range holds all numbers from `lo` to `hi`. -/
def covers : Ranges → Nat → Nat → Bool
  | [], _, _ => false
  | r :: rest, lo, hi => if r.2.blt lo then covers rest lo hi else r.1.ble lo && hi.ble r.2

/-- No range holds a number from `lo` to `hi`. -/
def misses : Ranges → Nat → Nat → Bool
  | [], _, _ => true
  | r :: rest, lo, hi => if r.2.blt lo then misses rest lo hi else hi.blt r.1 && hi.ble r.2

variable {t rest : Ranges} {r : Nat × Nat} {lo hi n : Nat}

theorem contains_cons_of_lt (h : r.2 < n) : contains (r :: rest) n = rest.contains n :=
  if_pos h

theorem contains_cons_of_le (h : n ≤ r.2) : contains (r :: rest) n = decide (r.1 ≤ n) :=
  if_neg (Nat.not_lt.mpr h)

theorem exists_of_contains (h : t.contains n = true) : ∃ r ∈ t, r.1 ≤ n ∧ n ≤ r.2 := by
  induction t with
  | nil => cases h
  | cons r rest ih =>
    by_cases hlast : n ≤ r.2
    · rw [contains_cons_of_le hlast, decide_eq_true_eq] at h
      exact ⟨r, List.mem_cons_self, h, hlast⟩
    · rw [contains_cons_of_lt (Nat.not_le.mp hlast)] at h
      obtain ⟨s, hs, hn⟩ := ih h
      exact ⟨s, List.mem_cons_of_mem r hs, hn⟩

/-- A stretch that one range covers is in the table. -/
theorem contains_of_covers (h : t.covers lo hi = true) (hlo : lo ≤ n) (hhi : n ≤ hi) :
    t.contains n = true := by
  induction t with
  | nil => cases h
  | cons r rest ih =>
    rw [covers] at h
    split at h
    · rename_i hbelow
      rw [Nat.blt_eq] at hbelow
      rw [contains_cons_of_lt (Nat.lt_of_lt_of_le hbelow hlo)]
      exact ih h
    · rw [Bool.and_eq_true, Nat.ble_eq, Nat.ble_eq] at h
      rw [contains_cons_of_le (Nat.le_trans hhi h.2)]
      exact decide_eq_true (Nat.le_trans h.1 hlo)

/-- A stretch that lies between two ranges is not. -/
theorem contains_of_misses (h : t.misses lo hi = true) (hlo : lo ≤ n) (hhi : n ≤ hi) :
    t.contains n = false := by
  induction t with
  | nil => rfl
  | cons r rest ih =>
    rw [misses] at h
    split at h
    · rename_i hbelow
      rw [Nat.blt_eq] at hbelow
      rw [contains_cons_of_lt (Nat.lt_of_lt_of_le hbelow hlo)]
      exact ih h
    · rw [Bool.and_eq_true, Nat.blt_eq, Nat.ble_eq] at h
      rw [contains_cons_of_le (Nat.le_trans hhi h.2)]
      exact decide_eq_false (by omega)

end TrustStore.Text.Ranges

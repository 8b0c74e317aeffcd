import Mathlib.Data.List.Sort
import TrustStore.Text.Order

/-!
# Ascending lists are determined by their members

Two ascending lists with the same members are equal, so `sortDistinct` depends on the members of
its argument alone and leaves an ascending list as it is.
-/

namespace TrustStore.Text

/-- Sorting without repetition looks only at which texts there are. -/
theorem sortDistinct_congr {l l' : List String} (h : ∀ s, s ∈ l ↔ s ∈ l') :
    sortDistinct l = sortDistinct l' := by
  refine (sortDistinct_ascending l).eq_of_mem_iff (sortDistinct_ascending l') fun s => ?_
  rw [mem_sortDistinct, mem_sortDistinct]
  exact h s

theorem sortDistinct_of_ascending {l : List String} (h : l.Pairwise (· < ·)) :
    sortDistinct l = l :=
  (sortDistinct_ascending l).eq_of_mem_iff h fun _ => mem_sortDistinct

end TrustStore.Text

/-!
# Ascending lists of texts

Names that are shown in order, each once: texts are ordered by code point.  `sortDistinct` yields
the one strictly ascending list with the given members.
-/

namespace TrustStore.Text

def insertDistinct (s : String) : List String → List String
  | [] => [s]
  | t :: rest =>
    if s < t then s :: t :: rest
    else if s = t then t :: rest
    else t :: insertDistinct s rest

/-- The texts in ascending order, without repetitions. -/
def sortDistinct (l : List String) : List String := l.foldr insertDistinct []

theorem lt_of_not_lt_of_ne {s t : String} (h : ¬ s < t) (hne : s ≠ t) : t < s :=
  Std.lt_of_le_of_ne (String.not_lt.1 h) (Ne.symm hne)

theorem mem_insertDistinct {s t : String} {l : List String} :
    t ∈ insertDistinct s l ↔ t = s ∨ t ∈ l := by
  induction l with
  | nil => simp [insertDistinct]
  | cons u rest ih =>
    unfold insertDistinct
    split
    · simp
    · split
      · rename_i h
        simp [h]
      · rw [List.mem_cons, List.mem_cons, ih]
        exact or_left_comm

theorem mem_sortDistinct {s : String} {l : List String} : s ∈ sortDistinct l ↔ s ∈ l := by
  induction l with
  | nil => simp [sortDistinct]
  | cons t rest ih =>
    rw [List.mem_cons, ← ih]
    exact mem_insertDistinct

theorem insertDistinct_ascending (s : String) {l : List String} (h : l.Pairwise (· < ·)) :
    (insertDistinct s l).Pairwise (· < ·) := by
  induction h with
  | nil => simp [insertDistinct]
  | @cons t rest first ordered ih =>
    unfold insertDistinct
    split
    · rename_i before
      refine List.pairwise_cons.2 ⟨fun u hu => ?_, List.pairwise_cons.2 ⟨first, ordered⟩⟩
      rcases List.mem_cons.1 hu with rfl | hu
      · exact before
      · exact String.lt_trans before (first u hu)
    · split
      · exact List.pairwise_cons.2 ⟨first, ordered⟩
      · rename_i notBefore ne
        refine List.pairwise_cons.2 ⟨fun u hu => ?_, ih⟩
        rcases mem_insertDistinct.1 hu with rfl | hu
        · exact lt_of_not_lt_of_ne notBefore ne
        · exact first u hu

theorem sortDistinct_ascending (l : List String) : (sortDistinct l).Pairwise (· < ·) := by
  induction l with
  | nil => exact List.Pairwise.nil
  | cons s rest ih => exact insertDistinct_ascending s ih

end TrustStore.Text

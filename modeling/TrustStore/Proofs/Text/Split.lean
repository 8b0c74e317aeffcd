import Mathlib.Data.List.Basic
import TrustStore.Text.Split

/-!
# Splitting and joining

`splitOn` is the library's way of splitting a list, so joining its parts gives the text back
(`intercalate_splitOn`), and parts that do not hold the separator are got back when the text that
joins them is split (`splitOn_intercalate`).  A run of characters of one kind is split off whole if
what follows does not carry it on (`takeWhile_append_eq`, `dropWhile_append_eq`).
-/

namespace TrustStore.Text

/-! ### Runs -/

section

variable {α : Type*} {p : α → Bool} {run rest : List α} (hrun : ∀ a ∈ run, p a = true)
  (hrest : ∀ a ∈ rest.head?, p a = false)

include hrun hrest

theorem takeWhile_append_eq : (run ++ rest).takeWhile p = run := by
  rw [List.takeWhile_append_of_pos hrun]
  rcases rest with - | ⟨a, rest⟩
  · exact List.append_nil run
  · rw [List.takeWhile_cons_of_neg (by simp [hrest a rfl]), List.append_nil]

theorem dropWhile_append_eq : (run ++ rest).dropWhile p = rest := by
  rw [List.dropWhile_append_of_pos hrun]
  rcases rest with - | ⟨a, rest⟩
  · rfl
  · exact List.dropWhile_cons_of_neg (by simp [hrest a rfl])

end

/-! ### Separators -/

variable {separator : Char}

/-- Splitting is that of the library. -/
theorem splitOn_eq (separator : Char) (l : List Char) :
    splitOn separator l = l.splitOn separator := by
  induction l with
  | nil => rfl
  | cons c rest ih =>
    rw [List.splitOn, List.splitOnP_cons_eq_if_modifyHead, splitOn, ih]
    rcases eq_or_ne c separator with rfl | hc
    · rw [if_pos rfl, if_pos (beq_self_eq_true c)]
      rfl
    · rw [if_neg hc, if_neg (by simpa using hc)]
      show _ = List.modifyHead (List.cons c) (rest.splitOn separator)
      rcases hrest : rest.splitOn separator with - | ⟨part, parts⟩
      · exact absurd hrest (List.splitOnP_ne_nil _ rest)
      · rfl

theorem splitOn_ne_nil (separator : Char) (l : List Char) : splitOn separator l ≠ [] := by
  rw [splitOn_eq]
  exact List.splitOnP_ne_nil _ l

theorem intercalate_splitOn (separator : Char) (l : List Char) :
    [separator].intercalate (splitOn separator l) = l := by
  rw [splitOn_eq]
  exact List.intercalate_splitOn separator

theorem splitOn_of_not_mem {part : List Char} (h : separator ∉ part) :
    splitOn separator part = [part] := by
  rw [splitOn_eq]
  refine List.splitOnP_eq_singleton fun c hc => beq_eq_false_iff_ne.mpr ?_
  rintro rfl
  exact h hc

/-- A text that does not begin with the separator begins with a part. -/
theorem exists_splitOn_cons {c : Char} (hc : c ≠ separator) (rest : List Char) :
    ∃ part parts, splitOn separator (c :: rest) = (c :: part) :: parts := by
  rw [splitOn, if_neg hc]
  split
  · exact ⟨[], [], rfl⟩
  · rename_i part parts _
    exact ⟨part, parts, rfl⟩

/-- A separator ends one part and starts the next. -/
theorem splitOn_append (l l' : List Char) :
    splitOn separator (l ++ separator :: l') = splitOn separator l ++ splitOn separator l' := by
  rw [splitOn_eq, splitOn_eq, splitOn_eq]
  exact List.splitOnP_append_cons l l' (beq_self_eq_true separator)

/-- Lines that each end with the separator are split into themselves, and an empty one follows. -/
theorem splitOn_lines {lines : List (List Char)} (h : ∀ line ∈ lines, separator ∉ line) :
    splitOn separator (lines.flatMap fun line => line ++ [separator]) = lines ++ [[]] := by
  induction lines with
  | nil => rfl
  | cons line lines ih =>
    rw [List.flatMap_cons, List.append_assoc, List.singleton_append, splitOn_append,
      splitOn_of_not_mem (h line List.mem_cons_self),
      ih fun other hother => h other (List.mem_cons_of_mem line hother)]
    rfl

/-- No part holds the separator. -/
theorem not_mem_of_mem_splitOn {part l : List Char} (h : part ∈ splitOn separator l) :
    separator ∉ part := by
  induction l generalizing part with
  | nil =>
    obtain rfl := List.mem_singleton.mp h
    exact List.not_mem_nil
  | cons c rest ih =>
    rw [splitOn] at h
    split at h
    -- at a separator an empty part starts
    · rcases List.mem_cons.mp h with rfl | h
      · exact List.not_mem_nil
      · exact ih h
    -- any other letter joins the part after it
    · rename_i hc
      split at h
      · rename_i hrest
        exact absurd hrest (splitOn_ne_nil separator rest)
      · rename_i first parts hrest
        rw [hrest] at ih
        rcases List.mem_cons.mp h with rfl | h
        · exact List.not_mem_cons_of_ne_of_not_mem (Ne.symm hc) (ih List.mem_cons_self)
        · exact ih (List.mem_cons_of_mem first h)

/-- Splitting a joined text gives its parts back.  Of no parts at all the joined text is empty,
which has one part. -/
theorem splitOn_intercalate {parts : List String} (h : ∀ p ∈ parts, separator ∉ p.toList)
    (hne : parts ≠ []) :
    splitOn separator ((String.singleton separator).intercalate parts).toList
      = parts.map String.toList := by
  rw [splitOn_eq, String.toList_intercalate, String.toList_singleton]
  refine List.splitOn_intercalate separator ?_ (by simpa using hne)
  intro l hl
  obtain ⟨p, hp, rfl⟩ := List.mem_map.mp hl
  exact h p hp

end TrustStore.Text

import TrustStore.Proofs.Entry.Name
import TrustStore.Proofs.Text.Pattern
import TrustStore.Proofs.Text.Ranges

/-!
# The pattern of names

As a regular expression, a name is a word character that further name characters may follow, if the
last of them is a word character again; the two groups of the pattern are optional one inside the
other, and the classes of their characters overlap, so that a name can be matched in several ways.
Which way is taken does not matter for the language: its texts are those whose first and last
characters are word characters and whose characters are name characters
(`mem_language_nameBody_iff`).  This is what is checked of names, so a name is valid exactly if the
pattern is found in it (`name_language`).

No name character divides a path, ends a text of bytes or is blank.
-/

namespace TrustStore

/-! ### Blank characters -/

/-- The table of word characters has no range that reaches into a blank one. -/
theorem Text.wordRanges_misses_blankRanges :
    (blankRanges.all fun b => wordRanges.misses b.1 b.2) = true := by
  decide +kernel

theorem Text.isWordChar_of_isBlank {c : Char} (h : isBlank c = true) : isWordChar c = false := by
  obtain ⟨b, hb, hfirst, hlast⟩ := Ranges.exists_of_contains h
  have hmisses := List.all_eq_true.mp wordRanges_misses_blankRanges b hb
  exact Ranges.contains_of_misses hmisses hfirst hlast

namespace Entry

open Computability
open Text (Pattern isWordChar isBlank)

theorem isBlank_of_isNameChar {c : Char} (h : isNameChar c = true) : isBlank c = false := by
  rcases isNameChar_iff.mp h with hword | rfl | rfl
  · refine Bool.eq_false_iff.mpr fun hblank => ?_
    rw [Text.isWordChar_of_isBlank hblank] at hword
    cases hword
  · decide
  · decide

/-! ### The pattern -/

/-- A word character. -/
def wordPattern : Pattern := .one [.word]

/-- A character that may stand inside a name. -/
def innerPattern : Pattern := .one [.word, .char '.', .char '-']

/-- A word character, and maybe more, up to another one. -/
def nameBody : Pattern :=
  .seq wordPattern (.optional (.seq (.optional (.repeated innerPattern)) wordPattern))

/-- The pattern that all of a name is to match. -/
def namePattern : Pattern := nameBody.anchored

theorem mem_language_wordPattern {s : List Char} :
    s ∈ wordPattern.language ↔ ∃ c, isWordChar c = true ∧ s = [c] := by
  rw [wordPattern, Pattern.mem_language_one]
  simp [Text.allowedBy, Text.ClassItem.allows]

theorem mem_kstar_innerPattern {s : List Char} :
    s ∈ innerPattern.language∗ ↔ ∀ c ∈ s, isNameChar c = true := by
  rw [innerPattern, Pattern.mem_kstar_language_one]
  simp [Text.allowedBy, Text.ClassItem.allows, isNameChar_iff]

/-- A word character, and perhaps more that ends with one. -/
theorem language_nameBody : nameBody.language
    = wordPattern.language * (1 + innerPattern.language∗ * wordPattern.language) := by
  rw [← Pattern.language_optional_repeated]
  rfl

/-- One word character, or two with name characters between them. -/
theorem mem_language_nameBody_cases {s : List Char} : s ∈ nameBody.language ↔
    ∃ c, isWordChar c = true ∧ (s = [c] ∨ ∃ middle d, (∀ e ∈ middle, isNameChar e = true) ∧
      isWordChar d = true ∧ s = c :: middle ++ [d]) := by
  rw [language_nameBody, Language.mem_mul]
  constructor
  · rintro ⟨first, hfirst, rest, hrest, rfl⟩
    obtain ⟨c, hc, rfl⟩ := mem_language_wordPattern.mp hfirst
    refine ⟨c, hc, ?_⟩
    rcases hrest with rfl | ⟨middle, hmiddle, last, hlast, rfl⟩
    · exact Or.inl rfl
    · obtain ⟨d, hd, rfl⟩ := mem_language_wordPattern.mp hlast
      exact Or.inr ⟨middle, d, mem_kstar_innerPattern.mp hmiddle, hd, rfl⟩
  · have hword (c : Char) (hc : isWordChar c = true) : [c] ∈ wordPattern.language :=
      mem_language_wordPattern.mpr ⟨c, hc, rfl⟩
    rintro ⟨c, hc, rfl | ⟨middle, d, hmiddle, hd, rfl⟩⟩
    · exact ⟨[c], hword c hc, [], Or.inl Language.nil_mem_one, rfl⟩
    · have hrest := Language.append_mem_mul (mem_kstar_innerPattern.mpr hmiddle) (hword d hd)
      exact ⟨[c], hword c hc, middle ++ [d], Or.inr hrest, rfl⟩

/-- The pattern asks for the characters at both ends and for all between. -/
theorem mem_language_nameBody_iff {s : List Char} : s ∈ nameBody.language ↔
    (∃ c ∈ s.head?, isWordChar c = true) ∧ (∀ c ∈ s, isNameChar c = true) ∧
      ∃ c ∈ s.getLast?, isWordChar c = true := by
  rw [mem_language_nameBody_cases]
  constructor
  · rintro ⟨c, hc, rfl | ⟨middle, d, hmiddle, hd, rfl⟩⟩
    · simp [hc, isNameChar_of_isWordChar hc]
    · refine ⟨⟨c, rfl, hc⟩, ?_, ⟨d, List.getLast?_concat, hd⟩⟩
      rw [List.forall_mem_append, List.forall_mem_cons, List.forall_mem_singleton]
      exact ⟨⟨isNameChar_of_isWordChar hc, hmiddle⟩, isNameChar_of_isWordChar hd⟩
  -- a text of one character is its own first and last
  · rintro ⟨⟨c, hhead, hc⟩, hall, d, hlast, hd⟩
    refine ⟨c, hc, ?_⟩
    obtain ⟨rest, rfl⟩ := List.head?_eq_some_iff.mp hhead
    rcases List.eq_nil_or_concat rest with rfl | ⟨middle, e, rfl⟩
    · exact Or.inl rfl
    · rw [List.concat_eq_append, ← List.cons_append] at hlast hall ⊢
      rw [List.getLast?_concat] at hlast
      obtain rfl := Option.some.inj hlast
      rw [List.forall_mem_append, List.forall_mem_cons] at hall
      exact Or.inr ⟨middle, e, hall.1.2, hd, rfl⟩

theorem anchorFree_nameBody : nameBody.AnchorFree :=
  ⟨trivial, trivial, trivial⟩

/-- The pattern finds the valid names. -/
theorem foundIn_namePattern_iff {name : String} :
    namePattern.FoundIn name.toList ↔ isValidName name = true := by
  rw [namePattern, anchorFree_nameBody.foundIn_anchored_iff, mem_language_nameBody_iff,
    isValidName, isValidNameText_iff]

/-! ### Names, character by character -/

/-- How the names look that the pattern is for. -/
structure HasNameForm (name : String) : Prop where
  ne_empty : name ≠ ""
  first : ∀ c ∈ name.toList.head?, isWordChar c = true
  last : ∀ c ∈ name.toList.getLast?, isWordChar c = true
  each : ∀ c ∈ name.toList, isWordChar c = true ∨ c = '.' ∨ c = '-'

/-- A name can stand as one step of a path. -/
structure IsPathSafe (name : String) : Prop where
  slash_not_mem : '/' ∉ name.toList
  nul_not_mem : '\x00' ∉ name.toList
  not_blank : ∀ c ∈ name.toList, isBlank c = false
  head?_ne_dot : name.toList.head? ≠ some '.'
  getLast?_ne_dot : name.toList.getLast? ≠ some '.'
  ne_here : name ≠ "."
  ne_up : name ≠ ".."

theorem hasNameForm_iff {name : String} : HasNameForm name ↔ isValidName name = true := by
  rw [isValidName, isValidNameText_iff]
  constructor
  · intro h
    have hne : name.toList ≠ [] := mt String.toList_eq_nil_iff.mp h.ne_empty
    have hhead := List.head?_eq_some_head hne
    have hlast := List.getLast?_eq_some_getLast hne
    exact ⟨⟨_, hhead, h.first _ hhead⟩, fun c hc => isNameChar_iff.mpr (h.each c hc),
      ⟨_, hlast, h.last _ hlast⟩⟩
  · rintro ⟨⟨c, hhead, hc⟩, hall, d, hlast, hd⟩
    refine ⟨?_, ?_, ?_, fun e he => isNameChar_iff.mp (hall e he)⟩
    · rintro rfl
      cases hhead
    · intro c' hc'
      rwa [Option.mem_unique hc' hhead]
    · intro d' hd'
      rwa [Option.mem_unique hd' hlast]

/-- A valid name is one step of a path, whatever else it is. -/
theorem isPathSafe_of_isValidName {name : String} (h : isValidName name = true) :
    IsPathSafe name where
  slash_not_mem := slash_not_mem_of_isValidName h
  nul_not_mem := nul_not_mem_of_isValidName h
  not_blank _ hc := isBlank_of_isNameChar (isNameChar_of_mem h hc)
  head?_ne_dot := head?_ne_dot_of_isValidName h
  getLast?_ne_dot := getLast?_ne_dot_of_isValidName h
  ne_here := ne_here_of_isValidName h
  ne_up := ne_up_of_isValidName h

/-- A name is valid exactly if a search for the pattern succeeds in it, and that is the case exactly
if it is not empty, has word characters at both ends, and is made of word characters, full stops and
hyphens.  So it is safe in paths. -/
theorem name_language (name : String) :
    String.ofList namePattern.written = "^\\w(([\\w.-]+)?\\w)?$" ∧
      (isValidName name = true ↔ namePattern.FoundIn name.toList) ∧
      (namePattern.FoundIn name.toList ↔ HasNameForm name) ∧
      (isValidName name = true → IsPathSafe name) :=
  ⟨rfl, foundIn_namePattern_iff.symm, foundIn_namePattern_iff.trans hasNameForm_iff.symm,
    isPathSafe_of_isValidName⟩

theorem dotted_name_is_path_safe :
    isValidName "web..client-Ж_2" = true ∧ IsPathSafe "web..client-Ж_2" := by
  have hvalid : isValidName "web..client-Ж_2" = true := by decide +kernel
  exact ⟨hvalid, (name_language "web..client-Ж_2").2.2.2 hvalid⟩

end Entry

end TrustStore

import Mathlib.Computability.Language
import TrustStore.Text.WordChar

/-!
# Patterns

A pattern is a regular expression with anchors.  It matches a stretch of a text, seen together with
what stands before and after it, since that is what the anchors look at (`Matches`); it is found in
a text if it matches some stretch of it (`FoundIn`).

The stretches that a pattern without anchors matches are a regular language: they are built with
the sum, the product and the star of languages, and their surroundings do not matter
(`matches_iff_mem_language`).  Between the two anchors nothing is left out of such a stretch, so a
search for the anchored pattern says whether the whole text is in the language
(`foundIn_anchored_iff`), however many ways there are to match it.
-/

namespace TrustStore.Text

open Computability

/-- A member of a class of characters: any word character, or a single character. -/
inductive ClassItem where
  | word
  | char (c : Char)

def ClassItem.allows : ClassItem → Char → Bool
  | word, c => isWordChar c
  | char d, c => c == d

def ClassItem.written : ClassItem → List Char
  | word => ['\\', 'w']
  | char c => [c]

/-- A class allows what one of its members allows. -/
def allowedBy (items : List ClassItem) (c : Char) : Bool := items.any fun item => item.allows c

inductive Pattern where
  /-- The place before the first character of a text. -/
  | textStart
  /-- The place after the last character of a text. -/
  | textEnd
  /-- One character of a class. -/
  | one (items : List ClassItem)
  | seq (first second : Pattern)
  | optional (p : Pattern)
  /-- Once or more often. -/
  | repeated (p : Pattern)

namespace Pattern

/-! ### How patterns are written -/

/-- What a sign of repetition is put after: a class of characters, or a group. -/
def grouped (p : Pattern) (written : List Char) : List Char :=
  match p with
  | one _ => written
  | _ => ['('] ++ written ++ [')']

/-- The usual way to write a pattern.  The single characters of a class are taken to be such as mean
themselves between brackets. -/
def written : Pattern → List Char
  | textStart => ['^']
  | textEnd => ['$']
  | one [.word] => ClassItem.word.written
  | one items => ['['] ++ items.flatMap ClassItem.written ++ [']']
  | seq p q => p.written ++ q.written
  | optional p => p.grouped p.written ++ ['?']
  | repeated p => p.grouped p.written ++ ['+']

/-! ### What patterns match -/

/-- A pattern matches a stretch of a text that stands between `before` and `after`. -/
inductive Matches : Pattern → (before stretch after : List Char) → Prop
  | textStart {after} : Matches textStart [] [] after
  | textEnd {before} : Matches textEnd before [] []
  | one {items c before after} (h : allowedBy items c = true) :
      Matches (one items) before [c] after
  | seq {p q before s t after} (hp : Matches p before s (t ++ after))
      (hq : Matches q (before ++ s) t after) : Matches (seq p q) before (s ++ t) after
  | absent {p before after} : Matches (optional p) before [] after
  | present {p before s after} (hp : Matches p before s after) :
      Matches (optional p) before s after
  | once {p before s after} (hp : Matches p before s after) : Matches (repeated p) before s after
  | again {p before s t after} (hp : Matches p before s (t ++ after))
      (hmore : Matches (repeated p) (before ++ s) t after) :
      Matches (repeated p) before (s ++ t) after

/-- A search for the pattern in a text succeeds. -/
def FoundIn (p : Pattern) (text : List Char) : Prop :=
  ∃ before stretch after, before ++ stretch ++ after = text ∧ p.Matches before stretch after

/-! ### The language of a pattern -/

/-- The stretches that a pattern matches where its anchors hold. -/
def language : Pattern → Language Char
  | textStart | textEnd => 1
  | one items => {s | ∃ c, allowedBy items c = true ∧ s = [c]}
  | seq p q => p.language * q.language
  | optional p => 1 + p.language
  | repeated p => p.language * p.language∗

def AnchorFree : Pattern → Prop
  | textStart | textEnd => False
  | one _ => True
  | seq p q => p.AnchorFree ∧ q.AnchorFree
  | optional p | repeated p => p.AnchorFree

variable {p : Pattern} {before s after : List Char}

/-- What a pattern matches, wherever it stands, is in its language. -/
theorem Matches.mem_language (h : p.Matches before s after) : s ∈ p.language := by
  induction h with
  | textStart | textEnd => exact Language.nil_mem_one
  | one h => exact ⟨_, h, rfl⟩
  | seq _ _ ihp ihq => exact Language.append_mem_mul ihp ihq
  | absent => exact Or.inl Language.nil_mem_one
  | present _ ih => exact Or.inr ih
  | @once p _ s _ _ ih =>
    have hnil := Language.append_mem_mul ih (Language.nil_mem_kstar p.language)
    rwa [List.append_nil] at hnil
  -- one more repetition is still in the star
  | @again p _ _ t _ _ _ ihp ihmore =>
    have ht : t ∈ p.language∗ :=
      Set.mem_of_mem_of_subset ihmore (mul_kstar_le_kstar (a := p.language))
    exact Language.append_mem_mul ihp ht

/-- Repetition joins stretches that are matched one after the other. -/
theorem matches_repeated (hp : ∀ before s after, s ∈ p.language → p.Matches before s after)
    {parts : List (List Char)} (hparts : ∀ part ∈ parts, part ∈ p.language)
    (hs : s ∈ p.language) : (repeated p).Matches before (s ++ parts.flatten) after := by
  induction parts generalizing before s with
  | nil =>
    rw [List.flatten_nil, List.append_nil]
    exact .once (hp before s after hs)
  | cons part parts ih =>
    obtain ⟨hpart, hrest⟩ := List.forall_mem_cons.mp hparts
    -- the first of the parts begins where the stretch ends
    exact .again (hp _ _ _ hs) (ih hrest hpart)

/-- Without anchors the surroundings of a text do not count. -/
theorem AnchorFree.matches_of_mem_language (h : p.AnchorFree) :
    ∀ before s after, s ∈ p.language → p.Matches before s after := by
  induction p with
  | textStart | textEnd => exact h.elim
  | one items =>
    rintro before s after ⟨c, hc, rfl⟩
    exact .one hc
  | seq p q ihp ihq =>
    rintro before st after ⟨s, hs, t, ht, rfl⟩
    exact .seq (ihp h.1 _ _ _ hs) (ihq h.2 _ _ _ ht)
  | optional p ih =>
    rintro before s after (rfl | hs)
    · exact .absent
    · exact .present (ih h _ _ _ hs)
  | repeated p ih =>
    rintro before st after ⟨s, hs, t, ht, rfl⟩
    obtain ⟨parts, rfl, hparts⟩ := Language.mem_kstar.mp ht
    exact matches_repeated (ih h) hparts hs

theorem AnchorFree.matches_iff_mem_language (h : p.AnchorFree) :
    p.Matches before s after ↔ s ∈ p.language :=
  ⟨Matches.mem_language, h.matches_of_mem_language before s after⟩

/-! ### Anchored patterns -/

/-- The pattern from the start of a text to its end. -/
def anchored (p : Pattern) : Pattern := seq textStart (seq p textEnd)

/-- Between the two anchors a pattern is found in exactly the texts of its language. -/
theorem AnchorFree.foundIn_anchored_iff (h : p.AnchorFree) {text : List Char} :
    p.anchored.FoundIn text ↔ text ∈ p.language := by
  constructor
  · rintro ⟨before, stretch, after, rfl, hmatch⟩
    cases hmatch with
    | seq hstart hrest =>
      -- each anchor leaves nothing on its side of the stretch
      cases hstart
      cases hrest with
      | seq hp hend =>
        cases hend
        simpa using hp.mem_language
  · intro htext
    have hp : p.Matches [] text [] := h.matches_iff_mem_language.mpr htext
    have hrest : (seq p textEnd).Matches [] (text ++ []) [] := .seq hp .textEnd
    rw [List.append_nil] at hrest
    exact ⟨[], text, [], List.append_nil text, .seq .textStart hrest⟩

/-! ### Classes of characters -/

variable {items : List ClassItem}

theorem mem_language_one : s ∈ (one items).language ↔
    ∃ c, allowedBy items c = true ∧ s = [c] := Iff.rfl

/-- A star of single characters sets nothing but each character. -/
theorem mem_kstar_language_one : s ∈ (one items).language∗ ↔
    ∀ c ∈ s, allowedBy items c = true := by
  rw [Language.mem_kstar]
  constructor
  · rintro ⟨parts, rfl, hparts⟩ c hc
    -- each part is one letter
    obtain ⟨part, hpart, hc⟩ := List.mem_flatten.mp hc
    obtain ⟨d, hd, rfl⟩ := hparts part hpart
    obtain rfl := List.mem_singleton.mp hc
    exact hd
  · intro h
    refine ⟨s.map fun c => [c], (List.flatMap_singleton' s).symm, ?_⟩
    intro part hpart
    obtain ⟨c, hc, rfl⟩ := List.mem_map.mp hpart
    exact ⟨c, h c hc, rfl⟩

theorem language_optional_repeated (p : Pattern) :
    (optional (repeated p)).language = p.language∗ :=
  Language.one_add_self_mul_kstar_eq_kstar p.language

end Pattern

end TrustStore.Text

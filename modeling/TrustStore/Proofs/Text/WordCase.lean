import TrustStore.Proofs.Text.CaseVariants
import TrustStore.Text.WordChar

/-!
# Word characters in lower case

Lower case keeps words words: what a letter becomes is made of word characters exactly if the letter
is one.  The two tables are of different age, though.  Two capitals are too young for the table of
word characters, and have small letters that are in it (`wordlessCapitals`); every other character
becomes characters of its own class (`isWordChar_of_mem_lowerAt`).

The full stop and the hyphen are their own lower case forms, and nothing else becomes one of them
(`isMark_of_mem_lowerAt`).
-/

namespace TrustStore.Text

/-- The capitals that are no word characters, though their small letters are. -/
def wordlessCapitals : List Char := ['\ua7d2', '\ua7d4']

/-- A full stop or a hyphen. -/
def isMark (c : Char) : Bool := c == '.' || c == '-'

theorem isMark_iff {c : Char} : isMark c = true ↔ 0x2D ≤ c.toNat ∧ c.toNat ≤ 0x2E := by
  rw [isMark, Bool.or_eq_true, beq_iff_eq, beq_iff_eq, ← Char.toNat_inj, ← Char.toNat_inj]
  show c.toNat = 0x2E ∨ c.toNat = 0x2D ↔ _
  omega

/-! ### Runs among the word characters -/

/-- A run maps a code point to one of the same class, unless it is that of a wordless capital. -/
def CaseRun.keepsWords (r : CaseRun) : Bool :=
  (wordRanges.covers r.first r.last && wordRanges.covers r.lower (r.lower + (r.last - r.first)))
    || r.points.all fun n =>
      (wordlessCapitals.map Char.toNat).contains n
        || wordRanges.contains (r.lower + (n - r.first)) == wordRanges.contains n

theorem caseRuns_keepWords : (caseRuns.all fun r => r.keepsWords) = true := by
  decide +kernel

/-- No run maps to the hyphen or the full stop, nor has one of them an entry. -/
theorem caseRuns_marks :
    (caseRuns.all fun r => r.avoids 0x2D 0x2E && (r.last.blt 0x2D || Nat.blt 0x2E r.first))
      = true := by
  decide +kernel

/-- Lowering keeps word characters, but for two capitals that the word table leaves out. -/
theorem contains_wordRanges_lowerCode {n : Nat} (h : n ∉ wordlessCapitals.map Char.toNat) :
    wordRanges.contains (lowerCode n) = wordRanges.contains n := by
  rcases lowerCode_cases n with ⟨-, heq⟩ | ⟨r, hr, hm⟩
  · rw [heq]
  · have hkeeps := List.all_eq_true.mp caseRuns_keepWords r hr
    obtain ⟨hfirst, hlast, -, hlower⟩ := CaseRun.lower?_eq_some hm
    rw [CaseRun.keepsWords, Bool.or_eq_true, Bool.and_eq_true] at hkeeps
    rcases hkeeps with ⟨hdomain, himage⟩ | hpoints
    · rw [Ranges.contains_of_covers hdomain hfirst hlast,
        Ranges.contains_of_covers himage (by omega) (by omega)]
    -- a run with gaps is looked up point by point
    · have hn := List.all_eq_true.mp hpoints n (CaseRun.mem_points hm)
      rw [Bool.or_eq_true, List.contains_iff_mem, beq_iff_eq, ← hlower] at hn
      exact hn.resolve_left h

theorem isWordChar_ofNat_lowerCode {c : Char} (h : c ∉ wordlessCapitals) :
    isWordChar (Char.ofNat (lowerCode c.toNat)) = isWordChar c := by
  have hcode : c.toNat ∉ wordlessCapitals.map Char.toNat := by
    intro hmem
    obtain ⟨d, hd, heq⟩ := List.mem_map.mp hmem
    exact h (Char.toNat_inj.mp heq ▸ hd)
  rw [isWordChar, toNat_ofNat_lowerCode, contains_wordRanges_lowerCode hcode, isWordChar]

/-- Lowering neither makes a mark nor takes one away. -/
theorem isMark_ofNat_lowerCode (c : Char) :
    isMark (Char.ofNat (lowerCode c.toNat)) = isMark c := by
  rw [Bool.eq_iff_iff, isMark_iff, isMark_iff, toNat_ofNat_lowerCode]
  rcases lowerCode_cases c.toNat with ⟨-, heq⟩ | ⟨r, hr, hm⟩
  · rw [heq]
  · have h := List.all_eq_true.mp caseRuns_marks r hr
    rw [Bool.and_eq_true, Bool.or_eq_true, Nat.blt_eq, Nat.blt_eq] at h
    have himage := CaseRun.not_mem_of_avoids h.1 hm
    obtain ⟨hfirst, hlast, -, -⟩ := CaseRun.lower?_eq_some hm
    omega

/-! ### Characters in their place -/

section

variable {before rest : List Char} {c d : Char}

/-- What a letter becomes is of the same class as the letter. -/
theorem isWordChar_of_mem_lowerAt (hc : c ∉ wordlessCapitals) (h : d ∈ lowerAt before c rest) :
    isWordChar d = isWordChar c := by
  rcases lowerAt_cases h with ⟨rfl, rfl | rfl⟩ | ⟨rfl, rfl | rfl⟩ | ⟨-, rfl⟩
  case inr.inr => exact isWordChar_ofNat_lowerCode hc
  all_goals decide +kernel

theorem isMark_of_mem_lowerAt (h : d ∈ lowerAt before c rest) : isMark d = isMark c := by
  rcases lowerAt_cases h with ⟨rfl, rfl | rfl⟩ | ⟨rfl, rfl | rfl⟩ | ⟨-, rfl⟩
  case inr.inr => exact isMark_ofNat_lowerCode c
  all_goals rfl

end

end TrustStore.Text

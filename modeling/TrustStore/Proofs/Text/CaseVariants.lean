import Mathlib.Data.List.Forall2
import TrustStore.Proofs.Text.Lowercase

/-!
# Letter case variants

Two texts are variants of each other if their characters have the same lower case forms one by one.
The lower case forms of the texts are the same then, except for one thing: where a word ends, a
capital sigma becomes the final form, and a small one stays as it is (`lowercase_eq_iff`).

Letters and their lower case forms are cased and not ignored, so variants agree about where words
end; that is read off the table once (`caseRuns_cased`, `caseRuns_notIgnorable`).
-/

namespace TrustStore.Text

/-! ### Runs among the ranges -/

/-- The code points that a run maps. -/
def CaseRun.points (r : CaseRun) : List Nat :=
  List.range' r.first ((r.last - r.first) / r.step + 1) r.step

theorem CaseRun.mem_points {r : CaseRun} {n m : Nat} (h : r.lower? n = some m) :
    n ∈ r.points := by
  obtain ⟨hfirst, hlast, hstep, -⟩ := lower?_eq_some h
  have hmul : r.step * ((n - r.first) / r.step) = n - r.first :=
    Nat.mul_div_cancel' (Nat.dvd_of_mod_eq_zero hstep)
  rw [points, List.mem_range']
  refine ⟨(n - r.first) / r.step, Nat.lt_succ_of_le (Nat.div_le_div_right (by omega)), ?_⟩
  omega

/-- Runs map cased letters to cased letters; one of them leaves out the code points between. -/
theorem caseRuns_cased :
    (caseRuns.all fun r =>
      (casedRanges.covers r.first r.last || r.points.all casedRanges.contains) &&
        casedRanges.covers r.lower (r.lower + (r.last - r.first))) = true := by
  decide +kernel

theorem caseRuns_notIgnorable :
    (caseRuns.all fun r => caseIgnorableRanges.misses r.first r.last &&
      caseIgnorableRanges.misses r.lower (r.lower + (r.last - r.first))) = true := by
  decide +kernel

/-- Lowering does not change whether a character is cased. -/
theorem contains_casedRanges_lowerCode (n : Nat) :
    casedRanges.contains (lowerCode n) = casedRanges.contains n := by
  rcases lowerCode_cases n with ⟨-, heq⟩ | ⟨r, hr, hm⟩
  · rw [heq]
  · have h := List.all_eq_true.mp caseRuns_cased r hr
    rw [Bool.and_eq_true, Bool.or_eq_true] at h
    obtain ⟨hfirst, hlast, -, hlower⟩ := CaseRun.lower?_eq_some hm
    have himage := Ranges.contains_of_covers (n := lowerCode n) h.2 (by omega) (by omega)
    rw [himage]
    -- a run with gaps is looked up point by point
    rcases h.1 with hcovers | hpoints
    · exact (Ranges.contains_of_covers hcovers hfirst hlast).symm
    · exact (List.all_eq_true.mp hpoints n (CaseRun.mem_points hm)).symm

/-- A character that has a lower form is not ignored, and neither is the form. -/
theorem contains_caseIgnorableRanges_lowerCode (n : Nat) :
    caseIgnorableRanges.contains (lowerCode n) = caseIgnorableRanges.contains n := by
  rcases lowerCode_cases n with ⟨-, heq⟩ | ⟨r, hr, hm⟩
  · rw [heq]
  · have h := List.all_eq_true.mp caseRuns_notIgnorable r hr
    rw [Bool.and_eq_true] at h
    obtain ⟨hfirst, hlast, -, hlower⟩ := CaseRun.lower?_eq_some hm
    rw [Ranges.contains_of_misses (n := lowerCode n) h.2 (by omega) (by omega),
      Ranges.contains_of_misses h.1 hfirst hlast]

/-! ### Variants -/

/-- Characters that lower case does not tell apart when they stand alone. -/
def SameLetter (c d : Char) : Prop := lowerChar c = lowerChar d

instance (c d : Char) : Decidable (SameLetter c d) :=
  inferInstanceAs (Decidable (lowerChar c = lowerChar d))

/-- Texts of the same letters, each in either case. -/
abbrev CaseVariants : List Char → List Char → Prop := List.Forall₂ SameLetter

/-- Alone, a capital sigma is lowered to the medial form. -/
theorem lowerChar_sigma : lowerChar 'Σ' = ['σ'] := by
  decide +kernel

/-- Only the table decides about variants that differ. -/
theorem SameLetter.lowerCode_eq {c d : Char} (h : SameLetter c d) (hne : c ≠ d) :
    lowerCode c.toNat = lowerCode d.toNat := by
  unfold SameLetter lowerChar at h
  -- the one letter with two lower case characters is a variant of itself only
  split at h
  · rename_i hc
    split at h
    · rename_i hd
      exact absurd (hc.trans hd.symm) hne
    · exact absurd (congrArg List.length h) (by simp)
  · split at h
    · exact absurd (congrArg List.length h) (by simp)
    · have hchar := congrArg Char.toNat (List.singleton_inj.mp h)
      rwa [toNat_ofNat_lowerCode, toNat_ofNat_lowerCode] at hchar

theorem SameLetter.isCased_eq {c d : Char} (h : SameLetter c d) : isCased c = isCased d := by
  rcases eq_or_ne c d with rfl | hne
  · rfl
  · rw [isCased, isCased, ← contains_casedRanges_lowerCode c.toNat, h.lowerCode_eq hne,
      contains_casedRanges_lowerCode]

theorem SameLetter.isCaseIgnorable_eq {c d : Char} (h : SameLetter c d) :
    isCaseIgnorable c = isCaseIgnorable d := by
  rcases eq_or_ne c d with rfl | hne
  · rfl
  · rw [isCaseIgnorable, isCaseIgnorable, ← contains_caseIgnorableRanges_lowerCode c.toNat,
      h.lowerCode_eq hne, contains_caseIgnorableRanges_lowerCode]

/-- Variants agree about the letter that comes next. -/
theorem CaseVariants.casedAhead_eq {s t : List Char} (h : CaseVariants s t) :
    casedAhead s = casedAhead t := by
  induction h with
  | nil => rfl
  | @cons c d s t hletter _ ih =>
    have hignorable := hletter.isCaseIgnorable_eq
    unfold casedAhead at ih ⊢
    rw [List.dropWhile_cons, List.dropWhile_cons, ← hignorable]
    -- the same letters are skipped on both sides, and the first that is not decides alike
    split
    · exact ih
    · exact hletter.isCased_eq

/-! ### Where they differ -/

/-- A word ends at the index: a cased letter stands before it, and none after it.  `before` is what
precedes the text, nearest character first. -/
def endsWord (before s : List Char) (i : Nat) : Bool :=
  casedAhead ((s.take i).reverse ++ before) && !casedAhead (s.drop (i + 1))

theorem endsWord_cons (before s : List Char) (c : Char) (i : Nat) :
    endsWord before (c :: s) (i + 1) = endsWord (c :: before) s i := by
  simp [endsWord]

theorem length_lowerAt (before : List Char) (c : Char) (rest : List Char) :
    (lowerAt before c rest).length = (lowerChar c).length := by
  rcases eq_or_ne c 'Σ' with rfl | hc
  · rw [lowerAt, if_pos rfl, lowerChar_sigma]
    rfl
  · rw [lowerAt, if_neg hc]

/-- A variant becomes the same where it stands, unless it is a sigma at the end of a word. -/
theorem lowerAt_eq_iff {before before' rest rest' : List Char} {c d : Char} (h : SameLetter c d)
    (hbefore : CaseVariants before before') (hrest : CaseVariants rest rest') :
    lowerAt before c rest = lowerAt before' d rest' ↔
      ((casedAhead before && !casedAhead rest) = true → (c = 'Σ' ↔ d = 'Σ')) := by
  unfold lowerAt
  rw [← hbefore.casedAhead_eq, ← hrest.casedAhead_eq]
  have hsigma : ('ς' : Char) ≠ 'σ' := by decide
  rcases eq_or_ne c 'Σ' with rfl | hc
  · rcases eq_or_ne d 'Σ' with rfl | hd
    · simp
    -- the other one is the small sigma, which is left alone
    · have hlower : lowerChar d = ['σ'] := h.symm.trans lowerChar_sigma
      rcases casedAhead before && !casedAhead rest with - | - <;> simp [hd, hlower, hsigma]
  · rcases eq_or_ne d 'Σ' with rfl | hd
    · have hlower : lowerChar c = ['σ'] := h.trans lowerChar_sigma
      rcases casedAhead before && !casedAhead rest with - | - <;> simp [hc, hlower, hsigma.symm]
    · simp [hc, hd, show lowerChar c = lowerChar d from h]

/-- The induction is on the texts, and what precedes them grows by a letter with each step. -/
theorem lowerAfter_eq_iff {before before' s t : List Char} (hbefore : CaseVariants before before')
    (h : CaseVariants s t) :
    lowerAfter before s = lowerAfter before' t ↔
      ∀ i, endsWord before s i = true → (s[i]? = some 'Σ' ↔ t[i]? = some 'Σ') := by
  induction h generalizing before before' with
  | nil => simp [lowerAfter]
  | @cons c d s t hletter hrest ih =>
    have hlength : (lowerAt before c s).length = (lowerAt before' d t).length := by
      rw [length_lowerAt, length_lowerAt, show lowerChar c = lowerChar d from hletter]
    have hfirst := lowerAt_eq_iff hletter hbefore hrest
    have hlater := ih (hbefore.cons hletter)
    -- the first letter is at index zero, the later ones at the successors
    rw [lowerAfter_cons, lowerAfter_cons, ← Nat.and_forall_add_one]
    simp only [endsWord_cons, List.getElem?_cons_succ, List.getElem?_cons_zero,
      Option.some.injEq]
    rw [← hlater, show endsWord before (c :: s) 0 = (casedAhead before && !casedAhead s) from rfl,
      ← hfirst]
    constructor
    · intro happend
      exact List.append_inj happend hlength
    · rintro ⟨hat, hafter⟩
      rw [hat, hafter]

/-- Variants have the same lower case form exactly if they have the same capital sigmas among the
letters that end a word. -/
theorem lowercase_eq_iff {s t : List Char} (h : CaseVariants s t) :
    lowercase s = lowercase t ↔
      ∀ i, endsWord [] s i = true → (s[i]? = some 'Σ' ↔ t[i]? = some 'Σ') :=
  lowerAfter_eq_iff .nil h

end TrustStore.Text

import TrustStore.Proofs.Text.Ranges
import TrustStore.Text.Blank
import TrustStore.Text.Lowercase

/-!
# Lower case is stable

A text in lower case is its own lower case form, and the lower case form of a trimmed text is
trimmed.  Both come from one look at the table: what a run of the table maps to lies outside every
run, outside the two characters that the table leaves to `lowercase` itself, and outside the blank
characters (`CaseRun.avoids`, `CaseRun.apart`).  The context of a sigma plays no part, since either
form of the small letter is settled.

Main results: `lowercase_lowercase`, `trim_lowercase`.
-/

namespace TrustStore.Text

/-! ### Runs -/

namespace CaseRun

/-- The code points that the run maps to lie outside a range. -/
def avoids (r : CaseRun) (lo hi : Nat) : Bool :=
  (r.lower + (r.last - r.first)).blt lo || hi.blt r.lower

/-- The code points that the run maps to lie outside another run.  Within the range of a run that
takes every second code point they are the ones between. -/
def apart (r s : CaseRun) : Bool :=
  r.avoids s.first s.last ||
    (s.step == 2 && (r.step == 2 || r.first == r.last) && (r.lower + s.first) % 2 == 1)

theorem lower?_eq_some {r : CaseRun} {n m : Nat} (h : r.lower? n = some m) :
    r.first ≤ n ∧ n ≤ r.last ∧ (n - r.first) % r.step = 0 ∧ m = r.lower + (n - r.first) := by
  unfold lower? at h
  split at h
  · rename_i hn
    exact ⟨hn.1, hn.2.1, hn.2.2, (Option.some.inj h).symm⟩
  · cases h

theorem not_mem_of_avoids {r : CaseRun} {lo hi n m : Nat} (havoids : r.avoids lo hi = true)
    (h : r.lower? n = some m) : ¬ (lo ≤ m ∧ m ≤ hi) := by
  obtain ⟨hfirst, hlast, -, rfl⟩ := lower?_eq_some h
  simp only [avoids, Bool.or_eq_true, Nat.blt_eq] at havoids
  omega

/-- What a run lowers to is in no run that is apart from it. -/
theorem lower?_eq_none_of_apart {r s : CaseRun} {n m : Nat} (hapart : r.apart s = true)
    (h : r.lower? n = some m) : s.lower? m = none := by
  rcases hs : s.lower? m with - | k
  · rfl
  · exfalso
    obtain ⟨hfirst, hlast, hstep, -⟩ := lower?_eq_some hs
    -- runs that step by two may overlap when their parities differ
    rcases Bool.or_eq_true_iff.mp hapart with havoids | hparity
    · exact not_mem_of_avoids havoids h ⟨hfirst, hlast⟩
    · obtain ⟨hfirst', hlast', hstep', rfl⟩ := lower?_eq_some h
      simp only [Bool.and_eq_true, Bool.or_eq_true, beq_iff_eq] at hparity
      obtain ⟨⟨htwo, htwo' | hone⟩, hodd⟩ := hparity
      · rw [htwo] at hstep
        rw [htwo'] at hstep'
        omega
      · rw [htwo] at hstep
        omega

end CaseRun

/-! ### The table -/

theorem caseRuns_apart : (caseRuns.all fun r => caseRuns.all r.apart) = true := by
  decide +kernel

/-- No run maps to a surrogate, nor beyond the last code point. -/
theorem caseRuns_scalar :
    (caseRuns.all fun r =>
      r.avoids 0xD800 0xDFFF && (r.lower + (r.last - r.first)).blt 0x110000) = true := by
  decide +kernel

/-- No run maps to one of the two characters that need more than the table. -/
theorem caseRuns_special :
    (caseRuns.all fun r => r.avoids 0x130 0x130 && r.avoids 0x3A3 0x3A3) = true := by
  decide +kernel

theorem caseRuns_blank :
    (caseRuns.all fun r => blankRanges.all fun b => r.avoids b.1 b.2) = true := by
  decide +kernel

/-- A code point has no entry in the table, or a run maps it. -/
theorem lowerCode_cases (n : Nat) :
    ((∀ r ∈ caseRuns, r.lower? n = none) ∧ lowerCode n = n) ∨
      ∃ r ∈ caseRuns, r.lower? n = some (lowerCode n) := by
  rcases h : caseRuns.findSome? (·.lower? n) with - | m
  · exact Or.inl ⟨List.findSome?_eq_none_iff.mp h, by simp [lowerCode, h]⟩
  · obtain ⟨r, hr, hm⟩ := List.exists_of_findSome?_eq_some h
    exact Or.inr ⟨r, hr, by simpa [lowerCode, h] using hm⟩

/-- A lowered code has no lower form of its own. -/
theorem lowerCode_lowerCode (n : Nat) : lowerCode (lowerCode n) = lowerCode n := by
  rcases lowerCode_cases n with ⟨-, heq⟩ | ⟨r, hr, hm⟩
  · rw [heq]
    exact heq
  · have hnone : ∀ s ∈ caseRuns, s.lower? (lowerCode n) = none := fun s hs =>
      CaseRun.lower?_eq_none_of_apart
        (List.all_eq_true.mp (List.all_eq_true.mp caseRuns_apart r hr) s hs) hm
    show (caseRuns.findSome? (·.lower? (lowerCode n))).getD (lowerCode n) = lowerCode n
    rw [List.findSome?_eq_none_iff.mpr hnone]
    rfl

/-- A lowered code is a scalar value. -/
theorem lowerCode_isValidChar (c : Char) : (lowerCode c.toNat).isValidChar := by
  rcases lowerCode_cases c.toNat with ⟨-, heq⟩ | ⟨r, hr, hm⟩
  · rw [heq]
    exact c.valid
  · have h := List.all_eq_true.mp caseRuns_scalar r hr
    rw [Bool.and_eq_true, Nat.blt_eq] at h
    -- no run leads into the surrogates or past the last code
    have hsurrogate := CaseRun.not_mem_of_avoids h.1 hm
    obtain ⟨-, hlast, -, heq⟩ := CaseRun.lower?_eq_some hm
    rw [Nat.isValidChar]
    omega

theorem toNat_ofNat_lowerCode (c : Char) :
    (Char.ofNat (lowerCode c.toNat)).toNat = lowerCode c.toNat := by
  rw [Char.ofNat, dif_pos (lowerCode_isValidChar c)]
  rfl

/-! ### Characters -/

/-- A character that lower case leaves alone, wherever it stands. -/
def IsLower (c : Char) : Prop := c ≠ 'Σ' ∧ lowerChar c = [c]

theorem isLower_ofNat_lowerCode {c : Char} (hi : c ≠ '\u0130') (hs : c ≠ 'Σ') :
    IsLower (Char.ofNat (lowerCode c.toNat)) := by
  have hnat := toNat_ofNat_lowerCode c
  -- a character without an entry is neither of the two by assumption, an image by the table
  have hspecial : lowerCode c.toNat ≠ 0x130 ∧ lowerCode c.toNat ≠ 0x3A3 := by
    rcases lowerCode_cases c.toNat with ⟨-, heq⟩ | ⟨r, hr, hm⟩
    · rw [heq]
      exact ⟨fun h => hi (Char.toNat_inj.mp h), fun h => hs (Char.toNat_inj.mp h)⟩
    · have h := List.all_eq_true.mp caseRuns_special r hr
      rw [Bool.and_eq_true] at h
      have hdot := CaseRun.not_mem_of_avoids h.1 hm
      have hsigma := CaseRun.not_mem_of_avoids h.2 hm
      omega
  refine ⟨fun h => hspecial.2 ?_, ?_⟩
  · rw [← hnat, h]
    rfl
  · have hne : Char.ofNat (lowerCode c.toNat) ≠ '\u0130' := by
      intro h
      exact hspecial.1 (by rw [← hnat, h]; rfl)
    rw [lowerChar, if_neg hne, hnat, lowerCode_lowerCode]

theorem lowerChar_ne_nil (c : Char) : lowerChar c ≠ [] := by
  unfold lowerChar
  split <;> exact List.cons_ne_nil _ _

/-- What is not blank is not blank when lowered. -/
theorem isBlank_ofNat_lowerCode {c : Char} (hc : isBlank c = false) :
    isBlank (Char.ofNat (lowerCode c.toNat)) = false := by
  rw [isBlank, toNat_ofNat_lowerCode]
  rcases lowerCode_cases c.toNat with ⟨-, heq⟩ | ⟨r, hr, hm⟩
  · rw [heq]
    exact hc
  · refine Bool.eq_false_iff.mpr fun hblank => ?_
    obtain ⟨b, hb, hin⟩ := Ranges.exists_of_contains hblank
    have h := List.all_eq_true.mp (List.all_eq_true.mp caseRuns_blank r hr) b hb
    exact CaseRun.not_mem_of_avoids h hm hin

/-! ### Characters in their place -/

/-- What a letter becomes where it stands. -/
def lowerAt (before : List Char) (c : Char) (rest : List Char) : List Char :=
  if c = 'Σ' then [if casedAhead before && !casedAhead rest then 'ς' else 'σ'] else lowerChar c

theorem lowerAfter_cons (before : List Char) (c : Char) (rest : List Char) :
    lowerAfter before (c :: rest) = lowerAt before c rest ++ lowerAfter (c :: before) rest := rfl

/-- A capital sigma has two lower case forms. -/
theorem lowerAt_sigma (before rest : List Char) :
    lowerAt before 'Σ' rest = ['ς'] ∨ lowerAt before 'Σ' rest = ['σ'] := by
  rw [lowerAt, if_pos rfl]
  split
  · exact Or.inl rfl
  · exact Or.inr rfl

theorem lowerAt_ne_nil (before : List Char) (c : Char) (rest : List Char) :
    lowerAt before c rest ≠ [] := by
  unfold lowerAt
  split
  · exact List.cons_ne_nil _ _
  · exact lowerChar_ne_nil c

section

variable {before rest s : List Char} {c d : Char}

/-- The forms of the two letters that need more than the table, and the form of any other. -/
theorem lowerAt_cases (h : d ∈ lowerAt before c rest) :
    c = 'Σ' ∧ (d = 'ς' ∨ d = 'σ') ∨ c = '\u0130' ∧ (d = 'i' ∨ d = '\u0307') ∨
      (c ≠ 'Σ' ∧ c ≠ '\u0130') ∧ d = Char.ofNat (lowerCode c.toNat) := by
  by_cases hs : c = 'Σ'
  · left
    refine ⟨hs, ?_⟩
    subst hs
    rcases lowerAt_sigma before rest with heq | heq
    · rw [heq] at h
      exact .inl (List.mem_singleton.mp h)
    · rw [heq] at h
      exact .inr (List.mem_singleton.mp h)
  · right
    rw [lowerAt, if_neg hs, lowerChar] at h
    split at h
    · rename_i hdotted
      exact .inl ⟨hdotted, (List.mem_cons.mp h).imp_right List.mem_singleton.mp⟩
    · rename_i hdotted
      exact .inr ⟨⟨hs, hdotted⟩, List.mem_singleton.mp h⟩

theorem isLower_of_mem_lowerAt (h : d ∈ lowerAt before c rest) : IsLower d := by
  rcases lowerAt_cases h with ⟨-, rfl | rfl⟩ | ⟨-, rfl | rfl⟩ | ⟨⟨hs, hi⟩, rfl⟩
  case inr.inr => exact isLower_ofNat_lowerCode hi hs
  all_goals exact ⟨by decide, by decide⟩

theorem isBlank_of_mem_lowerAt (hc : isBlank c = false) (h : d ∈ lowerAt before c rest) :
    isBlank d = false := by
  rcases lowerAt_cases h with ⟨-, rfl | rfl⟩ | ⟨-, rfl | rfl⟩ | ⟨-, rfl⟩
  case inr.inr => exact isBlank_ofNat_lowerCode hc
  all_goals decide

/-! ### Letters of a text -/

/-- Each character of a text in lower case comes from a letter of the text. -/
theorem exists_of_mem_lowerAfter (h : d ∈ lowerAfter before s) :
    ∃ c ∈ s, ∃ before rest, d ∈ lowerAt before c rest := by
  induction s generalizing before with
  | nil => cases h
  | cons c rest ih =>
    rw [lowerAfter_cons] at h
    rcases List.mem_append.mp h with h | h
    · exact ⟨c, List.mem_cons_self, before, rest, h⟩
    · obtain ⟨c', hc', hat⟩ := ih h
      exact ⟨c', List.mem_cons_of_mem c hc', hat⟩

/-- Each letter of a text becomes something. -/
theorem exists_mem_lowerAfter (h : c ∈ s) :
    ∃ d ∈ lowerAfter before s, ∃ before rest, d ∈ lowerAt before c rest := by
  induction s generalizing before with
  | nil => cases h
  | cons c' rest ih =>
    rw [lowerAfter_cons]
    rcases List.mem_cons.mp h with rfl | h
    · obtain ⟨d, hd⟩ := List.exists_mem_of_ne_nil _ (lowerAt_ne_nil before c rest)
      exact ⟨d, List.mem_append_left _ hd, before, rest, hd⟩
    · obtain ⟨d, hd, hat⟩ := @ih (c' :: before) h
      exact ⟨d, List.mem_append_right _ hd, hat⟩

theorem exists_head?_lowerAfter (before : List Char) (c : Char) (rest : List Char) :
    ∃ d ∈ (lowerAfter before (c :: rest)).head?, d ∈ lowerAt before c rest := by
  rcases hat : lowerAt before c rest with - | ⟨d, tail⟩
  · exact absurd hat (lowerAt_ne_nil before c rest)
  · refine ⟨d, ?_, List.mem_cons_self⟩
    rw [lowerAfter_cons, hat]
    rfl

/-- The last character of a text in lower case comes from the last letter. -/
theorem exists_getLast?_lowerAfter (h : c ∈ s.getLast?) :
    ∃ d ∈ (lowerAfter before s).getLast?, ∃ before, d ∈ lowerAt before c [] := by
  obtain ⟨s, rfl⟩ := List.getLast?_eq_some_iff.mp h
  -- by induction on what stands before the last character
  clear h
  induction s generalizing before with
  | nil =>
    rw [List.nil_append, lowerAfter_cons, lowerAfter, List.append_nil]
    have hne := lowerAt_ne_nil before c []
    exact ⟨_, List.getLast?_eq_some_getLast hne, before, List.getLast_mem hne⟩
  | cons c' s ih =>
    obtain ⟨d, hd, hat⟩ := @ih (c' :: before)
    refine ⟨d, ?_, hat⟩
    rw [List.cons_append, lowerAfter_cons, List.getLast?_append, Option.mem_def.mp hd]
    rfl

theorem isLower_of_mem_lowerAfter (h : d ∈ lowerAfter before s) : IsLower d := by
  obtain ⟨c, -, before', rest, hat⟩ := exists_of_mem_lowerAfter h
  exact isLower_of_mem_lowerAt hat

end

/-- A lowered text is left as it is. -/
theorem lowerAfter_of_isLower {s : List Char} (h : ∀ c ∈ s, IsLower c) (before : List Char) :
    lowerAfter before s = s := by
  induction s generalizing before with
  | nil => rfl
  | cons c rest ih =>
    obtain ⟨hs, hc⟩ := h c List.mem_cons_self
    have hrest := ih (fun d hd => h d (List.mem_cons_of_mem c hd)) (c :: before)
    rw [lowerAfter_cons, lowerAt, if_neg hs, hc, hrest]
    rfl

theorem lowerAfter_eq_nil {before s : List Char} : lowerAfter before s = [] ↔ s = [] := by
  rcases s with - | ⟨c, rest⟩
  · exact Iff.rfl
  · rw [lowerAfter_cons]
    simp [lowerAt_ne_nil]

/-- A text in lower case is its own lower case form. -/
theorem lowercase_lowercase (s : List Char) : lowercase (lowercase s) = lowercase s :=
  lowerAfter_of_isLower (fun _ hc => isLower_of_mem_lowerAfter hc) []

/-! ### Trimmed texts -/

/-- Neither end of the text is blank. -/
structure Trimmed (s : List Char) : Prop where
  head : ∀ c ∈ s.head?, isBlank c = false
  last : ∀ c ∈ s.getLast?, isBlank c = false

theorem Trimmed.dropWhile_isBlank {s : List Char} (h : Trimmed s) : s.dropWhile isBlank = s := by
  rcases s with - | ⟨c, rest⟩
  · rfl
  · have hc := h.head c rfl
    rw [List.dropWhile_cons_of_neg (by simp [hc])]

theorem Trimmed.reverse {s : List Char} (h : Trimmed s) : Trimmed s.reverse where
  head := by
    intro c hc
    rw [List.head?_reverse] at hc
    exact h.last c hc
  last := by
    intro c hc
    rw [List.getLast?_reverse] at hc
    exact h.head c hc

theorem Trimmed.trim {s : List Char} (h : Trimmed s) : trim s = s := by
  rw [Text.trim, trimStart, trimEnd, h.dropWhile_isBlank, h.reverse.dropWhile_isBlank,
    List.reverse_reverse]

theorem head_dropWhile_isBlank {s : List Char} {c : Char}
    (h : c ∈ (s.dropWhile isBlank).head?) : isBlank c = false := by
  have hnot := List.head?_dropWhile_not isBlank s
  rw [Option.mem_def.mp h] at hnot
  exact hnot

theorem trimEnd_isPrefix (s : List Char) : trimEnd s <+: s := by
  obtain ⟨t, ht⟩ := List.dropWhile_suffix (l := s.reverse) isBlank
  exact ⟨t.reverse, by rw [trimEnd, ← List.reverse_append, ht, List.reverse_reverse]⟩

theorem trimEnd_cons {c : Char} (h : isBlank c = false) (s : List Char) :
    trimEnd (c :: s) = c :: trimEnd s := by
  rw [trimEnd, List.reverse_cons, List.dropWhile_append,
    List.dropWhile_cons_of_neg (by simp [h])]
  split
  · rename_i hempty
    rw [trimEnd, List.isEmpty_iff.mp hempty]
    rfl
  · rw [List.reverse_append]
    rfl

/-- What begins with a character that is not blank is trimmed at its end only. -/
theorem trim_cons {c : Char} (h : isBlank c = false) (s : List Char) :
    trim (c :: s) = c :: trimEnd s := by
  rw [trim, trimStart, List.dropWhile_cons_of_neg (by simp [h]), trimEnd_cons h]

/-- Just the blanks at the end are cut off. -/
theorem trimEnd_eq_iff {s t : List Char} (ht : ∀ c ∈ t.getLast?, isBlank c = false) :
    trimEnd s = t ↔ ∃ blanks : List Char, s = t ++ blanks ∧ ∀ c ∈ blanks, isBlank c = true := by
  constructor
  · rintro rfl
    refine ⟨(s.reverse.takeWhile isBlank).reverse, ?_, ?_⟩
    · rw [trimEnd, ← List.reverse_append, List.takeWhile_append_dropWhile, List.reverse_reverse]
    · intro c hc
      exact List.all_eq_true.mp List.all_takeWhile c (List.mem_reverse.mp hc)
  · rintro ⟨blanks, rfl, hblanks⟩
    -- seen from the end, what is kept starts with its own last letter
    have hlast : t.reverse.dropWhile isBlank = t.reverse := by
      rcases ht' : t.reverse with - | ⟨c, rest⟩
      · rfl
      · have hc := ht c (by rw [← List.head?_reverse, ht']; rfl)
        rw [List.dropWhile_cons_of_neg (by simp [hc])]
    rw [trimEnd, List.reverse_append,
      List.dropWhile_append_of_pos fun c hc => hblanks c (List.mem_reverse.mp hc), hlast,
      List.reverse_reverse]

/-- Trimming leaves no blank at either end. -/
theorem trimmed_trim (s : List Char) : Trimmed (trim s) where
  head := by
    intro c hc
    obtain ⟨rest, hrest⟩ := List.head?_eq_some_iff.mp hc
    obtain ⟨t, ht⟩ := trimEnd_isPrefix (trimStart s)
    refine head_dropWhile_isBlank (s := s) ?_
    -- what is cut off at the end does not change where the text starts
    have heq : s.dropWhile isBlank = c :: (rest ++ t) := by
      show trimStart s = _
      rw [← ht, show trimEnd (trimStart s) = c :: rest from hrest]
      rfl
    rw [heq]
    rfl
  last := by
    intro c hc
    rw [trim, trimEnd, List.getLast?_reverse] at hc
    exact head_dropWhile_isBlank hc

/-! Lower case leaves no letter out and makes none blank, so the ends of a trimmed text stay as they
are. -/

/-- Lowering letters bares no blank at either end. -/
theorem Trimmed.lowercase {s : List Char} (h : Trimmed s) : Trimmed (lowercase s) where
  head := by
    intro d hd
    rcases s with - | ⟨c, rest⟩
    · cases hd
    · obtain ⟨d', hd', hat⟩ := exists_head?_lowerAfter [] c rest
      obtain rfl := Option.mem_unique hd hd'
      exact isBlank_of_mem_lowerAt (h.head c rfl) hat
  last := by
    intro d hd
    rcases hs : s.getLast? with - | c
    · rw [List.getLast?_eq_none_iff.mp hs] at hd
      cases hd
    · obtain ⟨d', hd', before, hat⟩ := @exists_getLast?_lowerAfter [] s c hs
      obtain rfl := Option.mem_unique hd hd'
      exact isBlank_of_mem_lowerAt (h.last c hs) hat

/-- The lower case form of a trimmed text is trimmed. -/
theorem trim_lowercase (s : List Char) : trim (lowercase (trim s)) = lowercase (trim s) :=
  (trimmed_trim s).lowercase.trim

end TrustStore.Text

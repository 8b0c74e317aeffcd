import TrustStore.Entry.Acceptance
import TrustStore.Proofs.Text.Lowercase

/-!
# Entry names

`IsNormal` is the form of a name that entries are kept under: valid, and its own normal form.  A
checked name has it (`checkedName_eq_ok_iff`), so checking it again changes nothing.  Such a name
has no slash, no zero and no full stop at its front: it can be a key, and it is the name of a file
that is not hidden.
-/

namespace TrustStore.Entry

/-! ### Normal forms -/

theorem toList_normalizeName (name : String) :
    (normalizeName name).toList = Text.lowercase name.toList := by
  rw [normalizeName, String.toList_ofList]

theorem normalizeName_normalizeName (name : String) :
    normalizeName (normalizeName name) = normalizeName name := by
  rw [normalizeName, toList_normalizeName, Text.lowercase_lowercase, ← toList_normalizeName,
    String.ofList_toList]

structure IsNormal (name : String) : Prop where
  normal : normalizeName name = name
  valid : isValidName name = true

/-! ### Valid names -/

/-- A full stop or a hyphen may be in a name, but not at its ends. -/
theorem isNameChar_iff {c : Char} :
    isNameChar c = true ↔ Text.isWordChar c = true ∨ c = '.' ∨ c = '-' := by
  simp [isNameChar, or_assoc]

theorem isNameChar_of_isWordChar {c : Char} (h : Text.isWordChar c = true) :
    isNameChar c = true :=
  isNameChar_iff.mpr (Or.inl h)

/-- The first character, all characters and the last one. -/
theorem isValidNameText_iff {s : List Char} : isValidNameText s = true ↔
    (∃ c ∈ s.head?, Text.isWordChar c = true) ∧ (∀ c ∈ s, isNameChar c = true) ∧
      ∃ c ∈ s.getLast?, Text.isWordChar c = true := by
  rcases s with - | ⟨c, rest⟩
  · simp [isValidNameText]
  · simp only [isValidNameText, Bool.and_eq_true, List.all_eq_true, Option.any_eq_true]
    constructor
    -- a word character is a character of names as well
    · rintro ⟨⟨hc, hrest⟩, hlast⟩
      refine ⟨⟨c, rfl, hc⟩, ?_, hlast⟩
      intro d hd
      rcases List.mem_cons.mp hd with rfl | hd
      · exact isNameChar_of_isWordChar hc
      · exact hrest d hd
    · rintro ⟨⟨d, hd, hc⟩, hall, hlast⟩
      obtain rfl := Option.some.inj hd
      exact ⟨⟨hc, fun d hd => hall d (List.mem_cons_of_mem c hd)⟩, hlast⟩

theorem isNameChar_of_mem {name : String} (h : isValidName name = true) {c : Char}
    (hc : c ∈ name.toList) : isNameChar c = true :=
  (isValidNameText_iff.mp h).2.1 c hc

theorem ne_empty_of_isValidName {name : String} (h : isValidName name = true) : name ≠ "" := by
  rintro rfl
  cases h

theorem slash_not_mem_of_isValidName {name : String} (h : isValidName name = true) :
    '/' ∉ name.toList := by
  intro hc
  have hslash := isNameChar_of_mem h hc
  revert hslash
  decide

theorem nul_not_mem_of_isValidName {name : String} (h : isValidName name = true) :
    '\x00' ∉ name.toList := by
  intro hc
  have hnul := isNameChar_of_mem h hc
  revert hnul
  decide

/-- A valid name does not begin with a full stop. -/
theorem head?_ne_dot_of_isValidName {name : String} (h : isValidName name = true) :
    name.toList.head? ≠ some '.' := by
  obtain ⟨c, hc, hword⟩ := (isValidNameText_iff.mp h).1
  intro hdot
  obtain rfl := Option.some.inj (hdot.symm.trans hc)
  revert hword
  decide

theorem getLast?_ne_dot_of_isValidName {name : String} (h : isValidName name = true) :
    name.toList.getLast? ≠ some '.' := by
  obtain ⟨c, hc, hword⟩ := (isValidNameText_iff.mp h).2.2
  intro hdot
  obtain rfl := Option.some.inj (hdot.symm.trans hc)
  revert hword
  decide

/-- A valid name is not one of the two steps that stay or go up in a path. -/
theorem ne_here_of_isValidName {name : String} (h : isValidName name = true) : name ≠ "." := by
  rintro rfl
  exact head?_ne_dot_of_isValidName h rfl

theorem ne_up_of_isValidName {name : String} (h : isValidName name = true) : name ≠ ".." := by
  rintro rfl
  exact head?_ne_dot_of_isValidName h rfl

/-! ### Checked names -/

/-- A name passes as its normal form, if that is valid. -/
theorem checkedName_eq_ok_iff {name n : String} :
    checkedName name = .ok n ↔ n = normalizeName name ∧ IsNormal n := by
  unfold checkedName
  constructor
  · intro h
    dsimp only at h
    split at h
    · cases h
    · split at h
      · rename_i hvalid
        cases h
        exact ⟨rfl, normalizeName_normalizeName name, hvalid⟩
      · cases h
  · rintro ⟨rfl, hnormal⟩
    dsimp only
    rw [if_neg (ne_empty_of_isValidName hnormal.valid), if_pos hnormal.valid]

theorem isNormal_of_checkedName {name n : String} (h : checkedName name = .ok n) : IsNormal n :=
  (checkedName_eq_ok_iff.mp h).2

/-- Every spelling of a normal form is accepted for it. -/
theorem IsNormal.checkedName_spelling {name n : String} (h : IsNormal n)
    (hname : normalizeName name = n) : Entry.checkedName name = .ok n :=
  checkedName_eq_ok_iff.mpr ⟨hname.symm, h⟩

/-- A normal name passes unchanged. -/
theorem IsNormal.checkedName {n : String} (h : IsNormal n) : checkedName n = .ok n :=
  h.checkedName_spelling h.normal

end TrustStore.Entry

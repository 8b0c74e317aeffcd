import TrustStore.Proofs.FileTree.Changes
import TrustStore.Proofs.FileTree.Closed

/-!
# Debris

A write that fails part of the way leaves something behind: directories on the way to a place, and a
hidden file in it.  `Debris` is that relation between the tree before and the tree after.  A walk to
the place goes on as before, unless it failed for a directory that has been made since
(`Debris.follows`).
-/

namespace TrustStore.FileTree

variable {place hidden : Place} {t t' t'' : FileTree}

/-! ### The relation -/

/-- `t'` is `t`, but for directories on the way to `place` and the file `hidden`. -/
structure Debris (place hidden : Place) (t t' : FileTree) : Prop where
  workingDirectory : t'.workingDirectory = t.workingDirectory
  nodes : ∀ q, t'.at? q = t.at? q ∨
    (q <+: place ∧ t.at? q = none ∧ t'.at? q = some .directory) ∨
    (q = hidden ∧ t.at? q ≠ some .directory ∧
      ∃ mode content, t'.at? q = some (.file mode content))

namespace Debris

theorem refl (place hidden : Place) (t : FileTree) : Debris place hidden t t :=
  ⟨rfl, fun _ => Or.inl rfl⟩

/-- Debris of one call and then of another is debris of both. -/
theorem trans (h : Debris place hidden t t') (h' : Debris place hidden t' t'') :
    Debris place hidden t t'' := by
  refine ⟨h'.workingDirectory.trans h.workingDirectory, fun q => ?_⟩
  -- by what the second call has done at the place
  rcases h'.nodes q with hsame' | ⟨hway', hnone', hmade'⟩ | ⟨hq', hdir', mode', content', hfile'⟩
  · rw [hsame']
    exact h.nodes q
  -- a directory that is made now was not made, and no file was written there, before
  · rcases h.nodes q with hsame | ⟨-, -, hmade⟩ | ⟨-, -, mode, content, hfile⟩
    · exact Or.inr (Or.inl ⟨hway', hsame ▸ hnone', hmade'⟩)
    · rw [hmade] at hnone'
      cases hnone'
    · rw [hfile] at hnone'
      cases hnone'
  · right
    right
    refine ⟨hq', ?_, mode', content', hfile'⟩
    rcases h.nodes q with hsame | ⟨-, hnone, -⟩ | ⟨-, hdir, -⟩
    · exact hsame ▸ hdir'
    · rw [hnone]
      exact fun h => by cases h
    · exact hdir

/-- A directory that is made on the way is debris. -/
theorem insert_directory (h : Debris place hidden t t') {q : Place} (hnone : t'.at? q = none)
    (hway : q <+: place) : Debris place hidden t (t'.insert q .directory) := by
  have hne : q ≠ [] := ne_root (t := t') (by simp [hnone])
  refine h.trans ⟨rfl, fun r => ?_⟩
  rw [at?_insert t' hne]
  rcases eq_or_ne r q with rfl | hr
  · right
    left
    exact ⟨hway, hnone, if_pos rfl⟩
  · exact Or.inl (if_neg hr)

/-- The hidden file may be written, or written again. -/
theorem insert_hidden (h : Debris place hidden t t') (hdir : t'.at? hidden ≠ some .directory)
    (mode : Nat) (content : Bytes) :
    Debris place hidden t (t'.insert hidden (.file mode content)) := by
  refine h.trans ⟨rfl, fun r => ?_⟩
  rw [at?_insert t' (ne_root hdir)]
  rcases eq_or_ne r hidden with rfl | hr
  · right
    right
    exact ⟨rfl, hdir, mode, content, if_pos rfl⟩
  · exact Or.inl (if_neg hr)

/-- Directories stay. -/
theorem directory (h : Debris place hidden t t') {q : Place} (hq : t.at? q = some .directory) :
    t'.at? q = some .directory := by
  rcases h.nodes q with hsame | ⟨-, -, hmade⟩ | ⟨-, hdir, -⟩
  · exact hsame.trans hq
  · exact hmade
  · exact absurd hq hdir

theorem start (h : Debris place hidden t t') (p : Path) : t'.start p = t.start p := by
  rw [FileTree.start, FileTree.start, h.workingDirectory]

end Debris

/-! ### Walks -/

/-- The place that plain steps lead to. -/
def placeBelow (q : Place) (steps : List String) : Place := q ++ steps.filter (· ≠ ".")

/-- A step that stays leads nowhere else. -/
theorem placeBelow_stay (q : Place) (steps : List String) :
    placeBelow q ("." :: steps) = placeBelow q steps := by
  simp [placeBelow]

/-- Any other step leads to a child. -/
theorem placeBelow_cons {name : String} (h : name ≠ ".") (q : Place) (steps : List String) :
    placeBelow q (name :: steps) = placeBelow (q ++ [name]) steps := by
  simp [placeBelow, h]

/-- Steps that do not go up lead below where they began. -/
theorem walked_eq_placeBelow {l : List String} (hl : ∀ step ∈ l, step ≠ "..") (q : Place) :
    walked q l = placeBelow q l := by
  induction l generalizing q with
  | nil => exact (List.append_nil q).symm
  | cons step l ih =>
    have htail := ih fun s hs => hl s (List.mem_cons_of_mem step hs)
    show walked (placeOf q step) l = _
    rw [htail]
    rcases eq_or_ne step "." with rfl | hstay
    · exact (placeBelow_stay q l).symm
    · rw [placeBelow_cons hstay, placeOf_eq hstay (hl step List.mem_cons_self)]

/-- Steps that do not go up, with names that are short enough. -/
def GoesDown (steps : List String) : Prop :=
  ∀ step ∈ steps, step ≠ ".." ∧ step.utf8ByteSize ≤ 255

instance (steps : List String) : Decidable (GoesDown steps) :=
  inferInstanceAs (Decidable (∀ step ∈ steps, _))

/-- The first step that does not stay is a plain name. -/
theorem GoesDown.head {name : String} {l : List String} (h : GoesDown (name :: l))
    (hstay : name ≠ ".") : IsPlainName name :=
  ⟨hstay, (h name List.mem_cons_self).1, (h name List.mem_cons_self).2⟩

theorem GoesDown.cons {name : String} {l : List String} (h : GoesDown l) (hname : IsPlainName name) :
    GoesDown (name :: l) := by
  intro step hstep
  rcases List.mem_cons.mp hstep with rfl | hstep
  · exact ⟨hname.ne_up, hname.short⟩
  · exact h step hstep

theorem GoesDown.tail {name : String} {l : List String} (h : GoesDown (name :: l)) : GoesDown l :=
  fun step hstep => h step (List.mem_cons_of_mem name hstep)

/-- How a walk ends in a tree with debris, and how it ended before: as before, or at directories
that were missing. -/
inductive Follows (t : FileTree) (place : Place) :
    Except FileError Place → Except FileError Place → Prop where
  | found : Follows t place (.ok place) (.ok place)
  | failed (e : FileError) : Follows t place (.error e) (.error e)
  | made (h : ∀ name, t.at? (place ++ [name]) = none) :
    Follows t place (.error .missing) (.ok place)

/-- A walk that succeeds with debris ends at the place. -/
theorem Follows.place_eq {before : Except FileError Place} {q : Place}
    (h : Follows t place before (.ok q)) : q = place := by
  cases h <;> rfl

namespace Debris

variable {name : String}

/-- What is on the way to the place is not hidden. -/
theorem nodes_on_way (h : Debris place (place ++ [name]) t t') {q : Place}
    (hq : q <+: place) :
    t'.at? q = t.at? q ∨ (t.at? q = none ∧ t'.at? q = some .directory) := by
  rcases h.nodes q with hsame | ⟨-, hnone, hmade⟩ | ⟨rfl, -, -⟩
  · exact Or.inl hsame
  · exact Or.inr ⟨hnone, hmade⟩
  · have hlength := hq.length_le
    rw [List.length_append, List.length_singleton] at hlength
    omega

theorem prefix_placeBelow (q : Place) (l : List String) : q <+: placeBelow q l :=
  List.prefix_append q _

/-- Below a place where nothing was, a walk finds only what has been made. -/
theorem enter_absent (h : Debris place (place ++ [name]) t t') {l : List String}
    (hl : GoesDown l) {q : Place} (hplace : placeBelow q l = place) (hq : t.at? q = none)
    (hclosed : t.Closed) : t'.enter q l = .error .missing ∨ t'.enter q l = .ok place := by
  -- the induction is on the steps, along which nothing was in the tree before
  induction l generalizing q with
  | nil =>
    right
    rw [← hplace]
    exact congrArg Except.ok (List.append_nil q).symm
  | cons step l ih =>
    rcases eq_or_ne step "." with rfl | hstay
    · rw [enter_stay]
      exact ih hl.tail (placeBelow_stay q l ▸ hplace) hq
    · rw [placeBelow_cons hstay] at hplace
      have hnone : t.at? (q ++ [step]) = none := by
        exact hclosed.nothing_below (ne_directory_of_none hq) (List.cons_ne_nil step [])
      rw [enter_cons (hl.head hstay)]
      have hway : q ++ [step] <+: place := hplace ▸ prefix_placeBelow _ l
      rcases h.nodes_on_way hway with hsame | ⟨-, hmade⟩
      · rw [hsame, hnone]
        exact Or.inl rfl
      · rw [hmade]
        exact ih hl.tail hplace hnone

/-- A walk down to the place goes on as before, or through directories that have been made. -/
theorem follows (h : Debris place (place ++ [name]) t t') {l : List String} (hl : GoesDown l)
    {q : Place} (hplace : placeBelow q l = place) (hclosed : t.Closed) :
    Follows t place (t.enter q l) (t'.enter q l) := by
  induction l generalizing q with
  | nil =>
    have hq : q = place := (List.append_nil q).symm.trans hplace
    rw [hq]
    exact .found
  | cons step l ih =>
    rcases eq_or_ne step "." with rfl | hstay
    · rw [enter_stay, enter_stay]
      exact ih hl.tail (placeBelow_stay q l ▸ hplace)
    · rw [placeBelow_cons hstay] at hplace
      have hway : q ++ [step] <+: place := hplace ▸ prefix_placeBelow _ l
      rw [enter_cons (hl.head hstay), enter_cons (hl.head hstay)]
      rcases h.nodes_on_way hway with hsame | ⟨hnone, hmade⟩
      -- what was there still is
      · rw [hsame]
        rcases t.at? (q ++ [step]) with - | (- | ⟨mode, content⟩)
        · exact .failed _
        · exact ih hl.tail hplace
        · exact .failed _
      -- the walk failed here before, and there was nothing below
      · rw [hnone, hmade]
        dsimp only
        rcases h.enter_absent hl.tail hplace hnone hclosed with hmissing | hfound
        · rw [hmissing]
          exact .failed _
        · rw [hfound]
          refine .made fun child => ?_
          obtain ⟨rest, rfl⟩ := hway
          rw [List.append_assoc (q ++ [step]) rest [child]]
          exact hclosed.nothing_below (ne_directory_of_none hnone) (by simp)

end Debris

end TrustStore.FileTree

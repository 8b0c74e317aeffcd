import TrustStore.Proofs.FileTree.Changes

/-!
# Closed trees

`Closed` is what every file tree satisfies: whatever there is stands in a directory, so nothing
stands below a place that is no directory (`Closed.nothing_below`).  The tree of a directory is
closed (`closed_ofDirectory`), and the calls that change a tree keep it so.  Hence all trees are
closed that calls of a storage lead to (`runAll_privatelyClosed`), or runs of a registry
(`closed_run`), and what is proved of closed trees holds at every point of a run.
-/

namespace TrustStore.FileTree

variable {t : FileTree}

/-- Every node is in a directory, and the working directory is one. -/
structure Closed (t : FileTree) : Prop where
  parent : ∀ place name, t.at? (place ++ [name]) ≠ none → t.at? place = some .directory
  workingDirectory : t.at? t.workingDirectory = some .directory

/-- Nothing is below a place that is no directory. -/
theorem Closed.nothing_below (h : t.Closed) {place : Place} (hplace : t.at? place ≠ some .directory)
    {rest : List String} (hne : rest ≠ []) : t.at? (place ++ rest) = none := by
  induction rest generalizing place with
  | nil => exact absurd rfl hne
  | cons name rest ih =>
    have hchild : t.at? (place ++ [name]) = none := by
      by_contra hchild
      exact hplace (h.parent place name hchild)
    rcases eq_or_ne rest [] with rfl | hrest
    · exact hchild
    · rw [List.append_cons]
      exact ih (ne_directory_of_none hchild) hrest

/-- Whatever there is, the places above it are directories. -/
theorem Closed.directory_above (h : t.Closed) {place : Place} {rest : List String} (hne : rest ≠ [])
    (hnode : t.at? (place ++ rest) ≠ none) : t.at? place = some .directory := by
  by_contra hplace
  exact hnode (h.nothing_below hplace hne)

/-! ### Trees of directories -/

/-- The prefixes of one more name are the shorter ones and the one of just that length. -/
theorem prefix_concat_iff {place q : Place} {n : Nat} :
    (q <+: place ∧ q.length ≤ n + 1) ↔ q = place.take (n + 1) ∨ (q <+: place ∧ q.length ≤ n) := by
  constructor
  · rintro ⟨hway, hlength⟩
    rcases Nat.lt_or_ge n q.length with hlt | hle
    · left
      rw [List.prefix_iff_eq_take.mp hway, show q.length = n + 1 by omega]
    · exact Or.inr ⟨hway, hle⟩
  · rintro (rfl | ⟨hway, hlength⟩)
    · refine ⟨?_, List.length_take_le _ _⟩
      exact List.take_prefix _ _
    · exact ⟨hway, by omega⟩

/-- In the tree of a directory there are the directories that lead to it. -/
theorem at?_ofDirectory (place q : Place) :
    (ofDirectory place).at? q = if q <+: place then some .directory else none := by
  -- After `n` insertions the prefixes of up to `n` names are there; each of them puts in the next
  -- one.
  have hfold : ∀ n ≤ place.length,
      ((List.range n).foldl (fun t n => t.insert (place.take (n + 1)) Node.directory)
        (⟨∅, place⟩ : FileTree)).at? q
        = if q <+: place ∧ q.length ≤ n then some .directory else none := by
    intro n hn
    induction n with
    | zero =>
      rcases q with - | ⟨name, rest⟩
      · rw [if_pos ⟨⟨place, rfl⟩, Nat.le_refl 0⟩]
        rfl
      · rw [if_neg fun h => absurd h.2 (by simp)]
        exact Std.ExtTreeMap.getElem?_empty
    | succ n ih =>
      have hne : place.take (n + 1) ≠ [] := by
        intro heq
        have hlength := congrArg List.length heq
        rw [List.length_take, List.length_nil] at hlength
        omega
      rw [List.range_succ, List.foldl_append, List.foldl_cons, List.foldl_nil,
        at?_insert _ hne, ih (by omega)]
      simp only [prefix_concat_iff]
      rcases eq_or_ne q (place.take (n + 1)) with heq | hq
      · rw [if_pos heq, if_pos (Or.inl heq)]
      · rw [if_neg hq]
        simp only [hq, false_or]
  have hlength : q <+: place → q.length ≤ place.length := List.IsPrefix.length_le
  rw [ofDirectory, hfold place.length (Nat.le_refl _)]
  simp only [and_iff_left_of_imp hlength]

/-- Nothing is in the directory. -/
theorem at?_ofDirectory_append (place : Place) {rest : List String} (h : rest ≠ []) :
    (ofDirectory place).at? (place ++ rest) = none := by
  rw [at?_ofDirectory, if_neg]
  intro hway
  exact h (List.append_right_eq_self.mp (hway.eq_of_length_le (by simp)))

/-- The tree of a directory is closed. -/
theorem closed_ofDirectory (place : Place) : (ofDirectory place).Closed where
  parent q name h := by
    rw [at?_ofDirectory] at h ⊢
    split at h
    · rename_i hway
      rw [if_pos ((List.prefix_append q [name]).trans hway)]
    · exact absurd rfl h
  workingDirectory := by
    have hcwd : ∀ (l : List Nat) (t : FileTree),
        (l.foldl (fun t n => t.insert (place.take (n + 1)) .directory) t).workingDirectory
          = t.workingDirectory := by
      intro l
      induction l with
      | nil => exact fun t => rfl
      | cons n l ih => exact fun t => ih _
    rw [show (ofDirectory place).workingDirectory = place from hcwd _ _, at?_ofDirectory,
      if_pos (List.prefix_refl place)]

/-! ### Changes of one node -/

namespace Closed

/-- A node may be put into a directory, in place of what is no directory. -/
theorem insert (h : t.Closed) {place : Place} {name : String} {node : Node}
    (hplace : t.at? place = some .directory) (hold : t.at? (place ++ [name]) ≠ some .directory) :
    (t.insert (place ++ [name]) node).Closed := by
  refine ⟨fun q child hchild => ?_, directory_insert hold h.workingDirectory node⟩
  rw [at?_insert t (ne_root hold)] at hchild
  split at hchild
  · rename_i heq
    rw [(List.append_inj' heq rfl).1]
    exact directory_insert hold hplace node
  · exact directory_insert hold (h.parent q child hchild) node

/-- What is no directory may go. -/
theorem erase (h : t.Closed) {q : Place} (hq : t.at? q ≠ some .directory) : (t.erase q).Closed := by
  refine ⟨fun r child hchild => ?_, directory_erase hq h.workingDirectory⟩
  rw [at?_erase t (ne_root hq)] at hchild
  split at hchild
  · exact absurd rfl hchild
  · exact directory_erase hq (h.parent r child hchild)

/-! ### Places of paths -/

/-- A directory is in a directory. -/
theorem dropLast (h : t.Closed) {place : Place} (hplace : t.at? place = some .directory) :
    t.at? place.dropLast = some .directory := by
  rcases List.eq_nil_or_concat' place with rfl | ⟨above, name, rfl⟩
  · rfl
  · rw [List.dropLast_concat]
    refine h.parent above name ?_
    rw [hplace]
    exact Option.some_ne_none _

/-- A walk that begins in a directory ends in one. -/
theorem enter (h : t.Closed) {q r : Place} {l : List String} (hq : t.at? q = some .directory)
    (hl : t.enter q l = .ok r) : t.at? r = some .directory := by
  induction l generalizing q with
  | nil =>
    cases hl
    exact hq
  | cons step l ih =>
    obtain ⟨hpasses, hrest⟩ := enter_cons_eq_ok_iff.mp hl
    refine ih ?_ hrest
    rcases hpasses with rfl | rfl | ⟨hplain, hdir⟩
    · exact hq
    · exact h.dropLast hq
    · rw [placeOf_eq hplain.ne_stay hplain.ne_up, hdir]

/-- Every path begins in a directory. -/
theorem start (h : t.Closed) (p : Path) : t.at? (t.start p) = some .directory := by
  rw [FileTree.start]
  split
  · rfl
  · exact h.workingDirectory

/-- The last name of a path is one in a directory. -/
theorem approach (h : t.Closed) {p : Path} {place : Place} {name : String}
    (hp : t.approach p = .ok (place, name)) : t.at? place = some .directory := by
  obtain ⟨-, ⟨-, -, rfl, -⟩ | ⟨above, -, henter, -⟩⟩ := approach_eq_ok hp
  · rfl
  · exact h.enter (h.start p) henter

/-- A place that a path leads to is a directory, or a name in one. -/
theorem locate (h : t.Closed) {p : Path} {q : Place} (hp : t.locate p = .ok q)
    (hq : t.at? q ≠ some .directory) :
    ∃ place name, q = place ++ [name] ∧ t.at? place = some .directory := by
  rw [FileTree.locate] at hp
  rcases happroach : t.approach p with e | ⟨place, name⟩
  · rw [happroach] at hp
    cases hp
  · rw [happroach] at hp
    have hplace := h.approach happroach
    obtain rfl := Except.ok.inj hp
    dsimp only [placeOf] at hq ⊢
    split at hq
    · exact absurd hplace hq
    · split at hq
      · exact absurd (h.dropLast hplace) hq
      · rename_i hstay hup
        rw [if_neg hstay, if_neg hup]
        exact ⟨place, name, rfl, hplace⟩

/-! ### Calls -/

variable {t' : FileTree} {p : Path}

theorem createDirectory (h : t.Closed) (hp : t.createDirectory p = .ok t') : t'.Closed := by
  obtain ⟨q, hq, hnone, rfl⟩ := createDirectory_eq_ok hp
  have hdir := ne_directory_of_none hnone
  obtain ⟨place, name, rfl, hplace⟩ := h.locate hq hdir
  exact h.insert hplace hdir

theorem writeFile (h : t.Closed) {content : Bytes} (hp : t.writeFile p content = .ok t') :
    t'.Closed := by
  obtain ⟨q, mode, hq, hdir, rfl⟩ := writeFile_eq_ok hp
  obtain ⟨place, name, rfl, hplace⟩ := h.locate hq hdir
  exact h.insert hplace hdir

theorem setMode (h : t.Closed) {mode : Nat} (hp : t.setMode p mode = .ok t') : t'.Closed := by
  obtain ⟨q, hq, ⟨-, rfl⟩ | ⟨old, content, hfile, rfl⟩⟩ := setMode_eq_ok hp
  · exact h
  · have hdir := ne_directory_of_file hfile
    obtain ⟨place, name, rfl, hplace⟩ := h.locate hq hdir
    exact h.insert hplace hdir

theorem removeFile (h : t.Closed) (hp : t.removeFile p = .ok t') : t'.Closed := by
  obtain ⟨place, name, -, -, hdir, rfl⟩ := removeFile_eq_ok hp
  exact h.erase hdir

theorem rename (h : t.Closed) {source : Path} (hp : t.rename source p = .ok t') : t'.Closed := by
  obtain ⟨q, place, name, mode, content, -, hfile, happroach, -, hdir, rfl⟩ := rename_eq_ok hp
  have hq := ne_directory_of_file hfile
  exact (h.erase hq).insert (directory_erase hq (h.approach happroach))
    (ne_directory_erase hq hdir)

/-- Making a directory with its ancestors keeps a tree closed. -/
theorem createDirectories (h : t.Closed) (p : Path) : (calls.createDirectories p t).2.Closed :=
  createAncestor_invariant (fun _ _ _ h hp => h.createDirectory hp) _ h

end Closed

end TrustStore.FileTree

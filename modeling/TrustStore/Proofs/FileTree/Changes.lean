import TrustStore.Proofs.FileTree.Walk

/-!
# Calls that change a tree

A call that succeeds changes the tree at one place, which its path leads to; `createAncestor_run`
says what making a directory with its ancestors does, call by call.
-/

namespace TrustStore.FileTree

variable {t t' : FileTree} {p : Path}

/-! ### Successful calls -/

/-- A directory is made where nothing was. -/
theorem createDirectory_eq_ok (h : t.createDirectory p = .ok t') :
    ∃ place, t.locate p = .ok place ∧ t.at? place = none ∧ t' = t.insert place .directory := by
  unfold createDirectory at h
  obtain ⟨place, hplace, h⟩ := bind_eq_ok.mp h
  refine ⟨place, hplace, ?_⟩
  split at h
  · cases h
  · rename_i hnone
    cases h
    exact ⟨hnone, rfl⟩

/-- What is written is a file, where there was no directory. -/
theorem writeFile_eq_ok {content : Bytes} (h : t.writeFile p content = .ok t') :
    ∃ place mode, t.locate p = .ok place ∧ t.at? place ≠ some .directory ∧
      t' = t.insert place (.file mode content) := by
  unfold writeFile at h
  obtain ⟨place, hplace, h⟩ := bind_eq_ok.mp h
  split at h
  · cases h
  · rename_i mode _ hnode
    split at h
    · cases h
    · cases h
      exact ⟨place, mode, hplace, by simp [hnode], rfl⟩
  · rename_i hnode
    split at h
    · cases h
    · cases h
      exact ⟨place, newFileMode, hplace, by simp [hnode], rfl⟩

/-- The mode of a directory is not kept, so only that of a file is seen to change. -/
theorem setMode_eq_ok {mode : Nat} (h : t.setMode p mode = .ok t') :
    ∃ place, t.locate p = .ok place ∧ ((t.at? place = some .directory ∧ t' = t) ∨
      ∃ old content, t.at? place = some (.file old content) ∧
        t' = t.insert place (.file mode content)) := by
  unfold setMode at h
  obtain ⟨place, hplace, h⟩ := bind_eq_ok.mp h
  refine ⟨place, hplace, ?_⟩
  split at h
  · cases h
  · rename_i hnode
    cases h
    exact Or.inl ⟨hnode, rfl⟩
  · rename_i old content hnode
    split at h
    · cases h
    · cases h
      exact Or.inr ⟨old, content, hnode, rfl⟩

/-- What is removed is the child that the path names, and no directory. -/
theorem removeFile_eq_ok (h : t.removeFile p = .ok t') :
    ∃ place name, t.approach p = .ok (place, name) ∧ isChildName name = true ∧
      t.at? (place ++ [name]) ≠ some .directory ∧ t' = t.erase (place ++ [name]) := by
  unfold removeFile at h
  obtain ⟨⟨place, name⟩, happroach, h⟩ := bind_eq_ok.mp h
  dsimp only at h
  split at h
  · cases h
  · rename_i hchild
    split at h
    · cases h
    · cases h
    · rename_i hnode
      split at h
      · cases h
      · cases h
        exact ⟨place, name, happroach, by simpa using hchild, by simp [hnode], rfl⟩

/-- What is moved is a file, and it does not take the place of a directory. -/
theorem rename_eq_ok {source : Path} (h : t.rename source p = .ok t') :
    ∃ q place name mode content, t.locate source = .ok q ∧
      t.at? q = some (.file mode content) ∧ t.approach p = .ok (place, name) ∧
      isChildName name = true ∧ t.at? (place ++ [name]) ≠ some .directory ∧
      t' = (t.erase q).insert (place ++ [name]) (.file mode content) := by
  -- each of the conditions of the call is split off in turn
  unfold rename at h
  obtain ⟨q, hq, h⟩ := bind_eq_ok.mp h
  obtain ⟨⟨place, name⟩, happroach, h⟩ := bind_eq_ok.mp h
  dsimp only at h
  split at h
  · cases h
  · rename_i hchild
    split at h
    · rename_i mode content hnode
      split at h
      · cases h
      · split at h
        · cases h
        · rename_i hdir
          cases h
          exact ⟨q, place, name, mode, content, hq, hnode, happroach, by simpa using hchild, hdir,
            rfl⟩
    · cases h
    · cases h

/-- Nothing is moved to a path that demands a directory. -/
theorem slashed_of_rename {source : Path} (h : t.rename source p = .ok t') : p.slashed = false := by
  unfold rename at h
  obtain ⟨q, -, h⟩ := bind_eq_ok.mp h
  obtain ⟨⟨place, name⟩, -, h⟩ := bind_eq_ok.mp h
  dsimp only at h
  split at h
  · cases h
  · split at h
    · split at h
      · cases h
      · rename_i hslashed
        exact Bool.eq_false_iff.mpr hslashed
    · cases h
    · cases h

/-! ### Files that are written -/

/-- A path leads to the same place where a node comes in place of what is no directory. -/
theorem locate_insert {q r : Place} (hp : t.locate p = .ok q)
    (hr : t.at? r ≠ some .directory) (node : Node) : (t.insert r node).locate p = .ok q := by
  have hcwd : (t.insert r node).workingDirectory = t.workingDirectory := rfl
  exact locate_of_directories hcwd (fun _ h => directory_insert hr h node) hp

/-- A file that is written at a place is found there, and its mode can be set. -/
theorem setMode_of_written (hslashed : p.slashed = false) {content : Bytes}
    (hwritten : t.writeFile p content = .ok t') (mode : Nat) :
    ∃ q t'', t.locate p = .ok q ∧ t.at? q ≠ some .directory ∧ t'.setMode p mode = .ok t'' ∧
      t''.locate p = .ok q ∧ t''.workingDirectory = t.workingDirectory ∧
      ∀ r, t''.at? r = if r = q then some (.file mode content) else t.at? r := by
  obtain ⟨q, old, hq, hdir, rfl⟩ := writeFile_eq_ok hwritten
  have hat := at?_insert t (ne_root hdir) (.file old content)
  have hfile : (t.insert q (.file old content)).at? q = some (.file old content) := by
    rw [hat, if_pos rfl]
  have hlocate := locate_insert hq hdir (.file old content)
  refine ⟨q, (t.insert q (.file old content)).insert q (.file mode content), hq, hdir, ?_,
    locate_insert hlocate (ne_directory_of_file hfile) _, rfl, fun r => ?_⟩
  · simp only [FileTree.setMode, hlocate, bind, Except.bind, hfile, hslashed]
    rfl
  · rw [at?_insert _ (ne_root hdir), hat]
    rcases eq_or_ne r q with rfl | hne
    · rw [if_pos rfl, if_pos rfl]
    · rw [if_neg hne, if_neg hne, if_neg hne]

/-! ### Making a directory with its ancestors -/

/-- The outcome of a call that made no directory. -/
def thereOr (t : FileTree) (p : Path) (e : FileError) : Except FileError Unit :=
  if t.isDirectory p then .ok () else .error e

theorem bind_apply {α β : Type} (c : StateM FileTree α) (f : α → StateM FileTree β)
    (t : FileTree) : (c >>= f) t = f (c t).1 (c t).2 := rfl

/-- Making a directory, as a step of a run. -/
theorem createDirectory_run (t : FileTree) (p : Path) :
    calls.createDirectory p t = match t.createDirectory p with
      | .ok t' => (.ok (), t')
      | .error e => (.error e, t) := rfl

/-- A directory that is there excuses the error. -/
theorem unlessThere_run (t : FileTree) (p : Path) (e : FileError) :
    calls.unlessThere p e t = (t.thereOr p e, t) := by
  rw [thereOr]
  rcases h : t.isDirectory p with - | -
  · rw [FileSystem.unlessThere, bind_apply, show (calls.isDirectory p t).1 = false from h]
    rfl
  · rw [FileSystem.unlessThere, bind_apply, show (calls.isDirectory p t).1 = true from h]
    rfl

/-- An ancestor is made at once, or once the ones above it have been made where it is missing. -/
theorem createAncestor_run (t : FileTree) (p : Path) (n : Nat) :
    calls.createAncestor p (n + 1) t = match t.createDirectory (p.ancestor (n + 1)) with
      | .ok t' => (.ok (), t')
      | .error .missing => match calls.createAncestor p n t with
        | (.error e, t') => (.error e, t')
        | (.ok (), t') => match t'.createDirectory (p.ancestor (n + 1)) with
          | .ok t'' => (.ok (), t'')
          | .error e => (t'.thereOr (p.ancestor (n + 1)) e, t')
      | .error e => (t.thereOr (p.ancestor (n + 1)) e, t) := by
  rw [FileSystem.createAncestor, bind_apply, createDirectory_run]
  rcases t.createDirectory (p.ancestor (n + 1)) with e | t'
  -- only a missing parent leads to a second attempt
  · rcases eq_or_ne e .missing with rfl | he
    · dsimp only
      rw [bind_apply]
      rcases calls.createAncestor p n t with ⟨e | ⟨⟩, t'⟩
      · rfl
      · dsimp only
        rw [bind_apply, createDirectory_run]
        rcases t'.createDirectory (p.ancestor (n + 1)) with e | t''
        · exact unlessThere_run t' _ e
        · rfl
    · cases e <;> first | exact absurd rfl he | exact unlessThere_run t _ _
  · rfl

/-- What each call that makes an ancestor preserves, all of them preserve. -/
theorem createAncestor_invariant {P : FileTree → Prop}
    (hstep : ∀ n t t', P t → t.createDirectory (p.ancestor n) = .ok t' → P t') (n : Nat)
    (h : P t) : P (calls.createAncestor p n t).2 := by
  -- the induction is on the number of names, since the ancestor above is made in between
  induction n generalizing t with
  | zero => exact h
  | succ n ih =>
    rw [createAncestor_run]
    rcases hfirst : t.createDirectory (p.ancestor (n + 1)) with e | t₁
    · rcases eq_or_ne e .missing with rfl | he
      · have habove := ih h
        dsimp only
        rcases hmade : calls.createAncestor p n t with ⟨e | ⟨⟩, t₁⟩
        · rw [hmade] at habove
          exact habove
        · rw [hmade] at habove
          dsimp only
          rcases hagain : t₁.createDirectory (p.ancestor (n + 1)) with e | t₂
          · exact habove
          · exact hstep (n + 1) t₁ t₂ habove hagain
      · cases e <;> first | exact absurd rfl he | exact h
    · exact hstep (n + 1) t t₁ h hfirst

end TrustStore.FileTree

import TrustStore.Proofs.Entry.Name
import TrustStore.Proofs.Chain
import TrustStore.Proofs.FileTree.Walk
import TrustStore.Proofs.Storage.Keys
import TrustStore.Registry

/-!
# Directories as storages of entries

The key of an entry leads to a file in one directory below the root (`pathOf_keyOf`), beside which
its record is staged (`stagingOf_entryOf`); the list reads that directory (`listedPath_directory`).
Each operation of the storage is then stated as a function of the tree.
-/

namespace TrustStore

namespace Storage.Directory

open Registry (keyOf directory)

/-! ### Paths of entries -/

/-- The directory of all entries. -/
def entriesOf (root : Path) : Path := root.down ["cert"]

/-- The file of an entry. -/
def entryOf (root : Path) (name : String) : Path := root.down ["cert", name]

/-- The name of the file where a record is staged. -/
def stagingName (name : String) : String := "." ++ name ++ ".tmp"

/-- A staging name begins with a dot and ends with `.tmp`. -/
theorem toList_stagingName (name : String) :
    (stagingName name).toList = '.' :: (name.toList ++ ".tmp".toList) := by
  simp [stagingName]

/-- What does not begin with a dot is no staging name. -/
theorem stagingName_ne_of_head {name other : String} (h : other.toList.head? ≠ some '.') :
    other ≠ stagingName name := by
  rintro rfl
  rw [toList_stagingName] at h
  exact h rfl

/-- A staging name is longer by five bytes. -/
theorem utf8ByteSize_stagingName (name : String) :
    (stagingName name).utf8ByteSize = name.utf8ByteSize + 5 := by
  rw [stagingName, String.utf8ByteSize_append, String.utf8ByteSize_append,
    show ".".utf8ByteSize = 1 from rfl, show ".tmp".utf8ByteSize = 4 from rfl]
  omega

theorem isName_stagingName (name : String) : Path.isName (stagingName name) = true := by
  rw [Path.isName_iff]
  constructor
  · exact (stagingName_ne_of_head (by decide)).symm
  · intro h
    have hlength := congrArg String.utf8ByteSize h
    rw [utf8ByteSize_stagingName, show ".".utf8ByteSize = 1 from rfl] at hlength
    omega

theorem stagingName_ne_up (name : String) : stagingName name ≠ ".." := by
  intro h
  have hlength := congrArg String.utf8ByteSize h
  rw [utf8ByteSize_stagingName, show "..".utf8ByteSize = 2 from rfl] at hlength
  omega

section Valid

variable {name : String} (h : Entry.isValidName name = true)

include h

/-- A valid name counts as a name in a path. -/
theorem isName_of_isValidName : Path.isName name = true :=
  Path.isName_iff.mpr ⟨Entry.ne_empty_of_isValidName h, Entry.ne_here_of_isValidName h⟩

/-- The key of an entry takes two steps. -/
theorem stepsOf_keyOf : stepsOf (keyOf name) = ["cert", name] := by
  have hname : stepsOf name = [name] := by
    rw [stepsOf, Text.splitOn_of_not_mem (Entry.slash_not_mem_of_isValidName h), List.map_singleton,
      String.ofList_toList]
  refine (stepsOf_append "cert" name).trans ?_
  rw [hname]
  rfl

/-- Neither of them is hidden. -/
theorem isVisible_keyOf : IsVisible (keyOf name) := by
  intro step hstep
  rw [stepsOf_keyOf h] at hstep
  rcases List.mem_cons.mp hstep with rfl | hstep
  · decide
  · obtain rfl := List.mem_singleton.mp hstep
    exact ⟨Entry.ne_empty_of_isValidName h, Entry.head?_ne_dot_of_isValidName h⟩

/-- The key of an entry leads to its file. -/
theorem pathOf_keyOf (root : Path) : pathOf root (keyOf name) = .ok (entryOf root name) := by
  rw [pathOf_of_isVisible (isVisible_keyOf h), stepsOf_keyOf h]
  rfl

/-- All entries are in one directory. -/
theorem parent_entryOf (root : Path) : (entryOf root name).parent = entriesOf root :=
  Path.parent_down root [] (by decide) (isName_of_isValidName h)

theorem fileName?_entryOf (root : Path) : (entryOf root name).fileName? = some name :=
  Path.fileName?_down root ["cert"] (isName_of_isValidName h) (Entry.ne_up_of_isValidName h)

/-- An entry is staged beside its file. -/
theorem stagingOf_entryOf (root : Path) :
    stagingOf (entryOf root name) name = entryOf root (stagingName name) := by
  show (entryOf root name).parent.below ⟨false, [stagingName name]⟩ = _
  rw [parent_entryOf h]
  exact Path.below_down root [] (by decide) [stagingName name]

end Valid

/-- The list reads the directory of the entries. -/
theorem listedPath_directory (root : Path) : listedPath root directory = .ok (entriesOf root) := by
  have hcert : IsVisible "cert" := by decide
  exact listedPath_of_leadsTo (.below hcert) root

/-! ### Running the storage -/

variable {root : Path} {key : String} {p : Path}

/-- What is found, where the given value stands for a missing file. -/
def orMissing {α : Type} (default : α) : Except FileError α → Except Fault α
  | .ok a => .ok a
  | .error .missing => .ok default
  | .error e => .error (.file e)

/-- A call whose missing file has a default. -/
theorem callOr_run {α : Type} (default : α) (c : StateM FileTree (Except FileError α))
    (t : FileTree) : (callOr default c).run t = (orMissing default (c t).1, (c t).2) := by
  show (match (c t).1 with | .ok a => _ | .error .missing => _ | .error e => _ : StateM _ _) _ = _
  rcases h : c t with ⟨e | a, t'⟩
  · cases e <;> rfl
  · rfl

theorem call_run {α : Type} (c : StateM FileTree (Except FileError α)) (t : FileTree) :
    (call c).run t = ((c t).1.mapError .file, (c t).2) := rfl

/-- A call that changes the tree. -/
theorem call_change_run (f : FileTree → Except FileError FileTree) (t : FileTree) :
    (call (FileTree.change f)).run t = match f t with
      | .ok t' => (.ok (), t')
      | .error e => (.error (.file e), t) := by
  rw [call_run, FileTree.change]
  rcases f t with e | t' <;> rfl

/-- What a get reads is the content of a file, if it is there. -/
theorem get_run (h : pathOf root key = .ok p) (t : FileTree) :
    ((ofDirectory FileTree.calls root).get key).run t
      = (orMissing none ((t.readFile p).map some), t) := by
  show ((liftM (pathOf root key) : ExceptT Fault (StateM FileTree) Path) >>= fun p =>
    callOr none ((Except.map some ·) <$> FileTree.calls.readFile p)).run t = _
  rw [h]
  exact callOr_run none ((Except.map some ·) <$> FileTree.calls.readFile p) t

/-- A delete removes a file, and a missing file is no fault. -/
theorem delete_run (h : pathOf root key = .ok p) (t : FileTree) :
    ((ofDirectory FileTree.calls root).delete key).run t = match t.removeFile p with
      | .ok t' => (.ok (), t')
      | .error e => (orMissing () (.error e), t) := by
  show ((liftM (pathOf root key) : ExceptT Fault (StateM FileTree) Path) >>= fun p =>
    callOr () (FileTree.calls.removeFile p)).run t = _
  rw [h]
  refine (callOr_run () _ t).trans ?_
  show (orMissing () (FileTree.change (·.removeFile p) t).1,
    (FileTree.change (·.removeFile p) t).2) = _
  rw [FileTree.change]
  rcases t.removeFile p with e | t' <;> rfl

/-- What does not begin with a dot is shown. -/
theorem shownName?_of_head {name : String} (h : name.toList.head? ≠ some '.') :
    shownName? name false = some name := by
  simp [shownName?, h]

/-- What a directory shows of its children. -/
def shown (children : List (String × Bool)) : List String :=
  Text.sortDistinct (children.filterMap fun (name, isDirectory) => shownName? name isDirectory)

/-- A list shows the children of a directory, if it is there. -/
theorem list_run {above : String} (h : listedPath root above = .ok p) (t : FileTree) :
    ((ofDirectory FileTree.calls root).list above).run t
      = ((orMissing [] (t.listDirectory p)).map shown, t) := by
  show ((liftM (listedPath root above) : ExceptT Fault (StateM FileTree) Path) >>= fun p =>
    callOr [] (FileTree.calls.listDirectory p) >>= fun children => pure (shown children)).run t = _
  rw [h]
  show (callOr [] (FileTree.calls.listDirectory p) >>= fun children =>
    (pure (shown children) : ExceptT Fault (StateM FileTree) (List String))).run t = _
  rw [bind_run, callOr_run, show FileTree.calls.listDirectory p t = (t.listDirectory p, t) from rfl]
  dsimp only
  rcases orMissing [] (t.listDirectory p) with e | children <;> rfl

/-- The tree that a record is saved in, or the error and what had been done by then. -/
def saved (t : FileTree) (p staging : Path) (value : Bytes) : Except Fault Unit × FileTree :=
  match FileTree.calls.createDirectories p.parent t with
  | (.error e, t₁) => (.error (.file e), t₁)
  | (.ok (), t₁) =>
    match t₁.writeFile staging value with
    | .error e => (.error (.file e), t₁)
    | .ok t₂ =>
      match t₂.setMode staging recordMode with
      | .error e => (.error (.file e), t₂)
      | .ok t₃ =>
        match t₃.rename staging p with
        | .error e => (.error (.file e), t₃)
        | .ok t₄ => (.ok (), t₄)

/-- How saving a record ends: with the first call that fails, in the tree of the calls before it,
or with the last of them. -/
inductive SaveEnds (t : FileTree) (p staging : Path) (value : Bytes) :
    Except Fault Unit × FileTree → Prop where
  | notMade {cause : FileError} {t₁ : FileTree}
    (hmade : FileTree.calls.createDirectories p.parent t = (.error cause, t₁)) :
    SaveEnds t p staging value (.error (.file cause), t₁)
  | notWritten {cause : FileError} {t₁ : FileTree}
    (hmade : FileTree.calls.createDirectories p.parent t = (.ok (), t₁))
    (hwritten : t₁.writeFile staging value = .error cause) :
    SaveEnds t p staging value (.error (.file cause), t₁)
  | notSet {cause : FileError} {t₁ t₂ : FileTree}
    (hmade : FileTree.calls.createDirectories p.parent t = (.ok (), t₁))
    (hwritten : t₁.writeFile staging value = .ok t₂)
    (hset : t₂.setMode staging recordMode = .error cause) :
    SaveEnds t p staging value (.error (.file cause), t₂)
  | notMoved {cause : FileError} {t₁ t₂ t₃ : FileTree}
    (hmade : FileTree.calls.createDirectories p.parent t = (.ok (), t₁))
    (hwritten : t₁.writeFile staging value = .ok t₂)
    (hset : t₂.setMode staging recordMode = .ok t₃)
    (hmoved : t₃.rename staging p = .error cause) :
    SaveEnds t p staging value (.error (.file cause), t₃)
  | moved {t₁ t₂ t₃ t₄ : FileTree}
    (hmade : FileTree.calls.createDirectories p.parent t = (.ok (), t₁))
    (hwritten : t₁.writeFile staging value = .ok t₂)
    (hset : t₂.setMode staging recordMode = .ok t₃)
    (hmoved : t₃.rename staging p = .ok t₄) :
    SaveEnds t p staging value (.ok (), t₄)

/-- There is no other way for it to end. -/
theorem saveEnds (t : FileTree) (p staging : Path) (value : Bytes) :
    SaveEnds t p staging value (saved t p staging value) := by
  unfold saved
  rcases hmade : FileTree.calls.createDirectories p.parent t with ⟨cause | ⟨⟩, t₁⟩
  · exact .notMade hmade
  · dsimp only
    rcases hwritten : t₁.writeFile staging value with cause | t₂
    · exact .notWritten hmade hwritten
    · dsimp only
      rcases hset : t₂.setMode staging recordMode with cause | t₃
      · exact .notSet hmade hwritten hset
      · dsimp only
        rcases hmoved : t₃.rename staging p with cause | t₄
        · exact .notMoved hmade hwritten hset hmoved
        · exact .moved hmade hwritten hset hmoved

/-- What all calls but the last preserve holds of the tree that a failed write leaves, and of the
tree in which the last call is made. -/
theorem saved_cases {P : FileTree → Prop} (staging : Path) (value : Bytes) {t : FileTree}
    (hmade : P (FileTree.calls.createDirectories p.parent t).2)
    (hwrite : ∀ t₁ t₂, P t₁ → t₁.writeFile staging value = .ok t₂ → P t₂)
    (hset : ∀ t₂ t₃, P t₂ → t₂.setMode staging recordMode = .ok t₃ → P t₃) :
    (∃ e t', saved t p staging value = (.error e, t') ∧ P t') ∨
      ∃ t₃ t₄, saved t p staging value = (.ok (), t₄) ∧ P t₃ ∧ t₃.rename staging p = .ok t₄ := by
  have hends := saveEnds t p staging value
  generalize saved t p staging value = outcome at hends ⊢
  cases hends with
  -- a failed call leaves the tree of the call before it
  | notMade h =>
    rw [h] at hmade
    exact Or.inl ⟨_, _, rfl, hmade⟩
  | notWritten h =>
    rw [h] at hmade
    exact Or.inl ⟨_, _, rfl, hmade⟩
  | notSet h hwritten =>
    rw [h] at hmade
    exact Or.inl ⟨_, _, rfl, hwrite _ _ hmade hwritten⟩
  | notMoved h hwritten hmode =>
    rw [h] at hmade
    exact Or.inl ⟨_, _, rfl, hset _ _ (hwrite _ _ hmade hwritten) hmode⟩
  | moved h hwritten hmode hmoved =>
    rw [h] at hmade
    exact Or.inr ⟨_, _, rfl, hset _ _ (hwrite _ _ hmade hwritten) hmode, hmoved⟩

/-- The calls of a record that is saved have all succeeded. -/
theorem calls_of_saved {staging : Path} {value : Bytes} {t t' : FileTree}
    (h : saved t p staging value = (.ok (), t')) :
    ∃ t₁ t₂ t₃, FileTree.calls.createDirectories p.parent t = (.ok (), t₁) ∧
      t₁.writeFile staging value = .ok t₂ ∧ t₂.setMode staging recordMode = .ok t₃ ∧
      t₃.rename staging p = .ok t' := by
  have hends := saveEnds t p staging value
  rw [h] at hends
  cases hends with
  | moved hmade hwritten hset hmoved => exact ⟨_, _, _, hmade, hwritten, hset, hmoved⟩

/-- Saving a record fails for the files only. -/
theorem exists_file_of_saved {staging : Path} {value : Bytes} {t : FileTree} {e : Fault}
    (h : (saved t p staging value).1 = .error e) : ∃ cause, e = .file cause := by
  have hends := saveEnds t p staging value
  generalize saved t p staging value = outcome at hends h
  cases hends with
  | notMade | notWritten | notSet | notMoved =>
    cases h
    exact ⟨_, rfl⟩
  | moved => cases h

/-- The calls that save a record, one after the other. -/
theorem save_run {name : String} (hname : p.fileName? = some name) (value : Bytes)
    (t : FileTree) :
    (save FileTree.calls key p value).run t = saved t p (stagingOf p name) value := by
  unfold save saved
  rw [bind_run, call_run]
  -- each call is made only after the one before it has succeeded
  rcases FileTree.calls.createDirectories p.parent t with ⟨e | ⟨⟩, t₁⟩
  · rfl
  · dsimp only
    rw [hname]
    show ((call (FileTree.change (·.writeFile (stagingOf p name) value)) >>= fun _ =>
      call (FileTree.change (·.setMode (stagingOf p name) recordMode)) >>= fun _ =>
      call (FileTree.change (·.rename (stagingOf p name) p))).run t₁) = _
    rw [bind_run, call_change_run]
    rcases t₁.writeFile (stagingOf p name) value with e | t₂
    · rfl
    · dsimp only
      rw [bind_run, call_change_run]
      rcases t₂.setMode (stagingOf p name) recordMode with e | t₃
      · rfl
      · dsimp only
        rw [call_change_run]
        rcases t₃.rename (stagingOf p name) p with e | t₄ <;> rfl

/-- A put saves its record. -/
theorem put_run {name : String} (h : pathOf root key = .ok p) (hname : p.fileName? = some name)
    (value : Bytes) (t : FileTree) :
    ((ofDirectory FileTree.calls root).put key value).run t
      = saved t p (stagingOf p name) value := by
  show ((liftM (pathOf root key) : ExceptT Fault (StateM FileTree) Path) >>= fun p =>
    save FileTree.calls key p value).run t = _
  rw [h]
  exact save_run hname value t

/-- The put of an entry saves its record in the directory of the entries. -/
theorem put_run_keyOf {name : String} (h : Entry.isValidName name = true) (value : Bytes)
    (t : FileTree) :
    ((ofDirectory FileTree.calls root).put (keyOf name) value).run t
      = saved t (entryOf root name) (entryOf root (stagingName name)) value := by
  rw [put_run (pathOf_keyOf h root) (fileName?_entryOf h root), stagingOf_entryOf h]

end Storage.Directory

end TrustStore

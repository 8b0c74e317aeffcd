import TrustStore.Proofs.FileTree.Changes
import TrustStore.Proofs.Registry.Run
import TrustStore.Proofs.Storage.Directory

/-!
# Files of entries in a tree

All files of entries stand in one directory, and `opened` is the walk to it.  What the calls of the
storage do in a tree is said in terms of that walk, and `onTree` is what an access does there.
-/

namespace TrustStore.Storage.Directory

open FileTree Registry

/-! ### The directory of the entries -/

/-- The place of the directory of all entries, where the walk to it succeeds. -/
def opened (t : FileTree) (root : Path) : Except FileError Place :=
  t.enter (t.start root) (root.steps ++ ["cert"])

theorem isPlainName_cert : IsPlainName "cert" := ⟨by decide, by decide, by decide⟩

/-- One step behind the root are the entries. -/
theorem steps_entriesOf (root : Path) : (entriesOf root).steps = root.steps ++ ["cert"] :=
  Path.steps_down root (by simp)

/-- Where the root is, the entries are in the child `cert`. -/
theorem opened_of_enter {t : FileTree} {root : Path} {place : Place}
    (h : t.enter (t.start root) root.steps = .ok place) :
    opened t root = match t.at? (place ++ ["cert"]) with
      | none => .error .missing
      | some (.file _ _) => .error .notDirectory
      | some .directory => .ok (place ++ ["cert"]) := by
  rw [opened, enter_append, h]
  exact enter_cons isPlainName_cert place []

/-- The directory of the entries is found through that of the root. -/
theorem locate_entriesOf (t : FileTree) (root : Path) :
    t.locate (entriesOf root) = (do
      checkPath (entriesOf root)
      let place ← t.enter (t.start root) root.steps
      return place ++ ["cert"]) := by
  rw [locate_concat t (steps_entriesOf root) (by decide) (by decide)]
  rw [checkName_eq_ok isPlainName_cert.short]
  rfl

/-- The list reads the directory that the walk leads to. -/
theorem listDirectory_entriesOf (t : FileTree) (root : Path) :
    t.listDirectory (entriesOf root) = (do
      checkPath (entriesOf root)
      let place ← opened t root
      return t.children place) := by
  rw [listDirectory_concat t (steps_entriesOf root) (by decide) (by decide), steps_entriesOf]
  rfl

/-! ### The files in it -/

section Entries

variable {name : String} (hname : Path.isName name = true) (hup : name ≠ "..")

include hname

/-- One step behind the entries is the file. -/
theorem steps_entryOf (root : Path) :
    (entryOf root name).steps = root.steps ++ ["cert"] ++ [name] := by
  rw [List.append_assoc]
  refine Path.steps_down root ?_
  simpa using (Path.isName_iff.mp hname).1

/-- No slash is at the end of the path of an entry. -/
theorem slashed_entryOf (root : Path) : (entryOf root name).slashed = false :=
  Path.slashed_down root ["cert"] (Path.isName_iff.mp hname).1

/-- The file of an entry is approached through the directory of the entries. -/
theorem approach_entryOf (t : FileTree) (root : Path) :
    t.approach (entryOf root name) = (do
      checkPath (entryOf root name)
      let place ← opened t root
      checkName name
      return (place, name)) :=
  approach_concat t (steps_entryOf hname root)

theorem approach_entryOf_eq_ok {t : FileTree} {root : Path} {place : Place} {last : String}
    (h : t.approach (entryOf root name) = .ok (place, last)) :
    opened t root = .ok place ∧ last = name := by
  rw [approach_entryOf hname] at h
  obtain ⟨⟨⟩, -, h⟩ := bind_eq_ok.mp h
  obtain ⟨q, hopened, h⟩ := bind_eq_ok.mp h
  obtain ⟨⟨⟩, -, h⟩ := bind_eq_ok.mp h
  cases h
  exact ⟨hopened, rfl⟩

include hup

theorem locate_entryOf (t : FileTree) (root : Path) :
    t.locate (entryOf root name) = (do
      checkPath (entryOf root name)
      let place ← opened t root
      checkName name
      return place ++ [name]) :=
  locate_concat t (steps_entryOf hname root) (Path.isName_iff.mp hname).2 hup

/-- A record is read where there is a file of that name in the directory of the entries. -/
theorem readFile_entryOf (t : FileTree) (root : Path) :
    t.readFile (entryOf root name) = (do
      checkPath (entryOf root name)
      let place ← opened t root
      checkName name
      match t.at? (place ++ [name]) with
      | none => .error .missing
      | some .directory => .error .isDirectory
      | some (.file _ content) => .ok content) := by
  rw [readFile, locate_entryOf hname hup, slashed_entryOf hname]
  simp only [bind, Except.bind]
  rcases checkPath (entryOf root name) with e | ⟨⟩
  · rfl
  · rcases opened t root with e | place
    · rfl
    · rcases checkName name with e | ⟨⟩ <;> rfl

/-- An entry that is found is in the directory of the entries. -/
theorem locate_entryOf_eq_ok {t : FileTree} {root : Path} {q : Place}
    (h : t.locate (entryOf root name) = .ok q) :
    ∃ place, opened t root = .ok place ∧ q = place ++ [name] := by
  rw [locate_entryOf hname hup] at h
  obtain ⟨⟨⟩, -, h⟩ := bind_eq_ok.mp h
  obtain ⟨place, hopened, h⟩ := bind_eq_ok.mp h
  obtain ⟨⟨⟩, -, h⟩ := bind_eq_ok.mp h
  exact ⟨place, hopened, (Except.ok.inj h).symm⟩

/-- A record that is read is the content of a file there. -/
theorem readFile_entryOf_eq_ok {t : FileTree} {root : Path} {content : Bytes}
    (h : t.readFile (entryOf root name) = .ok content) :
    ∃ place mode, opened t root = .ok place ∧
      t.at? (place ++ [name]) = some (.file mode content) := by
  rw [readFile_entryOf hname hup] at h
  obtain ⟨⟨⟩, -, h⟩ := bind_eq_ok.mp h
  obtain ⟨place, hopened, h⟩ := bind_eq_ok.mp h
  obtain ⟨⟨⟩, -, h⟩ := bind_eq_ok.mp h
  rcases hnode : t.at? (place ++ [name]) with - | (- | ⟨mode, stored⟩)
  · rw [hnode] at h
    cases h
  · rw [hnode] at h
    cases h
  · rw [hnode] at h
    cases h
    exact ⟨place, mode, hopened, hnode⟩

end Entries

/-! ### Making the directory -/

/-- A path is not refused for being missing. -/
theorem ne_missing_of_checkPath {p : Path} {e : FileError} (h : checkPath p = .error e) :
    e ≠ .missing := by
  rintro rfl
  unfold checkPath at h
  split at h
  · cases h
  · split at h <;> cases h

/-- The directory of the entries is the last ancestor to be made. -/
theorem ancestor_entriesOf (root : Path) :
    ∃ n, (entriesOf root).names.length = n + 1 ∧
      (entriesOf root).ancestor (n + 1) = entriesOf root := by
  have hcert : Path.isName "cert" = true := by decide
  have hnames := Path.length_names_down root [] hcert
  refine ⟨_, hnames, ?_⟩
  have hancestor := Path.ancestor_down root [] hcert
  rwa [hnames] at hancestor

/-- Where the root is a directory, no ancestor is made, only the directory of the entries. -/
theorem createDirectories_entriesOf {t : FileTree} {root : Path} {place : Place}
    (h : t.enter (t.start root) root.steps = .ok place) :
    FileTree.calls.createDirectories (entriesOf root) t = match checkPath (entriesOf root) with
      | .error e => (.error e, t)
      | .ok () => match t.at? (place ++ ["cert"]) with
        | none => (.ok (), t.insert (place ++ ["cert"]) .directory)
        | some .directory => (.ok (), t)
        | some (.file _ _) => (.error .exists, t) := by
  obtain ⟨n, hnames, hancestor⟩ := ancestor_entriesOf root
  have hlocate := locate_entriesOf t root
  rw [h] at hlocate
  rw [FileSystem.createDirectories, hnames, createAncestor_run, hancestor, createDirectory]
  unfold thereOr isDirectory
  rw [hlocate]
  rcases hcheck : checkPath (entriesOf root) with e | ⟨⟩
  -- the path is refused, which is no reason to make an ancestor
  · have hne := ne_missing_of_checkPath hcheck
    cases e <;> first | exact absurd rfl hne | rfl
  · simp only [bind, Except.bind, pure, Except.pure]
    rcases Option.eq_none_or_eq_some (t.at? (place ++ ["cert"])) with hnode | ⟨node, hnode⟩
    · simp only [hnode]
    · simp only [hnode]
      rcases node with - | ⟨mode, content⟩ <;> rfl

/-! ### Accesses of a tree -/

/-- The record of an entry, where there is a file. -/
def recordIn (t : FileTree) (root : Path) (name : String) : Except Fault (Option Bytes) :=
  orMissing none ((t.readFile (entryOf root name)).map some)

/-- The names of the entries. -/
def namesIn (t : FileTree) (root : Path) : Except Fault (List String) :=
  (orMissing [] (t.listDirectory (entriesOf root))).map shown

end TrustStore.Storage.Directory

namespace TrustStore.Registry.Access

open Storage.Directory FileTree

variable {α : Type}

/-- What an access does to a tree. -/
def onTree (root : Path) (t : FileTree) : Access α → Except Fault α × FileTree
  | refuse e => (.error e, t)
  | list answer => ((namesIn t root).map answer, t)
  | read name answer => ((recordIn t root name >>= entryOf?).map answer, t)
  | delete name answer =>
    match t.removeFile (entryOf root name) with
    | .ok t' => (.ok answer, t')
    | .error e => ((orMissing () (.error e)).map fun _ => answer, t)
  | store e answer =>
    let (result, t') := saved t (entryOf root e.name) (entryOf root (stagingName e.name)) e.record
    (result.map fun _ => answer, t')

/-- What an access does over a directory is what it does to the tree. -/
theorem run_ofDirectory {a : Access α} (ha : a.Proper) (root : Path) (t : FileTree) :
    (a.run (Storage.ofDirectory FileTree.calls root)).run t = a.onTree root t := by
  rcases a with e | answer | ⟨name, answer⟩ | ⟨name, answer⟩ | ⟨e, answer⟩
  · rfl
  · refine (map_run answer _ t).trans ?_
    rw [list_run (listedPath_directory root)]
    rfl
  · refine (bind_run _ _ t).trans ?_
    rw [get_run (pathOf_keyOf ha.valid root)]
    show _ = ((recordIn t root name >>= entryOf?).map answer, t)
    rw [recordIn]
    rcases orMissing none ((t.readFile (entryOf root name)).map some) with e | record <;> rfl
  · refine (map_run (fun _ => answer) _ t).trans ?_
    rw [delete_run (pathOf_keyOf ha.valid root), onTree]
    rcases t.removeFile (entryOf root name) with e | t' <;> rfl
  · refine (map_run (fun _ => answer) _ t).trans ?_
    rw [put_run_keyOf ha.name.valid]
    rfl

end TrustStore.Registry.Access

namespace TrustStore.Registry

open Storage.Directory

/-- So is what a step does. -/
theorem perform_ofDirectory (root : Path) (step : Step) (t : FileTree) :
    step.perform (Storage.ofDirectory FileTree.calls root) t
      = (step.call.access step.ceilings).onTree root t := by
  rw [perform_eq_run]
  exact Access.run_ofDirectory (proper_access step.ceilings step.call) root t

end TrustStore.Registry

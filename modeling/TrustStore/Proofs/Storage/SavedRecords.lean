import TrustStore.Proofs.Storage.EntryFiles
import TrustStore.Proofs.Text.Ascending

/-!
# Saved records

Below a root whose paths are short enough and without zeros, nothing stands in the way of a record
whose name has 250 bytes: it is saved (`saved_eq_ok`), and the tree differs from the one before in
the file of the entry and in the directory of the entries, which is there then.  For a longer name
the staging file cannot be written, and only that directory is made (`saved_long`).
-/

namespace TrustStore.Storage.Directory

open FileTree

/-! ### Paths that fit -/

/-- The paths of all entries below a root can be used, for names of 250 bytes. -/
structure Fits (root : Path) : Prop where
  noNul : ∀ piece ∈ root.pieces, '\x00' ∉ piece.toList
  short : root.toText.utf8ByteSize + 261 ≤ 4095

/-- A name without a zero byte adds none to the path of its entry. -/
theorem nul_not_mem_entryOf {name : String} (hnul : '\x00' ∉ name.toList) :
    ∀ piece ∈ ["cert", name], '\x00' ∉ piece.toList := by
  intro piece hpiece
  rcases List.mem_cons.mp hpiece with rfl | hpiece
  · decide
  · obtain rfl := List.mem_singleton.mp hpiece
    exact hnul

section Fits

variable {root : Path} (hroot : Fits root)

include hroot

/-- Without zeros only the length of a path counts. -/
theorem Fits.checkPath_down_eq {names : List String}
    (hnul : ∀ name ∈ names, '\x00' ∉ name.toList) :
    checkPath (root.down names)
      = if 4095 < (root.down names).toText.utf8ByteSize then .error .nameTooLong else .ok () := by
  have hpieces : ((root.down names).pieces.any fun piece => piece.toList.contains '\x00')
      = false := by
    rw [List.any_eq_false]
    intro piece hpiece hcontains
    rw [List.contains_iff_mem] at hcontains
    rcases List.mem_append.mp hpiece with hbase | hname
    · refine hroot.noNul piece ?_ hcontains
      unfold Path.basePieces at hbase
      split at hbase
      · exact List.dropLast_subset _ hbase
      · exact hbase
    · exact hnul piece hname hcontains
  rw [checkPath, hpieces, if_neg Bool.false_ne_true]

/-- Below a root that leaves room for them, short names make a path that is accepted. -/
theorem Fits.checkPath_down {names : List String} (hnul : ∀ name ∈ names, '\x00' ∉ name.toList)
    (hshort : Path.slashedSize names ≤ 261) : checkPath (root.down names) = .ok () := by
  have hsize := Path.utf8ByteSize_down_le root names
  have hlimit := hroot.short
  rw [hroot.checkPath_down_eq hnul, if_neg (by omega)]

theorem Fits.checkPath_entriesOf : checkPath (entriesOf root) = .ok () := by
  refine hroot.checkPath_down ?_ (by decide)
  intro name hname
  obtain rfl := List.mem_singleton.mp hname
  decide

theorem Fits.checkPath_entryOf {name : String} (hnul : '\x00' ∉ name.toList)
    (hshort : name.utf8ByteSize ≤ 255) : checkPath (entryOf root name) = .ok () := by
  refine hroot.checkPath_down (nul_not_mem_entryOf hnul) ?_
  have hcert : "cert".utf8ByteSize = 4 := rfl
  rw [Path.slashedSize_cons, Path.slashedSize_cons, hcert]
  show 1 + 4 + (1 + name.utf8ByteSize + 0) ≤ 261
  omega

end Fits

/-- A staging name has a zero byte only from its entry. -/
theorem nul_not_mem_stagingName {name : String} (h : '\x00' ∉ name.toList) :
    '\x00' ∉ (stagingName name).toList := by
  rw [toList_stagingName]
  intro hmem
  rcases List.mem_cons.mp hmem with hdot | hmem
  · revert hdot
    decide
  · rcases List.mem_append.mp hmem with hmem | hmem
    · exact h hmem
    · revert hmem
      decide

/-! ### Changes that keep the way -/

/-- The entries stay where they are in a tree that keeps all directories. -/
theorem opened_of_directories {t t' : FileTree} {root : Path} {place : Place}
    (hcwd : t'.workingDirectory = t.workingDirectory)
    (hdir : ∀ q, t.at? q = some .directory → t'.at? q = some .directory)
    (h : opened t root = .ok place) : opened t' root = .ok place := by
  have hstart : t'.start root = t.start root := by
    rw [FileTree.start, FileTree.start, hcwd]
  rw [opened, hstart]
  exact enter_eq_ok_of_directories hdir h

/-- A file in place of what is no directory leaves the way open. -/
theorem opened_insert_file {t : FileTree} {root : Path} {place q : Place} {mode : Nat}
    {content : Bytes} (hq : t.at? q ≠ some .directory) (h : opened t root = .ok place) :
    opened (t.insert q (.file mode content)) root = .ok place :=
  opened_of_directories (t := t) rfl (fun _ hr => directory_insert hq hr _) h

/-- The directory of the entries is made where it is missing. -/
theorem createDirectories_eq_ok {t : FileTree} {root : Path} {place : Place} (hroot : Fits root)
    (h : t.enter (t.start root) root.steps = .ok place)
    (hnode : t.at? (place ++ ["cert"]) = none ∨ t.at? (place ++ ["cert"]) = some .directory) :
    ∃ t₁, FileTree.calls.createDirectories (entriesOf root) t = (.ok (), t₁) ∧
      t₁.workingDirectory = t.workingDirectory ∧ opened t₁ root = .ok (place ++ ["cert"]) ∧
      ∀ q, t₁.at? q = if q = place ++ ["cert"] then some .directory else t.at? q := by
  rw [createDirectories_entriesOf h, hroot.checkPath_entriesOf]
  rcases hnode with hnone | hdir
  -- the directory is made, and the root is still where it was
  · have hat := at?_insert t (by simp : place ++ ["cert"] ≠ []) .directory
    refine ⟨t.insert (place ++ ["cert"]) .directory, by rw [hnone], rfl, ?_, hat⟩
    have henter : (t.insert (place ++ ["cert"]) .directory).enter
        ((t.insert (place ++ ["cert"]) .directory).start root) root.steps = .ok place := by
      refine enter_eq_ok_of_directories (fun q hq => ?_) h
      rw [hat]
      split
      · rfl
      · exact hq
    rw [opened_of_enter henter, hat, if_pos rfl]
  -- the directory is there already
  · refine ⟨t, by rw [hdir], rfl, ?_, fun q => ?_⟩
    · rw [opened_of_enter h, hdir]
    · split
      · rename_i hq
        rw [hq, hdir]
      · rfl

/-! ### Calls on a file of the directory -/

/-- A file name in the directory of the entries, whose path can be used. -/
structure Reaches (t : FileTree) (root : Path) (place : Place) (name : String) : Prop where
  opened : opened t root = .ok place
  check : checkPath (entryOf root name) = .ok ()
  isName : Path.isName name = true
  ne_up : name ≠ ".."
  short : name.utf8ByteSize ≤ 255

namespace Reaches

variable {t : FileTree} {root : Path} {place : Place} {name : String}

/-- A file that is put where no directory was is on no way. -/
theorem insert_file (h : Reaches t root place name) {q : Place} (hq : t.at? q ≠ some .directory)
    (mode : Nat) (content : Bytes) : Reaches (t.insert q (.file mode content)) root place name :=
  { h with opened := opened_insert_file hq h.opened }

/-- A name that is reached is approached in its directory. -/
theorem approach (h : Reaches t root place name) :
    t.approach (entryOf root name) = .ok (place, name) := by
  rw [approach_entryOf h.isName, h.check, h.opened, checkName_eq_ok h.short]
  rfl

theorem locate (h : Reaches t root place name) :
    t.locate (entryOf root name) = .ok (place ++ [name]) := by
  rw [locate_entryOf h.isName h.ne_up, h.check, h.opened, checkName_eq_ok h.short]
  rfl

theorem isChildName (h : Reaches t root place name) : isChildName name = true :=
  isChildName_iff.mpr ⟨(Path.isName_iff.mp h.isName).2, h.ne_up⟩

/-- A new file is written. -/
theorem writeFile (h : Reaches t root place name) (hnone : t.at? (place ++ [name]) = none)
    (content : Bytes) : t.writeFile (entryOf root name) content
      = .ok (t.insert (place ++ [name]) (.file newFileMode content)) := by
  rw [FileTree.writeFile, h.locate, slashed_entryOf h.isName]
  simp only [bind, Except.bind, hnone]
  rfl

/-- The mode of a file is set. -/
theorem setMode (h : Reaches t root place name) {mode : Nat} {content : Bytes}
    (hfile : t.at? (place ++ [name]) = some (.file mode content)) (mode' : Nat) :
    t.setMode (entryOf root name) mode'
      = .ok (t.insert (place ++ [name]) (.file mode' content)) := by
  rw [FileTree.setMode, h.locate, slashed_entryOf h.isName]
  simp only [bind, Except.bind, hfile]
  rfl

/-- A staged file is moved to the name of its entry. -/
theorem rename {staged : String} (h : Reaches t root place name)
    (hstaged : Reaches t root place staged) {mode : Nat} {content : Bytes}
    (hfile : t.at? (place ++ [staged]) = some (.file mode content))
    (hdir : t.at? (place ++ [name]) ≠ some .directory) :
    t.rename (entryOf root staged) (entryOf root name)
      = .ok ((t.erase (place ++ [staged])).insert (place ++ [name]) (.file mode content)) := by
  rw [FileTree.rename, hstaged.locate, h.approach, slashed_entryOf h.isName]
  simp only [bind, Except.bind, h.isChildName, hfile]
  exact if_neg hdir

/-- A file is removed, if there is one. -/
theorem removeFile (h : Reaches t root place name) :
    t.removeFile (entryOf root name) = match t.at? (place ++ [name]) with
      | none => .error .missing
      | some .directory => .error .isDirectory
      | some (.file _ _) => .ok (t.erase (place ++ [name])) := by
  rw [FileTree.removeFile, h.approach, slashed_entryOf h.isName]
  simp only [bind, Except.bind, h.isChildName]
  rfl

/-- A file is read, if there is one. -/
theorem readFile (h : Reaches t root place name) :
    t.readFile (entryOf root name) = match t.at? (place ++ [name]) with
      | none => .error .missing
      | some .directory => .error .isDirectory
      | some (.file _ content) => .ok content := by
  rw [readFile_entryOf h.isName h.ne_up, h.check, h.opened, checkName_eq_ok h.short]
  rfl

end Reaches

/-! ### Saving a record -/

section Saved

variable {t : FileTree} {root : Path} {place : Place} {name : String}

/-- The file of an entry with a short name is reached. -/
theorem reaches_entry (hroot : Fits root) (h : opened t root = .ok place)
    (hname : Entry.isValidName name = true) (hshort : name.utf8ByteSize ≤ 255) :
    Reaches t root place name where
  opened := h
  check := hroot.checkPath_entryOf (Entry.nul_not_mem_of_isValidName hname) hshort
  isName := isName_of_isValidName hname
  ne_up := Entry.ne_up_of_isValidName hname
  short := hshort

/-- So is its staging file, if the name leaves room for five more bytes. -/
theorem reaches_staged (hroot : Fits root) (h : opened t root = .ok place)
    (hname : Entry.isValidName name = true) (hshort : name.utf8ByteSize ≤ 250) :
    Reaches t root place (stagingName name) where
  opened := h
  check := by
    refine hroot.checkPath_entryOf
      (nul_not_mem_stagingName (Entry.nul_not_mem_of_isValidName hname)) ?_
    rw [utf8ByteSize_stagingName]
    omega
  isName := isName_stagingName name
  ne_up := stagingName_ne_up name
  short := by
    rw [utf8ByteSize_stagingName]
    omega

/-- The three calls that write a record, where the directory is open. -/
theorem saved_of_opened (hroot : Fits root) (h : opened t root = .ok place)
    (hname : Entry.isValidName name = true) (hshort : name.utf8ByteSize ≤ 250)
    (hstaged : t.at? (place ++ [stagingName name]) = none)
    (hdir : t.at? (place ++ [name]) ≠ some .directory) (value : Bytes) :
    ∃ t₂ t₃ t₄, t.writeFile (entryOf root (stagingName name)) value = .ok t₂ ∧
      t₂.setMode (entryOf root (stagingName name)) recordMode = .ok t₃ ∧
      t₃.rename (entryOf root (stagingName name)) (entryOf root name) = .ok t₄ ∧
      t₄.workingDirectory = t.workingDirectory ∧
      ∀ q, t₄.at? q = if q = place ++ [name] then some (.file recordMode value) else t.at? q := by
  have hne : place ++ [name] ≠ place ++ [stagingName name] := by
    intro heq
    exact stagingName_ne_of_head (Entry.head?_ne_dot_of_isValidName hname)
      (List.singleton_inj.mp (List.append_cancel_left heq))
  have hnodir := ne_directory_of_none hstaged
  -- the staging file is written
  have hat₂ := at?_insert t (by simp : place ++ [stagingName name] ≠ [])
    (.file newFileMode value)
  have hreach₂ := (reaches_staged hroot h hname hshort).insert_file hnodir newFileMode value
  have hnode₂ := (hat₂ (place ++ [stagingName name])).trans (if_pos rfl)
  -- it is made private
  have hnodir₂ := ne_directory_of_file hnode₂
  have hat₃ := at?_insert (t.insert (place ++ [stagingName name]) (.file newFileMode value))
    (by simp : place ++ [stagingName name] ≠ []) (.file recordMode value)
  have hreach₃ := hreach₂.insert_file hnodir₂ recordMode value
  have hentry₃ := ((reaches_entry hroot h hname (by omega)).insert_file hnodir newFileMode
    value).insert_file hnodir₂ recordMode value
  have hnode₃ := (hat₃ (place ++ [stagingName name])).trans (if_pos rfl)
  -- it is moved to its place
  refine ⟨_, _, _, (reaches_staged hroot h hname hshort).writeFile hstaged value,
    hreach₂.setMode hnode₂ recordMode, hentry₃.rename hreach₃ hnode₃ ?_, rfl, fun q => ?_⟩
  · rw [hat₃, if_neg hne, hat₂, if_neg hne]
    exact hdir
  · rw [at?_insert _ (by simp), at?_erase _ (by simp), hat₃, hat₂]
    rcases eq_or_ne q (place ++ [name]) with rfl | hq
    · rw [if_pos rfl, if_pos rfl]
    · rw [if_neg hq, if_neg hq]
      rcases eq_or_ne q (place ++ [stagingName name]) with rfl | hq'
      · rw [if_pos rfl, hstaged]
      · rw [if_neg hq', if_neg hq', if_neg hq']

/-- Where nothing is in the way of it, a record is saved and nothing else is changed. -/
theorem saved_eq_ok (hroot : Fits root) (h : t.enter (t.start root) root.steps = .ok place)
    (hnode : t.at? (place ++ ["cert"]) = none ∨ t.at? (place ++ ["cert"]) = some .directory)
    (hname : Entry.isValidName name = true) (hshort : name.utf8ByteSize ≤ 250)
    (hstaged : t.at? (place ++ ["cert"] ++ [stagingName name]) = none)
    (hdir : t.at? (place ++ ["cert"] ++ [name]) ≠ some .directory) (value : Bytes) :
    ∃ t', saved t (entryOf root name) (entryOf root (stagingName name)) value = (.ok (), t') ∧
      t'.workingDirectory = t.workingDirectory ∧
      ∀ q, t'.at? q = if q = place ++ ["cert"] ++ [name] then some (.file recordMode value)
        else if q = place ++ ["cert"] then some .directory else t.at? q := by
  obtain ⟨t₁, hmade, hcwd, hopened, hat⟩ := createDirectories_eq_ok hroot h hnode
  have hkept : ∀ child, t₁.at? (place ++ ["cert"] ++ [child])
      = t.at? (place ++ ["cert"] ++ [child]) := by
    intro child
    rw [hat, if_neg (by simp)]
  -- what is made first are directories above, so that the two files are as they were
  obtain ⟨t₂, t₃, t₄, hwrite, hset, hrename, hcwd', hat'⟩ := saved_of_opened hroot hopened hname
    hshort ((hkept _).trans hstaged) (by rw [hkept]; exact hdir) value
  refine ⟨t₄, ?_, hcwd'.trans hcwd, fun q => ?_⟩
  · rw [saved, parent_entryOf hname, hmade]
    dsimp only
    rw [hwrite]
    dsimp only
    rw [hset]
    dsimp only
    rw [hrename]
  · rw [hat', hat]

/-! ### Records whose staging files have too long names -/

/-- A file whose name is too long cannot be reached, however short the path of the root is. -/
theorem locate_entryOf_long (hroot : Fits root) (hopened : opened t root = .ok place)
    (hname : Path.isName name = true) (hup : name ≠ "..") (hnul : '\x00' ∉ name.toList)
    (hlong : 255 < name.utf8ByteSize) : t.locate (entryOf root name) = .error .nameTooLong := by
  have hcheck : checkName name = .error .nameTooLong := if_pos hlong
  rw [locate_entryOf hname hup, entryOf, hroot.checkPath_down_eq (nul_not_mem_entryOf hnul),
    hopened, hcheck]
  split <;> rfl

/-- For a name of more than 250 bytes the directory of the entries is made and no more. -/
theorem saved_long (hroot : Fits root) (h : t.enter (t.start root) root.steps = .ok place)
    (hnode : t.at? (place ++ ["cert"]) = none ∨ t.at? (place ++ ["cert"]) = some .directory)
    (hname : Entry.isValidName name = true) (hlong : 250 < name.utf8ByteSize) (value : Bytes) :
    ∃ t', saved t (entryOf root name) (entryOf root (stagingName name)) value
        = (.error (.file .nameTooLong), t') ∧ t'.workingDirectory = t.workingDirectory ∧
      ∀ q, t'.at? q = if q = place ++ ["cert"] then some .directory else t.at? q := by
  obtain ⟨t₁, hmade, hcwd, hopened, hat⟩ := createDirectories_eq_ok hroot h hnode
  have hstaged : 255 < (stagingName name).utf8ByteSize := by
    rw [utf8ByteSize_stagingName]
    omega
  have hnul := nul_not_mem_stagingName (Entry.nul_not_mem_of_isValidName hname)
  have hlocate := locate_entryOf_long hroot hopened (isName_stagingName name)
    (stagingName_ne_up name) hnul hstaged
  refine ⟨t₁, ?_, hcwd, hat⟩
  rw [saved, parent_entryOf hname, hmade]
  dsimp only
  rw [FileTree.writeFile, hlocate]
  rfl

end Saved

end TrustStore.Storage.Directory

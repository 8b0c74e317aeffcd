import TrustStore.Proofs.Storage.KeyPaths

/-!
# Puts that fail

A record is stored in steps, and none of them is taken back: a put that fails leaves what the steps
before the failure have done.  `PutFails` says what that is, whatever is in the tree and whatever
the key: nothing, where the key is not taken; else directories that were missing above the record,
and, if it is the last step that fails, the staging file, which holds the value (`putFails`).  Where
the record should have been nothing is changed, nor anywhere else.
-/

namespace TrustStore.Storage.Directory

open FileTree

/-! ### What is left -/

/-- The places of the directories above the record of a key with the given names before its last
one, those above the root among them. -/
def wayAbove (t : FileTree) (root : Path) (above : List String) : Set Place :=
  wayTo (t.start root) (root.steps ++ above)

/-- How a put fails, and the tree that it leaves. -/
inductive PutFails (t : FileTree) (root : Path) (key : String) (value : Bytes) :
    Fault → FileTree → Prop where
  /-- The key is not taken. -/
  | refused (hkey : ¬ IsAccepted key) :
    PutFails t root key value (.storage (.invalidKey key)) t
  /-- The directories above the record cannot be made, or its staging file cannot be written. -/
  | unstaged (hkey : IsAccepted key) {above : List String} {name : String}
    (hparts : partsOf key = above ++ [name]) {cause : FileError} {t' : FileTree}
    (hleft : Confined (wayAbove t root above) ∅ t t') :
    PutFails t root key value (.file cause) t'
  /-- The staging file cannot be moved: the key goes on after its last name, there is a directory in
  place of the record, or the path is too long. -/
  | unmoved (hkey : IsAccepted key) {above : List String} {name : String}
    (hparts : partsOf key = above ++ [name]) {directory : Place}
    (hdirectory : directory = walked (t.start root) (root.steps ++ above))
    {cause : FileError} {t' : FileTree}
    (hleft : Confined (wayAbove t root above) {directory ++ [stagingName name]} t t')
    (hbefore : t.at? (directory ++ [stagingName name]) ≠ some .directory)
    (hstaged : t'.at? (directory ++ [stagingName name]) = some (.file recordMode value))
    (hcause : endsOpen key = true ∨ t'.at? (directory ++ [name]) = some .directory ∨
      checkPath (root.down (stepsOf key)) ≠ .ok ()) :
    PutFails t root key value (.file cause) t'

section

variable {t t' : FileTree} {root : Path} {key : String} {above : List String} {name : String}
  {before after : List String} (h : Written key above name before after)

include h

/-- Above a record only missing directories are made. -/
theorem Written.confined_createDirectories (t : FileTree) (root : Path) :
    Confined (wayAbove t root above) ∅ t
      (calls.createDirectories (root.down (stepsOf key)).parent t).2 := by
  have hwithin : Within root (t.start root) (wayAbove t root above)
      (root.down (stepsOf key)).parent :=
    ⟨Path.absolute_ancestor _ _, (h.wayTo_parent root (t.start root)).subset⟩
  exact (Confined.refl _ ∅ t).createDirectories hwithin

/-- A record has been staged: the directory of its key is there, the staging file is in it, and all
else has stayed, but for directories that were missing on the way. -/
structure Staged (t t' : FileTree) (root : Path) (key : String) (above : List String)
    (name : String) (value : Bytes) (directory : Place) : Prop where
  entered : t'.enter (t'.start root) (root.steps ++ above) = .ok directory
  short : (stagingName name).utf8ByteSize ≤ 255
  located : t'.locate (stagingOf (root.down (stepsOf key)) name)
    = .ok (directory ++ [stagingName name])
  file : t'.at? (directory ++ [stagingName name]) = some (.file recordMode value)
  before : t.at? (directory ++ [stagingName name]) ≠ some .directory
  left : Confined (wayAbove t root above) {directory ++ [stagingName name]} t t'

/-- The staging file has been written, and its mode set. -/
theorem Written.exists_staged {t₁ t₂ : FileTree} {value : Bytes}
    (hmade : Confined (wayAbove t root above) ∅ t t₁)
    (hwritten : t₁.writeFile (stagingOf (root.down (stepsOf key)) name) value = .ok t₂)
    (hset : t₂.setMode (stagingOf (root.down (stepsOf key)) name) recordMode = .ok t') :
    ∃ directory, Staged t t' root key above name value directory := by
  obtain ⟨q, t₃, -, hdir, hset', hq, hcwd, hnodes⟩ :=
    setMode_of_written (slashed_stagingOf _ name) hwritten recordMode
  rw [hset] at hset'
  obtain rfl := Except.ok.inj hset'
  have hlocate := hq
  rw [h.locate_stagingOf] at hlocate
  obtain ⟨⟨⟩, -, hlocate⟩ := bind_eq_ok.mp hlocate
  obtain ⟨directory, henter, hlocate⟩ := bind_eq_ok.mp hlocate
  obtain ⟨⟨⟩, hname, hlocate⟩ := bind_eq_ok.mp hlocate
  obtain rfl := Except.ok.inj hlocate
  refine ⟨directory, henter, short_of_checkName hname, hq, (hnodes _).trans (if_pos rfl), ?_,
    hcwd.trans hmade.workingDirectory, fun r hr => ?_⟩
  · rcases hmade.nodes (directory ++ [stagingName name]) (Set.notMem_empty _) with
      hsame | ⟨-, -, hnew⟩
    · exact hsame ▸ hdir
    · exact absurd hnew hdir
  -- elsewhere it is as the directories have left it
  · have hne : r ≠ directory ++ [stagingName name] := hr
    rw [hnodes r, if_neg hne]
    exact hmade.nodes r (Set.notMem_empty r)

/-- What has been staged can be moved, unless the path of the key does not end with a name that a
file may have. -/
theorem Written.rename_cause {value : Bytes} {directory : Place} (hup : name ≠ "..")
    (hstaged : Staged t t' root key above name value directory) {cause : FileError}
    (hmoved : t'.rename (stagingOf (root.down (stepsOf key)) name) (root.down (stepsOf key))
      = .error cause) :
    endsOpen key = true ∨ t'.at? (directory ++ [name]) = some .directory ∨
      checkPath (root.down (stepsOf key)) ≠ .ok () := by
  by_contra hnone
  simp only [not_or, not_not] at hnone
  obtain ⟨hclosed, hdir, hpath⟩ := hnone
  have hname : checkName name = .ok () := by
    have hshort := hstaged.short
    rw [utf8ByteSize_stagingName] at hshort
    exact checkName_eq_ok (by omega)
  have hchild : isChildName name = true :=
    isChildName_iff.mpr ⟨(Path.isName_iff.mp h.isName).2, hup⟩
  -- none of the three would let the staged file be moved
  rcases h.approach_cases root t' with ⟨happroach, hslashed⟩ | ⟨-, hopen⟩
  · rw [hpath, hstaged.entered, hname] at happroach
    have happroach' : t'.approach (root.down (stepsOf key)) = .ok (directory, name) := happroach
    rw [rename, hstaged.located, happroach'] at hmoved
    simp only [bind, Except.bind, hchild, hstaged.file, hslashed, hclosed, hdir] at hmoved
    cases hmoved
  · exact hclosed hopen

end

/-- Whatever the tree and the root, the key and the value: this is how a put fails. -/
theorem putFails {t t' : FileTree} {root : Path} {key : String} {value : Bytes} {e : Fault}
    (h : ((ofDirectory calls root).put key value).run t = (.error e, t')) :
    PutFails t root key value e t' := by
  by_cases hkey : IsAccepted key
  -- by the call that fails
  · obtain ⟨above, name, hparts⟩ := hkey.exists_partsOf_eq_concat
    obtain ⟨before, after, hkeyWritten⟩ := exists_written hparts
    rw [put_run_accepted hkey hparts] at h
    have hmade := hkeyWritten.confined_createDirectories t root
    have hends := saveEnds t (root.down (stepsOf key)) (stagingOf (root.down (stepsOf key)) name) value
    rw [h] at hends
    cases hends with
    | notMade hcreate =>
      rw [hcreate] at hmade
      exact .unstaged hkey hparts hmade
    | notWritten hcreate =>
      rw [hcreate] at hmade
      exact .unstaged hkey hparts hmade
    -- the mode of a file that has just been written can be set
    | notSet _ hwritten hset =>
      obtain ⟨_, _, -, -, hset', -⟩ :=
        setMode_of_written (slashed_stagingOf _ name) hwritten recordMode
      rw [hset] at hset'
      cases hset'
    | notMoved hcreate hwritten hset hmoved =>
      rw [hcreate] at hmade
      obtain ⟨directory, hstaged⟩ := hkeyWritten.exists_staged hmade hwritten hset
      have hup : name ≠ ".." := (hkey.goDown_concat hparts).last.2
      have hstart : t'.start root = t.start root := hstaged.left.start root
      refine .unmoved hkey hparts ?_ hstaged.left hstaged.before hstaged.file
        (hkeyWritten.rename_cause hup hstaged hmoved)
      rw [enter_eq_walked hstaged.entered, hstart]
  · rw [put_run_refused hkey] at h
    cases h
    exact .refused hkey

/-- What was there is still there, unless it was the staging file, which holds the value then. -/
theorem PutFails.kept {t t' : FileTree} {root : Path} {key : String} {value : Bytes} {e : Fault}
    (h : PutFails t root key value e t') {q : Place} {node : Node} (hq : t.at? q = some node) :
    t'.at? q = some node ∨ ∃ above name, partsOf key = above ++ [name] ∧
      q = walked (t.start root) (root.steps ++ above) ++ [stagingName name] ∧
      t'.at? q = some (.file recordMode value) := by
  have hkept {way own : Set Place} (hleft : Confined way own t t') (hown : q ∉ own) :
      t'.at? q = some node := by
    rcases hleft.nodes q hown with hsame | ⟨-, hnone, -⟩
    · exact hsame.trans hq
    · rw [hnone] at hq
      cases hq
  cases h with
  | refused _ => exact Or.inl hq
  | unstaged _ _ hleft => exact Or.inl (hkept hleft (Set.notMem_empty q))
  -- only a put that has come to the last call has touched a file
  | @unmoved _ above name hparts directory hdirectory _ _ hleft _ hstaged =>
    subst hdirectory
    rcases eq_or_ne q (walked (t.start root) (root.steps ++ above) ++ [stagingName name]) with
      rfl | hne
    · exact Or.inr ⟨above, name, hparts, rfl, hstaged⟩
    · exact Or.inl (hkept hleft hne)

/-- A put that fails leaves no more than directories that were missing above the record and its
staging file: whatever was there, the record of the key among it, has stayed as it was, the staging
file excepted. -/
theorem failed_puts_leave_no_more (t : FileTree) (root : Path) (key : String) (value : Bytes)
    (e : Fault) (t' : FileTree)
    (h : ((ofDirectory calls root).put key value).run t = (.error e, t')) :
    PutFails t root key value e t' ∧ ∀ q node, t.at? q = some node → t'.at? q = some node ∨
      ∃ above name, partsOf key = above ++ [name] ∧
        q = walked (t.start root) (root.steps ++ above) ++ [stagingName name] ∧
        t'.at? q = some (.file recordMode value) :=
  ⟨putFails h, fun _ _ hq => (putFails h).kept hq⟩

/-- There is a directory where the file of a key should be. -/
def occupiedTree : FileTree := (FileTree.ofDirectory ["srv"]).insert ["srv", "web"] .directory

/-- The staging file of a put over the directory stays, and the directory does. -/
theorem occupied_place_leaves_staging_file :
    (((ofDirectory calls (.ofText "/srv")).put "web" [120]).run occupiedTree).1
      = .error (.file .isDirectory) ∧
    PutFails occupiedTree (.ofText "/srv") "web" [120] (.file .isDirectory)
      (((ofDirectory calls (.ofText "/srv")).put "web" [120]).run occupiedTree).2 ∧
    (((ofDirectory calls (.ofText "/srv")).put "web" [120]).run occupiedTree).2.at?
      ["srv", ".web.tmp"] = some (.file recordMode [120]) := by
  have hfails : (((ofDirectory calls (.ofText "/srv")).put "web" [120]).run occupiedTree).1
      = .error (.file .isDirectory) := by
    decide +kernel
  refine ⟨hfails, ?_, by decide +kernel⟩
  exact (failed_puts_leave_no_more _ _ _ _ _ _ (Prod.ext hfails rfl)).1

/-- A put that fails may leave something that was not there. -/
theorem failed_put_may_change_tree : ¬ ∀ (t : FileTree) (root : Path) (key : String) (value : Bytes)
    (e : Fault) (t' : FileTree),
    ((ofDirectory calls root).put key value).run t = (.error e, t') →
      ∀ q, t'.at? q = t.at? q := by
  intro h
  have hfails : (((ofDirectory calls (.ofText "/srv")).put "web" [120]).run occupiedTree).1
      = .error (.file .isDirectory) := by
    decide +kernel
  have hsame := h _ _ _ _ _ _ (Prod.ext hfails rfl) ["srv", ".web.tmp"]
  exact absurd hsame (by decide +kernel)

end TrustStore.Storage.Directory

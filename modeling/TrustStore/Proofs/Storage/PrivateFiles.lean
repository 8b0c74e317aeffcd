import TrustStore.Proofs.Storage.OtherKeys
import TrustStore.Proofs.Storage.Queries

/-!
# Private files

A put that succeeds is complete: the value is read back, the record is private whatever has been at
its place or at that of its staging file, the staging file is gone, and all else has stayed, but for
directories above the record that were missing (`Completed`).  Whether they succeed or fail, queries
leave no file that is not private, except for files that have been there all along
(`runAll_privatelyClosed`); so all files are private below a root where there was none.
-/

namespace TrustStore.Storage.Directory

open FileTree

/-! ### Puts that are complete -/

/-- What a put has done whose key has the path `p` with the last name `name`. -/
structure Completed (t t' : FileTree) (root : Path) (key : String) (value : Bytes) (p : Path)
    (name : String) : Prop where
  path : pathOf root key = .ok p
  fileName : p.fileName? = some name
  readBack : ((ofDirectory calls root).get key).run t' = (.ok (some value), t')
  record : t'.at? (endOf t p) = some (.file recordMode value)
  unstaged : t'.at? (endOf t (stagingOf p name)) = none
  above : ∀ q ∈ wayTo (t.start p) p.parent.steps, t'.at? q = some .directory
  others : ∀ q, q ≠ endOf t p → q ≠ endOf t (stagingOf p name) → t'.at? q = t.at? q ∨
    (q ∈ wayTo (t.start p) p.parent.steps ∧ t.at? q = none ∧ t'.at? q = some .directory)
  workingDirectory : t'.workingDirectory = t.workingDirectory

section Completed

variable {t t' : FileTree} {root : Path} {above : List String} {name : String} {value : Bytes}
  {base : Place}

/-- The way of a walk that succeeds is made of directories. -/
theorem directory_of_mem_wayTo (hclosed : t.Closed) {q r : Place}
    (hq : t.at? q = some .directory) {steps : List String} (h : t.enter q steps = .ok r) :
    ∀ s ∈ wayTo q steps, t.at? s = some .directory := by
  rintro s ⟨l, ⟨rest, rfl⟩, rfl⟩
  rw [enter_append] at h
  obtain ⟨place, hplace, -⟩ := bind_eq_ok.mp h
  rw [← enter_eq_walked hplace]
  exact hclosed.enter hq hplace

/-- After a put the directories above its record can be walked through. -/
theorem Filed.entered_above (h : Filed t t' root above name value base) (hdown : GoDown above) :
    t'.enter (t'.start root) (root.steps ++ above) = .ok (base ++ above) := by
  have hplain (step : String) (hstep : step ∈ above) : IsPlainName step :=
    ⟨(hdown.children step hstep).1, (hdown.children step hstep).2,
      h.short step (List.mem_append_left _ hstep)⟩
  rw [enter_append, h.entered]
  exact enter_of_directories hplain h.directories

/-- What has been read does not change the tree. -/
theorem get_run_reading {key : String} (hkey : IsAccepted key) (t : FileTree) :
    ((ofDirectory calls root).get key).run t = (reading t root key, t) := by
  rw [reading, get_run (pathOf_of_isAccepted hkey root)]

/-- A put that succeeds is complete. -/
theorem exists_completed (hclosed : t.Closed) {key : String}
    (h : ((ofDirectory calls root).put key value).run t = (.ok (), t')) :
    ∃ p name, Completed t t' root key value p name := by
  have hkey := isAccepted_of_put h
  obtain ⟨hpath, hopen⟩ := fits_of_put h
  obtain ⟨above, name, hparts⟩ := hkey.exists_partsOf_eq_concat
  obtain ⟨before, after, hwritten⟩ := exists_written hparts
  obtain ⟨base, hfiled⟩ := exists_filed hclosed hkey hparts h
  have hdown := hkey.goDown_concat hparts
  have hclosed' := closed_put hclosed root key value
  rw [h] at hclosed'
  -- the places of the record and of its staging file, from the directory that the root leads to
  have hbase : walked (t.start root) root.steps = base := by
    rw [← hfiled.start, ← enter_eq_walked hfiled.entered]
  have hrecord : endOf t (root.down (stepsOf key)) = base ++ (above ++ [name]) := by
    show walked (t.start root) _ = _
    rw [walked_down, hparts, walked_append, hbase, walked_children hdown.children]
  have hstaging : endOf t (stagingOf (root.down (stepsOf key)) name)
      = base ++ (above ++ [stagingName name]) := by
    show walked (t.start _) _ = _
    rw [start_stagingOf]
    show walked (t.start root) _ = _
    rw [hwritten.walked_stagingOf, walked_append, hbase, walked_children hdown.above.children,
      List.append_assoc]
  have hway : wayTo (t.start root) (root.down (stepsOf key)).parent.steps
      = wayAbove t root above :=
    hwritten.wayTo_parent root (t.start root)
  refine ⟨root.down (stepsOf key), name, pathOf_of_isAccepted hkey root,
    hwritten.fileName?_down root hdown.last.2, ?_, ?_, ?_, ?_, ?_, hfiled.workingDirectory⟩
  · have hsame := (hfiled.showsAfterPut hclosed hdown.above hclosed' hkey).same hpath hparts
    rw [hopen] at hsame
    rw [get_run_reading hkey, hsame]
    rfl
  · rw [hrecord, hfiled.record]
  · rw [hstaging, hfiled.unstaged]
  · show ∀ q ∈ wayTo (t.start root) _, _
    rw [hway, wayAbove, ← hfiled.start]
    exact directory_of_mem_wayTo hclosed' (hclosed'.start root) (hfiled.entered_above hdown.above)
  · show ∀ q, _ → _ → _ ∨ (q ∈ wayTo (t.start root) _ ∧ _)
    rw [hrecord, hstaging, hway]
    exact hfiled.others

end Completed

/-! ### Files that are new -/

/-- Every file is private, or it has been there before. -/
def PrivateSince (t t' : FileTree) : Prop :=
  ∀ place mode content, t'.at? place = some (.file mode content) →
    mode = recordMode ∨ t.at? place = some (.file mode content)

namespace PrivateSince

variable {t t' t'' : FileTree}

theorem refl (t : FileTree) : PrivateSince t t := fun _ _ _ h => Or.inr h

/-- Files that are new since the one tree or since the other are private. -/
theorem trans (h : PrivateSince t t') (h' : PrivateSince t' t'') : PrivateSince t t'' := by
  intro place mode content hfile
  rcases h' place mode content hfile with hmode | hbefore
  · exact Or.inl hmode
  · exact h place mode content hbefore

/-- Files are new at own places only. -/
theorem of_confined {way own : Set Place} (h : Confined way own t t')
    (hown : ∀ q ∈ own, ∀ mode content, t'.at? q = some (.file mode content) → mode = recordMode) :
    PrivateSince t t' := by
  intro place mode content hfile
  by_cases hplace : place ∈ own
  · exact Or.inl (hown place hplace mode content hfile)
  · rcases h.nodes place hplace with hsame | ⟨-, -, hmade⟩
    · exact Or.inr (hsame ▸ hfile)
    · rw [hmade] at hfile
      cases hfile

end PrivateSince

section Steps

variable {t t' : FileTree} {root : Path} {key : String} {value : Bytes}

/-- A put that is complete has written a private file. -/
theorem Completed.privateSince {p : Path} {name : String}
    (h : Completed t t' root key value p name) : PrivateSince t t' := by
  have hconfined : Confined (wayTo (t.start p) p.parent.steps)
      {endOf t p, endOf t (stagingOf p name)} t t' := by
    refine ⟨h.workingDirectory, fun q hq => ?_⟩
    rw [Set.mem_insert_iff, Set.mem_singleton_iff, not_or] at hq
    exact h.others q hq.1 hq.2
  refine .of_confined hconfined ?_
  rintro q (rfl | rfl) mode content hfile
  · rw [h.record] at hfile
    cases hfile
    rfl
  · rw [h.unstaged] at hfile
    cases hfile

/-- A put that has failed may have written one, the staging file. -/
theorem PutFails.privateSince {e : Fault} (h : PutFails t root key value e t') :
    PrivateSince t t' := by
  cases h with
  | refused _ => exact .refl t
  | unstaged _ _ hleft => exact .of_confined hleft fun q hq => absurd hq (Set.notMem_empty q)
  | unmoved _ _ _ hleft _ hstaged _ =>
    refine .of_confined hleft ?_
    rintro q rfl mode content hfile
    rw [hstaged] at hfile
    cases hfile
    rfl

/-- A delete writes no file. -/
theorem privateSince_of_removeFile {p : Path} (h : t.removeFile p = .ok t') :
    PrivateSince t t' := by
  obtain ⟨place, name, -, -, hdir, rfl⟩ := removeFile_eq_ok h
  intro q mode content hfile
  rw [at?_erase t (ne_root hdir)] at hfile
  split at hfile
  · cases hfile
  · exact Or.inr hfile

/-- No put leaves a file that is not private. -/
theorem privateSince_put (hclosed : t.Closed) (root : Path) (key : String) (value : Bytes) :
    PrivateSince t (((ofDirectory calls root).put key value).run t).2 := by
  rcases hput : ((ofDirectory calls root).put key value).run t with ⟨e | ⟨⟩, t'⟩
  · exact (putFails hput).privateSince
  · obtain ⟨p, name, hcompleted⟩ := exists_completed hclosed hput
    exact hcompleted.privateSince

end Steps

/-! ### Queries -/

/-- A tree that is closed, and whose files are private or have been in `t`. -/
structure PrivatelyClosed (t t' : FileTree) : Prop where
  closed : t'.Closed
  files : PrivateSince t t'

variable {t t' : FileTree} {root : Path}

/-- No query does. -/
theorem PrivatelyClosed.step {t'' : FileTree} {q : Query} (h : PrivatelyClosed t t')
    (hleaves : q.Leaves root t' t'') : PrivatelyClosed t t'' := by
  cases hleaves with
  | same _ => exact h
  | stored key value =>
    exact ⟨closed_put h.closed root key value,
      h.files.trans (privateSince_put h.closed root key value)⟩
  | removed _ hremoved =>
    exact ⟨h.closed.removeFile hremoved, h.files.trans (privateSince_of_removeFile hremoved)⟩

/-- Queries keep a tree closed, and leave no new file that is not private. -/
theorem runAll_privatelyClosed (hclosed : t.Closed) (root : Path) (queries : List Query) :
    PrivatelyClosed t (Query.runAll root queries t) :=
  Query.runAll_invariant (fun _ _ _ h hleaves => h.step hleaves) queries ⟨hclosed, .refl t⟩

/-- There is no file at a place or below it. -/
def NoFilesBelow (t : FileTree) (base : Place) : Prop :=
  ∀ q mode content, base <+: q → t.at? q ≠ some (.file mode content)

/-- Every file at a place or below it is private. -/
def PrivateBelow (t : FileTree) (base : Place) : Prop :=
  ∀ q mode content, base <+: q → t.at? q = some (.file mode content) → mode = recordMode

/-- A put that succeeds is complete, and no query leaves a file that is not private, whether it
succeeds or fails.  So below a root where there was no file all of them are private. -/
theorem puts_are_complete_and_private (t : FileTree) (hclosed : t.Closed) (root : Path) :
    (∀ key value t', ((ofDirectory calls root).put key value).run t = (.ok (), t') →
      ∃ p name, Completed t t' root key value p name) ∧
    (∀ queries, PrivateSince t (Query.runAll root queries t)) ∧
    (NoFilesBelow t (endOf t root) →
      ∀ queries, PrivateBelow (Query.runAll root queries t) (endOf t root)) := by
  refine ⟨fun key value t' hput => exists_completed hclosed hput,
    fun queries => (runAll_privatelyClosed hclosed root queries).files,
    fun hnone queries q mode content hbelow hfile => ?_⟩
  rcases (runAll_privatelyClosed hclosed root queries).files q mode content hfile with
    hmode | hbefore
  · exact hmode
  · exact absurd hbefore (hnone q mode content hbelow)

/-- A record and a staging file that everybody may read have been planted. -/
def wideTree : FileTree :=
  (((FileTree.ofDirectory ["srv"]).insert ["srv", "a"] .directory).insert ["srv", "a", "web"]
    (.file 0o644 [1])).insert ["srv", "a", ".web.tmp"] (.file 0o666 [2])

/-- The tree is built from that of a directory, one node at a time. -/
theorem closed_wideTree : wideTree.Closed := by
  have hdirectory : ((FileTree.ofDirectory ["srv"]).insert (["srv"] ++ ["a"]) .directory).Closed :=
    (closed_ofDirectory ["srv"]).insert (by decide +kernel) (by decide +kernel)
  have hrecord : (((FileTree.ofDirectory ["srv"]).insert ["srv", "a"] .directory).insert
      (["srv", "a"] ++ ["web"]) (.file 0o644 [1])).Closed :=
    hdirectory.insert (by decide +kernel) (by decide +kernel)
  have hstaging : (((((FileTree.ofDirectory ["srv"]).insert ["srv", "a"] .directory).insert
      ["srv", "a", "web"] (.file 0o644 [1]))).insert (["srv", "a"] ++ [".web.tmp"])
      (.file 0o666 [2])).Closed :=
    hrecord.insert (by decide +kernel) (by decide +kernel)
  exact hstaging

/-- There is no file in the tree of a directory. -/
theorem noFilesBelow_ofDirectory (place base : Place) :
    NoFilesBelow (FileTree.ofDirectory place) base := by
  intro q mode content _ hfile
  rw [at?_ofDirectory] at hfile
  split at hfile <;> cases hfile

/-- A put over a planted record is complete, and of a put, one that fails behind its record and a
delete nothing is left that is not private. -/
theorem planted_record_becomes_private :
    (((ofDirectory calls (.ofText "/srv")).put "a//web" [120]).run wideTree).1 = .ok () ∧
    (∃ p name, Completed wideTree
      (((ofDirectory calls (.ofText "/srv")).put "a//web" [120]).run wideTree).2
      (.ofText "/srv") "a//web" [120] p name) ∧
    PrivateBelow (Query.runAll (.ofText "/srv")
      [.put "web" [120], .put "web/x" [121], .delete "y"] (FileTree.ofDirectory ["srv"]))
      (endOf (FileTree.ofDirectory ["srv"]) (.ofText "/srv")) := by
  have hput : (((ofDirectory calls (.ofText "/srv")).put "a//web" [120]).run wideTree).1
      = .ok () := by
    decide +kernel
  exact ⟨hput, (puts_are_complete_and_private _ closed_wideTree _).1 _ _ _ (Prod.ext hput rfl),
    (puts_are_complete_and_private _ (closed_ofDirectory ["srv"]) _).2.2
      (noFilesBelow_ofDirectory _ _) _⟩

end TrustStore.Storage.Directory

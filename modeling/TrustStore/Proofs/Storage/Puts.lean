import TrustStore.Proofs.Storage.FailedPuts
import TrustStore.Proofs.Storage.FailedWrites

/-!
# Puts that succeed

A put that succeeds has made the directories above the record, has written and made private the
staging file, and has moved it to the place of the key.  `Filed` says what that does to a tree,
whatever the key: the record is there, its staging file is not, and all else has stayed, but for
directories that were missing on the way (`exists_filed`).
-/

namespace TrustStore.Storage.Directory

open FileTree

variable {t t' : FileTree} {root : Path} {above : List String} {name : String} {value : Bytes}

/-- What a put changes whose key has the names `above` and then `name`; the root leads to `base`
afterwards. -/
structure Filed (t t' : FileTree) (root : Path) (above : List String) (name : String)
    (value : Bytes) (base : Place) : Prop where
  workingDirectory : t'.workingDirectory = t.workingDirectory
  entered : t'.enter (t'.start root) root.steps = .ok base
  short : ∀ step ∈ above ++ [stagingName name], step.utf8ByteSize ≤ 255
  directories : ∀ l, l <+: above → t'.at? (base ++ l) = some .directory
  record : t'.at? (base ++ (above ++ [name])) = some (.file recordMode value)
  unstaged : t'.at? (base ++ (above ++ [stagingName name])) = none
  others : ∀ q, q ≠ base ++ (above ++ [name]) → q ≠ base ++ (above ++ [stagingName name]) →
    t'.at? q = t.at? q ∨
      (q ∈ wayAbove t root above ∧ t.at? q = none ∧ t'.at? q = some .directory)
  /-- No directory had to go for the record or its staging file. -/
  before : t.at? (base ++ (above ++ [name])) ≠ some .directory ∧
    t.at? (base ++ (above ++ [stagingName name])) ≠ some .directory

theorem ne_stagingName (name : String) : name ≠ stagingName name := by
  intro h
  have hlength := congrArg String.utf8ByteSize h
  rw [utf8ByteSize_stagingName] at hlength
  omega

section

variable {key : String} {before after : List String} (h : Written key above name before after)

include h

/-- Where the path of a key leads to a child, that is the last name in the directory of the key. -/
theorem Written.approach_child {place : Place} {last : String}
    (happroach : t.approach (root.down (stepsOf key)) = .ok (place, last))
    (hchild : isChildName last = true) :
    t.enter (t.start root) (root.steps ++ above) = .ok place ∧ last = name ∧
      (root.down (stepsOf key)).slashed = endsOpen key := by
  rcases h.approach_cases root t with ⟨hlast, hslashed⟩ | ⟨hstays, -⟩
  · rw [happroach] at hlast
    obtain ⟨⟨⟩, -, hlast⟩ := bind_eq_ok.mp hlast.symm
    obtain ⟨_, hdirectory, hlast⟩ := bind_eq_ok.mp hlast
    obtain ⟨⟨⟩, -, hlast⟩ := bind_eq_ok.mp hlast
    cases hlast
    exact ⟨hdirectory, rfl, hslashed⟩
  -- a step that stays leads to no child
  · rw [happroach] at hstays
    obtain ⟨⟨⟩, -, hstays⟩ := bind_eq_ok.mp hstays.symm
    obtain ⟨_, -, hstays⟩ := bind_eq_ok.mp hstays
    cases hstays
    cases hchild

/-- What has been staged is moved to the place of the last name of its key. -/
theorem Written.rename_eq_ok {t'' : FileTree} {directory : Place}
    (hstaged : Staged t t' root key above name value directory)
    (hmoved : t'.rename (stagingOf (root.down (stepsOf key)) name) (root.down (stepsOf key))
      = .ok t'') :
    t'.at? (directory ++ [name]) ≠ some .directory ∧
      t'' = (t'.erase (directory ++ [stagingName name])).insert (directory ++ [name])
        (.file recordMode value) := by
  obtain ⟨q, place, last, mode, content, hq, hfile, happroach, hchild, hdir, rfl⟩ :=
    FileTree.rename_eq_ok hmoved
  rw [hstaged.located] at hq
  cases hq
  rw [hstaged.file] at hfile
  cases hfile
  obtain ⟨hentered, rfl, -⟩ := h.approach_child happroach hchild
  rw [hstaged.entered] at hentered
  cases hentered
  exact ⟨hdir, rfl⟩

/-- What is moved to the path of a key fits: there is room for the path, and the key ends with its
last name. -/
theorem Written.fits_of_rename {source : Path}
    (hmoved : t.rename source (root.down (stepsOf key)) = .ok t') :
    checkPath (root.down (stepsOf key)) = .ok () ∧ endsOpen key = false := by
  obtain ⟨_, _, _, _, _, -, -, happroach, hchild, -, -⟩ := FileTree.rename_eq_ok hmoved
  obtain ⟨-, -, hopen⟩ := h.approach_child happroach hchild
  exact ⟨(approach_eq_ok happroach).1, hopen ▸ slashed_of_rename hmoved⟩

end

/-- Moving the staging file files the record. -/
theorem Staged.filed {key : String} {base : Place} (hdown : GoDown (above ++ [name]))
    (hstaged : Staged t t' root key above name value (base ++ above))
    (hentered : t'.enter (t'.start root) root.steps = .ok base)
    (hthere : t'.enter base above = .ok (base ++ above))
    (hbase : t'.at? base = some .directory)
    (hdir : t'.at? (base ++ above ++ [name]) ≠ some .directory) :
    Filed t ((t'.erase (base ++ above ++ [stagingName name])).insert (base ++ above ++ [name])
      (.file recordMode value)) root above name value base := by
  have hstagedFile := ne_directory_of_file hstaged.file
  have hne : base ++ above ++ [stagingName name] ≠ base ++ above ++ [name] := by
    simp [(ne_stagingName name).symm]
  generalize hmoved : (t'.erase (base ++ above ++ [stagingName name])).insert
    (base ++ above ++ [name]) (.file recordMode value) = t''
  have hnodes (q : Place) : t''.at? q = if q = base ++ above ++ [name] then
      some (.file recordMode value)
      else if q = base ++ above ++ [stagingName name] then none else t'.at? q := by
    rw [← hmoved, at?_insert _ (ne_root hdir), at?_erase _ (ne_root hstagedFile)]
  have hkept (q : Place) (hq : t'.at? q = some .directory) : t''.at? q = some .directory := by
    rw [← hmoved]
    exact directory_insert (ne_directory_erase hstagedFile hdir) (directory_erase hstagedFile hq) _
  have hcwd : t''.workingDirectory = t'.workingDirectory := by rw [← hmoved]; rfl
  have hchildren := hdown.above.children
  have hshort := hstaged.short
  refine ⟨hcwd.trans hstaged.left.workingDirectory, ?_, ?_, ?_, ?_, ?_, ?_, ?_⟩
  · rw [start, hcwd]
    exact enter_eq_ok_of_directories hkept hentered
  · rintro step hstep
    rcases List.mem_append.mp hstep with habove | hlast
    · exact (isPlainName_of_enter hchildren hthere step habove).short
    · rwa [List.mem_singleton.mp hlast]
  · exact fun l hl => hkept _ ((enter_children hchildren hbase hthere).2 l hl)
  · rw [← List.append_assoc, hnodes, if_pos rfl]
  · rw [← List.append_assoc, hnodes, if_neg hne, if_pos rfl]
  · intro q hrecord hstaging
    rw [← List.append_assoc] at hrecord hstaging
    rw [hnodes, if_neg hrecord, if_neg hstaging]
    exact hstaged.left.nodes q hstaging
  · rw [← List.append_assoc, ← List.append_assoc]
    refine ⟨fun hbefore => ?_, hstaged.before⟩
    -- directories have stayed so far
    rcases hstaged.left.nodes (base ++ above ++ [name]) hne.symm with hsame | ⟨-, hnone, -⟩
    · exact hdir (hsame.trans hbefore)
    · exact ne_directory_of_none hnone hbefore

/-- Whatever the tree and the root, a put that succeeds files the record. -/
theorem exists_filed (hclosed : t.Closed) {key : String} (hkey : IsAccepted key)
    (hparts : partsOf key = above ++ [name])
    (h : ((ofDirectory calls root).put key value).run t = (.ok (), t')) :
    ∃ base, Filed t t' root above name value base := by
  obtain ⟨before, after, hkeyWritten⟩ := exists_written hparts
  have hdown := hkey.goDown_concat hparts
  rw [put_run_accepted hkey hparts] at h
  obtain ⟨t₁, t₂, t₃, hcreate, hwritten, hset, hmoved⟩ := calls_of_saved h
  have hmade := hkeyWritten.confined_createDirectories t root
  have hclosed₁ := hclosed.createDirectories (root.down (stepsOf key)).parent
  rw [hcreate] at hmade hclosed₁
  have hclosed₃ := (hclosed₁.writeFile hwritten).setMode hset
  obtain ⟨directory, hstaged⟩ := hkeyWritten.exists_staged hmade hwritten hset
  obtain ⟨hdir, rfl⟩ := hkeyWritten.rename_eq_ok hstaged hmoved
  -- the directory of the key is below the one that the root leads to
  have hentered := hstaged.entered
  rw [enter_append] at hentered
  obtain ⟨base, hbase, habove⟩ := bind_eq_ok.mp hentered
  have hbaseDir := hclosed₃.enter (hclosed₃.start root) hbase
  obtain ⟨rfl, -⟩ := enter_children hdown.above.children hbaseDir habove
  exact ⟨base, hstaged.filed hdown hbase habove hbaseDir hdir⟩

/-- Only an accepted key is put. -/
theorem isAccepted_of_put {key : String}
    (h : ((ofDirectory calls root).put key value).run t = (.ok (), t')) : IsAccepted key := by
  by_contra hkey
  rw [put_run_refused hkey] at h
  cases h

/-- A key under which something is stored fits. -/
theorem fits_of_put {key : String}
    (h : ((ofDirectory calls root).put key value).run t = (.ok (), t')) :
    checkPath (root.down (stepsOf key)) = .ok () ∧ endsOpen key = false := by
  have hkey := isAccepted_of_put h
  obtain ⟨above, name, hparts⟩ := hkey.exists_partsOf_eq_concat
  obtain ⟨before, after, hkeyWritten⟩ := exists_written hparts
  rw [put_run_accepted hkey hparts] at h
  obtain ⟨_, _, _, -, -, -, hmoved⟩ := calls_of_saved h
  exact hkeyWritten.fits_of_rename hmoved

/-- A put keeps a tree closed, whether or not it succeeds. -/
theorem closed_put (hclosed : t.Closed) (root : Path) (key : String) (value : Bytes) :
    (((ofDirectory calls root).put key value).run t).2.Closed := by
  by_cases hkey : IsAccepted key
  · obtain ⟨above, name, hparts⟩ := hkey.exists_partsOf_eq_concat
    rw [put_run_accepted hkey hparts]
    exact saved_closed hclosed _ _ value
  · rw [put_run_refused hkey]
    exact hclosed

end TrustStore.Storage.Directory

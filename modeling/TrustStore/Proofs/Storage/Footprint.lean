import TrustStore.Proofs.FileTree.Agreement
import TrustStore.Proofs.Storage.FailedWrites

/-!
# Footprints of records

What is looked at and what may be changed for the record of a name: the way to the directory of the
entries (`entriesWay`), and in that directory the files of the name (`filesOf`).  A record is read
and saved alike in trees that agree there (`recordIn_congr`, `saved_congr`), and saving it leaves
the rest of the tree as it is (`saved_confined`).  Both hold of whatever path a record is saved at
(`agreeRun_saved`, `confined_saved`).  A list depends on the way and on what the directory shows
(`namesIn_congr`).
-/

namespace TrustStore.Storage.Directory

open FileTree

/-! ### Saving at any path -/

section Saved

variable {t u : FileTree} {root p staging : Path} {origin : Place} {region : Set Place}

/-- Each call answers alike and leaves trees that agree, so the next one does, too. -/
theorem agreeRun_saved (h : AgreeOn root origin region t u) (hp : Within root origin region p)
    (hparent : Within root origin region p.parent) (hstaged : Within root origin region staging)
    (value : Bytes) :
    AgreeRun root origin region (saved t p staging value) (saved u p staging value) := by
  obtain ⟨outcome, t₁, u₁, ht₁, hu₁, h₁⟩ :=
    (h.createAncestor hparent p.parent.names.length).split
  rw [saved, saved, FileSystem.createDirectories, ht₁, hu₁]
  rcases outcome with e | ⟨⟩
  · exact ⟨rfl, h₁⟩
  -- each call agrees with the one before it, and ends the run alike if it fails
  dsimp only
  rcases (h₁.writeFile hstaged value).cases with ⟨t₂, u₂, ht₂, hu₂, h₂⟩ | ⟨e, ht₂, hu₂⟩
  · rw [ht₂, hu₂]
    dsimp only
    rcases (h₂.setMode hstaged recordMode).cases with ⟨t₃, u₃, ht₃, hu₃, h₃⟩ | ⟨e, ht₃, hu₃⟩
    · rw [ht₃, hu₃]
      dsimp only
      rcases (h₃.rename hp hstaged).cases with ⟨t₄, u₄, ht₄, hu₄, h₄⟩ | ⟨e, ht₄, hu₄⟩
      · rw [ht₄, hu₄]
        exact ⟨rfl, h₄⟩
      · rw [ht₄, hu₄]
        exact ⟨rfl, h₃⟩
    · rw [ht₃, hu₃]
      exact ⟨rfl, h₂⟩
  · rw [ht₂, hu₂]
    exact ⟨rfl, h₁⟩

/-- What is saved changes the ends of the two paths, and makes what is missing above. -/
theorem confined_saved {way own : Set Place} (hparent : Within root (t.start root) way p.parent)
    (hp : walked (t.start p) p.steps ∈ own)
    (hstaged : walked (t.start staging) staging.steps ∈ own) (value : Bytes) :
    Confined way own t (saved t p staging value).2 := by
  rcases saved_cases staging value ((Confined.refl way own t).createDirectories hparent)
      (fun _ _ h₁ hwritten => h₁.writeFile hstaged hwritten)
      (fun _ _ h₂ hset => h₂.setMode hstaged hset)
    with ⟨e, t', hsaved, h'⟩ | ⟨t₃, t₄, hsaved, h₃, hmoved⟩
  · rw [hsaved]
    exact h'
  · rw [hsaved]
    exact h₃.rename hstaged hp hmoved

end Saved

/-! ### Places of entries -/

/-- The places that the path of all entries comes by, the root among them. -/
def entriesWay (origin : Place) (root : Path) : Set Place := wayTo origin (root.steps ++ ["cert"])

/-- The place of the directory of all entries. -/
def entriesPlace (origin : Place) (root : Path) : Place := walked origin (root.steps ++ ["cert"])

/-- The places of the files of a name: its record, and the file where that is staged. -/
def filesOf (origin : Place) (root : Path) (name : String) : Set Place :=
  {entriesPlace origin root ++ [name], entriesPlace origin root ++ [stagingName name]}

section Places

variable {origin : Place} {root : Path} {name : String}

/-- The path of all entries stays on its own way. -/
theorem within_entriesOf (origin : Place) (root : Path) :
    Within root origin (entriesWay origin root) (entriesOf root) where
  absolute := rfl
  way := by
    rw [steps_entriesOf]
    exact subset_rfl

/-- The path of a file goes one place further than that of the directory. -/
theorem within_entryOf (hname : Path.isName name = true) {region : Set Place}
    (hway : entriesWay origin root ⊆ region)
    (hplace : walked origin (entryOf root name).steps ∈ region) :
    Within root origin region (entryOf root name) where
  absolute := rfl
  way := by
    rw [steps_entryOf hname] at hplace ⊢
    intro q hq
    rcases wayTo_concat origin _ _ hq with hq | rfl
    · exact hway hq
    · exact hplace

/-- The file of an entry is in the directory of all entries. -/
theorem walked_entryOf (hname : Path.isName name = true) (hup : name ≠ "..") (origin : Place)
    (root : Path) :
    walked origin (entryOf root name).steps = entriesPlace origin root ++ [name] := by
  have hstay : name ≠ "." := (Path.isName_iff.mp hname).2
  rw [steps_entryOf hname, walked_concat, placeOf_eq hstay hup]
  rfl

/-- The record is one of the files of an entry. -/
theorem record_mem_filesOf (origin : Place) (root : Path) (hname : Entry.isValidName name = true) :
    walked origin (entryOf root name).steps ∈ filesOf origin root name := by
  rw [walked_entryOf (isName_of_isValidName hname) (Entry.ne_up_of_isValidName hname)]
  exact Or.inl rfl

/-- So is its staging file. -/
theorem staged_mem_filesOf (origin : Place) (root : Path) (name : String) :
    walked origin (entryOf root (stagingName name)).steps ∈ filesOf origin root name := by
  rw [walked_entryOf (isName_stagingName name) (stagingName_ne_up name)]
  exact Or.inr rfl

end Places

/-! ### Records -/

section Records

variable {t u : FileTree} {root : Path} {origin : Place} {region : Set Place} {name : String}

/-- A region with the way and the files of a name has room for the paths of those. -/
theorem within_record (hway : entriesWay origin root ⊆ region)
    (hfiles : filesOf origin root name ⊆ region) (hname : Entry.isValidName name = true) :
    Within root origin region (entryOf root name) :=
  within_entryOf (isName_of_isValidName hname) hway (hfiles (record_mem_filesOf origin root hname))

/-- A record is read alike in two trees that agree on its files and the way to them. -/
theorem recordIn_congr (h : AgreeOn root origin region t u)
    (hway : entriesWay origin root ⊆ region) (hname : Entry.isValidName name = true)
    (hfiles : filesOf origin root name ⊆ region) : recordIn t root name = recordIn u root name := by
  rw [recordIn, recordIn, h.readFile (within_record hway hfiles hname)]

/-- Where the directory is there, it is at its place. -/
theorem opened_eq_entriesPlace {place : Place} (h : opened t root = .ok place) :
    place = entriesPlace (t.start root) root :=
  enter_eq_walked h

/-- A list depends on the way to the directory and on the kinds of what is in it. -/
theorem namesIn_congr (h : AgreeOn root origin region t u)
    (hway : entriesWay origin root ⊆ region)
    (hchildren : ∀ child, child ∈ t.children (entriesPlace origin root)
      ↔ child ∈ u.children (entriesPlace origin root)) : namesIn t root = namesIn u root := by
  have hopened : opened t root = opened u root := by
    rw [opened, opened, h.left, h.right]
    exact enter_congr fun q hq => h.nodes q (hway hq)
  rw [namesIn, namesIn, listDirectory_entriesOf, listDirectory_entriesOf, hopened]
  rcases checkPath (entriesOf root) with e | ⟨⟩
  · rfl
  · rcases hplace : opened u root with e | place
    · rfl
    · obtain rfl := opened_eq_entriesPlace hplace
      refine congrArg Except.ok (shown_congr fun child _ => ?_)
      rw [h.right]
      exact hchildren child

/-- A record is saved alike in trees that agree on the way and on the files of its name. -/
theorem saved_congr (h : AgreeOn root origin region t u)
    (hway : entriesWay origin root ⊆ region) (hname : Entry.isValidName name = true)
    (hfiles : filesOf origin root name ⊆ region) (value : Bytes) :
    (saved t (entryOf root name) (entryOf root (stagingName name)) value).1
      = (saved u (entryOf root name) (entryOf root (stagingName name)) value).1 := by
  have hstaged : Within root origin region (entryOf root (stagingName name)) :=
    within_entryOf (isName_stagingName name) hway (hfiles (staged_mem_filesOf origin root name))
  have hentries : Within root origin region (entryOf root name).parent := by
    rw [parent_entryOf hname]
    exact ⟨rfl, (within_entriesOf origin root).way.trans hway⟩
  exact (agreeRun_saved h (within_record hway hfiles hname) hentries hstaged value).outcome

/-- Saving a record changes the files of its name, and makes what is missing on the way. -/
theorem saved_confined (t : FileTree) (root : Path) (hname : Entry.isValidName name = true)
    (value : Bytes) :
    Confined (entriesWay (t.start root) root) (filesOf (t.start root) root name) t
      (saved t (entryOf root name) (entryOf root (stagingName name)) value).2 := by
  have hentries : Within root (t.start root) (entriesWay (t.start root) root)
      (entryOf root name).parent := by
    rw [parent_entryOf hname]
    exact within_entriesOf (t.start root) root
  exact confined_saved hentries (record_mem_filesOf (t.start root) root hname)
    (staged_mem_filesOf (t.start root) root name) value

end Records

end TrustStore.Storage.Directory

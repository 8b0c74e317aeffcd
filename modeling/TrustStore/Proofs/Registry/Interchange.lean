import TrustStore.Proofs.FileTree.Closed
import TrustStore.Proofs.Registry.Map
import TrustStore.Proofs.Storage.SavedRecords

/-!
# A table and a directory are interchangeable

A run on a directory answers as the same run on a table does, and the files of the directory are the
records of the table (`directory_answers_as_table`).  `Copies` relates a table to the tree in which
the directory is; each access answers alike on both and preserves the relation (`Copies.step`).

Names may have 250 bytes, so that those of the staging files are not too long, and the paths of the
files must fit as well.
-/

namespace TrustStore.Registry

open FileTree Storage.Directory

/-! ### Roots and names -/

/-- A root that leads to an empty directory. -/
structure EmptyRoot (t : FileTree) (root : Path) (place : Place) : Prop where
  fits : Fits root
  enter : t.enter (t.start root) root.steps = .ok place
  directory : t.at? place = some .directory
  empty : ∀ rest, rest ≠ [] → t.at? (place ++ rest) = none

/-- The name that a call is about has at most 250 bytes in its normal form. -/
def Call.IsShort (call : Call) : Prop := ∀ n ∈ call.subject?, n.utf8ByteSize ≤ 250

instance (call : Call) : Decidable call.IsShort :=
  inferInstanceAs (Decidable (∀ n ∈ call.subject?, _))

/-! ### The relation -/

/-- The files below the place are the records of the table; the rest of the tree is as it was. -/
structure Copies (before : FileTree) (place : Place) (table : KeyTable) (t : FileTree) : Prop where
  workingDirectory : t.workingDirectory = before.workingDirectory
  /-- The directory of the entries is made for the first of them. -/
  made : t.at? (place ++ ["cert"]) = some .directory ∨
    (t.at? (place ++ ["cert"]) = none ∧ ∀ name, table[keyOf name]? = none)
  files : ∀ name, t.at? (place ++ ["cert"] ++ [name])
    = table[keyOf name]?.map (Node.file recordMode)
  /-- Nothing else is below the place. -/
  nothing : ∀ rest, rest ≠ [] → rest ≠ ["cert"] → (∀ name, rest ≠ ["cert"] ++ [name]) →
    t.at? (place ++ rest) = none
  outside : ∀ q, (∀ rest, rest ≠ [] → q ≠ place ++ rest) → t.at? q = before.at? q

namespace Copies

variable {before t : FileTree} {root : Path} {place : Place} {table : KeyTable}
  {entries : String → Option Entry}

/-- An empty directory copies an empty table. -/
theorem initial (hroot : EmptyRoot before root place) : Copies before place ∅ before where
  workingDirectory := rfl
  made := Or.inr ⟨hroot.empty ["cert"] (by simp), fun name => Std.ExtTreeMap.getElem?_empty⟩
  files name := by
    rw [List.append_assoc, hroot.empty _ (by simp), Std.ExtTreeMap.getElem?_empty]
    rfl
  nothing rest hne _ _ := hroot.empty rest hne
  outside q _ := rfl

/-- The walk to the root is not changed. -/
theorem enter (hroot : EmptyRoot before root place) (h : Copies before place table t) :
    t.enter (t.start root) root.steps = .ok place := by
  have hstart : t.start root = before.start root := by
    rw [FileTree.start, FileTree.start, h.workingDirectory]
  rw [hstart]
  refine enter_eq_ok_of_directories (fun q hq => ?_) hroot.enter
  rw [h.outside q ?_]
  · exact hq
  · rintro rest hne rfl
    rw [hroot.empty rest hne] at hq
    cases hq

/-- The directory of the entries is open, or missing while there are none. -/
theorem opened_cases (hroot : EmptyRoot before root place) (h : Copies before place table t) :
    opened t root = .ok (place ++ ["cert"]) ∨
      (opened t root = .error .missing ∧ ∀ name, table[keyOf name]? = none) := by
  rw [opened_of_enter (h.enter hroot)]
  rcases h.made with hdir | ⟨hnone, hempty⟩
  · rw [hdir]
    exact Or.inl rfl
  · rw [hnone]
    exact Or.inr ⟨rfl, hempty⟩

theorem opened_eq (hroot : EmptyRoot before root place) (h : Copies before place table t)
    {q : Place} (hq : opened t root = .ok q) : q = place ++ ["cert"] := by
  rcases h.opened_cases hroot with hopened | ⟨hopened, -⟩
  · exact Except.ok.inj (hq.symm.trans hopened)
  · rw [hopened] at hq
    cases hq

/-! ### Answers -/

/-- A record is read from its file as it is from the table. -/
theorem recordIn_eq (hroot : EmptyRoot before root place) (h : Copies before place table t)
    {name : String} (hname : Entry.isValidName name = true) (hshort : name.utf8ByteSize ≤ 255) :
    recordIn t root name = .ok table[keyOf name]? := by
  rcases h.opened_cases hroot with hopened | ⟨hopened, hempty⟩
  · rw [recordIn, (reaches_entry hroot.fits hopened hname hshort).readFile, h.files name]
    rcases table[keyOf name]? with - | record <;> rfl
  -- with no directory there is no file either, and none is in the table
  · have hcheck := hroot.fits.checkPath_entryOf (Entry.nul_not_mem_of_isValidName hname) hshort
    rw [recordIn, readFile_entryOf (isName_of_isValidName hname) (Entry.ne_up_of_isValidName hname),
      hcheck, hopened, hempty name]
    rfl

/-- A record's file is shown under its name, since that is not hidden. -/
theorem shownName?_eq {name : String} (h : Entry.IsNormal name) :
    shownName? name false = some name :=
  shownName?_of_head (Entry.head?_ne_dot_of_isValidName h.valid)

/-- The names in the table are normal. -/
theorem isNormal_of_get (hm : Mirrors entries table) {name : String}
    (h : table[keyOf name]?.isSome = true) : Entry.IsNormal name := by
  rw [hm.records name, Option.isSome_map] at h
  obtain ⟨e, he⟩ := Option.isSome_iff_exists.mp h
  obtain ⟨rfl, hsound⟩ := hm.sound name e he
  exact hsound.name

/-- The table lists the names that have a record. -/
theorem mem_names_iff (hm : Mirrors entries table) {name : String} :
    name ∈ Storage.childrenOf directory table.keys ↔ table[keyOf name]?.isSome = true := by
  rw [hm.mem_names, hm.records name, Option.isSome_map]

/-- What the directory shows are the names that have a record. -/
theorem mem_shown_iff (hm : Mirrors entries table) (h : Copies before place table t) (s : String) :
    s ∈ shown (t.children (place ++ ["cert"])) ↔ table[keyOf s]?.isSome = true := by
  rw [shown, Text.mem_sortDistinct, List.mem_filterMap]
  constructor
  -- a file that is shown is a record, and shown under the name of the record
  · rintro ⟨⟨name, b⟩, hchild, hs⟩
    obtain ⟨node, hnode, hb⟩ := mem_children.mp hchild
    rw [h.files name] at hnode
    obtain ⟨record, hrecord, rfl⟩ := Option.map_eq_some_iff.mp hnode
    have hsome : table[keyOf name]?.isSome = true := by
      rw [hrecord]
      rfl
    obtain rfl : b = false := hb
    have hshown := shownName?_eq (isNormal_of_get hm hsome)
    obtain rfl := Option.some.inj (hshown.symm.trans hs)
    exact hsome
  · intro hsome
    obtain ⟨record, hrecord⟩ := Option.isSome_iff_exists.mp hsome
    refine ⟨(s, false), mem_children.mpr ⟨.file recordMode record, ?_, rfl⟩,
      shownName?_eq (isNormal_of_get hm hsome)⟩
    rw [h.files s, hrecord]
    rfl

/-- The directory lists what the table lists. -/
theorem namesIn_eq (hroot : EmptyRoot before root place) (hm : Mirrors entries table)
    (h : Copies before place table t) :
    namesIn t root = .ok (Storage.childrenOf directory table.keys) := by
  have hascending := Text.sortDistinct_ascending (table.keys.filterMap (Storage.childOf? directory))
  -- both lists ascend, so they are told apart by their members alone
  rw [namesIn, listDirectory_entriesOf, hroot.fits.checkPath_entriesOf]
  rcases h.opened_cases hroot with hopened | ⟨hopened, hempty⟩
  · rw [hopened]
    refine congrArg Except.ok ?_
    refine (Text.sortDistinct_ascending _).eq_of_mem_iff hascending fun s => ?_
    exact (mem_shown_iff hm h s).trans (mem_names_iff hm).symm
  · rw [hopened]
    refine congrArg Except.ok ?_
    refine (List.eq_nil_iff_forall_not_mem.mpr fun s hs => ?_).symm
    rw [mem_names_iff hm, hempty s] at hs
    cases hs

/-! ### Changes -/

/-- A file that comes in place of what a name had, and the directory that it is in. -/
theorem insert (h : Copies before place table t) {name : String} {value : Bytes} {t' : FileTree}
    (hcwd : t'.workingDirectory = t.workingDirectory)
    (hat : ∀ q, t'.at? q = if q = place ++ ["cert"] ++ [name] then some (.file recordMode value)
      else if q = place ++ ["cert"] then some .directory else t.at? q) :
    Copies before place (table.insert (keyOf name) value) t' where
  workingDirectory := hcwd.trans h.workingDirectory
  made := by
    left
    rw [hat, if_neg (by simp), if_pos rfl]
  files n := by
    rw [hat, KeyTable.getElem?_insert]
    rcases eq_or_ne n name with rfl | hne
    · rw [if_pos rfl, if_pos rfl]
      rfl
    · rw [if_neg (by simp [hne]), if_neg (by simp), if_neg fun heq => hne (keyOf_injective heq)]
      exact h.files n
  -- only the directory of the entries and one file in it are new
  nothing rest hne hcert hentry := by
    rw [hat, if_neg ?_, if_neg ?_]
    · exact h.nothing rest hne hcert hentry
    · intro heq
      exact hcert (List.append_cancel_left heq)
    · intro heq
      rw [List.append_assoc] at heq
      exact hentry name (List.append_cancel_left heq)
  outside q hq := by
    rw [hat, if_neg ?_, if_neg ?_]
    · exact h.outside q hq
    · exact hq ["cert"] (by simp)
    · rw [List.append_assoc]
      exact hq (["cert"] ++ [name]) (by simp)

/-- Without a record's file the tree copies the table without the record. -/
theorem erase (h : Copies before place table t) {name : String} {t' : FileTree}
    (hcwd : t'.workingDirectory = t.workingDirectory)
    (hat : ∀ q, t'.at? q = if q = place ++ ["cert"] ++ [name] then none else t.at? q) :
    Copies before place (table.erase (keyOf name)) t' where
  workingDirectory := hcwd.trans h.workingDirectory
  made := by
    rw [hat, if_neg (by simp)]
    rcases h.made with hdir | ⟨hnone, hempty⟩
    · exact Or.inl hdir
    · refine Or.inr ⟨hnone, fun n => ?_⟩
      rw [KeyTable.getElem?_erase, hempty n]
      split <;> rfl
  files n := by
    rw [hat, KeyTable.getElem?_erase]
    rcases eq_or_ne n name with rfl | hne
    · rw [if_pos rfl, if_pos rfl]
      rfl
    · rw [if_neg (by simp [hne]), if_neg fun heq => hne (keyOf_injective heq)]
      exact h.files n
  nothing rest hne hcert hentry := by
    rw [hat, if_neg ?_]
    · exact h.nothing rest hne hcert hentry
    · intro heq
      rw [List.append_assoc] at heq
      exact hentry name (List.append_cancel_left heq)
  outside q hq := by
    rw [hat, if_neg ?_]
    · exact h.outside q hq
    · rw [List.append_assoc]
      exact hq (["cert"] ++ [name]) (by simp)

/-- No staging file is there: its name is hidden, and those of the entries are not. -/
theorem unstaged (hm : Mirrors entries table) (h : Copies before place table t) (name : String) :
    t.at? (place ++ ["cert"] ++ [stagingName name]) = none := by
  rw [h.files (stagingName name)]
  rcases hrecord : table[keyOf (stagingName name)]? with - | record
  · rfl
  -- were there a record of that name, the name would be normal, and would start with no dot
  · have hsome : table[keyOf (stagingName name)]?.isSome = true := by
      rw [hrecord]
      rfl
    have hhead := Entry.head?_ne_dot_of_isValidName (isNormal_of_get hm hsome).valid
    exact absurd rfl (stagingName_ne_of_head hhead)

/-- No name of an entry is a directory's. -/
theorem ne_directory (h : Copies before place table t) (name : String) :
    t.at? (place ++ ["cert"] ++ [name]) ≠ some .directory := by
  rw [h.files name]
  intro hdir
  obtain ⟨record, -, hnode⟩ := Option.map_eq_some_iff.mp hdir
  cases hnode

/-- The file of an entry is removed, or there is none. -/
theorem removeFile_cases (hroot : EmptyRoot before root place) (h : Copies before place table t)
    {name : String} (hname : Entry.isValidName name = true) (hshort : name.utf8ByteSize ≤ 255) :
    t.removeFile (entryOf root name) = .ok (t.erase (place ++ ["cert"] ++ [name])) ∨
      (t.removeFile (entryOf root name) = .error .missing ∧
        t.at? (place ++ ["cert"] ++ [name]) = none) := by
  rcases h.opened_cases hroot with hopened | ⟨hopened, hempty⟩
  · rw [(reaches_entry hroot.fits hopened hname hshort).removeFile, h.files name]
    rcases table[keyOf name]? with - | record
    · exact Or.inr ⟨rfl, rfl⟩
    · exact Or.inl rfl
  -- without the directory there is nothing to remove
  · right
    have hcheck := hroot.fits.checkPath_entryOf (Entry.nul_not_mem_of_isValidName hname) hshort
    constructor
    · rw [FileTree.removeFile, approach_entryOf (isName_of_isValidName hname), hcheck, hopened]
      rfl
    · rw [h.files name, hempty name]
      rfl

/-! ### Steps and runs -/

/-- An access answers alike on the table and in the tree, and leaves them alike. -/
theorem step {α : Type} (hroot : EmptyRoot before root place) (hm : Mirrors entries table)
    (h : Copies before place table t) {a : Access α} (ha : a.Proper)
    (hshort : ∀ n, a.name? = some n → n.utf8ByteSize ≤ 250) :
    (a.onTree root t).1 = (a.onTable table).1 ∧
      Copies before place (a.onTable table).2 (a.onTree root t).2 := by
  rcases a with e | answer | ⟨name, answer⟩ | ⟨name, answer⟩ | ⟨e, answer⟩
  -- what is refused, listed or read changes neither
  · exact ⟨rfl, h⟩
  · refine ⟨?_, h⟩
    rw [Access.onTree, namesIn_eq hroot hm h]
    rfl
  · refine ⟨?_, h⟩
    rw [Access.onTree, h.recordIn_eq hroot ha.valid (Nat.le_trans (hshort name rfl) (by decide))]
    rfl
  -- what is missing in the tree has no record in the table either
  · rw [Access.onTree, Access.onTable]
    have hshort' := Nat.le_trans (hshort name rfl) (by decide : 250 ≤ 255)
    rcases h.removeFile_cases hroot ha.valid hshort' with hremove | ⟨hremove, hnone⟩
    · rw [hremove]
      refine ⟨rfl, h.erase rfl fun q => ?_⟩
      rw [at?_erase t (by simp)]
    · rw [hremove]
      refine ⟨rfl, h.erase rfl fun q => ?_⟩
      show t.at? q = _
      split
      · rename_i hq
        rw [hq, hnone]
      · rfl
  · obtain ⟨t', hsaved, hcwd, hat⟩ := saved_eq_ok hroot.fits (h.enter hroot)
      (h.made.symm.imp_left And.left) ha.name.valid (hshort e.name rfl) (h.unstaged hm e.name)
      (h.ne_directory e.name) e.record
    rw [Access.onTree, Access.onTable, hsaved]
    exact ⟨rfl, h.insert hcwd hat⟩

end Copies

/-- What a run on the directory has in common with the run on a table. -/
structure RunsAlike (before : FileTree) (root : Path) (place : Place) (steps : List Step) :
    Prop where
  outcomes : (run (Storage.ofDirectory FileTree.calls root) steps before).1
    = (run KeyTable.storage steps ∅).1
  copies : Copies before place (run KeyTable.storage steps ∅).2
    (run (Storage.ofDirectory FileTree.calls root) steps before).2
  /-- The table holds nothing that the files do not. -/
  keys : ∀ key, (run KeyTable.storage steps ∅).2[key]?.isSome = true → ∃ name, key = keyOf name
  unstaged : ∀ name, (run (Storage.ofDirectory FileTree.calls root) steps before).2.at?
    (place ++ ["cert"] ++ [stagingName name]) = none

/-- Step by step, a run on the directory answers as the run on the table. -/
theorem runs_alike {before t : FileTree} {root : Path} {place : Place} {table : KeyTable}
    {entries : String → Option Entry} (hroot : EmptyRoot before root place) (steps : List Step)
    (hshort : ∀ step ∈ steps, step.call.IsShort) (hm : Mirrors entries table)
    (h : Copies before place table t) :
    (run (Storage.ofDirectory FileTree.calls root) steps t).1 = (run KeyTable.storage steps table).1 ∧
      Copies before place (run KeyTable.storage steps table).2
        (run (Storage.ofDirectory FileTree.calls root) steps t).2 := by
  induction steps generalizing t table entries with
  | nil => exact ⟨rfl, h⟩
  | cons step rest ih =>
    -- the first step carries both relations on, so the induction goes on with them
    have hproper := proper_access step.ceilings step.call
    obtain ⟨houtcome, hcopies⟩ := h.step hroot hm hproper
      fun n hn => hshort step List.mem_cons_self n (subject?_of_name? hn)
    have hm' := hm.onTable hproper
    rw [← perform_keyTable, ← perform_ofDirectory] at houtcome hcopies
    rw [← perform_keyTable] at hm'
    obtain ⟨houtcomes, hlast⟩ :=
      ih (fun s hs => hshort s (List.mem_cons_of_mem step hs)) hm' hcopies
    refine ⟨?_, hlast⟩
    exact congrArg₂ List.cons houtcome houtcomes

/-- On an empty directory every run with short names is the run on an empty table: after each number
of steps it has had the same outcomes, and the files are the records of the table. -/
theorem directory_answers_as_table {before : FileTree} {root : Path} {place : Place}
    (hroot : EmptyRoot before root place) (steps : List Step)
    (hshort : ∀ step ∈ steps, step.call.IsShort) (n : Nat) :
    RunsAlike before root place (steps.take n) := by
  have hshort' : ∀ step ∈ steps.take n, step.call.IsShort :=
    fun step hstep => hshort step (List.mem_of_mem_take hstep)
  -- the empty table and the empty root are alike, and every step keeps them so
  obtain ⟨houtcomes, hcopies⟩ :=
    runs_alike hroot (steps.take n) hshort' Mirrors.empty (Copies.initial hroot)
  have hm := mirrors_run (steps.take n)
  exact ⟨houtcomes, hcopies, hm.keys, hcopies.unstaged hm⟩

theorem emptyRoot_srv : EmptyRoot (FileTree.ofDirectory ["srv"]) (.ofText "/srv") ["srv"] where
  fits := ⟨by decide +kernel, by decide +kernel⟩
  enter := by decide +kernel
  directory := by decide +kernel
  empty _ := at?_ofDirectory_append ["srv"]

/-- A record is written, read under another spelling of its name and removed. -/
theorem srv_answers_as_table :
    RunsAlike (FileTree.ofDirectory ["srv"]) (.ofText "/srv") ["srv"]
      ([⟨⟨60, 60⟩, .write .acceptable⟩, ⟨⟨60, 60⟩, .read "WEB"⟩, ⟨⟨60, 60⟩, .delete "web"⟩].take 2) :=
  directory_answers_as_table emptyRoot_srv _ (by decide +kernel) 2

end TrustStore.Registry

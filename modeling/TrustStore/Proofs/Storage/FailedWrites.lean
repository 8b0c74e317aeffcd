import TrustStore.Proofs.FileTree.Debris
import TrustStore.Proofs.Storage.EntryFiles
import TrustStore.Proofs.Text.Ascending

/-!
# Failed writes to a directory

A write that fails leaves no more than debris (`saved_debris`), and what is left cannot be seen:
neither by reading an entry (`recordIn_debris`) nor in the list (`namesIn_debris`).
-/

namespace TrustStore.Storage.Directory

open FileTree Registry

/-! ### Roots -/

/-- What a root may be: a directory that is there, or a path that only goes down, so that it can be
made.  A path that goes up from a missing directory is none: it leads nowhere until that directory
is made, and then to what has been there all along. -/
def IsRoot (t : FileTree) (root : Path) : Prop :=
  (∃ place, t.enter (t.start root) root.steps = .ok place ∧ t.at? place = some .directory) ∨
    GoesDown root.steps

/-- Once the path of the root has come to a directory that is missing, it only goes down from
there. -/
def DownFromMissing (t : FileTree) (root : Path) : Prop :=
  ∀ steps rest, root.steps = steps ++ rest →
    t.enter (t.start root) steps = .error .missing → GoesDown rest

/-- A root that is there, or only goes down, goes down behind what is missing. -/
theorem IsRoot.downFromMissing {t : FileTree} {root : Path} (h : IsRoot t root) :
    DownFromMissing t root := by
  intro steps rest hsteps hmissing
  rcases h with ⟨place, henter, -⟩ | hdown
  · rw [hsteps, enter_append, hmissing] at henter
    cases henter
  · intro step hstep
    refine hdown step ?_
    rw [hsteps]
    exact List.mem_append_right steps hstep

/-- The place of the directory of the entries, whether or not it is there: the path of the root
leads to a directory, and from there it only goes down. -/
inductive Entries (t : FileTree) (root : Path) : Place → Prop where
  | below {steps rest : List String} {base : Place} (hsteps : root.steps = steps ++ rest)
    (henter : t.enter (t.start root) steps = .ok base) (hdown : GoesDown rest) :
    Entries t root (placeBelow base (rest ++ ["cert"]))

/-- The walk to the root fails, and not for a directory that could be made. -/
def IsBlocked (t : FileTree) (root : Path) : Prop :=
  ∃ e, t.enter (t.start root) root.steps = .error e ∧ e ≠ .missing

/-- From the last directory that is there the path goes down, or the walk is blocked before. -/
theorem DownFromMissing.cases {t : FileTree} {root : Path} (h : DownFromMissing t root) :
    (∃ place, Entries t root place) ∨ IsBlocked t root := by
  rcases henter : t.enter (t.start root) root.steps with e | base
  -- what is missing is a child, with a plain name, of the last directory that is there
  · rcases eq_or_ne e .missing with rfl | he
    · obtain ⟨steps, name, rest, base, hsteps, hbase, hname, hnone⟩ :=
        exists_of_enter_missing henter
      have hmissing : t.enter (t.start root) (steps ++ [name]) = .error .missing := by
        rw [enter_append, hbase]
        show t.enter base [name] = _
        rw [enter_cons hname, hnone]
      have hrest : GoesDown rest := h (steps ++ [name]) rest (by simp [hsteps]) hmissing
      exact Or.inl ⟨_, .below hsteps hbase (hrest.cons hname)⟩
    · exact Or.inr ⟨e, henter, he⟩
  -- the root is there, so that nothing of its path is left
  · exact Or.inl ⟨_, .below (List.append_nil _).symm henter fun _ h => absurd h List.not_mem_nil⟩

theorem goesDown_cert : GoesDown ["cert"] := by
  intro step hstep
  obtain rfl := List.mem_singleton.mp hstep
  decide

theorem goesDown_append {l l' : List String} (h : GoesDown l) (h' : GoesDown l') :
    GoesDown (l ++ l') := by
  intro step hstep
  rcases List.mem_append.mp hstep with hstep | hstep
  · exact h step hstep
  · exact h' step hstep

/-! ### Debris of a write -/

section Debris

variable {t t' : FileTree} {root : Path} {place : Place} {staged : String}

/-- The walk to the entries goes on as before, or through directories that have been made. -/
theorem opened_follows (hplace : Entries t root place) (hclosed : t.Closed)
    (h : Debris place (place ++ [staged]) t t') :
    Follows t place (opened t root) (opened t' root) := by
  obtain ⟨hsteps, henter, hdown⟩ := hplace
  have henter' := enter_eq_ok_of_directories (fun q hq => h.directory hq) henter
  unfold opened
  rw [h.start, hsteps, List.append_assoc, enter_append, enter_append, henter, henter']
  exact h.follows (goesDown_append hdown goesDown_cert) rfl hclosed

/-- A directory that is made with the first steps of the path is one on the way to the entries. -/
theorem createDirectory_debris (hplace : Entries t root place) (hclosed : t.Closed) {p : Path}
    (habsolute : p.absolute = root.absolute) (hsteps : p.steps <+: root.steps ++ ["cert"])
    (h : Debris place (place ++ [staged]) t t') {t'' : FileTree}
    (hmade : t'.createDirectory p = .ok t'') : Debris place (place ++ [staged]) t t'' := by
  obtain ⟨q, hq, hnone, rfl⟩ := createDirectory_eq_ok hmade
  have hend : q = walked (t.start root) p.steps := by
    rw [locate_eq_walked hq, ← h.start root, FileTree.start, FileTree.start, habsolute]
  obtain ⟨hroot, henter, hdown⟩ := hplace
  rw [hroot, List.append_assoc] at hsteps
  rcases List.prefix_or_prefix_of_prefix hsteps (List.prefix_append _ _)
    with ⟨more, hmore⟩ | ⟨l, hl⟩
  -- the walk had got past this directory, so that it need not be made
  · rw [← hmore, enter_append] at henter
    obtain ⟨r, hr, -⟩ := bind_eq_ok.mp henter
    obtain rfl : q = r := hend.trans (enter_eq_walked hr).symm
    rw [h.directory (hclosed.enter (hclosed.start root) hr)] at hnone
    cases hnone
  · rw [← hl] at hsteps hend
    have hl : l <+: _ ++ ["cert"] := (List.prefix_append_right_inj _).mp hsteps
    have hup : ∀ step ∈ l, step ≠ ".." := fun step hstep =>
      (goesDown_append hdown goesDown_cert step (hl.subset hstep)).1
    rw [walked_append, ← enter_eq_walked henter, walked_eq_placeBelow hup] at hend
    rw [hend] at hnone ⊢
    exact h.insert_directory hnone ((List.prefix_append_right_inj _).mpr (hl.filter _))

/-- Each directory that is made is an ancestor, whose steps begin those of the path. -/
theorem createDirectories_debris (hplace : Entries t root place) (hclosed : t.Closed)
    (h : Debris place (place ++ [staged]) t t') :
    Debris place (place ++ [staged]) t
      (FileTree.calls.createDirectories (entriesOf root) t').2 := by
  refine createAncestor_invariant (P := Debris place (place ++ [staged]) t) ?_ _ h
  intro n t₁ t₂ h₁ hmade
  refine createDirectory_debris hplace hclosed (Path.absolute_ancestor (entriesOf root) n) ?_ h₁
    hmade
  rw [← steps_entriesOf root]
  exact Path.prefix_steps_ancestor _ n

/-- Where the staging file of a name is. -/
theorem locate_staging (hplace : Entries t root place) (hclosed : t.Closed) {name : String}
    (h : Debris place (place ++ [stagingName name]) t t') {q : Place}
    (hq : t'.locate (entryOf root (stagingName name)) = .ok q) :
    q = place ++ [stagingName name] := by
  obtain ⟨r, hopened, rfl⟩ :=
    locate_entryOf_eq_ok (isName_stagingName name) (stagingName_ne_up name) hq
  have hfollows := opened_follows hplace hclosed h
  rw [hopened] at hfollows
  rw [hfollows.place_eq]

/-- A write that fails leaves debris only. -/
theorem saved_debris (hplace : Entries t root place) (hclosed : t.Closed) {name : String}
    (hname : Entry.isValidName name = true) {value : Bytes} {e : Fault}
    (h : saved t (entryOf root name) (entryOf root (stagingName name)) value = (.error e, t')) :
    Debris place (place ++ [stagingName name]) t t' := by
  have hmade := createDirectories_debris hplace hclosed
    (Debris.refl place (place ++ [stagingName name]) t)
  rw [← parent_entryOf hname] at hmade
  have hwrite : ∀ t₁ t₂, Debris place (place ++ [stagingName name]) t t₁ →
      t₁.writeFile (entryOf root (stagingName name)) value = .ok t₂ →
      Debris place (place ++ [stagingName name]) t t₂ := by
    intro t₁ t₂ h₁ hwritten
    obtain ⟨q, mode, hq, hdir, rfl⟩ := writeFile_eq_ok hwritten
    obtain rfl := locate_staging hplace hclosed h₁ hq
    exact h₁.insert_hidden hdir mode value
  have hset : ∀ t₂ t₃, Debris place (place ++ [stagingName name]) t t₂ →
      t₂.setMode (entryOf root (stagingName name)) recordMode = .ok t₃ →
      Debris place (place ++ [stagingName name]) t t₃ := by
    intro t₂ t₃ h₂ hmode
    obtain ⟨q, hq, ⟨-, rfl⟩ | ⟨old, content, hfile, rfl⟩⟩ := setMode_eq_ok hmode
    · exact h₂
    · obtain rfl := locate_staging hplace hclosed h₂ hq
      exact h₂.insert_hidden (ne_directory_of_file hfile) recordMode content
  rcases saved_cases _ value hmade hwrite hset with ⟨e', t₁, hsaved, h₁⟩ | ⟨t₃, t₄, hsaved, -, -⟩
  · rw [hsaved] at h
    cases h
    exact h₁
  -- the last call is the one that shows the record, and the write succeeds with it
  · rw [hsaved] at h
    cases h

/-- Where the walk to the root is blocked, no directory is made. -/
theorem IsBlocked.createDirectories (h : IsBlocked t root) :
    (FileTree.calls.createDirectories (entriesOf root) t).2 = t := by
  obtain ⟨e, henter, he⟩ := h
  obtain ⟨n, hnames, hancestor⟩ := ancestor_entriesOf root
  have hlocate := locate_entriesOf t root
  rw [henter] at hlocate
  rw [FileSystem.createDirectories, hnames, createAncestor_run, hancestor, createDirectory, hlocate]
  -- only a missing directory would have the ancestors made
  rcases hcheck : checkPath (entriesOf root) with e' | ⟨⟩
  · have hne := ne_missing_of_checkPath hcheck
    cases e' <;> first | exact absurd rfl hne | rfl
  · cases e <;> first | exact absurd rfl he | rfl

/-- Where the walk to the root is blocked, no staging file can be reached. -/
theorem IsBlocked.locate_ne (h : IsBlocked t root) (name : String) (q : Place) :
    t.locate (entryOf root (stagingName name)) ≠ .ok q := by
  intro hq
  obtain ⟨e, henter, -⟩ := h
  obtain ⟨r, hopened, -⟩ :=
    locate_entryOf_eq_ok (isName_stagingName name) (stagingName_ne_up name) hq
  rw [opened, enter_append, henter] at hopened
  cases hopened

/-- Where the walk to the root is blocked, a write fails and changes nothing. -/
theorem IsBlocked.eq_of_saved (hblocked : IsBlocked t root) {name : String}
    (hname : Entry.isValidName name = true) {value : Bytes} {e : Fault}
    (h : saved t (entryOf root name) (entryOf root (stagingName name)) value = (.error e, t')) :
    t' = t := by
  have hmade : (FileTree.calls.createDirectories (entryOf root name).parent t).2 = t := by
    rw [parent_entryOf hname, hblocked.createDirectories]
  -- each call that changes the tree would have to reach the staging file
  have hwrite : ∀ t₁ t₂, t₁ = t →
      t₁.writeFile (entryOf root (stagingName name)) value = .ok t₂ → t₂ = t := by
    rintro t₁ t₂ rfl hwritten
    obtain ⟨q, mode, hq, -⟩ := writeFile_eq_ok hwritten
    exact absurd hq (hblocked.locate_ne name q)
  have hset : ∀ t₂ t₃, t₂ = t →
      t₂.setMode (entryOf root (stagingName name)) recordMode = .ok t₃ → t₃ = t := by
    rintro t₂ t₃ rfl hmode
    obtain ⟨q, hq, -⟩ := setMode_eq_ok hmode
    exact absurd hq (hblocked.locate_ne name q)
  rcases saved_cases _ value hmade hwrite hset with ⟨e', t₁, hsaved, h₁⟩ | ⟨t₃, t₄, hsaved, -, -⟩
  · rw [hsaved] at h
    cases h
    exact h₁
  · rw [hsaved] at h
    cases h

/-- A write keeps a tree closed, whether or not it fails. -/
theorem saved_closed {t : FileTree} (h : t.Closed) (p staging : Path) (value : Bytes) :
    (saved t p staging value).2.Closed := by
  rcases saved_cases staging value (h.createDirectories p.parent)
      (fun _ _ h₁ hwrite => h₁.writeFile hwrite) (fun _ _ h₂ hset => h₂.setMode hset)
    with ⟨e, t', hsaved, h'⟩ | ⟨t₃, t₄, hsaved, h₃, hrename⟩
  · rw [hsaved]
    exact h'
  · rw [hsaved]
    exact h₃.rename hrename

/-! ### What can be seen -/

/-- Among the entries only the staging file may have changed. -/
theorem at?_of_ne_staged (h : Debris place (place ++ [staged]) t t') {name : String}
    (hne : name ≠ staged) : t'.at? (place ++ [name]) = t.at? (place ++ [name]) := by
  rcases h.nodes (place ++ [name]) with hsame | ⟨hway, -, -⟩ | ⟨heq, -, -⟩
  · exact hsame
  · have hlength := hway.length_le
    rw [List.length_append, List.length_singleton] at hlength
    omega
  · exact absurd (List.singleton_inj.mp (List.append_cancel_left heq)) hne

/-- The record of an entry is read as before, unless it is the staging file. -/
theorem recordIn_debris (hplace : Entries t root place) (hclosed : t.Closed)
    (h : Debris place (place ++ [staged]) t t') {name : String}
    (hname : Entry.isValidName name = true) (hshort : name.utf8ByteSize ≤ 255)
    (hne : name ≠ staged) : recordIn t' root name = recordIn t root name := by
  have hisName := isName_of_isValidName hname
  have hup := Entry.ne_up_of_isValidName hname
  have hfollows := opened_follows hplace hclosed h
  rw [recordIn, recordIn, readFile_entryOf hisName hup, readFile_entryOf hisName hup]
  rcases checkPath (entryOf root name) with e | ⟨⟩
  · rfl
  · generalize opened t root = before at hfollows ⊢
    generalize opened t' root = after at hfollows ⊢
    cases hfollows with
    | found => simp only [bind, Except.bind, checkName_eq_ok hshort, at?_of_ne_staged h hne]
    | failed e => rfl
    -- the directory has been made, and there is nothing in it
    | made hempty =>
      have hnode : t'.at? (place ++ [name]) = none :=
        (at?_of_ne_staged h hne).trans (hempty name)
      simp only [bind, Except.bind, checkName_eq_ok hshort, hnode]

/-- Two directories show the same where they differ in hidden files only. -/
theorem shown_congr {l l' : List (String × Bool)}
    (h : ∀ child, shownName? child.1 child.2 ≠ none → (child ∈ l ↔ child ∈ l')) :
    shown l = shown l' := by
  refine Text.sortDistinct_congr fun s => ?_
  rw [List.mem_filterMap, List.mem_filterMap]
  refine exists_congr fun child => and_congr_left fun hs => h child ?_
  rw [show shownName? child.1 child.2 = some s from hs]
  exact Option.some_ne_none s

/-- A staging file is hidden. -/
theorem shownName?_stagingName (name : String) : shownName? (stagingName name) false = none := by
  rw [shownName?, toList_stagingName]
  rfl

/-- The staging file is a hidden one, in the tree before and in the tree after. -/
theorem shown_children_debris {name : String}
    (h : Debris place (place ++ [stagingName name]) t t') :
    shown (t'.children place) = shown (t.children place) := by
  refine shown_congr ?_
  rintro ⟨child, b⟩ hseen
  rw [mem_children, mem_children]
  rcases eq_or_ne child (stagingName name) with rfl | hne
  -- A name like that of the staging file is seen only of a directory, and there is none before
  -- (`hbefore`) or after (`hfile`), unless nothing has changed.
  · have hdir : b = true := by
      rcases b with - | -
      · exact absurd (shownName?_stagingName name) hseen
      · rfl
    rcases h.nodes (place ++ [stagingName name]) with hsame | ⟨hway, -, -⟩ | ⟨-, hbefore, hafter⟩
    · rw [hsame]
    · have hlength := hway.length_le
      rw [List.length_append, List.length_singleton] at hlength
      omega
    · obtain ⟨mode, content, hfile⟩ := hafter
      constructor
      · rintro ⟨node, hnode, hb⟩
        rw [hfile] at hnode
        cases hnode
        rw [hdir] at hb
        cases hb
      · rintro ⟨node, hnode, hb⟩
        rw [hdir] at hb
        rw [eq_of_beq hb.symm] at hnode
        exact absurd hnode hbefore
  · rw [at?_of_ne_staged h hne]

/-- An empty directory shows nothing. -/
theorem shown_eq_nil_of_empty (h : ∀ name, t.at? (place ++ [name]) = none) :
    shown (t.children place) = [] := by
  show _ = shown []
  refine shown_congr ?_
  rintro ⟨child, b⟩ -
  rw [mem_children]
  constructor
  · rintro ⟨node, hnode, -⟩
    rw [h child] at hnode
    cases hnode
  · intro hmem
    cases hmem

/-- The list names the entries that it has named before. -/
theorem namesIn_debris (hplace : Entries t root place) (hclosed : t.Closed) {name : String}
    (h : Debris place (place ++ [stagingName name]) t t') : namesIn t' root = namesIn t root := by
  have hfollows := opened_follows hplace hclosed h
  rw [namesIn, namesIn, listDirectory_entriesOf, listDirectory_entriesOf]
  rcases checkPath (entriesOf root) with e | ⟨⟩
  · rfl
  · generalize opened t root = before at hfollows ⊢
    generalize opened t' root = after at hfollows ⊢
    cases hfollows with
    | found => exact congrArg Except.ok (shown_children_debris h)
    | failed e => rfl
    | made hempty =>
      refine congrArg Except.ok ?_
      rw [shown_children_debris h, shown_eq_nil_of_empty hempty]
      rfl

end Debris

end TrustStore.Storage.Directory

import TrustStore.Proofs.FileTree.Agreement
import TrustStore.Proofs.FileTree.Closed
import TrustStore.Proofs.Storage.Directory

/-!
# Files of keys in a tree

Below a directory that a root leads to, the path of a key goes down by its steps
(`Rooted.approach_down`).  A record that has been stored is at the place of its key, the directories
above it are there, and nothing else has changed below the root (`stores_of_saved`).
-/

namespace TrustStore.Storage.Directory

open FileTree

/-! ### Roots -/

/-- A closed tree in which a root leads to a directory. -/
structure Rooted (t : FileTree) (root : Path) (place : Place) : Prop where
  closed : t.Closed
  locate : t.locate root = .ok place
  directory : t.at? place = some .directory

/-- Steps that go down, each to a child. -/
def GoDown (steps : List String) : Prop :=
  ∀ step ∈ steps, Path.isName step = true ∧ step ≠ ".."

/-- Steps that the file system has room for below a root. -/
structure Usable (root : Path) (steps : List String) : Prop where
  path : checkPath (root.down steps) = .ok ()
  names : ∀ step ∈ steps, step.utf8ByteSize ≤ 255

/-- The steps of a visible key only go down. -/
theorem goDown_of_isVisible {key : String} (h : IsVisible key) : GoDown (stepsOf key) :=
  fun _ hstep => ⟨h.isName hstep, h.ne_up hstep⟩

namespace GoDown

variable {steps : List String} (h : GoDown steps)

include h

/-- Steps that go down are not empty. -/
theorem ne_empty : ∀ step ∈ steps, step ≠ "" :=
  fun step hstep => (Path.isName_iff.mp (h step hstep).1).1

/-- They go to children. -/
theorem children : ∀ step ∈ steps, step ≠ "." ∧ step ≠ ".." :=
  fun step hstep => ⟨(Path.isName_iff.mp (h step hstep).1).2, (h step hstep).2⟩

theorem of_subset {l : List String} (hl : l ⊆ steps) : GoDown l :=
  fun step hstep => h step (hl hstep)

end GoDown

/-- The steps above the last one go down as well. -/
theorem GoDown.above {above : List String} {name : String} (h : GoDown (above ++ [name])) :
    GoDown above :=
  h.of_subset (List.subset_append_left above [name])

/-- The last one is a name. -/
theorem GoDown.last {above : List String} {name : String} (h : GoDown (above ++ [name])) :
    Path.isName name = true ∧ name ≠ ".." :=
  h name (List.mem_append_right above (List.mem_singleton_self name))

/-- What is missing on the way to a key is below the root. -/
theorem below_of_missing {t : FileTree} (hclosed : t.Closed) {root : Path} {place : Place}
    (henter : t.enter (t.start root) root.steps = .ok place) {above : List String}
    (habove : GoDown above) {q : Place} (hq : q ∈ wayTo (t.start root) (root.steps ++ above))
    (hnone : t.at? q = none) : ∃ l, l <+: above ∧ q = place ++ l := by
  rcases mem_wayTo_append hq with ⟨l, ⟨rest, hrest⟩, rfl⟩ | ⟨l, hl, rfl⟩
  -- the root and what leads to it are directories
  · rw [← hrest, FileTree.enter_append] at henter
    obtain ⟨r, hr, -⟩ := bind_eq_ok.mp henter
    have hdir := hclosed.enter (hclosed.start root) hr
    rw [← enter_eq_walked hr, hdir] at hnone
    cases hnone
  · refine ⟨l, hl, ?_⟩
    rw [← enter_eq_walked henter]
    exact walked_children (habove.of_subset hl.subset).children place

/-- The steps of a path that may be used are plain names. -/
theorem Usable.plain {root : Path} {steps : List String} (h : Usable root steps)
    (hdown : GoDown steps) : ∀ step ∈ steps, IsPlainName step :=
  fun step hstep =>
    ⟨(hdown.children step hstep).1, (hdown.children step hstep).2, h.names step hstep⟩

/-- A path that is accepted has no piece at the beginning for which it would be refused. -/
theorem checkPath_of_append {absolute : Bool} {l rest : List String}
    (h : checkPath ⟨absolute, l ++ rest⟩ = .ok ()) : checkPath ⟨absolute, l⟩ = .ok () := by
  have hsize := Path.utf8ByteSize_toText_append_le absolute l rest
  rw [checkPath] at h ⊢
  dsimp only at h ⊢
  rw [List.any_append] at h
  split at h
  · cases h
  · rename_i hnul
    split at h
    · cases h
    · rename_i hlong
      rw [if_neg fun hl => hnul (by rw [hl]; rfl),
        if_neg fun hl => hlong (Nat.lt_of_lt_of_le hl hsize)]

/-- A path that may be used may be used in part. -/
theorem Usable.shorten {root : Path} {l steps : List String} (h : Usable root steps)
    (hl : l <+: steps) : Usable root l := by
  obtain ⟨rest, rfl⟩ := hl
  have hpath : checkPath ⟨root.absolute, root.basePieces ++ l ++ rest⟩ = .ok () := by
    rw [List.append_assoc]
    exact h.path
  exact ⟨checkPath_of_append hpath,
    fun step hstep => h.names step (List.mem_append_left rest hstep)⟩

namespace Rooted

variable {t t' : FileTree} {root : Path} {place : Place} (h : Rooted t root place)

include h

/-- The root can be walked to. -/
theorem enter : t.enter (t.start root) root.steps = .ok place :=
  enter_of_locate h.locate h.directory

/-- A walk through the root goes on from its place. -/
theorem enter_append (steps : List String) :
    t.enter (t.start root) (root.steps ++ steps) = t.enter place steps := by
  rw [FileTree.enter_append, h.enter]
  rfl

/-- The root itself may be used. -/
theorem usable : Usable root [] := by
  have hlocate := h.locate
  rw [FileTree.locate] at hlocate
  obtain ⟨⟨directory, name⟩, happroach, -⟩ := map_eq_ok.mp hlocate
  obtain ⟨rest, hrest⟩ := Path.prefix_basePieces root
  have hpath : checkPath ⟨root.absolute, root.basePieces ++ rest⟩ = .ok () := by
    rw [hrest]
    exact (approach_eq_ok happroach).1
  refine ⟨?_, fun _ h => absurd h List.not_mem_nil⟩
  rw [Path.down, List.append_nil]
  exact checkPath_of_append hpath

/-! ### Calls keep the root -/

/-- The root stays where it is in a closed tree that keeps all directories. -/
theorem of_directories (hclosed : t'.Closed) (hcwd : t'.workingDirectory = t.workingDirectory)
    (hdirs : ∀ q, t.at? q = some .directory → t'.at? q = some .directory) :
    Rooted t' root place :=
  ⟨hclosed, locate_of_directories hcwd hdirs h.locate, hdirs place h.directory⟩

variable {p : Path}

theorem writeFile {content : Bytes} (hp : t.writeFile p content = .ok t') :
    Rooted t' root place := by
  have hclosed := h.closed.writeFile hp
  obtain ⟨q, mode, -, hdir, rfl⟩ := writeFile_eq_ok hp
  exact h.of_directories hclosed rfl fun r hr => directory_insert hdir hr _

theorem setMode {mode : Nat} (hp : t.setMode p mode = .ok t') : Rooted t' root place := by
  have hclosed := h.closed.setMode hp
  obtain ⟨q, -, ⟨-, rfl⟩ | ⟨old, content, hfile, rfl⟩⟩ := setMode_eq_ok hp
  · exact h
  · have hq := ne_directory_of_file hfile
    exact h.of_directories hclosed rfl fun r hr => directory_insert hq hr _

theorem removeFile (hp : t.removeFile p = .ok t') : Rooted t' root place := by
  have hclosed := h.closed.removeFile hp
  obtain ⟨q, name, -, -, hdir, rfl⟩ := removeFile_eq_ok hp
  exact h.of_directories hclosed rfl fun r hr => directory_erase hdir hr

theorem rename {source : Path} (hp : t.rename source p = .ok t') : Rooted t' root place := by
  have hclosed := h.closed.rename hp
  obtain ⟨q, above, name, mode, content, -, hfile, -, -, hdir, rfl⟩ := rename_eq_ok hp
  have hq := ne_directory_of_file hfile
  exact h.of_directories hclosed rfl fun r hr =>
    directory_insert (ne_directory_erase hq hdir) (directory_erase hq hr) _

/-! ### Where the paths of keys lead -/

variable {above : List String} {name : String}

/-- The last name is approached through the directory above it. -/
theorem approach_down (hdown : GoDown (above ++ [name])) :
    t.approach (root.down (above ++ [name])) = (do
      checkPath (root.down (above ++ [name]))
      let directory ← t.enter place above
      checkName name
      return (directory, name)) := by
  have hsteps : (root.down (above ++ [name])).steps = root.steps ++ above ++ [name] := by
    rw [Path.steps_down root hdown.ne_empty, List.append_assoc]
  rw [approach_concat t hsteps]
  show (do
    checkPath _
    let directory ← t.enter (t.start root) (root.steps ++ above)
    checkName name
    return (directory, name)) = _
  rw [h.enter_append]

/-- Where the path of a key leads to, the key is usable. -/
theorem approach_down_eq_ok (hdown : GoDown (above ++ [name])) {q : Place} {last : String}
    (happroach : t.approach (root.down (above ++ [name])) = .ok (q, last)) :
    Usable root (above ++ [name]) ∧ q = place ++ above ∧ last = name := by
  rw [h.approach_down hdown] at happroach
  obtain ⟨⟨⟩, hcheck, happroach⟩ := bind_eq_ok.mp happroach
  obtain ⟨_, henter, happroach⟩ := bind_eq_ok.mp happroach
  obtain ⟨⟨⟩, hcheckName, happroach⟩ := bind_eq_ok.mp happroach
  cases happroach
  have hplain := isPlainName_of_enter hdown.above.children henter
  have hnames : ∀ step ∈ above ++ [name], step.utf8ByteSize ≤ 255 :=
    List.forall_mem_append.mpr ⟨fun step hstep => (hplain step hstep).short,
      List.forall_mem_singleton.mpr (short_of_checkName hcheckName)⟩
  exact ⟨⟨hcheck, hnames⟩, (enter_children hdown.above.children h.directory henter).1, rfl⟩

/-- A list reads the directory that the names lead to. -/
theorem listDirectory_down (hdown : GoDown (above ++ [name])) :
    t.listDirectory (root.down (above ++ [name])) = (do
      checkPath (root.down (above ++ [name]))
      let directory ← t.enter place (above ++ [name])
      return t.children directory) := by
  have hsteps : (root.down (above ++ [name])).steps = root.steps ++ above ++ [name] := by
    rw [Path.steps_down root hdown.ne_empty, List.append_assoc]
  obtain ⟨hstay, hup⟩ := hdown.children name (List.mem_append_right above List.mem_cons_self)
  rw [listDirectory_concat t hsteps hstay hup, hsteps, List.append_assoc]
  show (do
    checkPath _
    let directory ← t.enter (t.start root) (root.steps ++ (above ++ [name]))
    return t.children directory) = _
  rw [h.enter_append]

/-- The parent of a key's path leads to its directory, and the staging file is in it. -/
theorem locate_staging (hdown : GoDown (above ++ [name])) {q : Place}
    (hq : t.locate (stagingOf (root.down (above ++ [name])) name) = .ok q) :
    t.enter place above = .ok (place ++ above) ∧ q = place ++ above ++ [stagingName name] := by
  have hname := hdown name (List.mem_append_right above List.mem_cons_self)
  obtain ⟨stays, hstays, hparent⟩ := Path.steps_parent_down root hdown.above.ne_empty hname.1
  have hstaging : stagingOf (root.down (above ++ [name])) name
      = (root.down (above ++ [name])).parent.down [stagingName name] := Path.below_eq_down _ _
  have hstart : t.start ((root.down (above ++ [name])).parent.down [stagingName name])
      = t.start root :=
    congrArg (fun absolute : Bool => if absolute then [] else t.workingDirectory)
      (Path.absolute_ancestor (root.down (above ++ [name])) _)
  obtain ⟨hempty, hstay⟩ := Path.isName_iff.mp (isName_stagingName name)
  have hsteps : ((root.down (above ++ [name])).parent.down [stagingName name]).steps
      = (root.down (above ++ [name])).parent.steps ++ [stagingName name] :=
    Path.steps_down _ (by simpa using hempty)
  rw [hstaging] at hq
  rw [locate_concat t hsteps hstay (stagingName_ne_up name), hstart] at hq
  obtain ⟨⟨⟩, -, hq⟩ := bind_eq_ok.mp hq
  obtain ⟨directory, henter, hq⟩ := bind_eq_ok.mp hq
  obtain ⟨⟨⟩, -, hq⟩ := bind_eq_ok.mp hq
  -- the parent may leave out steps that stay at the end of the root
  have hdirectory : t.enter place above = .ok directory := by
    rw [← h.enter_append, ← hparent, FileTree.enter_append, henter]
    exact enter_stays t directory hstays
  obtain ⟨rfl, -⟩ := enter_children hdown.above.children h.directory hdirectory
  exact ⟨hdirectory, (Except.ok.inj hq).symm⟩

/-! ### Making the directories above a key -/

omit h in
/-- Making the parent of a path changes the way to it only. -/
theorem confined_createDirectories (t : FileTree) (root : Path) (hdown : GoDown (above ++ [name])) :
    Confined (wayTo (t.start root) (root.steps ++ above)) ∅ t
      (calls.createDirectories (root.down (above ++ [name])).parent t).2 := by
  have hname := hdown name (List.mem_append_right above List.mem_cons_self)
  obtain ⟨stays, -, hparent⟩ := Path.steps_parent_down root hdown.above.ne_empty hname.1
  have hwithin : Within root (t.start root) (wayTo (t.start root) (root.steps ++ above))
      (root.down (above ++ [name])).parent := by
    refine ⟨Path.absolute_ancestor _ _, wayTo_mono _ ?_⟩
    rw [← hparent]
    exact List.prefix_append _ stays
  exact (Confined.refl _ ∅ t).createDirectories hwithin

theorem createDirectories (hdown : GoDown (above ++ [name])) {t₁ : FileTree}
    (hmade : calls.createDirectories (root.down (above ++ [name])).parent t = (.ok (), t₁)) :
    Rooted t₁ root place := by
  have hclosed := h.closed.createDirectories (root.down (above ++ [name])).parent
  have hconfined := confined_createDirectories t root hdown
  rw [hmade] at hclosed hconfined
  refine h.of_directories hclosed hconfined.workingDirectory fun q hq => ?_
  rcases hconfined.nodes q (Set.notMem_empty q) with hsame | ⟨-, -, hdir⟩
  · rw [hsame, hq]
  · exact hdir

end Rooted

/-- What making the directories down to some steps changes below the place of a root: they are
there, and none of them has come in place of a file. -/
structure Makes (place : Place) (above : List String) (t t' : FileTree) : Prop where
  nodes : ∀ names, t'.at? (place ++ names) =
    if names <+: above then some .directory else t.at? (place ++ names)
  before : ∀ names, names <+: above →
    t.at? (place ++ names) = none ∨ t.at? (place ++ names) = some .directory

/-- What storing a record changes below the place of a root: the file is there, the directories
above it are, and neither has come in place of the other kind. -/
structure Stores (place : Place) (steps : List String) (value : Bytes) (t t' : FileTree) :
    Prop where
  nodes : ∀ names, t'.at? (place ++ names) =
    if names = steps then some (.file recordMode value)
    else if names <+: steps then some .directory
    else t.at? (place ++ names)
  before : ∀ names, names <+: steps → names ≠ steps →
    t.at? (place ++ names) = none ∨ t.at? (place ++ names) = some .directory
  ne_directory : t.at? (place ++ steps) ≠ some .directory

section Saved

variable {t t₁ t₂ t₃ t' : FileTree} {root : Path} {place : Place} {above : List String}
  {name : String} (hdown : GoDown (above ++ [name]))

include hdown

/-- Where the directory of a key is there in the end, all directories above the key have been
made. -/
theorem makes_of_createDirectories (h : Rooted t root place)
    (hmade : calls.createDirectories (root.down (above ++ [name])).parent t = (.ok (), t₁))
    (hthere : t₁.enter place above = .ok (place ++ above)) : Makes place above t t₁ := by
  have hdirs := (enter_children hdown.above.children (h.createDirectories hdown hmade).directory
    hthere).2
  have hconfined := Rooted.confined_createDirectories t root hdown
  rw [hmade] at hconfined
  constructor
  · intro names
    split
    · rename_i hnames
      exact hdirs names hnames
    · rename_i hnames
      rcases hconfined.nodes (place ++ names) (Set.notMem_empty _) with hsame | ⟨hway, hnone, -⟩
      · exact hsame
      · obtain ⟨l, hl, heq⟩ := below_of_missing h.closed h.enter hdown.above hway hnone
        exact absurd (List.append_cancel_left heq ▸ hl) hnames
  · intro names hnames
    -- a directory above was there, or has been made
    rcases hconfined.nodes (place ++ names) (Set.notMem_empty _) with hsame | ⟨-, hnone, -⟩
    · exact Or.inr (hsame ▸ hdirs names hnames)
    · exact Or.inl hnone

/-- The staging file is written and made private. -/
theorem nodes_of_staged (h : Rooted t root place) {value : Bytes}
    (hwritten : t.writeFile (stagingOf (root.down (above ++ [name])) name) value = .ok t₂)
    (hset : t₂.setMode (stagingOf (root.down (above ++ [name])) name) recordMode = .ok t₃)
    (q : Place) : t₃.at? q =
      if q = place ++ above ++ [stagingName name] then some (.file recordMode value)
      else t.at? q := by
  have hstaged : place ++ above ++ [stagingName name] ≠ [] := by simp
  have h₂ := h.writeFile hwritten
  obtain ⟨_, mode, hwrittenAt, -, rfl⟩ := writeFile_eq_ok hwritten
  obtain ⟨-, rfl⟩ := h.locate_staging hdown hwrittenAt
  have hat := at?_insert t hstaged (.file mode value)
  obtain ⟨_, hsetAt, hfile⟩ := setMode_eq_ok hset
  obtain ⟨-, rfl⟩ := h₂.locate_staging hdown hsetAt
  rw [hat, if_pos rfl] at hfile
  -- what has its mode set is the file just written
  obtain ⟨hdir, -⟩ | ⟨_, _, hfile, rfl⟩ := hfile
  · cases hdir
  · cases hfile
    rw [at?_insert _ hstaged, hat]
    rcases eq_or_ne q (place ++ above ++ [stagingName name]) with rfl | hq
    · rw [if_pos rfl, if_pos rfl]
    · rw [if_neg hq, if_neg hq, if_neg hq]

/-- The staging file is moved to the place of the key. -/
theorem nodes_of_moved (h : Rooted t root place) {value : Bytes}
    (hfile : t.at? (place ++ above ++ [stagingName name]) = some (.file recordMode value))
    (hmoved : t.rename (stagingOf (root.down (above ++ [name])) name) (root.down (above ++ [name]))
      = .ok t') :
    Usable root (above ++ [name]) ∧ t.at? (place ++ above ++ [name]) ≠ some .directory ∧
      ∀ q, t'.at? q = if q = place ++ above ++ [name] then some (.file recordMode value)
        else if q = place ++ above ++ [stagingName name] then none
        else t.at? q := by
  obtain ⟨_, _, _, _, _, hstaging, hmovedFile, happroach, -, hdir, rfl⟩ := rename_eq_ok hmoved
  obtain ⟨-, rfl⟩ := h.locate_staging hdown hstaging
  rw [hfile] at hmovedFile
  cases hmovedFile
  obtain ⟨husable, rfl, rfl⟩ := h.approach_down_eq_ok hdown happroach
  refine ⟨husable, hdir, fun q => ?_⟩
  rw [at?_insert _ (by simp), at?_erase _ (by simp)]

/-- The staging file is written, made private and moved, and is not there afterwards. -/
theorem nodes_of_calls (h : Rooted t root place) (hvisible : name.toList.head? ≠ some '.')
    (hunstaged : t.at? (place ++ above ++ [stagingName name]) = none) {value : Bytes}
    (hwritten : t.writeFile (stagingOf (root.down (above ++ [name])) name) value = .ok t₂)
    (hset : t₂.setMode (stagingOf (root.down (above ++ [name])) name) recordMode = .ok t₃)
    (hmoved : t₃.rename (stagingOf (root.down (above ++ [name])) name) (root.down (above ++ [name]))
      = .ok t') :
    Usable root (above ++ [name]) ∧ t.at? (place ++ above ++ [name]) ≠ some .directory ∧
      ∀ q, t'.at? q = if q = place ++ above ++ [name] then some (.file recordMode value)
        else t.at? q := by
  have hne : place ++ above ++ [name] ≠ place ++ above ++ [stagingName name] := by
    intro heq
    exact stagingName_ne_of_head hvisible (List.singleton_inj.mp (List.append_cancel_left heq))
  have hstaged := nodes_of_staged hdown h hwritten hset
  obtain ⟨husable, hdir, hnodes⟩ := nodes_of_moved hdown ((h.writeFile hwritten).setMode hset)
    ((hstaged _).trans (if_pos rfl)) hmoved
  rw [hstaged, if_neg hne] at hdir
  refine ⟨husable, hdir, fun q => ?_⟩
  rw [hnodes, hstaged]
  -- the staging file is gone, and was not there before
  rcases eq_or_ne q (place ++ above ++ [stagingName name]) with rfl | hq
  · rw [if_pos rfl, hunstaged]
  · rw [if_neg hq, if_neg hq]

/-- What saving a record does, given that it has worked. -/
theorem stores_of_saved (h : Rooted t root place) (hvisible : name.toList.head? ≠ some '.')
    (hunstaged : t.at? (place ++ (above ++ [stagingName name])) = none) {value : Bytes}
    (hsaved : saved t (root.down (above ++ [name]))
      (stagingOf (root.down (above ++ [name])) name) value = (.ok (), t')) :
    Rooted t' root place ∧ Usable root (above ++ [name]) ∧
      Stores place (above ++ [name]) value t t' := by
  obtain ⟨t₁, t₂, t₃, hmade, hwritten, hset, hmoved⟩ := calls_of_saved hsaved
  have h₁ := h.createDirectories hdown hmade
  obtain ⟨_, _, hstaging, -, -⟩ := writeFile_eq_ok hwritten
  have hmakes := makes_of_createDirectories hdown h hmade (h₁.locate_staging hdown hstaging).1
  -- making directories above changes nothing beside the record
  have hkept : ∀ last,
      t₁.at? (place ++ (above ++ [last])) = t.at? (place ++ (above ++ [last])) := by
    intro last
    rw [hmakes.nodes, if_neg]
    exact fun hway => absurd hway.length_le (by simp)
  obtain ⟨husable, hdir, hnodes⟩ := nodes_of_calls hdown h₁ hvisible
    (by rw [List.append_assoc, hkept, hunstaged]) hwritten hset hmoved
  rw [List.append_assoc, hkept] at hdir
  refine ⟨((h₁.writeFile hwritten).setMode hset).rename hmoved, husable, ?_, ?_, hdir⟩
  · intro names
    rw [hnodes, hmakes.nodes, List.append_assoc]
    rcases eq_or_ne names (above ++ [name]) with rfl | hne
    · rw [if_pos rfl, if_pos rfl]
    · rw [if_neg fun heq => hne (List.append_cancel_left heq), if_neg hne]
      simp only [List.prefix_concat_iff, hne, false_or]
  -- the directories above were there, or have been made
  · intro names hway hne
    rcases List.prefix_concat_iff.mp hway with heq | hway
    · exact absurd heq hne
    · exact hmakes.before names hway

/-! ### Removing a record -/

/-- A file that is removed was there, and nothing else changes. -/
theorem removeFile_down_eq_ok (h : Rooted t root place)
    (hremoved : t.removeFile (root.down (above ++ [name])) = .ok t') :
    t.at? (place ++ (above ++ [name])) ≠ some .directory ∧
      t' = t.erase (place ++ (above ++ [name])) := by
  obtain ⟨_, _, happroach, -, hdir, rfl⟩ := removeFile_eq_ok hremoved
  obtain ⟨-, rfl, rfl⟩ := h.approach_down_eq_ok hdown happroach
  rw [← List.append_assoc]
  exact ⟨hdir, rfl⟩

/-- A file is found and removed where its path is usable. -/
theorem removeFile_of_file (h : Rooted t root place) (husable : Usable root (above ++ [name]))
    {mode : Nat} {content : Bytes}
    (hfile : t.at? (place ++ (above ++ [name])) = some (.file mode content)) :
    t.removeFile (root.down (above ++ [name])) = .ok (t.erase (place ++ (above ++ [name]))) := by
  have hplain := husable.plain hdown
  -- the tree is closed, so the way to a file is made of directories
  have hdirs : ∀ l, l <+: above → t.at? (place ++ l) = some .directory := by
    rintro l ⟨rest, rfl⟩
    have hne : rest ++ [name] ≠ [] := by simp
    refine h.closed.directory_above hne ?_
    rw [List.append_assoc, ← List.append_assoc l rest, hfile]
    exact Option.some_ne_none _
  have henter := enter_of_directories (fun s hs => hplain s (List.mem_append_left [name] hs)) hdirs
  have hname := hplain name (List.mem_append_right above List.mem_cons_self)
  have happroach : t.approach (root.down (above ++ [name])) = .ok (place ++ above, name) := by
    rw [h.approach_down hdown, husable.path, henter, checkName_eq_ok hname.short]
    rfl
  have hslashed := Path.slashed_down root above (hdown.ne_empty name (by simp))
  rw [← List.append_assoc] at hfile
  rw [FileTree.removeFile, happroach, hslashed]
  simp only [bind, Except.bind, isChildName_iff.mpr ⟨hname.ne_stay, hname.ne_up⟩, hfile]
  rw [← List.append_assoc]
  rfl

end Saved

end TrustStore.Storage.Directory

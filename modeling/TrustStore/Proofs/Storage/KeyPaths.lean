import TrustStore.Proofs.FileTree.Agreement
import TrustStore.Proofs.FileTree.Reach
import TrustStore.Proofs.Storage.KeyFiles

/-!
# Paths of any keys

A key that a directory takes need not be visible: empty steps and those that stay are passed over,
and what is left are its names (`partsOf`).  They are what counts: the path of the key leads where
they do (`readFile_eq`), and its record is staged beside it (`Written.locate_stagingOf`).  What
comes after the last name demands a directory, and no file is read, stored or removed there
(`endsOpen`).
-/

namespace TrustStore.Storage.Directory

open FileTree

/-! ### Names of keys -/

/-- The key is a path that leads down from the root. -/
def IsAccepted (key : String) : Prop := isPlain (.ofText key) = true

instance (key : String) : Decidable (IsAccepted key) :=
  inferInstanceAs (Decidable (isPlain (.ofText key) = true))

/-- The names of a key. -/
def partsOf (key : String) : List String := (stepsOf key).filter Path.isName

/-- The key goes on after its last name. -/
def endsOpen (key : String) : Bool := !(stepsOf key).getLast?.any Path.isName

section Accepted

variable {key : String}

/-- Any other key is refused. -/
theorem pathOf_of_not_isAccepted (h : ¬ IsAccepted key) (root : Path) :
    pathOf root key = .error (.storage (.invalidKey key)) :=
  if_neg h

/-- An accepted key is a relative path, whose pieces are its steps. -/
theorem IsAccepted.ofText (h : IsAccepted key) : Path.ofText key = ⟨false, stepsOf key⟩ := by
  unfold IsAccepted Path.ofText at h
  unfold Path.ofText
  -- an absolute path is not taken, and neither is one without pieces
  split at h
  · cases h
  · rw [Path.piecesOf] at h ⊢
    split at h
    · cases h
    · rename_i hne
      rw [if_neg hne]
      rfl

/-- An accepted key leads down from the root. -/
theorem pathOf_of_isAccepted (h : IsAccepted key) (root : Path) :
    pathOf root key = .ok (root.down (stepsOf key)) := by
  have hpath := h.ofText
  rw [IsAccepted] at h
  rw [pathOf, if_pos h, hpath, Path.below_eq_down]

theorem IsAccepted.ne_up (h : IsAccepted key) : ∀ step ∈ stepsOf key, step ≠ ".." := by
  have hplain := h
  rw [IsAccepted, h.ofText, isPlain, Bool.and_eq_true] at hplain
  intro step hstep hup
  have hne : step ∈ (⟨false, stepsOf key⟩ : Path).steps :=
    List.mem_filter.mpr ⟨hstep, by simp [hup]⟩
  exact of_decide_eq_true (List.all_eq_true.mp hplain.2 step hne) hup

theorem IsAccepted.partsOf_ne_nil (h : IsAccepted key) : partsOf key ≠ [] := by
  have hplain := h
  rw [IsAccepted, h.ofText, isPlain, Bool.and_eq_true, Bool.and_eq_true] at hplain
  obtain ⟨step, hhead, hstay⟩ := (Option.any_eq_true _ _).mp hplain.1.2
  obtain ⟨hstep, hne⟩ := List.mem_filter.mp (List.mem_of_head? hhead)
  refine List.ne_nil_of_mem (List.mem_filter.mpr ⟨hstep, ?_⟩)
  exact Path.isName_iff.mpr ⟨of_decide_eq_true hne, of_decide_eq_true hstay⟩

/-- An accepted key has a last name. -/
theorem IsAccepted.exists_partsOf_eq_concat (h : IsAccepted key) :
    ∃ above name, partsOf key = above ++ [name] :=
  (List.eq_nil_or_concat' (partsOf key)).resolve_left h.partsOf_ne_nil

/-- The names of an accepted key only go down. -/
theorem IsAccepted.goDown (h : IsAccepted key) : GoDown (partsOf key) := by
  intro step hstep
  obtain ⟨hmem, hname⟩ := List.mem_filter.mp hstep
  exact ⟨hname, h.ne_up step hmem⟩

theorem IsAccepted.goDown_concat (h : IsAccepted key) {above : List String} {name : String}
    (hparts : partsOf key = above ++ [name]) : GoDown (above ++ [name]) :=
  hparts ▸ h.goDown

end Accepted

/-- How a key is written: its last name, and what comes before and after it. -/
structure Written (key : String) (above : List String) (name : String)
    (before after : List String) : Prop where
  steps : stepsOf key = before ++ name :: after
  before : before.filter Path.isName = above
  isName : Path.isName name = true
  after : ∀ step ∈ after, Path.isName step = false

/-- The steps of a key, around its last name. -/
theorem exists_written {key : String} {above : List String} {name : String}
    (h : partsOf key = above ++ [name]) :
    ∃ before after, Written key above name before after := by
  obtain ⟨l, l', hsteps, hl, hl'⟩ := List.filter_eq_append_iff.mp h
  obtain ⟨m, after, rfl, hm, hname, hafter⟩ := List.filter_eq_cons_iff.mp hl'
  refine ⟨l ++ m, after, ?_, ?_, hname, ?_⟩
  · rw [hsteps, List.append_assoc]
  · rw [List.filter_append, hl, List.filter_eq_nil_iff.mpr hm, List.append_nil]
  · exact fun step hstep => Bool.eq_false_iff.mpr (List.filter_eq_nil_iff.mp hafter step hstep)

/-! ### Paths of keys -/

/-- Names are the pieces that neither are empty nor stay. -/
theorem filter_isName (pieces : List String) :
    pieces.filter Path.isName = (pieces.filter (· ≠ "")).filter (· ≠ ".") := by
  rw [List.filter_filter]
  refine List.filter_congr fun piece _ => ?_
  rw [Bool.eq_iff_iff, Path.isName_iff]
  simp [and_comm]

theorem filter_basePieces_isName (root : Path) :
    root.basePieces.filter Path.isName = root.steps.filter (· ≠ ".") := by
  rw [filter_isName, Path.filter_basePieces]

/-- The path of a key leads where its names do. -/
theorem filter_steps_down (root : Path) (key : String) :
    (root.down (stepsOf key)).steps.filter (· ≠ ".")
      = (root.steps ++ partsOf key).filter (· ≠ ".") := by
  show ((root.basePieces ++ stepsOf key).filter (· ≠ "")).filter (· ≠ ".") = _
  rw [List.filter_append, Path.filter_basePieces, List.filter_append, List.filter_append, partsOf,
    filter_isName]
  simp

/-- The path of a key ends where the root and its names lead to. -/
theorem walked_down (root : Path) (key : String) (q : Place) :
    walked q (root.down (stepsOf key)).steps = walked q (root.steps ++ partsOf key) := by
  rw [← walked_filter, filter_steps_down, walked_filter]

/-- Its way is that of the root and then of its names. -/
theorem wayTo_down (root : Path) (key : String) (q : Place) :
    wayTo q (root.down (stepsOf key)).steps = wayTo q (root.steps ++ partsOf key) := by
  rw [← wayTo_filter, filter_steps_down, wayTo_filter]

/-- The staging file is one step down from the parent. -/
theorem stagingOf_eq_down (p : Path) (name : String) :
    stagingOf p name = p.parent.down [stagingName name] :=
  Path.below_eq_down p.parent [stagingName name]

theorem steps_stagingOf (p : Path) (name : String) :
    (stagingOf p name).steps = p.parent.steps ++ [stagingName name] := by
  rw [stagingOf_eq_down]
  exact Path.steps_down _ (by simpa using (Path.isName_iff.mp (isName_stagingName name)).1)

theorem slashed_stagingOf (p : Path) (name : String) : (stagingOf p name).slashed = false := by
  rw [stagingOf_eq_down]
  exact Path.slashed_down p.parent [] (Path.isName_iff.mp (isName_stagingName name)).1

/-- The staging file is looked for from where the record is. -/
theorem start_stagingOf (t : FileTree) (p : Path) (name : String) :
    t.start (stagingOf p name) = t.start p := by
  rw [stagingOf_eq_down]
  exact congrArg (fun absolute : Bool => if absolute then [] else t.workingDirectory)
    (Path.absolute_ancestor p _)

namespace Written

variable {key : String} {above : List String} {name : String} {before after : List String}
  (h : Written key above name before after) (root : Path)

include h

theorem down_eq : root.down (stepsOf key)
    = ⟨root.absolute, (root.basePieces ++ before) ++ name :: after⟩ := by
  rw [h.steps, Path.down, List.append_assoc]

/-- Behind the last name there is no other. -/
theorem filter_after : after.filter Path.isName = [] :=
  List.filter_eq_nil_iff.mpr fun step hstep => by rw [h.after step hstep]; exact Bool.false_ne_true

theorem names_down : (root.down (stepsOf key)).names
    = (⟨root.absolute, root.basePieces ++ before⟩ : Path).names ++ [name] := by
  rw [h.down_eq, Path.names_append _ _ h.isName, h.filter_after]

/-- The last name of a key is that of its file. -/
theorem fileName?_down (hup : name ≠ "..") : (root.down (stepsOf key)).fileName? = some name := by
  have hstay : name ≠ "." := (Path.isName_iff.mp h.isName).2
  rw [Path.fileName?, h.names_down, List.getLast?_concat]
  simp [hstay, hup]

/-- The steps before the last name are the names above it, once those that stay are left out. -/
theorem filter_before : (root.steps ++ before.filter (· ≠ "")).filter (· ≠ ".")
    = (root.steps ++ above).filter (· ≠ ".") := by
  have habove : above.filter (· ≠ ".") = above := by
    refine List.filter_eq_self.mpr fun step hstep => ?_
    rw [← h.before] at hstep
    exact decide_eq_true (Path.isName_iff.mp (List.mem_filter.mp hstep).2).2
  rw [List.filter_append, List.filter_append, ← filter_isName, h.before, habove]

/-- The parent of the path of a key leads to the directory of the key. -/
theorem filter_steps_parent : (root.down (stepsOf key)).parent.steps.filter (· ≠ ".")
    = (root.steps ++ above).filter (· ≠ ".") := by
  obtain ⟨stays, hstays, hl⟩ :=
    Path.ancestor_length_names root.absolute (root.basePieces ++ before) (name :: after)
  have hparent : (root.down (stepsOf key)).parent.pieces ++ stays = root.basePieces ++ before := by
    rw [Path.parent, h.names_down, h.down_eq, List.length_append]
    exact hl
  have hnone : stays.filter Path.isName = [] :=
    List.filter_eq_nil_iff.mpr fun step hstep => by
      rw [hstays step hstep]
      exact Bool.false_ne_true
  have hnames := congrArg (List.filter Path.isName) hparent
  rw [List.filter_append, hnone, List.append_nil, List.filter_append,
    filter_basePieces_isName] at hnames
  rw [Path.steps, ← filter_isName, hnames, ← h.filter_before root, List.filter_append,
    ← filter_isName]

/-- The parent of a key is entered by the names above. -/
theorem enter_parent (t : FileTree) (q : Place) :
    t.enter q (root.down (stepsOf key)).parent.steps = t.enter q (root.steps ++ above) := by
  rw [← enter_filter, h.filter_steps_parent, enter_filter]

/-- Its way is that of the root and of the names above. -/
theorem wayTo_parent (q : Place) :
    wayTo q (root.down (stepsOf key)).parent.steps = wayTo q (root.steps ++ above) := by
  rw [← wayTo_filter, h.filter_steps_parent, wayTo_filter]

/-! ### The staging file -/

/-- A record is staged in the directory of its key. -/
theorem locate_stagingOf (t : FileTree) :
    t.locate (stagingOf (root.down (stepsOf key)) name) = (do
      checkPath (stagingOf (root.down (stepsOf key)) name)
      let directory ← t.enter (t.start root) (root.steps ++ above)
      checkName (stagingName name)
      return directory ++ [stagingName name]) := by
  have hstay := (Path.isName_iff.mp (isName_stagingName name)).2
  rw [locate_concat t (steps_stagingOf _ name) hstay (stagingName_ne_up name), start_stagingOf,
    h.enter_parent root]
  rfl

/-- The staging file is in the directory of the names above. -/
theorem walked_stagingOf (q : Place) : walked q (stagingOf (root.down (stepsOf key)) name).steps
    = walked q (root.steps ++ above) ++ [stagingName name] := by
  have hstay := (Path.isName_iff.mp (isName_stagingName name)).2
  rw [steps_stagingOf, walked_concat, placeOf_eq hstay (stagingName_ne_up name), ← walked_filter,
    h.filter_steps_parent root, walked_filter]

/-! ### The record -/

/-- A key ends open if something is written behind its last name. -/
theorem endsOpen_iff : endsOpen key = true ↔ after ≠ [] := by
  rcases List.eq_nil_or_concat' after with rfl | ⟨rest, last, rfl⟩
  · simp [endsOpen, h.steps, h.isName]
  · have hlast : (stepsOf key).getLast? = some last := by
      rw [h.steps, ← List.cons_append, ← List.append_assoc, List.getLast?_concat]
    simp [endsOpen, hlast, h.after last (by simp)]

theorem steps_down : (root.down (stepsOf key)).steps
    = root.steps ++ before.filter (· ≠ "") ++ name :: after.filter (· ≠ "") := by
  have hname : name ≠ "" := (Path.isName_iff.mp h.isName).1
  rw [h.down_eq, Path.steps, List.filter_append, List.filter_append, Path.filter_basePieces,
    List.filter_cons_of_pos (by simpa using hname)]

/-- The last step of the path takes the last name, or stays behind it. -/
theorem steps_cases :
    ((root.down (stepsOf key)).steps = root.steps ++ before.filter (· ≠ "") ++ [name] ∧
      (root.down (stepsOf key)).slashed = endsOpen key) ∨
    ∃ stays, (∀ step ∈ stays, step = ".") ∧ endsOpen key = true ∧
      (root.down (stepsOf key)).steps
        = root.steps ++ before.filter (· ≠ "") ++ name :: stays ++ ["."] := by
  have hstays : ∀ step ∈ after.filter (· ≠ ""), step = "." := by
    intro step hstep
    obtain ⟨hmem, hne⟩ := List.mem_filter.mp hstep
    by_contra hstay
    have hname := h.after step hmem
    rw [Path.isName_iff.mpr ⟨of_decide_eq_true hne, hstay⟩] at hname
    cases hname
  rcases List.eq_nil_or_concat' (after.filter (· ≠ "")) with hnil | ⟨stays, last, hconcat⟩
  -- nothing but empty pieces follow the last name, so that the path may end with a slash
  · left
    refine ⟨by rw [h.steps_down, hnil], ?_⟩
    rw [Path.slashed, h.steps_down, h.down_eq]
    rcases List.eq_nil_or_concat' after with rfl | ⟨rest, last, rfl⟩
    · have hname : name ≠ "" := (Path.isName_iff.mp h.isName).1
      rw [Bool.eq_false_iff.mpr (mt h.endsOpen_iff.mp (not_not.mpr rfl))]
      simp [hname]
    · have hlast : last = "" := by
        by_contra hne
        exact List.filter_eq_nil_iff.mp hnil last (by simp) (decide_eq_true hne)
      rw [h.endsOpen_iff.mpr (by simp), ← List.cons_append, ← List.append_assoc,
        List.getLast?_concat, hlast]
      simp
  -- the last step stays, and so demands a directory before it
  · right
    rw [hconcat] at hstays
    obtain rfl := hstays last (by simp)
    refine ⟨stays, fun step hstep => hstays step (List.mem_append_left _ hstep), ?_, ?_⟩
    · refine h.endsOpen_iff.mpr ?_
      rintro rfl
      simp at hconcat
    · rw [h.steps_down, hconcat]
      simp

/-- The path of a key is approached by its last name, or by a step that stays behind it. -/
theorem approach_cases (t : FileTree) :
    (t.approach (root.down (stepsOf key)) = (do
        checkPath (root.down (stepsOf key))
        let directory ← t.enter (t.start root) (root.steps ++ above)
        checkName name
        return (directory, name)) ∧
      (root.down (stepsOf key)).slashed = endsOpen key) ∨
    (t.approach (root.down (stepsOf key)) = (do
        checkPath (root.down (stepsOf key))
        let place ← t.enter (t.start root) (root.steps ++ (above ++ [name]))
        return (place, ".")) ∧
      endsOpen key = true) := by
  have hstay : name ≠ "." := (Path.isName_iff.mp h.isName).2
  have hstart : t.start (root.down (stepsOf key)) = t.start root := rfl
  rcases h.steps_cases root with ⟨hsteps, hslashed⟩ | ⟨stays, hstays, hopen, hsteps⟩
  · left
    refine ⟨?_, hslashed⟩
    rw [approach_concat t hsteps, hstart, ← enter_filter, h.filter_before root, enter_filter]
  · right
    refine ⟨?_, hopen⟩
    -- steps that stay are left out of the walk, and put in again where the statement has them
    have hnames : (root.steps ++ before.filter (· ≠ "") ++ name :: stays).filter (· ≠ ".")
        = (root.steps ++ (above ++ [name])).filter (· ≠ ".") := by
      have hnone : stays.filter (· ≠ ".") = [] :=
        List.filter_eq_nil_iff.mpr fun step hstep => by simp [hstays step hstep]
      rw [List.filter_append, h.filter_before root, ← List.append_assoc root.steps,
        List.filter_append _ [name], List.filter_cons_of_pos (by simpa using hstay), hnone,
        List.filter_cons_of_pos (by simpa using hstay), List.filter_nil]
    rw [approach_concat t hsteps, hstart, ← enter_filter, hnames, enter_filter]
    rfl

end Written

/-- What the names of a key lead to from the root, where there is room for the path. -/
def nodeOf (t : FileTree) (root : Path) (key : String) : Except FileError Node := do
  checkPath (root.down (stepsOf key))
  let base ← t.enter (t.start root) root.steps
  t.reach base (partsOf key)

/-- The place that the names of a key lead to. -/
def placeIn (t : FileTree) (root : Path) (key : String) : Place :=
  walked (t.start root) (root.steps ++ partsOf key)

/-- How the path of a key is approached, and what its names lead to. -/
inductive Led (t : FileTree) (root : Path) (key name : String) :
    Except FileError (Place × String) → Except FileError Node → Prop where
  | failed (e : FileError) : Led t root key name (.error e) (.error e)
  | absent {directory : Place} (hplace : directory ++ [name] = placeIn t root key)
      (hnone : t.at? (directory ++ [name]) = none) :
      Led t root key name (.ok (directory, name)) (.error .missing)
  | child {directory : Place} {node : Node} (hplace : directory ++ [name] = placeIn t root key)
      (hslashed : (root.down (stepsOf key)).slashed = endsOpen key)
      (hnode : t.at? (directory ++ [name]) = some node) :
      Led t root key name (.ok (directory, name)) (.ok node)
  | behindFile (hopen : endsOpen key = true) (mode : Nat) (content : Bytes) :
      Led t root key name (.error .notDirectory) (.ok (.file mode content))
  | behindDirectory {place : Place} (hopen : endsOpen key = true)
      (hdir : t.at? place = some .directory) :
      Led t root key name (.ok (place, ".")) (.ok .directory)

/-- Both walks pass through the root first. -/
theorem Led.of_base {t : FileTree} (hclosed : t.Closed) {root p : Path} {key name : String}
    {approached : Place → Except FileError (Place × String)}
    {found : Place → Except FileError Node}
    (h : ∀ base, t.enter (t.start root) root.steps = .ok base → t.at? base = some .directory →
      Led t root key name (approached base) (found base)) :
    Led t root key name
      (checkPath p >>= fun _ => t.enter (t.start root) root.steps >>= approached)
      (checkPath p >>= fun _ => t.enter (t.start root) root.steps >>= found) := by
  rcases checkPath p with e | ⟨⟩
  · exact .failed e
  · rcases hbase : t.enter (t.start root) root.steps with e | base
    · exact .failed e
    · exact h base hbase (hclosed.enter (hclosed.start root) hbase)

/-- How the approach of the path of a key and the search for its node go together. -/
theorem led (t : FileTree) (hclosed : t.Closed) (root : Path) {key : String}
    (hkey : IsAccepted key) {above : List String} {name : String}
    (hparts : partsOf key = above ++ [name]) :
    Led t root key name (t.approach (root.down (stepsOf key))) (nodeOf t root key) := by
  obtain ⟨before, after, h⟩ := exists_written hparts
  have hdown := hkey.goDown_concat hparts
  have hnode : nodeOf t root key = (do
      checkPath (root.down (stepsOf key))
      let base ← t.enter (t.start root) root.steps
      t.reach base (above ++ [name])) := by
    rw [nodeOf, hparts]
  rcases h.approach_cases root t with ⟨happroach, hslashed⟩ | ⟨happroach, hopen⟩
  -- the last step is the name itself: what is found is a child of the directory above
  · rw [happroach, hnode, enter_append]
    simp only [bind_assoc]
    refine .of_base hclosed fun base hbase hdir => ?_
    rw [reach_concat hdown.above.children hdir]
    rcases hdirectory : t.enter base above with e | directory
    · exact .failed e
    · simp only [bind, Except.bind]
      rcases checkName name with e | ⟨⟩
      · exact .failed e
      · have hplace : directory ++ [name] = placeIn t root key := by
          rw [(enter_children hdown.above.children hdir hdirectory).1, placeIn, hparts,
            walked_append, ← enter_eq_walked hbase, walked_children hdown.children,
            List.append_assoc]
        dsimp only
        rcases hat : t.at? (directory ++ [name]) with - | node
        · exact .absent hplace hat
        · exact .child hplace hslashed hat
  -- the last step stays: the name must lead to a directory for the approach to succeed
  · rw [happroach, hnode, enter_append]
    simp only [bind_assoc]
    refine .of_base hclosed fun base hbase hdir => ?_
    rw [enter_eq_reach hdown.children hdir]
    rcases hreach : t.reach base (above ++ [name]) with e | (- | ⟨mode, content⟩)
    · exact .failed e
    · exact .behindDirectory hopen (reach_eq_ok_iff.mp hreach).2.2
    · exact .behindFile hopen mode content

/-! ### Storing -/

/-- A put of any other key is refused. -/
theorem put_run_refused {key : String} (h : ¬ IsAccepted key) (root : Path) (value : Bytes)
    (t : FileTree) : ((ofDirectory calls root).put key value).run t
      = (.error (.storage (.invalidKey key)), t) := by
  show ((liftM (pathOf root key) : ExceptT Fault (StateM FileTree) Path) >>= fun p =>
    save calls key p value).run t = _
  rw [pathOf_of_not_isAccepted h]
  rfl

/-- A put of an accepted key saves its value, staged beside the file. -/
theorem put_run_accepted {key : String} (h : IsAccepted key) {above : List String} {name : String}
    (hparts : partsOf key = above ++ [name]) (root : Path) (value : Bytes) (t : FileTree) :
    ((ofDirectory calls root).put key value).run t
      = saved t (root.down (stepsOf key)) (stagingOf (root.down (stepsOf key)) name) value := by
  obtain ⟨before, after, hwritten⟩ := exists_written hparts
  have hup : name ≠ ".." := (h.goDown_concat hparts).last.2
  exact put_run (pathOf_of_isAccepted h root) (hwritten.fileName?_down root hup) value t

/-! ### Reading and removing -/

section Calls

variable {t : FileTree} (hclosed : t.Closed) (root : Path) {key : String} (hkey : IsAccepted key)

include hclosed hkey

/-- A key is read where its names lead to a file and the key ends there. -/
theorem readFile_eq : t.readFile (root.down (stepsOf key)) = nodeOf t root key >>= fun node =>
    match node with
    | .directory => .error .isDirectory
    | .file _ content => if endsOpen key then .error .notDirectory else .ok content := by
  obtain ⟨above, name, hparts⟩ := hkey.exists_partsOf_eq_concat
  have hled := led t hclosed root hkey hparts
  have hname := (hkey.goDown_concat hparts).last
  have hstay : name ≠ "." := (Path.isName_iff.mp hname.1).2
  rw [FileTree.readFile, FileTree.locate]
  generalize t.approach (root.down (stepsOf key)) = approached at hled ⊢
  generalize nodeOf t root key = found at hled ⊢
  -- by how the approach has ended
  cases hled with
  | failed e => rfl
  | absent hplace hnone =>
    simp only [Except.map, bind, Except.bind, placeOf_eq hstay hname.2, hnone]
  | @child _ node hplace hslashed hnode =>
    simp only [Except.map, bind, Except.bind, placeOf_eq hstay hname.2, hnode, hslashed]
    rcases node with - | ⟨mode, content⟩ <;> rfl
  | behindFile hopen mode content =>
    simp only [Except.map, bind, Except.bind, hopen]
    rfl
  | behindDirectory hopen hdir =>
    simp only [Except.map, bind, Except.bind, placeOf, if_true, hdir]

/-- A key is removed where it would be read. -/
theorem removeFile_eq : t.removeFile (root.down (stepsOf key)) = nodeOf t root key >>= fun node =>
    match node with
    | .directory => .error .isDirectory
    | .file _ _ =>
      if endsOpen key then .error .notDirectory else .ok (t.erase (placeIn t root key)) := by
  obtain ⟨above, name, hparts⟩ := hkey.exists_partsOf_eq_concat
  have hled := led t hclosed root hkey hparts
  have hname := (hkey.goDown_concat hparts).last
  have hchild : isChildName name = true :=
    isChildName_iff.mpr ⟨(Path.isName_iff.mp hname.1).2, hname.2⟩
  rw [FileTree.removeFile]
  generalize t.approach (root.down (stepsOf key)) = approached at hled ⊢
  generalize nodeOf t root key = found at hled ⊢
  -- by how the approach has ended
  cases hled with
  | failed e => rfl
  | absent hplace hnone =>
    simp only [bind, Except.bind, hchild, hnone]
    rfl
  | @child _ node hplace hslashed hnode =>
    rw [hplace] at hnode
    simp only [bind, Except.bind, hchild, hplace, hnode, hslashed]
    rcases node with - | ⟨mode, content⟩ <;> rfl
  | behindFile hopen mode content =>
    simp only [bind, Except.bind, hopen]
    rfl
  | behindDirectory hopen hdir => rfl

end Calls

end TrustStore.Storage.Directory

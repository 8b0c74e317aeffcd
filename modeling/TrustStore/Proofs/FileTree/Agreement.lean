import Mathlib.Data.Set.Basic
import TrustStore.Proofs.FileTree.Changes
import TrustStore.Proofs.FileTree.Path

/-!
# What a call looks at and what it changes

The places that a walk comes by are settled by its steps, and `wayTo` collects them.  So a call
depends on two things only, the directory where its path begins and the nodes on its way, and it
changes one of those nodes.  `AgreeOn` relates two trees that agree there; each call answers alike
on both and leaves them in agreement (`AgreeOn.writeFile` and its like).  `Confined` relates the
tree before and the tree after to the places that may have changed.
-/

namespace TrustStore.FileTree

/-! ### Ways -/

/-- The places that steps come by. -/
def wayTo (q : Place) (steps : List String) : Set Place := {r | ∃ l, l <+: steps ∧ walked q l = r}

theorem walked_mem_wayTo (q : Place) (steps : List String) : walked q steps ∈ wayTo q steps :=
  ⟨steps, List.prefix_refl steps, rfl⟩

/-- Longer ways pass through all places of shorter ones. -/
theorem wayTo_mono (q : Place) {steps more : List String} (h : steps <+: more) :
    wayTo q steps ⊆ wayTo q more := by
  rintro r ⟨l, hl, rfl⟩
  exact ⟨l, hl.trans h, rfl⟩

/-- What is on the way behind a step is on the way with it. -/
theorem wayTo_cons (q : Place) (step : String) (steps : List String) :
    wayTo (placeOf q step) steps ⊆ wayTo q (step :: steps) := by
  rintro r ⟨l, hl, rfl⟩
  exact ⟨step :: l, List.cons_prefix_cons.mpr ⟨rfl, hl⟩, rfl⟩

/-- Steps that stay come by no other places. -/
theorem wayTo_filter (q : Place) (steps : List String) :
    wayTo q (steps.filter (· ≠ ".")) = wayTo q steps := by
  ext r
  constructor
  · rintro ⟨l, hl, rfl⟩
    obtain ⟨l', hl', rfl⟩ := List.prefix_filter_iff.mp hl
    exact ⟨l', hl', (walked_filter q l').symm⟩
  · rintro ⟨l, hl, rfl⟩
    exact ⟨l.filter (· ≠ "."), hl.filter _, walked_filter q l⟩

/-- The way of steps that are taken one part after the other. -/
theorem mem_wayTo_append {q r : Place} {steps more : List String}
    (h : r ∈ wayTo q (steps ++ more)) : r ∈ wayTo q steps ∨ r ∈ wayTo (walked q steps) more := by
  obtain ⟨l, hl, rfl⟩ := h
  rcases List.prefix_or_prefix_of_prefix hl (List.prefix_append steps more) with
    hsteps | ⟨rest, rfl⟩
  · exact Or.inl ⟨l, hsteps, rfl⟩
  · have hrest := (List.prefix_append_right_inj steps).mp hl
    exact Or.inr ⟨rest, hrest, (walked_append q steps rest).symm⟩

/-- One more step comes by one more place. -/
theorem wayTo_concat (q : Place) (steps : List String) (step : String) :
    wayTo q (steps ++ [step]) ⊆ wayTo q steps ∪ {walked q (steps ++ [step])} := by
  rintro r ⟨l, hl, rfl⟩
  rcases List.prefix_concat_iff.mp hl with rfl | hl
  · exact Or.inr rfl
  · exact Or.inl ⟨l, hl, rfl⟩

variable {t u : FileTree} {p : Path}

/-! ### Agreement -/

/-- Two trees in which a root begins at the same place, and whose nodes in a region are the same. -/
structure AgreeOn (root : Path) (origin : Place) (region : Set Place) (t u : FileTree) : Prop where
  left : t.start root = origin
  right : u.start root = origin
  nodes : ∀ q ∈ region, t.at? q = u.at? q

/-- A path that begins where the root does, and whose way lies in the region. -/
structure Within (root : Path) (origin : Place) (region : Set Place) (p : Path) : Prop where
  absolute : p.absolute = root.absolute
  way : wayTo origin p.steps ⊆ region

/-- How a call that changes the tree ends in two trees that agree. -/
inductive AgreeAfter (root : Path) (origin : Place) (region : Set Place) :
    Except FileError FileTree → Except FileError FileTree → Prop where
  | done {t u : FileTree} (h : AgreeOn root origin region t u) :
    AgreeAfter root origin region (.ok t) (.ok u)
  | failed (e : FileError) : AgreeAfter root origin region (.error e) (.error e)

/-- Two calls that agree both succeed, in trees that agree, or fail with one error. -/
theorem AgreeAfter.cases {root : Path} {origin : Place} {region : Set Place}
    {a b : Except FileError FileTree} (h : AgreeAfter root origin region a b) :
    (∃ t u, a = .ok t ∧ b = .ok u ∧ AgreeOn root origin region t u) ∨
      ∃ e, a = .error e ∧ b = .error e := by
  rcases h with h | e
  · exact Or.inl ⟨_, _, rfl, rfl, h⟩
  · exact Or.inr ⟨e, rfl, rfl⟩

/-- How several calls end that change the tree one after the other. -/
structure AgreeRun (root : Path) (origin : Place) (region : Set Place) {α : Type}
    (a b : α × FileTree) : Prop where
  outcome : a.1 = b.1
  trees : AgreeOn root origin region a.2 b.2

/-- Runs that agree have one outcome, and leave trees that agree. -/
theorem AgreeRun.split {root : Path} {origin : Place} {region : Set Place} {α : Type}
    {a b : α × FileTree} (h : AgreeRun root origin region a b) :
    ∃ outcome t u, a = (outcome, t) ∧ b = (outcome, u) ∧ AgreeOn root origin region t u :=
  ⟨a.1, a.2, b.2, rfl, Prod.ext h.outcome.symm rfl, h.trees⟩

/-- A walk looks at its way only. -/
theorem enter_congr {steps : List String} {q : Place}
    (h : ∀ r ∈ wayTo q steps, t.at? r = u.at? r) : t.enter q steps = u.enter q steps := by
  induction steps generalizing q with
  | nil => rfl
  | cons step steps ih =>
    have hrest := ih fun r hr => h r (wayTo_cons q step steps hr)
    rcases eq_or_ne step "." with rfl | hstay
    · rw [enter_stay, enter_stay]
      exact hrest
    rcases eq_or_ne step ".." with rfl | hup
    · rw [enter_up, enter_up]
      exact hrest
    · -- only a step to a child looks at the tree
      have hnode : t.at? (q ++ [step]) = u.at? (q ++ [step]) :=
        h _ ⟨[step], ⟨steps, rfl⟩, placeOf_eq hstay hup q⟩
      rw [placeOf_eq hstay hup] at hrest
      rw [enter, if_neg hstay, if_neg hup, enter, if_neg hstay, if_neg hup, hnode, hrest]

section Within

variable {root : Path} {origin : Place} {region : Set Place} (hp : Within root origin region p)

include hp

/-- A path within a region begins where the root does. -/
theorem Within.start (h : t.start root = origin) : t.start p = origin := by
  rw [FileTree.start, hp.absolute]
  exact h

/-- A path within a region leads into it. -/
theorem Within.locate_mem (h : t.start root = origin) {q : Place} (hq : t.locate p = .ok q) :
    q ∈ region := by
  rw [locate_eq_walked hq, hp.start h]
  exact hp.way (walked_mem_wayTo _ _)

/-- The child that a path within a region names is in it. -/
theorem Within.child_mem (h : t.start root = origin) {place : Place} {name : String}
    (happroach : t.approach p = .ok (place, name)) (hchild : isChildName name = true) :
    place ++ [name] ∈ region := by
  rw [child_eq_walked happroach hchild, hp.start h]
  exact hp.way (walked_mem_wayTo _ _)

/-- The ancestors of a path come by a part of its way. -/
theorem Within.ancestor (n : Nat) : Within root origin region (p.ancestor n) where
  absolute := (Path.absolute_ancestor p n).trans hp.absolute
  way := (wayTo_mono origin (Path.prefix_steps_ancestor p n)).trans hp.way

end Within

namespace AgreeOn

variable {root : Path} {origin : Place} {region : Set Place}

/-- Trees that agree still do with a node put into both of them. -/
theorem insert (h : AgreeOn root origin region t u) {place : Place} (hplace : place ≠ [])
    (node : Node) : AgreeOn root origin region (t.insert place node) (u.insert place node) where
  left := h.left
  right := h.right
  nodes q hq := by rw [at?_insert t hplace, at?_insert u hplace, h.nodes q hq]

/-- Trees that agree still do with a node taken from both of them. -/
theorem erase (h : AgreeOn root origin region t u) {place : Place} (hplace : place ≠ []) :
    AgreeOn root origin region (t.erase place) (u.erase place) where
  left := h.left
  right := h.right
  nodes q hq := by rw [at?_erase t hplace, at?_erase u hplace, h.nodes q hq]

/-! ### Calls on trees that agree -/

section Calls

variable (h : AgreeOn root origin region t u) (hp : Within root origin region p)

include h hp

theorem approach : t.approach p = u.approach p := by
  have hstart := hp.start h.left
  have hstart' := hp.start h.right
  rcases List.eq_nil_or_concat' p.steps with hnil | ⟨above, last, hsteps⟩
  · rw [FileTree.approach, FileTree.approach, hnil]
    rfl
  -- the last step is not taken, so only the way above it counts
  · have hway : ∀ r ∈ wayTo origin above, t.at? r = u.at? r := by
      intro r hr
      refine h.nodes r (hp.way ?_)
      rw [hsteps]
      exact wayTo_mono _ (List.prefix_append above [last]) hr
    rw [approach_concat t hsteps, approach_concat u hsteps, hstart, hstart', enter_congr hway]

/-- In trees that agree, a path within their region leads to the same place. -/
theorem locate : t.locate p = u.locate p := by
  rw [FileTree.locate, FileTree.locate, h.approach hp]

theorem readFile : t.readFile p = u.readFile p := by
  rw [FileTree.readFile, FileTree.readFile, h.locate hp]
  rcases hplace : u.locate p with e | place
  · rfl
  · simp only [bind, Except.bind, h.nodes place (hp.locate_mem h.right hplace)]

theorem isDirectory : t.isDirectory p = u.isDirectory p := by
  rw [FileTree.isDirectory, FileTree.isDirectory, h.locate hp]
  rcases hplace : u.locate p with e | place
  · rfl
  · simp only [h.nodes place (hp.locate_mem h.right hplace)]

theorem createDirectory :
    AgreeAfter root origin region (t.createDirectory p) (u.createDirectory p) := by
  rw [FileTree.createDirectory, FileTree.createDirectory, h.locate hp]
  rcases hplace : u.locate p with e | place
  · exact .failed e
  · simp only [bind, Except.bind, h.nodes place (hp.locate_mem h.right hplace)]
    rcases hnode : u.at? place with - | node
    · exact .done (h.insert (ne_root (t := u) (by simp [hnode])) _)
    · exact .failed _

theorem writeFile (content : Bytes) :
    AgreeAfter root origin region (t.writeFile p content) (u.writeFile p content) := by
  rw [FileTree.writeFile, FileTree.writeFile, h.locate hp]
  rcases hplace : u.locate p with e | place
  · exact .failed e
  · simp only [bind, Except.bind, h.nodes place (hp.locate_mem h.right hplace)]
    rcases hnode : u.at? place with - | (- | ⟨mode, old⟩)
    · dsimp only
      split
      · exact .failed _
      · exact .done (h.insert (ne_root (t := u) (by simp [hnode])) _)
    · exact .failed _
    · dsimp only
      split
      · exact .failed _
      · exact .done (h.insert (ne_root (t := u) (by simp [hnode])) _)

theorem setMode (mode : Nat) :
    AgreeAfter root origin region (t.setMode p mode) (u.setMode p mode) := by
  rw [FileTree.setMode, FileTree.setMode, h.locate hp]
  rcases hplace : u.locate p with e | place
  · exact .failed e
  · simp only [bind, Except.bind, h.nodes place (hp.locate_mem h.right hplace)]
    rcases hnode : u.at? place with - | (- | ⟨old, content⟩)
    · exact .failed _
    · exact .done h
    · dsimp only
      split
      · exact .failed _
      · exact .done (h.insert (ne_root (t := u) (by simp [hnode])) _)

theorem removeFile : AgreeAfter root origin region (t.removeFile p) (u.removeFile p) := by
  rw [FileTree.removeFile, FileTree.removeFile, h.approach hp]
  rcases happroach : u.approach p with e | ⟨place, name⟩
  · exact .failed e
  · simp only [bind, Except.bind]
    rcases hchild : isChildName name with - | -
    · exact .failed _
    · simp only [Bool.not_true, Bool.false_eq_true, if_false,
        h.nodes _ (hp.child_mem h.right happroach hchild)]
      rcases u.at? (place ++ [name]) with - | (- | ⟨mode, content⟩)
      · exact .failed _
      · exact .failed _
      · dsimp only
        split
        · exact .failed _
        · exact .done (h.erase (by simp))

/-- In trees that agree, a file is moved from and to the same places. -/
theorem rename {source : Path} (hsource : Within root origin region source) :
    AgreeAfter root origin region (t.rename source p) (u.rename source p) := by
  rw [FileTree.rename, FileTree.rename, h.locate hsource, h.approach hp]
  rcases hplace : u.locate source with e | q
  · exact .failed e
  · rcases happroach : u.approach p with e | ⟨place, name⟩
    · exact .failed e
    · simp only [bind, Except.bind]
      rcases hchild : isChildName name with - | -
      · exact .failed _
      · simp only [Bool.not_true, Bool.false_eq_true, if_false,
          h.nodes q (hsource.locate_mem h.right hplace),
          h.nodes _ (hp.child_mem h.right happroach hchild)]
        -- what moves and what it replaces are the same in both trees
        rcases hq : u.at? q with - | (- | ⟨mode, content⟩)
        · exact .failed _
        · exact .failed _
        · dsimp only
          split
          · exact .failed _
          · split
            · exact .failed _
            · exact .done ((h.erase (ne_root (t := u) (by simp [hq]))).insert (by simp) _)

theorem thereOr (e : FileError) : t.thereOr p e = u.thereOr p e := by
  rw [FileTree.thereOr, FileTree.thereOr, h.isDirectory hp]

/-- Directories are made alike, the missing ones first. -/
theorem createAncestor (n : Nat) :
    AgreeRun root origin region (calls.createAncestor p n t) (calls.createAncestor p n u) := by
  induction n generalizing t u with
  | zero => exact ⟨rfl, h⟩
  | succ n ih =>
    have hancestor := hp.ancestor (n + 1)
    rw [createAncestor_run, createAncestor_run]
    rcases (h.createDirectory hancestor).cases with ⟨t₁, u₁, ht, hu, h₁⟩ | ⟨e, ht, hu⟩
    · rw [ht, hu]
      exact ⟨rfl, h₁⟩
    rw [ht, hu]
    rcases eq_or_ne e .missing with rfl | he
    -- the directories above are made first, and then this one once more
    · obtain ⟨outcome, t₁, u₁, htabove, huabove, h₁⟩ := (ih h).split
      dsimp only
      rw [htabove, huabove]
      rcases outcome with e | ⟨⟩
      · exact ⟨rfl, h₁⟩
      dsimp only
      rcases (h₁.createDirectory hancestor).cases with ⟨t₂, u₂, ht, hu, h₂⟩ | ⟨e, ht, hu⟩
      · rw [ht, hu]
        exact ⟨rfl, h₂⟩
      · rw [ht, hu]
        exact ⟨h₁.thereOr hancestor e, h₁⟩
    · have hthere := h.thereOr hancestor e
      cases e <;> first | exact absurd rfl he | exact ⟨hthere, h⟩

end Calls

end AgreeOn

/-! ### Changes that are confined -/

/-- `t'` is `t`, but for places of its own and for directories that were missing on the way. -/
structure Confined (way own : Set Place) (t t' : FileTree) : Prop where
  workingDirectory : t'.workingDirectory = t.workingDirectory
  nodes : ∀ q ∉ own, t'.at? q = t.at? q ∨
    (q ∈ way ∧ t.at? q = none ∧ t'.at? q = some .directory)

namespace Confined

variable {way own : Set Place} {t' t'' : FileTree}

theorem refl (way own : Set Place) (t : FileTree) : Confined way own t t :=
  ⟨rfl, fun _ _ => Or.inl rfl⟩

/-- Changes one after the other are confined like each of them. -/
theorem trans (h : Confined way own t t') (h' : Confined way own t' t'') :
    Confined way own t t'' := by
  refine ⟨h'.workingDirectory.trans h.workingDirectory, fun q hq => ?_⟩
  rcases h'.nodes q hq with hsame' | ⟨hway, hnone', hmade'⟩
  · rw [hsame']
    exact h.nodes q hq
  · rcases h.nodes q hq with hsame | ⟨-, -, hmade⟩
    · exact Or.inr ⟨hway, hsame ▸ hnone', hmade'⟩
    -- what has been made already is not missing
    · rw [hmade] at hnone'
      cases hnone'

/-- Bounds may be widened. -/
theorem mono (h : Confined way own t t') {way' own' : Set Place} (hway : way ⊆ way' ∪ own')
    (hown : own ⊆ own') : Confined way' own' t t' := by
  refine ⟨h.workingDirectory, fun q hq => ?_⟩
  exact (h.nodes q fun hmem => hq (hown hmem)).imp_right fun hmade =>
    ⟨(hway hmade.1).resolve_right hq, hmade.2⟩

theorem start (h : Confined way own t t') (p : Path) : t'.start p = t.start p := by
  rw [FileTree.start, FileTree.start, h.workingDirectory]

/-- A directory may be made on the way, where nothing was. -/
theorem insert_directory (h : Confined way own t t') {q : Place} (hnone : t'.at? q = none)
    (hq : q ∈ way) : Confined way own t (t'.insert q .directory) := by
  have hne : q ≠ [] := ne_root (t := t') (by simp [hnone])
  refine h.trans ⟨rfl, fun r _ => ?_⟩
  rw [at?_insert t' hne]
  rcases eq_or_ne r q with rfl | hr
  · exact Or.inr ⟨hq, hnone, if_pos rfl⟩
  · exact Or.inl (if_neg hr)

/-- Any node may be put at a place of one's own. -/
theorem insert_own (h : Confined way own t t') {q : Place} (hne : q ≠ []) (hq : q ∈ own)
    (node : Node) : Confined way own t (t'.insert q node) := by
  refine h.trans ⟨rfl, fun r hr => Or.inl ?_⟩
  rw [at?_insert t' hne, if_neg]
  rintro rfl
  exact hr hq

/-- Any node may be taken from a place of one's own. -/
theorem erase_own (h : Confined way own t t') {q : Place} (hne : q ≠ []) (hq : q ∈ own) :
    Confined way own t (t'.erase q) := by
  refine h.trans ⟨rfl, fun r hr => Or.inl ?_⟩
  rw [at?_erase t' hne, if_neg]
  rintro rfl
  exact hr hq

/-! A call changes the place where the way of its path ends. -/

theorem locate_mem (h : Confined way own t t') (hown : walked (t.start p) p.steps ∈ own) {q : Place}
    (hq : t'.locate p = .ok q) : q ∈ own := by
  rw [locate_eq_walked hq, h.start]
  exact hown

theorem child_mem (h : Confined way own t t') (hown : walked (t.start p) p.steps ∈ own)
    {place : Place} {name : String} (happroach : t'.approach p = .ok (place, name))
    (hchild : isChildName name = true) : place ++ [name] ∈ own := by
  rw [child_eq_walked happroach hchild, h.start]
  exact hown

theorem createDirectory (h : Confined way own t t') {root : Path}
    (hp : Within root (t.start root) way p) (hmade : t'.createDirectory p = .ok t'') :
    Confined way own t t'' := by
  obtain ⟨q, hq, hnone, rfl⟩ := createDirectory_eq_ok hmade
  exact h.insert_directory hnone (hp.locate_mem (h.start root) hq)

/-- Making a directory with its ancestors changes the way to it only. -/
theorem createDirectories (h : Confined way own t t') {root : Path}
    (hp : Within root (t.start root) way p) :
    Confined way own t (calls.createDirectories p t').2 := by
  refine createAncestor_invariant (P := Confined way own t) ?_ p.names.length h
  intro n t₁ t₂ h₁ hmade
  exact h₁.createDirectory (hp.ancestor n) hmade

theorem writeFile (h : Confined way own t t') (hown : walked (t.start p) p.steps ∈ own)
    {content : Bytes} (hwritten : t'.writeFile p content = .ok t'') : Confined way own t t'' := by
  obtain ⟨q, mode, hq, hdir, rfl⟩ := writeFile_eq_ok hwritten
  exact h.insert_own (ne_root hdir) (h.locate_mem hown hq) _

theorem setMode (h : Confined way own t t') (hown : walked (t.start p) p.steps ∈ own) {mode : Nat}
    (hset : t'.setMode p mode = .ok t'') : Confined way own t t'' := by
  obtain ⟨q, hq, ⟨-, rfl⟩ | ⟨old, content, hfile, rfl⟩⟩ := setMode_eq_ok hset
  · exact h
  · exact h.insert_own (ne_root (ne_directory_of_file hfile)) (h.locate_mem hown hq) _

theorem removeFile (h : Confined way own t t') (hown : walked (t.start p) p.steps ∈ own)
    (hremoved : t'.removeFile p = .ok t'') : Confined way own t t'' := by
  obtain ⟨place, name, happroach, hchild, -, rfl⟩ := removeFile_eq_ok hremoved
  exact h.erase_own (by simp) (h.child_mem hown happroach hchild)

theorem rename (h : Confined way own t t') {source : Path}
    (hsource : walked (t.start source) source.steps ∈ own)
    (hown : walked (t.start p) p.steps ∈ own) (hmoved : t'.rename source p = .ok t'') :
    Confined way own t t'' := by
  obtain ⟨q, place, name, mode, content, hq, hfile, happroach, hchild, -, rfl⟩ :=
    rename_eq_ok hmoved
  have herased : Confined way own t (t'.erase q) :=
    h.erase_own (ne_root (ne_directory_of_file hfile)) (h.locate_mem hsource hq)
  exact herased.insert_own (by simp) (h.child_mem hown happroach hchild) _

end Confined

end TrustStore.FileTree

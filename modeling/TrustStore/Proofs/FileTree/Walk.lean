import Mathlib.Data.List.Basic
import TrustStore.FileTree.Calls
import TrustStore.Proofs.Chain

/-!
# Walking in a tree

A walk may be cut into two (`enter_append`), a step with a plain name goes to a child
(`enter_cons`), and a path leads to a child of the directory before its last name
(`locate_concat`).  A walk that succeeds ends where its steps lead (`enter_eq_walked`).  A directory
lists the nodes in it (`mem_children`).
-/

namespace TrustStore.FileTree

variable {t : FileTree}

/-! ### Nodes that are no directory -/

/-- What is missing is no directory. -/
theorem ne_directory_of_none {q : Place} (h : t.at? q = none) : t.at? q ≠ some .directory := by
  rw [h]
  exact fun h => by cases h

/-- A file is no directory. -/
theorem ne_directory_of_file {q : Place} {mode : Nat} {content : Bytes}
    (h : t.at? q = some (.file mode content)) : t.at? q ≠ some .directory := by
  rw [h]
  exact fun h => by cases h

/-- What is no directory is not the root of the tree. -/
theorem ne_root {q : Place} (h : t.at? q ≠ some .directory) : q ≠ [] := by
  rintro rfl
  exact h rfl

/-- Taking a node away makes no directory. -/
theorem ne_directory_erase {q r : Place} (hq : t.at? q ≠ some .directory)
    (hr : t.at? r ≠ some .directory) : (t.erase q).at? r ≠ some .directory := by
  rw [at?_erase t (ne_root hq)]
  split
  · exact fun h => by cases h
  · exact hr

section Directories

variable {q r : Place} (hq : t.at? q ≠ some .directory) (hr : t.at? r = some .directory)

include hq hr

/-- Directories stay where a node goes in place of what is no directory. -/
theorem directory_insert (node : Node) : (t.insert q node).at? r = some .directory := by
  have hne : r ≠ q := by
    rintro rfl
    exact hq hr
  rw [at?_insert t (ne_root hq), if_neg hne, hr]

/-- Directories stay where what is no directory is taken away. -/
theorem directory_erase : (t.erase q).at? r = some .directory := by
  have hne : r ≠ q := by
    rintro rfl
    exact hq hr
  rw [at?_erase t (ne_root hq), if_neg hne, hr]

end Directories

/-! ### Names and walks -/

/-- A name of a child, which is short enough. -/
structure IsPlainName (name : String) : Prop where
  ne_stay : name ≠ "."
  ne_up : name ≠ ".."
  short : name.utf8ByteSize ≤ 255

theorem checkName_eq_ok {name : String} (h : name.utf8ByteSize ≤ 255) : checkName name = .ok () :=
  if_neg (Nat.not_lt.mpr h)

theorem short_of_checkName {name : String} (h : checkName name = .ok ()) :
    name.utf8ByteSize ≤ 255 := by
  by_contra hlong
  rw [checkName, if_pos (Nat.lt_of_not_le hlong)] at h
  cases h

theorem isChildName_iff {name : String} : isChildName name = true ↔ name ≠ "." ∧ name ≠ ".." := by
  simp [isChildName]

theorem placeOf_eq {name : String} (hstay : name ≠ ".") (hup : name ≠ "..") (place : Place) :
    placeOf place name = place ++ [name] := by
  rw [placeOf, if_neg hstay, if_neg hup]

theorem enter_stay (t : FileTree) (place : Place) (rest : List String) :
    t.enter place ("." :: rest) = t.enter place rest := by
  rw [enter, if_pos rfl]

/-- A step up goes to the directory above, whatever there is. -/
theorem enter_up (t : FileTree) (place : Place) (rest : List String) :
    t.enter place (".." :: rest) = t.enter place.dropLast rest := by
  rw [enter, if_neg (by decide), if_pos rfl]

/-- A step to a child ends the walk, unless the child is a directory. -/
theorem enter_cons {name : String} (h : IsPlainName name) (place : Place) (rest : List String) :
    t.enter place (name :: rest) = match t.at? (place ++ [name]) with
      | none => .error .missing
      | some (.file _ _) => .error .notDirectory
      | some .directory => t.enter (place ++ [name]) rest := by
  rw [enter, if_neg h.ne_stay, if_neg h.ne_up, checkName_eq_ok h.short]
  rfl

/-- The walk gets past a step from a place: the step stays or goes up, or it goes to a directory. -/
inductive Passes (t : FileTree) (q : Place) (step : String) : Prop where
  | stay (h : step = ".")
  | up (h : step = "..")
  | child (h : IsPlainName step) (hdir : t.at? (q ++ [step]) = some .directory)

/-- A walk gets past its first step, or it fails there: the child is missing, or there is another
error. -/
theorem enter_step (t : FileTree) (q : Place) (step : String) :
    (t.Passes q step ∧ ∀ rest, t.enter q (step :: rest) = t.enter (placeOf q step) rest) ∨
      (IsPlainName step ∧ t.at? (q ++ [step]) = none ∧
        ∀ rest, t.enter q (step :: rest) = .error .missing) ∨
      ∃ e, e ≠ .missing ∧ ∀ rest, t.enter q (step :: rest) = .error e := by
  rcases eq_or_ne step "." with rfl | hstay
  · exact Or.inl ⟨.stay rfl, enter_stay t q⟩
  rcases eq_or_ne step ".." with rfl | hup
  · exact Or.inl ⟨.up rfl, enter_up t q⟩
  by_cases hshort : step.utf8ByteSize ≤ 255
  · have hplain : IsPlainName step := ⟨hstay, hup, hshort⟩
    rw [placeOf_eq hstay hup]
    simp only [enter_cons hplain]
    rcases hnode : t.at? (q ++ [step]) with - | (- | ⟨mode, content⟩)
    · exact Or.inr (Or.inl ⟨hplain, rfl, fun _ => rfl⟩)
    · exact Or.inl ⟨.child hplain hnode, fun _ => rfl⟩
    · exact Or.inr (Or.inr ⟨.notDirectory, by decide, fun _ => rfl⟩)
  · refine Or.inr (Or.inr ⟨.nameTooLong, by decide, fun rest => ?_⟩)
    rw [enter, if_neg hstay, if_neg hup, checkName, if_pos (Nat.lt_of_not_le hshort)]
    rfl

/-- Past a step the walk goes on from where the step leads. -/
theorem Passes.enter {q : Place} {step : String} (h : t.Passes q step) (rest : List String) :
    t.enter q (step :: rest) = t.enter (placeOf q step) rest := by
  rcases h with rfl | rfl | ⟨hplain, hdir⟩
  · exact enter_stay t q rest
  · exact enter_up t q rest
  · rw [enter_cons hplain, hdir, placeOf_eq hplain.ne_stay hplain.ne_up]

/-- A walk that succeeds gets past each of its steps. -/
theorem enter_cons_eq_ok_iff {q r : Place} {step : String} {rest : List String} :
    t.enter q (step :: rest) = .ok r ↔
      t.Passes q step ∧ t.enter (placeOf q step) rest = .ok r := by
  constructor
  · intro h
    rcases enter_step t q step with ⟨hpasses, henter⟩ | ⟨-, -, henter⟩ | ⟨e, -, henter⟩
    · exact ⟨hpasses, henter rest ▸ h⟩
    · rw [henter rest] at h
      cases h
    · rw [henter rest] at h
      cases h
  · rintro ⟨hpasses, h⟩
    rw [hpasses.enter, h]

/-- A walk may be cut into two. -/
theorem enter_append (t : FileTree) (place : Place) (l l' : List String) :
    t.enter place (l ++ l') = t.enter place l >>= fun p => t.enter p l' := by
  induction l generalizing place with
  | nil => rfl
  | cons step l ih =>
    rcases enter_step t place step with ⟨-, henter⟩ | ⟨-, -, henter⟩ | ⟨e, -, henter⟩
    · rw [List.cons_append, henter, henter, ih]
    · rw [List.cons_append, henter, henter]
      rfl
    · rw [List.cons_append, henter, henter]
      rfl

/-- A walk that finds something missing has come to a directory, and goes to a child that is not in
it. -/
theorem exists_of_enter_missing {q : Place} {l : List String}
    (h : t.enter q l = .error .missing) :
    ∃ above name below place, l = above ++ name :: below ∧ t.enter q above = .ok place ∧
      IsPlainName name ∧ t.at? (place ++ [name]) = none := by
  induction l generalizing q with
  | nil => cases h
  | cons step l ih =>
    rcases enter_step t q step with ⟨-, henter⟩ | ⟨hplain, hnone, -⟩ | ⟨e, he, henter⟩
    · obtain ⟨above, name, below, place, rfl, habove, hchild⟩ := ih (henter l ▸ h)
      exact ⟨step :: above, name, below, place, rfl, (henter above).trans habove, hchild⟩
    -- this is the child that is missing
    · exact ⟨[], step, l, q, rfl, rfl, hplain, hnone⟩
    · rw [henter] at h
      exact absurd (Except.error.inj h) he

/-- A walk gets past a step where all directories are kept. -/
theorem Passes.of_directories {t' : FileTree} {q : Place} {step : String} (h : t.Passes q step)
    (hdirs : ∀ q, t.at? q = some .directory → t'.at? q = some .directory) : t'.Passes q step := by
  rcases h with hstay | hup | ⟨hplain, hdir⟩
  · exact .stay hstay
  · exact .up hup
  · exact .child hplain (hdirs _ hdir)

/-- A walk goes on where all directories are kept. -/
theorem enter_eq_ok_of_directories {t' : FileTree}
    (h : ∀ q, t.at? q = some .directory → t'.at? q = some .directory) {q r : Place}
    {l : List String} (hl : t.enter q l = .ok r) : t'.enter q l = .ok r := by
  induction l generalizing q with
  | nil => exact hl
  | cons step l ih =>
    obtain ⟨hpasses, hrest⟩ := enter_cons_eq_ok_iff.mp hl
    exact enter_cons_eq_ok_iff.mpr ⟨hpasses.of_directories h, ih hrest⟩

/-! ### Walks by plain steps -/

theorem enter_stays (t : FileTree) (q : Place) {stays : List String}
    (h : ∀ step ∈ stays, step = ".") : t.enter q stays = .ok q := by
  induction stays with
  | nil => rfl
  | cons step stays ih =>
    obtain rfl := h step List.mem_cons_self
    rw [enter_stay, ih fun s hs => h s (List.mem_cons_of_mem "." hs)]

/-- Steps that stay may be left out. -/
theorem enter_filter (t : FileTree) (q : Place) (l : List String) :
    t.enter q (l.filter (· ≠ ".")) = t.enter q l := by
  induction l generalizing q with
  | nil => rfl
  | cons step rest ih =>
    rcases eq_or_ne step "." with rfl | hstay
    · rw [List.filter_cons_of_neg (by simp), enter_stay, ih]
    · rw [List.filter_cons_of_pos (by simpa using hstay), enter, enter]
      simp only [ih]

/-- On a way that begins in a directory, the places before its end are directories if those are that
follow the first name. -/
theorem directories_cons {q : Place} {name : String} {l : List String}
    (hq : t.at? q = some .directory)
    (h : ∀ l', l' <+: l → l' ≠ l → t.at? (q ++ [name] ++ l') = some .directory) :
    ∀ l', l' <+: name :: l → l' ≠ name :: l → t.at? (q ++ l') = some .directory := by
  intro l' hl' hne
  rcases List.prefix_cons_iff.mp hl' with rfl | ⟨rest, rfl, hrest⟩
  · rw [List.append_nil, hq]
  · rw [List.append_cons]
    exact h rest hrest fun heq => hne (congrArg (List.cons name) heq)

/-- How a walk by plain steps ends: after the last of them, or before the first place that is no
directory. -/
inductive Ends (t : FileTree) (q : Place) (steps : List String) :
    Except FileError Place → Prop where
  | reached (h : ∀ l, l <+: steps → t.at? (q ++ l) = some .directory) :
    Ends t q steps (.ok (q ++ steps))
  | blocked {l : List String} (hl : l <+: steps) {mode : Nat} {content : Bytes}
    (h : t.at? (q ++ l) = some (.file mode content)) : Ends t q steps (.error .notDirectory)
  | missing {l : List String} (hl : l <+: steps) (h : t.at? (q ++ l) = none)
    (habove : ∀ l', l' <+: l → l' ≠ l → t.at? (q ++ l') = some .directory) :
    Ends t q steps (.error .missing)

/-- A walk that goes to a directory first. -/
theorem Ends.cons {q : Place} {name : String} {steps : List String}
    {outcome : Except FileError Place} (hq : t.at? q = some .directory)
    (h : Ends t (q ++ [name]) steps outcome) :
    Ends t q (name :: steps) outcome := by
  rcases h with h | ⟨hl, hfile⟩ | ⟨hl, hnone, habove⟩
  · rw [← List.append_cons]
    refine .reached fun l hl => ?_
    rcases List.prefix_cons_iff.mp hl with rfl | ⟨rest, rfl, hrest⟩
    · rw [List.append_nil, hq]
    · rw [List.append_cons]
      exact h rest hrest
  · rw [← List.append_cons] at hfile
    exact .blocked (List.cons_prefix_cons.mpr ⟨rfl, hl⟩) hfile
  · rw [← List.append_cons] at hnone
    exact .missing (List.cons_prefix_cons.mpr ⟨rfl, hl⟩) hnone (directories_cons hq habove)

/-- How a walk down by plain steps from a directory ends. -/
theorem enter_ends {steps : List String} (hsteps : ∀ step ∈ steps, IsPlainName step) {q : Place}
    (hq : t.at? q = some .directory) : Ends t q steps (t.enter q steps) := by
  induction steps generalizing q with
  | nil =>
    have hend : t.enter q [] = .ok (q ++ []) := congrArg Except.ok (List.append_nil q).symm
    rw [hend]
    refine .reached fun l hl => ?_
    rw [List.prefix_nil.mp hl, List.append_nil, hq]
  | cons name steps ih =>
    have hfirst : [name] <+: name :: steps := List.prefix_append [name] steps
    rw [enter_cons (hsteps name List.mem_cons_self)]
    rcases hnode : t.at? (q ++ [name]) with - | (- | ⟨mode, content⟩)
    -- the walk ends before this child, or goes on behind it
    · exact .missing hfirst hnode
        (directories_cons hq fun l' hl' hne => absurd (List.prefix_nil.mp hl') hne)
    · exact (ih (fun s hs => hsteps s (List.mem_cons_of_mem name hs)) hnode).cons hq
    · exact .blocked hfirst hnode

/-- The names on a walk that succeeds are short enough. -/
theorem isPlainName_of_enter {steps : List String}
    (hsteps : ∀ step ∈ steps, step ≠ "." ∧ step ≠ "..") {q r : Place}
    (h : t.enter q steps = .ok r) : ∀ step ∈ steps, IsPlainName step := by
  induction steps generalizing q with
  | nil => exact fun _ h => absurd h List.not_mem_nil
  | cons name steps ih =>
    obtain ⟨hstay, hup⟩ := hsteps name List.mem_cons_self
    obtain ⟨hpasses, hrest⟩ := enter_cons_eq_ok_iff.mp h
    have hplain : IsPlainName name := by
      rcases hpasses with hname | hname | ⟨hplain, -⟩
      · exact absurd hname hstay
      · exact absurd hname hup
      · exact hplain
    exact List.forall_mem_cons.mpr
      ⟨hplain, ih (fun s hs => hsteps s (List.mem_cons_of_mem name hs)) hrest⟩

/-- A walk to children that succeeds has gone through directories. -/
theorem enter_children {steps : List String} (hsteps : ∀ step ∈ steps, step ≠ "." ∧ step ≠ "..")
    {q r : Place} (hq : t.at? q = some .directory) (h : t.enter q steps = .ok r) :
    r = q ++ steps ∧ ∀ l, l <+: steps → t.at? (q ++ l) = some .directory := by
  have hends := enter_ends (isPlainName_of_enter hsteps h) hq
  rw [h] at hends
  cases hends with
  | reached hdirs => exact ⟨rfl, hdirs⟩

/-- A walk through directories reaches its end. -/
theorem enter_of_directories {steps : List String} (hsteps : ∀ step ∈ steps, IsPlainName step)
    {q : Place} (h : ∀ l, l <+: steps → t.at? (q ++ l) = some .directory) :
    t.enter q steps = .ok (q ++ steps) := by
  have hq := h [] List.nil_prefix
  rw [List.append_nil] at hq
  have hends := enter_ends hsteps hq
  generalize t.enter q steps = outcome at hends
  cases hends with
  | reached => rfl
  | blocked hl hfile =>
    rw [h _ hl] at hfile
    cases hfile
  | missing hl hnone =>
    rw [h _ hl] at hnone
    cases hnone

/-! ### Where a path leads -/

/-- The last step of a path is taken in the directory that the steps before it lead to. -/
theorem approach_concat (t : FileTree) {p : Path} {above : List String} {name : String}
    (h : p.steps = above ++ [name]) :
    t.approach p = (do
      checkPath p
      let directory ← t.enter (t.start p) above
      checkName name
      return (directory, name)) := by
  rw [approach, h, List.getLast?_concat, List.dropLast_concat]

/-- Without steps only the absolute path is found. -/
theorem approach_eq_ok {p : Path} {place : Place} {name : String}
    (h : t.approach p = .ok (place, name)) :
    checkPath p = .ok () ∧ ((p.steps = [] ∧ t.start p = [] ∧ place = [] ∧ name = ".") ∨
      ∃ above, p.steps = above ++ [name] ∧ t.enter (t.start p) above = .ok place ∧
        checkName name = .ok ()) := by
  rcases List.eq_nil_or_concat' p.steps with hnil | ⟨above, last, hsteps⟩
  · rw [approach, hnil] at h
    obtain ⟨⟨⟩, hcheck, h⟩ := bind_eq_ok.mp h
    rcases habsolute : p.absolute with - | -
    · rw [habsolute] at h
      cases h
    · rw [habsolute] at h
      cases h
      have hstart : t.start p = [] := by rw [FileTree.start, habsolute]; rfl
      exact ⟨hcheck, Or.inl ⟨hnil, hstart, rfl, rfl⟩⟩
  · rw [approach_concat t hsteps] at h
    obtain ⟨⟨⟩, hcheck, h⟩ := bind_eq_ok.mp h
    obtain ⟨_, henter, h⟩ := bind_eq_ok.mp h
    obtain ⟨⟨⟩, hname, h⟩ := bind_eq_ok.mp h
    cases h
    exact ⟨hcheck, Or.inr ⟨above, hsteps, henter, hname⟩⟩

/-- A path whose last name neither stays nor goes up names a child of the directory before it. -/
theorem locate_concat (t : FileTree) {p : Path} {above : List String} {name : String}
    (h : p.steps = above ++ [name]) (hstay : name ≠ ".") (hup : name ≠ "..") :
    t.locate p = (do
      checkPath p
      let directory ← t.enter (t.start p) above
      checkName name
      return directory ++ [name]) := by
  rw [locate, approach_concat t h]
  simp only [bind, Except.bind]
  rcases checkPath p with e | ⟨⟩
  · rfl
  · rcases t.enter (t.start p) above with e | directory
    · rfl
    · rcases checkName name with e | ⟨⟩
      · rfl
      · exact congrArg Except.ok (placeOf_eq hstay hup directory)

/-- A directory that is a child is listed where the walk to it succeeds. -/
theorem listDirectory_concat (t : FileTree) {p : Path} {above : List String} {name : String}
    (h : p.steps = above ++ [name]) (hstay : name ≠ ".") (hup : name ≠ "..") :
    t.listDirectory p = (do
      checkPath p
      let place ← t.enter (t.start p) p.steps
      return t.children place) := by
  rw [listDirectory, locate_concat t h hstay hup, h, enter_append]
  simp only [enter, if_neg hstay, if_neg hup, bind, Except.bind]
  rcases checkPath p with e | ⟨⟩
  · rfl
  · rcases t.enter (t.start p) above with e | directory
    · rfl
    · rcases checkName name with e | ⟨⟩
      · rfl
      · dsimp only [pure, Except.pure]
        rcases t.at? (directory ++ [name]) with - | (- | ⟨mode, content⟩) <;> rfl

/-- A path that leads to a directory may be walked to its end. -/
theorem enter_of_locate {p : Path} {q : Place} (h : t.locate p = .ok q)
    (hq : t.at? q = some .directory) : t.enter (t.start p) p.steps = .ok q := by
  rw [locate] at h
  obtain ⟨⟨place, name⟩, happroach, rfl⟩ := map_eq_ok.mp h
  dsimp only at hq ⊢
  obtain ⟨-, ⟨hnil, hstart, rfl, rfl⟩ | ⟨above, hsteps, henter, hname⟩⟩ := approach_eq_ok happroach
  · rw [hnil, hstart]
    rfl
  · rw [hsteps, enter_append, henter]
    -- the last step stays or goes up, or leads to the directory
    have hpasses : t.Passes place name := by
      rcases eq_or_ne name "." with hstay | hstay
      · exact .stay hstay
      rcases eq_or_ne name ".." with hup | hup
      · exact .up hup
      · rw [placeOf_eq hstay hup] at hq
        exact .child ⟨hstay, hup, short_of_checkName hname⟩ hq
    exact hpasses.enter []

/-- A path leads to the same place where all directories are kept. -/
theorem locate_of_directories {t' : FileTree} (hcwd : t'.workingDirectory = t.workingDirectory)
    (hdirs : ∀ q, t.at? q = some .directory → t'.at? q = some .directory) {p : Path} {q : Place}
    (h : t.locate p = .ok q) : t'.locate p = .ok q := by
  have hstart : t'.start p = t.start p := by rw [FileTree.start, FileTree.start, hcwd]
  rw [locate] at h ⊢
  obtain ⟨⟨place, name⟩, happroach, rfl⟩ := map_eq_ok.mp h
  refine map_eq_ok.mpr ⟨(place, name), ?_, rfl⟩
  obtain ⟨hcheck, ⟨hnil, -, -, -⟩ | ⟨above, hsteps, henter, hname⟩⟩ := approach_eq_ok happroach
  -- no tree is looked at for a path without steps
  · rw [approach, hnil] at happroach ⊢
    exact happroach
  · rw [approach_concat t' hsteps, hcheck, hstart, hname, enter_eq_ok_of_directories hdirs henter]
    rfl

/-! ### Where walks end -/

/-- The place that steps lead to, whatever is there. -/
def walked (q : Place) (steps : List String) : Place := steps.foldl placeOf q

/-- Steps may be taken in two parts. -/
theorem walked_append (q : Place) (steps more : List String) :
    walked q (steps ++ more) = walked (walked q steps) more :=
  List.foldl_append

/-- Steps that go to children lead straight down. -/
theorem walked_children {steps : List String} (h : ∀ step ∈ steps, step ≠ "." ∧ step ≠ "..")
    (q : Place) : walked q steps = q ++ steps := by
  induction steps generalizing q with
  | nil => exact (List.append_nil q).symm
  | cons step steps ih =>
    obtain ⟨hstay, hup⟩ := h step List.mem_cons_self
    show walked (placeOf q step) steps = _
    rw [placeOf_eq hstay hup, ih fun s hs => h s (List.mem_cons_of_mem step hs), ← List.append_cons]

/-- Steps that stay do not count. -/
theorem walked_filter (q : Place) (l : List String) :
    walked q (l.filter (· ≠ ".")) = walked q l := by
  induction l generalizing q with
  | nil => rfl
  | cons step rest ih =>
    rcases eq_or_ne step "." with rfl | hstay
    · rw [List.filter_cons_of_neg (by simp)]
      exact ih q
    · rw [List.filter_cons_of_pos (by simpa using hstay)]
      exact ih (placeOf q step)

/-- The last step is taken from where the others lead. -/
theorem walked_concat (q : Place) (steps : List String) (step : String) :
    walked q (steps ++ [step]) = placeOf (walked q steps) step := by
  simp [walked]

/-- Without links, the steps of a walk settle where it ends. -/
theorem enter_eq_walked {steps : List String} {q r : Place} (h : t.enter q steps = .ok r) :
    r = walked q steps := by
  induction steps generalizing q with
  | nil =>
    cases h
    rfl
  | cons step steps ih => exact ih (enter_cons_eq_ok_iff.mp h).2

/-- The last step of a path leads to the end of its way. -/
theorem approach_eq_walked {p : Path} {place : Place} {name : String}
    (h : t.approach p = .ok (place, name)) :
    placeOf place name = walked (t.start p) p.steps := by
  obtain ⟨-, ⟨hnil, hstart, rfl, rfl⟩ | ⟨above, hsteps, henter, -⟩⟩ := approach_eq_ok h
  · rw [hnil, hstart]
    rfl
  · rw [hsteps, walked_concat, enter_eq_walked henter]

/-- A path leads to where its steps do. -/
theorem locate_eq_walked {p : Path} {q : Place} (h : t.locate p = .ok q) :
    q = walked (t.start p) p.steps := by
  rw [locate] at h
  obtain ⟨⟨place, name⟩, happroach, rfl⟩ := map_eq_ok.mp h
  exact approach_eq_walked happroach

/-- The place that a path leads to, whatever is there. -/
def endOf (t : FileTree) (p : Path) : Place := walked (t.start p) p.steps

/-- Where the last step names a child, that is the end of the way. -/
theorem child_eq_walked {p : Path} {place : Place} {name : String}
    (h : t.approach p = .ok (place, name)) (hchild : isChildName name = true) :
    place ++ [name] = walked (t.start p) p.steps := by
  have hne := isChildName_iff.mp hchild
  rw [← approach_eq_walked h, placeOf_eq hne.1 hne.2]

/-! ### Children -/

/-- A child is a node of the tree. -/
theorem at?_concat (t : FileTree) (place : Place) (name : String) :
    t.at? (place ++ [name]) = t.nodes[place ++ [name]]? := by
  rw [at?, if_neg (by simp)]

/-- The children of a place are the nodes one name below it. -/
theorem mem_children {place : Place} {name : String} {b : Bool} :
    (name, b) ∈ t.children place ↔
      ∃ node, t.at? (place ++ [name]) = some node ∧ b = (node == .directory) := by
  rw [children, List.mem_filterMap]
  constructor
  -- a node of the tree is shown if its last name follows the place
  · rintro ⟨⟨p, node⟩, hmem, hshown⟩
    dsimp only at hshown
    split at hshown
    · rename_i last _
      split at hshown
      · rename_i hp
        cases hshown
        refine ⟨node, ?_, rfl⟩
        rw [at?_concat, ← hp]
        exact Std.ExtTreeMap.mem_toList_iff_getElem?_eq_some.mp hmem
      · cases hshown
    · cases hshown
  · rintro ⟨node, hnode, rfl⟩
    rw [at?_concat] at hnode
    refine ⟨(place ++ [name], node), Std.ExtTreeMap.mem_toList_iff_getElem?_eq_some.mpr hnode, ?_⟩
    dsimp only
    rw [List.getLast?_concat]
    simp

end TrustStore.FileTree

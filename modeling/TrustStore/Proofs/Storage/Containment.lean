import Mathlib.Data.List.TakeWhile
import TrustStore.Proofs.Storage.FailedPuts
import TrustStore.Proofs.Storage.Footprint
import TrustStore.Proofs.Storage.Queries

/-!
# Containment of keys

No query of a directory leaves the directory that its root leads to.  A key is refused exactly if it
escapes (`not_isAccepted_iff`); the path of any other goes down from the root, one name after the
other (`LeadsBelow`).  So a query changes places below the root only (`onTree_confined`), and it
depends on no others than these and those on the way to the root (`onTree_agree`).
-/

namespace TrustStore.Storage

namespace Directory

open FileTree

/-! ### Keys that are refused -/

/-- A key that is empty or absolute, begins with a step that stays, or goes up somewhere. -/
def Escapes (key : String) : Prop :=
  key = "" ∨ key.toList.head? = some '/' ∨ (stepsOf key).head? = some "." ∨ ".." ∈ stepsOf key

instance (key : String) : Decidable (Escapes key) :=
  inferInstanceAs (Decidable (_ ∨ _ ∨ _ ∨ _))

/-- The first step of a key that is not absolute is not empty. -/
theorem exists_stepsOf_eq_cons {key : String} (hne : key ≠ "")
    (habsolute : key.toList.head? ≠ some '/') :
    ∃ step more, stepsOf key = step :: more ∧ step ≠ "" := by
  rcases hkey : key.toList with - | ⟨c, rest⟩
  · exact absurd (String.toList_eq_nil_iff.mp hkey) hne
  · have hc : c ≠ '/' := by
      rintro rfl
      rw [hkey] at habsolute
      exact habsolute rfl
    obtain ⟨part, parts, hsplit⟩ := Text.exists_splitOn_cons hc rest
    refine ⟨String.ofList (c :: part), parts.map String.ofList, ?_, ?_⟩
    · rw [stepsOf, hkey, hsplit, List.map_cons]
    · exact fun h => List.cons_ne_nil c part (String.ofList_eq_empty_iff.mp h)

/-- A text that does not start with a slash is the relative path of its steps. -/
theorem ofText_of_relative {key : String} (hne : key ≠ "")
    (habsolute : key.toList.head? ≠ some '/') : Path.ofText key = ⟨false, stepsOf key⟩ := by
  -- a leading slash is the only thing that makes a path absolute
  unfold Path.ofText
  split
  · rename_i rest hkey
    rw [hkey] at habsolute
    exact absurd rfl habsolute
  · rw [Path.piecesOf, if_neg]
    · rfl
    · exact fun hempty => hne (String.toList_eq_nil_iff.mp (List.isEmpty_iff.mp hempty))

/-- The keys that are refused are those that escape, and no others. -/
theorem not_isAccepted_iff {key : String} : ¬ IsAccepted key ↔ Escapes key := by
  by_cases hne : key = ""
  · subst hne
    decide
  by_cases habsolute : key.toList.head? = some '/'
  · refine iff_of_true ?_ (Or.inr (Or.inl habsolute))
    obtain ⟨rest, hkey⟩ := List.head?_eq_some_iff.mp habsolute
    rw [IsAccepted, Path.ofText, hkey]
    exact Bool.false_ne_true
  -- the steps are those of the path, and the first one is walked
  obtain ⟨step, more, hsteps, hstep⟩ := exists_stepsOf_eq_cons hne habsolute
  have hhead : ((step :: more).filter (· ≠ "")).head? = some step := by
    rw [List.filter_cons_of_pos (by simpa using hstep)]
    rfl
  have hup : (∀ s ∈ (step :: more).filter (· ≠ ""), s ≠ "..") ↔ ".." ∉ step :: more := by
    constructor
    · intro h hmem
      exact h ".." (List.mem_filter.mpr ⟨hmem, by decide⟩) rfl
    · rintro h s hs rfl
      exact h (List.mem_filter.mp hs).1
  rw [IsAccepted, ofText_of_relative hne habsolute, isPlain, Escapes, Path.steps, hsteps, hhead]
  simp only [Bool.not_false, Bool.true_and, Option.any_some, Bool.and_eq_true, decide_eq_true_eq,
    List.all_eq_true, hup, List.head?_cons, Option.some.injEq, hne, habsolute, false_or]
  tauto

/-! ### Texts that are listed -/

/-- What is trimmed are all the slashes at the end. -/
theorem exists_toList_trimSlashes (s : String) :
    ∃ slashes, (∀ c ∈ slashes, c = '/') ∧ s.toList = (trimSlashes s).toList ++ slashes := by
  refine ⟨(s.toList.reverse.takeWhile (· == '/')).reverse, fun c hc => ?_, ?_⟩
  · simpa using List.mem_takeWhile_imp (List.mem_reverse.mp hc)
  · rw [trimSlashes, String.toList_ofList, ← List.reverse_append, List.takeWhile_append_dropWhile,
      List.reverse_reverse]

theorem trimSlashes_eq_empty_iff {s : String} : trimSlashes s = "" ↔ ∀ c ∈ s.toList, c = '/' := by
  rw [trimSlashes, String.ofList_eq_empty_iff, List.reverse_eq_nil_iff, List.dropWhile_eq_nil_iff]
  simp

/-- Slashes divide empty steps. -/
theorem stepsOf_append_slashes {s s' : String} {slashes : List Char}
    (hslashes : ∀ c ∈ slashes, c = '/') (hs : s.toList = s'.toList ++ slashes) :
    ∃ empties, (∀ step ∈ empties, step = "") ∧ stepsOf s = stepsOf s' ++ empties := by
  induction slashes generalizing s s' with
  | nil =>
    rw [List.append_nil] at hs
    rw [String.toList_inj.mp hs]
    exact ⟨[], fun _ h => absurd h List.not_mem_nil, (List.append_nil _).symm⟩
  | cons c rest ih =>
    obtain rfl := hslashes c List.mem_cons_self
    have hrest : s.toList = (s' ++ "/" ++ "").toList ++ rest := by
      rw [hs, String.append_empty, String.toList_append, List.append_assoc]
      rfl
    obtain ⟨empties, hempties, hsteps⟩ := ih (fun c hc => hslashes c (List.mem_cons_of_mem _ hc))
      hrest
    refine ⟨"" :: empties, List.forall_mem_cons.mpr ⟨rfl, hempties⟩, ?_⟩
    rw [hsteps, stepsOf_append, List.append_assoc]
    rfl

/-- A text with other characters than slashes escapes with the slashes at its end or without. -/
theorem escapes_trimSlashes {s : String} (h : trimSlashes s ≠ "") :
    Escapes (trimSlashes s) ↔ Escapes s := by
  obtain ⟨slashes, hslashes, hs⟩ := exists_toList_trimSlashes s
  obtain ⟨empties, hempties, hsteps⟩ := stepsOf_append_slashes hslashes hs
  have hne : s ≠ "" := by
    rintro rfl
    exact h rfl
  have hhead : s.toList.head? = (trimSlashes s).toList.head? := by
    rw [hs, List.head?_append_of_ne_nil _ fun hnil => h (String.toList_eq_nil_iff.mp hnil)]
  have hfirst : (stepsOf s).head? = (stepsOf (trimSlashes s)).head? := by
    rw [hsteps, List.head?_append_of_ne_nil _ (stepsOf_ne_nil _)]
  have hup : ".." ∈ stepsOf s ↔ ".." ∈ stepsOf (trimSlashes s) := by
    rw [hsteps, List.mem_append, or_iff_left]
    exact fun hmem => absurd (hempties _ hmem) (by decide)
  rw [Escapes, Escapes, hhead, hfirst, hup]
  simp only [h, hne]

/-! ### Paths of queries -/

end Directory

namespace Query

open Directory FileTree

/-- The key whose path a query goes by; the slashes at the end of a text that is listed are left
out. -/
def key : Query → String
  | .get key | .put key _ | .delete key => key
  | .list above => trimSlashes above

/-- The query is refused for its text.  Slashes alone lead to the root when they are listed. -/
def IsRefused : Query → Prop
  | .get key | .put key _ | .delete key => Escapes key
  | .list above => (∃ c ∈ above.toList, c ≠ '/') ∧ Escapes above

instance : (q : Query) → Decidable q.IsRefused
  | .get key | .put key _ | .delete key => inferInstanceAs (Decidable (Escapes key))
  | .list above =>
    haveI : Decidable (∃ c ∈ above.toList, c ≠ '/') := List.decidableBEx _ _
    inferInstanceAs (Decidable (_ ∧ Escapes above))

/-- A path that goes where the root leads, and then on by at least one name, and never goes up from
there. -/
structure LeadsBelow (root p : Path) (more : List String) : Prop where
  absolute : p.absolute = root.absolute
  steps : p.steps = root.steps ++ more
  down : ∀ origin l, l <+: more →
    walked origin (root.steps ++ l) = walked origin root.steps ++ l.filter (· ≠ ".")
  below : more.filter (· ≠ ".") ≠ []

/-- The path that a query goes by if it is not refused. -/
inductive Resolves (root : Path) : Query → Path → Prop where
  | listed {above : String} (h : ∀ c ∈ above.toList, c = '/') : Resolves root (list above) root
  | below {q : Query} {p : Path} (h : LeadsBelow root p (Path.ofText q.key).steps) :
    Resolves root q p

variable {root : Path} {q : Query}

/-- A listing is refused for what is left of its prefix once slashes are cut off. -/
theorem isRefused_list_iff {above : String} : (list above).IsRefused ↔
    trimSlashes above ≠ "" ∧ ¬ IsAccepted (trimSlashes above) := by
  have hslashes : (∃ c ∈ above.toList, c ≠ '/') ↔ trimSlashes above ≠ "" := by
    simp only [Ne, trimSlashes_eq_empty_iff, not_forall, exists_prop]
  rw [IsRefused, hslashes, not_isAccepted_iff]
  exact and_congr_right fun h => (escapes_trimSlashes h).symm

theorem path_of_isRefused (h : q.IsRefused) (root : Path) :
    q.path root = .error (.storage (.invalidKey q.key)) := by
  cases q with
  | get key | put key value | delete key =>
    exact pathOf_of_not_isAccepted (not_isAccepted_iff.mpr h) root
  | list above =>
    obtain ⟨hne, hkey⟩ := isRefused_list_iff.mp h
    rw [path, listedPath, if_neg hne]
    exact pathOf_of_not_isAccepted hkey root

/-- A query that is not refused lists the root, or goes by the path of a key that is taken. -/
theorem path_of_not_isRefused (h : ¬ q.IsRefused) (root : Path) :
    (∃ above, q = .list above ∧ trimSlashes above = "" ∧ q.path root = .ok root) ∨
      (IsAccepted q.key ∧ q.path root = .ok (root.down (stepsOf q.key))) := by
  cases q with
  | get key | put key value | delete key =>
    have hkey : IsAccepted key := by
      by_contra hkey
      exact h (not_isAccepted_iff.mp hkey)
    exact Or.inr ⟨hkey, pathOf_of_isAccepted hkey root⟩
  | list above =>
    rw [path, listedPath]
    by_cases hne : trimSlashes above = ""
    · exact Or.inl ⟨above, rfl, hne, if_pos hne⟩
    · have hkey : IsAccepted (trimSlashes above) := by
        by_contra hkey
        exact h (isRefused_list_iff.mpr ⟨hne, hkey⟩)
      rw [if_neg hne]
      exact Or.inr ⟨hkey, pathOf_of_isAccepted hkey root⟩

/-- An accepted key leads down from the root, past every stage of the way. -/
theorem leadsBelow_down {key : String} (h : IsAccepted key) (root : Path) :
    LeadsBelow root (root.down (stepsOf key)) (Path.ofText key).steps := by
  have hsteps : (Path.ofText key).steps = (stepsOf key).filter (· ≠ "") := by
    rw [h.ofText]
    rfl
  -- once dots are dropped, every step is the name of a child
  have hup (l : List String) (hl : l <+: (Path.ofText key).steps) :
      ∀ step ∈ l.filter (· ≠ "."), step ≠ "." ∧ step ≠ ".." := by
    intro step hstep
    obtain ⟨hmem, hstay⟩ := List.mem_filter.mp hstep
    have hin := hl.subset hmem
    rw [hsteps] at hin
    exact ⟨of_decide_eq_true hstay, h.ne_up step (List.mem_filter.mp hin).1⟩
  refine ⟨rfl, ?_, fun origin l hl => ?_, ?_⟩
  · show (root.basePieces ++ stepsOf key).filter (· ≠ "") = _
    rw [List.filter_append, Path.filter_basePieces, hsteps]
  · rw [walked_append, ← walked_filter _ l, walked_children (hup l hl)]
  · rw [hsteps, ← filter_isName]
    exact h.partsOf_ne_nil

/-- A query that is not refused has a path, and the path leads where it should. -/
theorem exists_resolves (h : ¬ q.IsRefused) (root : Path) :
    ∃ p, q.path root = .ok p ∧ Resolves root q p := by
  rcases path_of_not_isRefused h root with ⟨above, rfl, hslashes, hpath⟩ | ⟨hkey, hpath⟩
  · exact ⟨root, hpath, .listed (trimSlashes_eq_empty_iff.mp hslashes)⟩
  · exact ⟨_, hpath, .below (leadsBelow_down hkey root)⟩

/-! ### Faults of queries -/

theorem exists_file_of_orMissing {α : Type} {default : α} {found : Except FileError α} {e : Fault}
    (h : orMissing default found = .error e) : ∃ cause, e = .file cause := by
  rcases found with cause | a
  · cases cause <;> cases h <;> exact ⟨_, rfl⟩
  · cases h

/-- A query that is not refused fails with an error of the file system only. -/
theorem exists_file_of_onTree {t : FileTree} {e : Fault} (hrefused : ¬ q.IsRefused)
    (h : (q.onTree root t).1 = .error e) : ∃ cause, e = .file cause := by
  -- past the check of the key only the calls can fail
  rcases path_of_not_isRefused hrefused root with ⟨above, rfl, -, hpath⟩ | ⟨hkey, hpath⟩
  · rw [onTree_list hpath] at h
    exact exists_file_of_orMissing (map_eq_error.mp (map_eq_error.mp h))
  cases q with
  | get key =>
    rw [onTree_get hpath] at h
    exact exists_file_of_orMissing (map_eq_error.mp h)
  | put key value =>
    obtain ⟨above, name, hparts⟩ := hkey.exists_partsOf_eq_concat
    obtain ⟨before, after, hwritten⟩ := exists_written hparts
    have hname := hwritten.fileName?_down root (hkey.goDown_concat hparts).last.2
    rw [onTree_put hpath hname] at h
    exact exists_file_of_saved (map_eq_error.mp h)
  | delete key =>
    rw [onTree_delete hpath] at h
    rcases hremoved : t.removeFile (root.down (stepsOf (delete key).key)) with cause | t'
    · rw [hremoved] at h
      exact exists_file_of_orMissing (map_eq_error.mp h)
    · rw [hremoved] at h
      cases h
  | list above =>
    rw [onTree_list hpath] at h
    exact exists_file_of_orMissing (map_eq_error.mp (map_eq_error.mp h))

/-! ### Places of queries -/

/-- The places below a place. -/
def below (base : Place) : Set Place := {q | ∃ l, l ≠ [] ∧ q = base ++ l}

/-- The places on the way to a root, and those below the one that it leads to. -/
def around (root : Path) (origin : Place) : Set Place :=
  wayTo origin root.steps ∪ below (walked origin root.steps)

/-- Names go on from the root to places below it. -/
theorem wayTo_append_subset (root : Path) (origin : Place) {names : List String}
    (h : GoDown names) : wayTo origin (root.steps ++ names) ⊆ around root origin := by
  intro q hq
  rcases mem_wayTo_append hq with hroot | ⟨l, hl, rfl⟩
  · exact Or.inl hroot
  · rw [walked_children (h.of_subset hl.subset).children]
    rcases eq_or_ne l [] with rfl | hne
    · rw [List.append_nil]
      exact Or.inl (walked_mem_wayTo origin root.steps)
    · exact Or.inr ⟨l, hne, rfl⟩

section Paths

variable {key : String} (hkey : IsAccepted key)

include hkey

/-- The end of a key's path lies strictly below the root's. -/
theorem walked_down_mem_below (root : Path) (origin : Place) :
    walked origin (root.down (stepsOf key)).steps ∈ below (walked origin root.steps) := by
  refine ⟨partsOf key, hkey.partsOf_ne_nil, ?_⟩
  rw [walked_down, walked_append, walked_children hkey.goDown.children]

/-- The way to a key's file stays around the root. -/
theorem within_down (root : Path) (origin : Place) :
    Within root origin (around root origin) (root.down (stepsOf key)) where
  absolute := rfl
  way := by
    rw [wayTo_down]
    exact wayTo_append_subset root origin hkey.goDown

end Paths

section Written

variable {key : String} {above : List String} {name : String} {before after : List String}
  (h : Written key above name before after) (hdown : GoDown above)

include h hdown

/-- The way to the directory of a key's file stays around the root. -/
theorem within_parent (root : Path) (origin : Place) :
    Within root origin (around root origin) (root.down (stepsOf key)).parent where
  absolute := Path.absolute_ancestor _ _
  way := by
    rw [h.wayTo_parent]
    exact wayTo_append_subset root origin hdown

theorem walked_stagingOf_mem_below (root : Path) (origin : Place) :
    walked origin (stagingOf (root.down (stepsOf key)) name).steps
      ∈ below (walked origin root.steps) := by
  refine ⟨above ++ [stagingName name], by simp, ?_⟩
  rw [h.walked_stagingOf, walked_append, walked_children hdown.children, List.append_assoc]

/-- The way to a key's staging file stays around the root. -/
theorem within_stagingOf (root : Path) (origin : Place) :
    Within root origin (around root origin) (stagingOf (root.down (stepsOf key)) name) where
  absolute := by
    rw [stagingOf_eq_down]
    exact Path.absolute_ancestor _ _
  way := by
    intro q hq
    have hstaged := walked_stagingOf_mem_below h hdown root origin
    rw [steps_stagingOf] at hq hstaged
    rcases wayTo_concat origin _ _ hq with hparent | rfl
    · exact (within_parent h hdown root origin).way hparent
    · exact Or.inr hstaged

end Written

/-! ### What a query changes -/

/-- The places where a query may make missing directories: a put makes those above the root. -/
def made (t : FileTree) (root : Path) : Query → Set Place
  | .put _ _ => wayTo (t.start root) root.steps
  | .get _ | .delete _ | .list _ => ∅

/-- The places that a query may change in other ways: a put and a delete may change those below the
root. -/
def changed (t : FileTree) (root : Path) : Query → Set Place
  | .put _ _ | .delete _ => below (t.endOf root)
  | .get _ | .list _ => ∅

/-- Whatever a query leaves, it leaves around the root. -/
theorem confined_of_leaves {t t' : FileTree} (h : q.Leaves root t t') :
    Confined (q.made t root) (q.changed t root) t t' := by
  cases h with
  | same _ => exact .refl _ _ t
  | stored key value =>
    by_cases hkey : IsAccepted key
    -- a put makes the directories of its key and renames a file below the root
    · obtain ⟨above, name, hparts⟩ := hkey.exists_partsOf_eq_concat
      obtain ⟨before, after, hwritten⟩ := exists_written hparts
      have hdown := (hkey.goDown_concat hparts).above
      have hstaged := walked_stagingOf_mem_below hwritten hdown root (t.start root)
      rw [put_run_accepted hkey hparts]
      refine (confined_saved (within_parent hwritten hdown root (t.start root))
        (walked_down_mem_below hkey root (t.start root)) ?_ value).mono subset_rfl subset_rfl
      rw [start_stagingOf]
      exact hstaged
    · rw [put_run_refused hkey]
      -- a put that is refused leaves the tree it found
      exact .refl _ _ t
  | removed hpath hremoved =>
    rename_i key p
    have hkey : IsAccepted key := by
      by_contra hkey
      rw [pathOf_of_not_isAccepted hkey] at hpath
      cases hpath
    rw [pathOf_of_isAccepted hkey] at hpath
    cases hpath
    have hown : walked (t.start (root.down (stepsOf key))) (root.down (stepsOf key)).steps
        ∈ below (t.endOf root) :=
      walked_down_mem_below hkey root (t.start root)
    exact (Confined.refl _ _ t).removeFile hown hremoved

/-! ### What a query depends on -/

theorem map_orMissing {α β : Type} (f : α → β) (default : α) (found : Except FileError α) :
    (orMissing default found).map f = orMissing (f default) (found.map f) := by
  rcases found with e | a
  · cases e <;> rfl
  · rfl

/-- What a directory shows depends on what is in it. -/
theorem shown_children_congr {t u : FileTree} {place : Place}
    (h : ∀ name, t.at? (place ++ [name]) = u.at? (place ++ [name])) :
    shown (t.children place) = shown (u.children place) := by
  refine shown_congr fun ⟨name, b⟩ _ => ?_
  rw [mem_children, mem_children, h name]

section Agree

variable {t u : FileTree} {origin : Place} {p : Path}

/-- Trees that agree around a directory list it alike. -/
theorem shown_listDirectory_congr (h : AgreeOn root origin (around root origin) t u)
    (hp : Within root origin (around root origin) p)
    (hin : ∀ name, walked origin p.steps ++ [name] ∈ around root origin) :
    (t.listDirectory p).map shown = (u.listDirectory p).map shown := by
  rw [listDirectory, listDirectory, h.locate hp]
  rcases hplace : u.locate p with e | place
  · rfl
  · have hend : place = walked origin p.steps := by
      rw [locate_eq_walked hplace, hp.start h.right]
    simp only [bind, Except.bind, h.nodes place (hp.locate_mem h.right hplace)]
    rcases u.at? place with - | (- | ⟨mode, content⟩)
    · rfl
    · refine congrArg Except.ok (shown_children_congr fun name => h.nodes _ ?_)
      rw [hend]
      exact hin name
    · rfl

/-- A listing depends on the directory and its children alone. -/
theorem onTree_list_congr (h : AgreeOn root origin (around root origin) t u) {above : String}
    (hpath : (list above).path root = .ok p) (hp : Within root origin (around root origin) p)
    (hin : ∀ name, walked origin p.steps ++ [name] ∈ around root origin) :
    AgreeRun root origin (around root origin) ((list above).onTree root t)
      ((list above).onTree root u) := by
  have hanswer : (orMissing [] (t.listDirectory p)).map shown
      = (orMissing [] (u.listDirectory p)).map shown := by
    rw [map_orMissing, map_orMissing, shown_listDirectory_congr h hp hin]
  rw [onTree_list hpath, onTree_list hpath, hanswer]
  exact ⟨rfl, h⟩

/-- Where two trees agree around a root, a query answers alike and leaves them in agreement. -/
theorem onTree_agree (h : AgreeOn root origin (around root origin) t u) (q : Query) :
    AgreeRun root origin (around root origin) (q.onTree root t) (q.onTree root u) := by
  by_cases hrefused : q.IsRefused
  · have hpath := path_of_isRefused hrefused root
    rw [onTree_of_error hpath, onTree_of_error hpath]
    exact ⟨rfl, h⟩
  rcases path_of_not_isRefused hrefused root with ⟨above, rfl, -, hpath⟩ | ⟨hkey, hpath⟩
  · -- slashes alone list the root, whose children are below it
    exact onTree_list_congr h hpath ⟨rfl, Set.subset_union_left⟩ fun name =>
      Or.inr ⟨[name], List.cons_ne_nil name [], rfl⟩
  have hp := within_down hkey root origin
  cases q with
  | get key =>
    rw [onTree_get hpath, onTree_get hpath, h.readFile hp]
    exact ⟨rfl, h⟩
  | put key value =>
    obtain ⟨above, name, hparts⟩ := hkey.exists_partsOf_eq_concat
    obtain ⟨before, after, hwritten⟩ := exists_written hparts
    have hdown := hkey.goDown_concat hparts
    have hname := hwritten.fileName?_down root hdown.last.2
    have hsaved := agreeRun_saved h hp (within_parent hwritten hdown.above root origin)
      (within_stagingOf hwritten hdown.above root origin) value
    rw [onTree_put hpath hname, onTree_put hpath hname]
    exact ⟨congrArg (Except.map fun _ => Reply.done) hsaved.outcome, hsaved.trees⟩
  | delete key =>
    rw [onTree_delete hpath, onTree_delete hpath]
    rcases (h.removeFile hp).cases with ⟨t', u', ht, hu, h'⟩ | ⟨e, ht, hu⟩
    · rw [ht, hu]
      exact ⟨rfl, h'⟩
    · rw [ht, hu]
      exact ⟨rfl, h⟩
  | list above =>
    refine onTree_list_congr h hpath hp fun name => Or.inr ?_
    obtain ⟨names, -, hbelow⟩ := walked_down_mem_below hkey root origin
    exact ⟨names ++ [name], by simp, by rw [hbelow, List.append_assoc]⟩

end Agree

/-- No key leads out of the root.  A query is refused exactly if its key escapes, and nothing is
touched then; else its path goes down from the root, or is the root itself where slashes alone are
listed.  Whatever it does is done below the root, missing directories above the root excepted that
a put makes, and it depends on nothing but what is there and on the way to the root. -/
theorem queries_stay_below_root (root : Path) (q : Query) (t : FileTree) :
    ((∃ key, (q.onTree root t).1 = .error (.storage (.invalidKey key))) ↔ q.IsRefused) ∧
    (q.IsRefused → q.onTree root t = (.error (.storage (.invalidKey q.key)), t)) ∧
    (¬ q.IsRefused → ∃ p, q.path root = .ok p ∧ Resolves root q p) ∧
    Confined (q.made t root) (q.changed t root) t (q.onTree root t).2 ∧
    ∀ u, AgreeOn root (t.start root) (around root (t.start root)) t u →
      AgreeRun root (t.start root) (around root (t.start root)) (q.onTree root t)
        (q.onTree root u) := by
  have hrefuse (h : q.IsRefused) : q.onTree root t = (.error (.storage (.invalidKey q.key)), t) :=
    onTree_of_error (path_of_isRefused h root) t
  refine ⟨⟨fun ⟨key, herror⟩ => ?_, fun h => ⟨q.key, by rw [hrefuse h]⟩⟩, hrefuse,
    fun h => exists_resolves h root, confined_of_leaves (leaves_onTree root t q),
    fun u h => onTree_agree h q⟩
  -- a query that is not refused has other faults only
  by_contra hrefused
  obtain ⟨cause, hcause⟩ := exists_file_of_onTree hrefused herror
  cases hcause

/-- A text that goes up is refused, and one with a step that stays further on is not. -/
theorem key_going_up_is_refused :
    ((list "a/..//").onTree (.ofText "/srv") (FileTree.ofDirectory ["srv"])
      = (.error (.storage (.invalidKey "a/..")), FileTree.ofDirectory ["srv"])) ∧
    ∃ p, (get "a//./b").path (.ofText "/srv") = .ok p ∧
      Resolves (.ofText "/srv") (get "a//./b") p :=
  ⟨(queries_stay_below_root (.ofText "/srv") (list "a/..//") _).2.1 (by decide +kernel),
    (queries_stay_below_root (.ofText "/srv") (get "a//./b")
      (FileTree.ofDirectory ["srv"])).2.2.1 (by decide +kernel)⟩

end Query

end TrustStore.Storage

import TrustStore.Proofs.Storage.Leftovers
import TrustStore.Proofs.Text.Ascending

/-!
# Lists of a directory and of a table

After the same edits, a table lists what the stored keys show below a text, and a directory lists
also the directories of keys that have been put and deleted (`lists_leftovers`).  The two lists are
equal exactly where every directory that has been made still has a key below it.  A text that leads
to a stored key, or through one, is no directory and cannot be listed, while the table shows nothing
there.
-/

namespace TrustStore.Storage

/-! ### What is left -/

/-- A child that is shown with a slash after it. -/
def isDirectoryName (child : String) : Bool := child.toList.getLast? == some '/'

/-- What the stored keys show below a text, and the directories that the keys of the past show. -/
def leftoversOf (above : String) (stored past : List String) : List String :=
  Text.sortDistinct (stored.filterMap (childOf? above) ++
    (past.filterMap (childOf? above)).filter isDirectoryName)

/-- One of the keys is a file with this name in the directory to which the steps lead. -/
def ShowsFile (keys steps : List String) (child : String) : Prop :=
  ∃ key ∈ keys, stepsOf key = steps ++ [child]

/-- One of the keys is in a directory of this name in the directory to which the steps lead. -/
def ShowsDirectory (keys steps : List String) (step : String) : Prop :=
  ∃ key ∈ keys, IsBelow (steps ++ [step]) key

section Members

variable {above child : String} {steps : List String} (habove : LeadsTo above steps)

include habove

/-- What visible keys show above is a file or a directory. -/
theorem mem_filterMap_childOf? {keys : List String} (hkeys : ∀ key ∈ keys, IsVisible key) :
    child ∈ keys.filterMap (childOf? above) ↔ ShowsFile keys steps child ∨
      ∃ step, child = step ++ "/" ∧ ShowsDirectory keys steps step := by
  rw [List.mem_filterMap]
  constructor
  · rintro ⟨key, hkey, hchild⟩
    rcases (childOf?_eq_some_iff_or habove (hkeys key hkey)).mp hchild with
      hsteps | ⟨step, hstep, hbelow⟩
    · exact Or.inl ⟨key, hkey, hsteps⟩
    · exact Or.inr ⟨step, hstep, key, hkey, hbelow⟩
  · rintro (⟨key, hkey, hsteps⟩ | ⟨step, hstep, key, hkey, hbelow⟩)
    · exact ⟨key, hkey, (childOf?_eq_some_iff_or habove (hkeys key hkey)).mpr (Or.inl hsteps)⟩
    · exact ⟨key, hkey, (childOf?_eq_some_iff_or habove (hkeys key hkey)).mpr
        (Or.inr ⟨step, hstep, hbelow⟩)⟩

theorem mem_childrenOf_iff {keys : List String} (hkeys : ∀ key ∈ keys, IsVisible key) :
    child ∈ childrenOf above keys ↔ ShowsFile keys steps child ∨
      ∃ step, child = step ++ "/" ∧ ShowsDirectory keys steps step := by
  rw [childrenOf, Text.mem_sortDistinct]
  exact mem_filterMap_childOf? habove hkeys

omit habove in
/-- A file has no slash in its name. -/
theorem isDirectoryName_of_showsFile {keys : List String} (h : ShowsFile keys steps child) :
    isDirectoryName child = false := by
  obtain ⟨key, -, hsteps⟩ := h
  have hchild : child ∈ stepsOf key := by
    rw [hsteps]
    exact List.mem_append_right steps List.mem_cons_self
  refine beq_eq_false_iff_ne.mpr fun hlast => slash_not_mem_of_mem_stepsOf hchild ?_
  exact List.mem_of_getLast? hlast

omit habove in
/-- A directory is shown with a slash. -/
theorem isDirectoryName_append (step : String) : isDirectoryName (step ++ "/") = true := by
  rw [isDirectoryName, String.toList_append]
  exact beq_iff_eq.mpr List.getLast?_concat

/-- Leftovers show the files of what is stored, and the directories of all that has been stored. -/
theorem mem_leftoversOf_iff {stored past : List String} (hpast : ∀ key ∈ past, IsVisible key)
    (hstored : ∀ key ∈ stored, key ∈ past) :
    child ∈ leftoversOf above stored past ↔ ShowsFile stored steps child ∨
      ∃ step, child = step ++ "/" ∧ ShowsDirectory past steps step := by
  rw [leftoversOf, Text.mem_sortDistinct, List.mem_append, List.mem_filter,
    mem_filterMap_childOf? habove fun key hkey => hpast key (hstored key hkey),
    mem_filterMap_childOf? habove hpast]
  constructor
  · rintro ((hfile | ⟨step, hstep, key, hkey, hbelow⟩) | ⟨hfile | hdir, hname⟩)
    · exact Or.inl hfile
    · exact Or.inr ⟨step, hstep, key, hstored key hkey, hbelow⟩
    · rw [isDirectoryName_of_showsFile hfile] at hname
      cases hname
    · exact Or.inr hdir
  · rintro (hfile | ⟨step, rfl, hdir⟩)
    · exact Or.inl (Or.inl hfile)
    · exact Or.inr ⟨Or.inr ⟨step, rfl, hdir⟩, isDirectoryName_append step⟩

end Members

/-- The steps that a prefix leads to only go down. -/
theorem LeadsTo.goDown {above : String} {steps : List String} (h : LeadsTo above steps) :
    Directory.GoDown steps := by
  rcases h with - | @⟨key, hkey⟩
  · exact fun _ h => absurd h List.not_mem_nil
  · exact Directory.goDown_of_isVisible hkey

namespace Directory

open FileTree

namespace Holds

variable {root : Path} {place : Place} {past : List String} {table : KeyTable} {t : FileTree}
  {above : String} {steps : List String}

variable (h : Holds root place past table t)

include h

theorem mem_past {key : String} (hkey : key ∈ table.keys) : key ∈ past :=
  h.stored key (KeyTable.mem_keys_iff.mp hkey)

/-- A key in the table has a file. -/
theorem file_of_mem {key : String} (hkey : key ∈ table.keys) :
    ∃ value, t.at? (place ++ stepsOf key) = some (.file recordMode value) := by
  obtain ⟨value, hvalue⟩ := Option.isSome_iff_exists.mp (KeyTable.mem_keys_iff.mp hkey)
  exact ⟨value, h.file hvalue⟩

/-- A directory shows the files of stored keys and the directories of keys of the past. -/
theorem mem_shown_iff (steps : List String) (child : String) :
    child ∈ shown (t.children (place ++ steps)) ↔ ShowsFile table.keys steps child ∨
      ∃ step, child = step ++ "/" ∧ ShowsDirectory past steps step := by
  rw [shown, Text.mem_sortDistinct, List.mem_filterMap]
  constructor
  · rintro ⟨⟨name, b⟩, hchild, hshown⟩
    obtain ⟨node, hnode, rfl⟩ := mem_children.mp hchild
    rw [List.append_assoc] at hnode
    rcases node with - | ⟨mode, content⟩
    -- a directory is shown whatever its name
    · obtain rfl := Option.some.inj hshown
      exact Or.inr ⟨name, rfl, ((h.directories _).mp hnode).resolve_left (by simp)⟩
    -- a file is that of a key, all names of which are visible
    · obtain ⟨-, key, hsteps, hvalue⟩ := (h.files _ _ _).mp hnode
      have hkey : key ∈ table.keys := KeyTable.mem_keys_iff.mpr (by rw [hvalue]; rfl)
      have hvisible := (h.visible key (h.mem_past hkey) name (by rw [hsteps]; simp)).2
      obtain rfl := Option.some.inj ((shownName?_of_head hvisible).symm.trans hshown)
      exact Or.inl ⟨key, hkey, hsteps⟩
  · rintro (⟨key, hkey, hsteps⟩ | ⟨step, rfl, hdir⟩)
    · obtain ⟨value, hfile⟩ := h.file_of_mem hkey
      have hvisible := (h.visible key (h.mem_past hkey) child (by rw [hsteps]; simp)).2
      rw [hsteps, ← List.append_assoc] at hfile
      exact ⟨(child, false), mem_children.mpr ⟨_, hfile, rfl⟩, shownName?_of_head hvisible⟩
    · have hnode := (h.directories (steps ++ [step])).mpr (Or.inr hdir)
      rw [← List.append_assoc] at hnode
      exact ⟨(step, true), mem_children.mpr ⟨_, hnode, rfl⟩, rfl⟩

/-- Where the path can be used, a list is that of the directory to which the steps lead. -/
theorem list_run (habove : LeadsTo above steps) (husable : Usable root steps) :
    ((ofDirectory calls root).list above).run t
      = ((orMissing [] ((t.enter place steps).map t.children)).map shown, t) := by
  have hlisted : t.listDirectory (if steps = [] then root else root.down steps)
      = (t.enter place steps).map t.children := by
    rcases List.eq_nil_or_concat' steps with rfl | ⟨before, name, rfl⟩
    · rw [if_pos rfl, FileTree.listDirectory, h.rooted.locate]
      simp only [bind, Except.bind, h.rooted.directory]
      rfl
    · rw [if_neg (by simp), h.rooted.listDirectory_down habove.goDown, husable.path]
      rcases t.enter place (before ++ [name]) <;> rfl
  rw [Directory.list_run (listedPath_of_leadsTo habove root), hlisted]

end Holds

/-! ### The lists after the same edits -/

/-- What a directory and a table list below a text, where the keys of the past have been put. -/
structure ListsLeftovers (root : Path) (past : List String) (table : KeyTable) (t : FileTree)
    (above : String) (steps : List String) : Prop where
  table_list : (KeyTable.storage.list above).run table = (.ok (childrenOf above table.keys), table)
  /-- The directory shows the stored keys, and what is left of the keys of the past. -/
  directory_list : Usable root steps → (∀ key ∈ table.keys, ¬ stepsOf key <+: steps) →
    ((ofDirectory calls root).list above).run t = (.ok (leftoversOf above table.keys past), t)
  /-- A stored key is no directory, and the table has nothing below it. -/
  blocked_list : Usable root steps → (∃ key ∈ table.keys, stepsOf key <+: steps) →
    ((ofDirectory calls root).list above).run t = (.error (.file .notDirectory), t) ∧
      childrenOf above table.keys = []
  /-- What the file system has no room for is not there, or cannot be looked at. -/
  unusable_list : ¬ Usable root steps → childrenOf above table.keys = [] ∧
    (((ofDirectory calls root).list above).run t = (.ok [], t) ∨
      ∃ e, ((ofDirectory calls root).list above).run t = (.error (.file e), t))
  /-- The two agree where each directory that has been made still leads to a stored key. -/
  agree_iff : Usable root steps →
    ((((ofDirectory calls root).list above).run t).1
        = ((KeyTable.storage.list above).run table).1 ↔
      (∀ key ∈ table.keys, ¬ stepsOf key <+: steps) ∧
        ∀ step, ShowsDirectory past steps step → ShowsDirectory table.keys steps step)

namespace Holds

variable {root : Path} {place : Place} {past : List String} {table : KeyTable} {t : FileTree}
  {above : String} {steps : List String}

variable (h : Holds root place past table t) (habove : LeadsTo above steps)

include h habove

theorem mem_children (child : String) : child ∈ childrenOf above table.keys ↔
    ShowsFile table.keys steps child ∨
      ∃ step, child = step ++ "/" ∧ ShowsDirectory table.keys steps step :=
  mem_childrenOf_iff habove fun key hkey => h.visible key (h.mem_past hkey)

theorem mem_leftovers (child : String) : child ∈ leftoversOf above table.keys past ↔
    ShowsFile table.keys steps child ∨
      ∃ step, child = step ++ "/" ∧ ShowsDirectory past steps step :=
  mem_leftoversOf_iff habove h.visible fun _ hkey => h.mem_past hkey

/-- Where no key of the past is below, nothing is left and nothing is shown. -/
theorem lists_eq_nil (hnone : ∀ key ∈ past, ¬ IsBelow steps key) :
    leftoversOf above table.keys past = [] ∧ childrenOf above table.keys = [] := by
  have hfile : ∀ child, ¬ ShowsFile table.keys steps child := by
    rintro child ⟨key, hkey, hsteps⟩
    exact hnone key (h.mem_past hkey) ⟨child, [], hsteps⟩
  have hdirectory : ∀ step, ¬ ShowsDirectory past steps step := by
    rintro step ⟨key, hkey, hbelow⟩
    exact hnone key hkey (hbelow.shorten (List.prefix_append steps [step]))
  constructor
  · refine List.eq_nil_iff_forall_not_mem.mpr fun child hchild => ?_
    rcases (h.mem_leftovers habove child).mp hchild with hshown | ⟨step, -, hshown⟩
    · exact hfile child hshown
    · exact hdirectory step hshown
  · refine List.eq_nil_iff_forall_not_mem.mpr fun child hchild => ?_
    rcases (h.mem_children habove child).mp hchild with hshown | ⟨step, -, key, hkey, hbelow⟩
    · exact hfile child hshown
    · exact hdirectory step ⟨key, h.mem_past hkey, hbelow⟩

/-- Where no stored key is in the way, the list shows the leftovers. -/
theorem directory_list (husable : Usable root steps)
    (hclear : ∀ key ∈ table.keys, ¬ stepsOf key <+: steps) :
    ((ofDirectory calls root).list above).run t
      = (.ok (leftoversOf above table.keys past), t) := by
  have hends := enter_ends (husable.plain habove.goDown) h.rooted.directory
  rw [h.list_run habove husable]
  generalize t.enter place steps = outcome at hends ⊢
  -- by how the walk to the directory ends
  cases hends with
  | reached =>
    refine Prod.ext (congrArg Except.ok ?_) rfl
    refine (Text.sortDistinct_ascending _).eq_of_mem_iff (Text.sortDistinct_ascending _) ?_
    exact fun child => (h.mem_shown_iff steps child).trans (h.mem_leftovers habove child).symm
  | blocked hl hfile =>
    obtain ⟨-, key, rfl, hvalue⟩ := (h.files _ _ _).mp hfile
    exact absurd hl (hclear key (KeyTable.mem_keys_iff.mpr (by rw [hvalue]; rfl)))
  | missing hl hnone =>
    refine Prod.ext (congrArg Except.ok (h.lists_eq_nil habove ?_).1.symm) rfl
    intro key hkey hbelow
    have hdir := (h.directories _).mpr (Or.inr ⟨key, hkey, hbelow.shorten hl⟩)
    rw [hnone] at hdir
    cases hdir

/-- Behind the file of a stored key there is no directory to be listed, and no child in the
table. -/
theorem blocked_list (husable : Usable root steps)
    (hblocked : ∃ key ∈ table.keys, stepsOf key <+: steps) :
    ((ofDirectory calls root).list above).run t = (.error (.file .notDirectory), t) ∧
      childrenOf above table.keys = [] := by
  obtain ⟨key, hkey, hway⟩ := hblocked
  obtain ⟨value, hfile⟩ := h.file_of_mem hkey
  -- at the place of the key there is a file, so no key of the past goes on from there
  have hnotBelow : ∀ other ∈ past, ¬ IsBelow (stepsOf key) other := by
    intro other hother hbelow
    have hdir := (h.directories _).mpr (Or.inr ⟨other, hother, hbelow⟩)
    rw [hfile] at hdir
    cases hdir
  refine ⟨?_, (h.lists_eq_nil habove fun other hother hbelow =>
    hnotBelow other hother (hbelow.shorten hway)).2⟩
  have hends := enter_ends (husable.plain habove.goDown) h.rooted.directory
  rw [h.list_run habove husable]
  generalize t.enter place steps = outcome at hends ⊢
  cases hends with
  | reached hdirs =>
    rw [hdirs _ hway] at hfile
    cases hfile
  | blocked => rfl
  | @missing l hl hnone hdirs =>
    have hne : stepsOf key ≠ l := by
      rintro rfl
      rw [hfile] at hnone
      cases hnone
    rcases List.prefix_or_prefix_of_prefix hway hl with hbefore | hafter
    · rw [hdirs _ hbefore hne] at hfile
      cases hfile
    · have hbelow : IsBelow l key := isBelow_iff.mpr ⟨hafter, hne.symm⟩
      have hdir := (h.directories _).mpr (Or.inr ⟨key, h.mem_past hkey, hbelow⟩)
      rw [hnone] at hdir
      cases hdir

/-- A path that has been listed may be used. -/
theorem usable_of_listed {children : List (String × Bool)}
    (hlisted : t.listDirectory (if steps = [] then root else root.down steps) = .ok children) :
    Usable root steps := by
  rcases List.eq_nil_or_concat' steps with rfl | ⟨before, name, rfl⟩
  · exact h.rooted.usable
  · rw [if_neg (by simp), h.rooted.listDirectory_down habove.goDown] at hlisted
    obtain ⟨⟨⟩, hcheck, hlisted⟩ := bind_eq_ok.mp hlisted
    obtain ⟨_, henter, -⟩ := bind_eq_ok.mp hlisted
    exact ⟨hcheck, fun step hstep =>
      (isPlainName_of_enter habove.goDown.children henter step hstep).short⟩

/-- A path that may not be used shows nothing or fails, and the table has no child there. -/
theorem unusable_list (hunusable : ¬ Usable root steps) : childrenOf above table.keys = [] ∧
    (((ofDirectory calls root).list above).run t = (.ok [], t) ∨
      ∃ e, ((ofDirectory calls root).list above).run t = (.error (.file e), t)) := by
  constructor
  · refine (h.lists_eq_nil habove fun key hkey hbelow => hunusable ?_).2
    exact (h.usable key hkey).shorten (isBelow_iff.mp hbelow).1
  · rw [Directory.list_run (listedPath_of_leadsTo habove root)]
    rcases hlisted : t.listDirectory (if steps = [] then root else root.down steps) with
      e | children
    · rcases eq_or_ne e .missing with rfl | he
      · exact Or.inl rfl
      · refine Or.inr ⟨e, ?_⟩
        cases e <;> first | exact absurd rfl he | rfl
    · exact absurd (h.usable_of_listed habove hlisted) hunusable

/-- Leftovers show no more than the children if every past directory has a stored key in it. -/
theorem leftovers_eq_iff : leftoversOf above table.keys past = childrenOf above table.keys ↔
    ∀ step, ShowsDirectory past steps step → ShowsDirectory table.keys steps step := by
  constructor
  · intro heq step hshown
    have hchild : step ++ "/" ∈ childrenOf above table.keys := by
      rw [← heq]
      exact (h.mem_leftovers habove _).mpr (Or.inr ⟨step, rfl, hshown⟩)
    rcases (h.mem_children habove _).mp hchild with hfile | ⟨other, hother, hshown⟩
    · have hname := isDirectoryName_of_showsFile hfile
      rw [isDirectoryName_append] at hname
      cases hname
    · rwa [(String.append_left_inj "/").mp hother]
  · intro hshown
    refine (Text.sortDistinct_ascending _).eq_of_mem_iff (Text.sortDistinct_ascending _) ?_
    intro child
    refine (h.mem_leftovers habove child).trans (Iff.trans ?_ (h.mem_children habove child).symm)
    refine or_congr_right (exists_congr fun step => and_congr_right fun _ => ⟨hshown step, ?_⟩)
    rintro ⟨key, hkey, hbelow⟩
    exact ⟨key, h.mem_past hkey, hbelow⟩

theorem lists : ListsLeftovers root past table t above steps where
  table_list := rfl
  directory_list := h.directory_list habove
  blocked_list := h.blocked_list habove
  unusable_list := h.unusable_list habove
  agree_iff husable := by
    by_cases hblocked : ∃ key ∈ table.keys, stepsOf key <+: steps
    · rw [(h.blocked_list habove husable hblocked).1]
      obtain ⟨key, hkey, hway⟩ := hblocked
      exact iff_of_false (fun heq => by cases heq) fun hclear => hclear.1 key hkey hway
    · have hclear : ∀ key ∈ table.keys, ¬ stepsOf key <+: steps := fun key hkey hway =>
        hblocked ⟨key, hkey, hway⟩
      rw [h.directory_list habove husable hclear, and_iff_right hclear, ← h.leftovers_eq_iff habove]
      exact ⟨Except.ok.inj, congrArg Except.ok⟩

end Holds

/-- After edits that have all succeeded in an empty directory, it lists below a text what the stored
keys show, as a table does after the same edits, and the directories of all keys that have been
put. -/
theorem lists_leftovers {before : FileTree} {root : Path} {place : Place}
    (hroot : IsEmptyAt before root place) {edits : List Edit}
    (hkeys : ∀ edit ∈ edits, IsVisible edit.key)
    (hdone : ((Edit.performAll (ofDirectory calls root) edits).run before).1 = .ok ())
    {above : String} {steps : List String} (habove : LeadsTo above steps) :
    ListsLeftovers root (edits.filterMap Edit.put?)
      ((Edit.performAll KeyTable.storage edits).run ∅).2
      ((Edit.performAll (ofDirectory calls root) edits).run before).2 above steps := by
  rw [Edit.performAll_keyTable]
  exact ((Holds.initial hroot).run hkeys (Prod.ext hdone rfl)).lists habove

theorem isEmptyAt_srv : IsEmptyAt (FileTree.ofDirectory ["srv"]) (.ofText "/srv") ["srv"] where
  rooted := ⟨closed_ofDirectory _, by decide +kernel, by decide +kernel⟩
  empty _ := at?_ofDirectory_append ["srv"]

theorem leadsTo_a : LeadsTo "a/" ["a"] := by
  have h : LeadsTo ("a" ++ "/") (stepsOf "a") := .below (by decide)
  have htext : "a" ++ "/" = "a/" := by decide
  have hsteps : stepsOf "a" = ["a"] := by decide
  rwa [htext, hsteps] at h

/-- Two keys of one directory, of which the one that goes further down is deleted again. -/
def teamEdits : List Edit := [.put "a/b" [120], .put "a/c/d" [121], .delete "a/c/d"]

theorem srv_lists_leftovers :
    ListsLeftovers (.ofText "/srv") (teamEdits.filterMap Edit.put?)
      ((Edit.performAll KeyTable.storage teamEdits).run ∅).2
      ((Edit.performAll (ofDirectory calls (.ofText "/srv")) teamEdits).run
        (FileTree.ofDirectory ["srv"])).2 "a/" ["a"] :=
  lists_leftovers isEmptyAt_srv (by decide +kernel) (by decide +kernel) leadsTo_a

/-- A key that is put and deleted leaves its directory behind, which is listed as if there were a
key below it; a table lists nothing. -/
theorem deleted_key_leaves_directory :
    (∀ edit ∈ [Edit.put "a/b" [120], .delete "a/b"], IsVisible edit.key) ∧
    ((Edit.performAll (ofDirectory calls (.ofText "/srv")) [.put "a/b" [120], .delete "a/b"]).run
      (FileTree.ofDirectory ["srv"])).1 = .ok () ∧
    ((do
      Edit.performAll (ofDirectory calls (.ofText "/srv")) [.put "a/b" [120], .delete "a/b"]
      (ofDirectory calls (.ofText "/srv")).list "").run (FileTree.ofDirectory ["srv"])).1
      = .ok ["a/"] ∧
    ((do
      Edit.performAll KeyTable.storage [.put "a/b" [120], .delete "a/b"]
      KeyTable.storage.list "").run ∅).1 = .ok [] := by
  decide +kernel

end Directory

end TrustStore.Storage

import TrustStore.Proofs.Registry.Keys
import TrustStore.Proofs.Storage.KeyFiles

/-!
# What edits leave in a directory

`Holds` says what is below a root after edits that have all succeeded: the files are the records of
the keys that are stored, and the directories are those above the keys that have been put at any
time, since a deletion removes a file and no directory.  Each edit preserves this (`Holds.put`,
`Holds.delete`), and so does a run of edits (`Holds.run`).
-/

namespace TrustStore.Storage

/-! ### Edits -/

/-- A change of what a storage keeps. -/
inductive Edit where
  | put (key : String) (value : Bytes)
  | delete (key : String)

namespace Edit

def key : Edit → String
  | put key _ => key
  | delete key => key

/-- The key under which something is stored. -/
def put? : Edit → Option String
  | put key _ => some key
  | delete _ => none

def onTable (table : KeyTable) : Edit → KeyTable
  | put key value => table.insert key value
  | delete key => table.erase key

variable {m : Type → Type}

def perform (s : Storage m) : Edit → ExceptT Fault m Unit
  | put key value => s.put key value
  | delete key => s.delete key

/-- The edits one after the other, up to the first that fails. -/
def performAll [Monad m] (s : Storage m) : List Edit → ExceptT Fault m Unit
  | [] => return ()
  | edit :: rest => do
    edit.perform s
    performAll s rest

/-- On a table no edit fails. -/
theorem performAll_keyTable (edits : List Edit) (table : KeyTable) :
    (performAll KeyTable.storage edits).run table = (.ok (), edits.foldl onTable table) := by
  induction edits generalizing table with
  | nil => rfl
  | cons edit rest ih =>
    -- on a table no edit fails, so the fold never stops
    rw [performAll, bind_run]
    rcases edit with ⟨key, value⟩ | key
    · exact ih (table.insert key value)
    · exact ih (table.erase key)

end Edit

theorem isBelow_iff {steps : List String} {key : String} :
    IsBelow steps key ↔ steps <+: stepsOf key ∧ steps ≠ stepsOf key := by
  constructor
  · rintro ⟨step, more, h⟩
    rw [h]
    exact ⟨List.prefix_append steps _, by simp⟩
  · rintro ⟨⟨rest, hrest⟩, hne⟩
    rcases rest with - | ⟨step, more⟩
    · rw [List.append_nil] at hrest
      exact absurd hrest hne
    · exact ⟨step, more, hrest.symm⟩

/-- What is below a directory is below those above it. -/
theorem IsBelow.shorten {l steps : List String} {key : String} (h : IsBelow steps key)
    (hl : l <+: steps) : IsBelow l key := by
  obtain ⟨rest, rfl⟩ := hl
  obtain ⟨step, more, hsteps⟩ := h
  rcases rest with - | ⟨first, rest⟩
  · rw [List.append_nil] at hsteps
    exact ⟨step, more, hsteps⟩
  · exact ⟨first, rest ++ step :: more, by rw [hsteps, List.append_assoc]; rfl⟩

/-- What a table has under the key with some steps, when a value has been put. -/
theorem exists_getElem?_insert {table : KeyTable} {key : String} {value content : Bytes}
    {names : List String} :
    (∃ other, stepsOf other = names ∧ (table.insert key value)[other]? = some content) ↔
      if names = stepsOf key then value = content
      else ∃ other, stepsOf other = names ∧ table[other]? = some content := by
  rcases eq_or_ne names (stepsOf key) with rfl | hne
  · rw [if_pos rfl]
    constructor
    · rintro ⟨other, hother, hvalue⟩
      rw [stepsOf_injective hother, KeyTable.getElem?_insert, if_pos rfl] at hvalue
      exact Option.some.inj hvalue
    · rintro rfl
      exact ⟨key, rfl, by rw [KeyTable.getElem?_insert, if_pos rfl]⟩
  · rw [if_neg hne]
    refine exists_congr fun other => and_congr_right fun hother => ?_
    rw [KeyTable.getElem?_insert, if_neg]
    rintro rfl
    exact hne hother.symm

/-- What a table has under the key with some steps, when a key has been deleted. -/
theorem exists_getElem?_erase {table : KeyTable} {key : String} {content : Bytes}
    {names : List String} :
    (∃ other, stepsOf other = names ∧ (table.erase key)[other]? = some content) ↔
      names ≠ stepsOf key ∧ ∃ other, stepsOf other = names ∧ table[other]? = some content := by
  constructor
  · rintro ⟨other, rfl, hvalue⟩
    rw [KeyTable.getElem?_erase] at hvalue
    split at hvalue
    · cases hvalue
    · rename_i hne
      exact ⟨fun heq => hne (stepsOf_injective heq), other, rfl, hvalue⟩
  · rintro ⟨hne, other, rfl, hvalue⟩
    refine ⟨other, rfl, ?_⟩
    rw [KeyTable.getElem?_erase, if_neg fun heq => hne (congrArg stepsOf heq), hvalue]

namespace Directory

open FileTree

/-! ### The relation -/

/-- A root that leads to an empty directory. -/
structure IsEmptyAt (t : FileTree) (root : Path) (place : Place) : Prop where
  rooted : Rooted t root place
  empty : ∀ names, names ≠ [] → t.at? (place ++ names) = none

/-- Below the place there are the files of the table, and directories above all keys of the past. -/
structure Holds (root : Path) (place : Place) (past : List String) (table : KeyTable)
    (t : FileTree) : Prop where
  rooted : Rooted t root place
  files : ∀ names mode content, t.at? (place ++ names) = some (.file mode content) ↔
    mode = recordMode ∧ ∃ key, stepsOf key = names ∧ table[key]? = some content
  directories : ∀ names, t.at? (place ++ names) = some .directory ↔
    names = [] ∨ ∃ key ∈ past, IsBelow names key
  visible : ∀ key ∈ past, IsVisible key
  usable : ∀ key ∈ past, Usable root (stepsOf key)
  stored : ∀ key, table[key]?.isSome = true → key ∈ past

namespace Holds

variable {root : Path} {place : Place} {past : List String} {table : KeyTable} {t t' : FileTree}

/-- An empty root holds the empty table, and no key has passed. -/
theorem initial (h : IsEmptyAt t root place) : Holds root place [] ∅ t where
  rooted := h.rooted
  files names mode content := by
    simp only [Std.ExtTreeMap.getElem?_empty, reduceCtorEq, and_false, exists_false, iff_false]
    rcases eq_or_ne names [] with rfl | hne
    · rw [List.append_nil, h.rooted.directory]
      exact fun hnode => by cases hnode
    · rw [h.empty names hne]
      exact fun hnode => by cases hnode
  directories names := by
    simp only [List.not_mem_nil, false_and, exists_false, or_false]
    rcases eq_or_ne names [] with rfl | hne
    · rw [List.append_nil]
      exact iff_of_true h.rooted.directory rfl
    · rw [h.empty names hne]
      exact iff_of_false (fun hnode => by cases hnode) hne
  visible key hkey := absurd hkey List.not_mem_nil
  usable key hkey := absurd hkey List.not_mem_nil
  stored key hkey := by
    rw [Std.ExtTreeMap.getElem?_empty] at hkey
    cases hkey

variable (h : Holds root place past table t)

include h

theorem file {key : String} {value : Bytes} (hkey : table[key]? = some value) :
    t.at? (place ++ stepsOf key) = some (.file recordMode value) :=
  (h.files _ _ _).mpr ⟨rfl, key, rfl, hkey⟩

/-- Nothing hidden is left, and no staging file above all. -/
theorem hidden {above : List String} {name : String} (hname : name.toList.head? = some '.') :
    t.at? (place ++ (above ++ [name])) = none := by
  have hmem : ∀ key ∈ past, name ∉ stepsOf key := fun key hkey hstep =>
    (h.visible key hkey name hstep).2 hname
  -- whatever stands there is on the way to a visible key, and no step of such a key is hidden
  rcases hnode : t.at? (place ++ (above ++ [name])) with - | (- | ⟨mode, content⟩)
  · rfl
  · rcases (h.directories _).mp hnode with hnil | ⟨key, hkey, step, more, hsteps⟩
    · exact absurd hnil (by simp)
    · refine absurd ?_ (hmem key hkey)
      rw [hsteps]
      simp
  · obtain ⟨-, key, hsteps, hvalue⟩ := (h.files _ _ _).mp hnode
    refine absurd ?_ (hmem key (h.stored key (by rw [hvalue]; rfl)))
    rw [hsteps]
    simp

/-! ### Edits preserve it -/

/-- What a put stores is what the table then has; no other file changes. -/
theorem of_stores {key : String} {value : Bytes} (hkey : IsVisible key)
    (hrooted : Rooted t' root place) (husable : Usable root (stepsOf key))
    (hstores : Stores place (stepsOf key) value t t') :
    Holds root place (past ++ [key]) (table.insert key value) t' where
  rooted := hrooted
  files names mode content := by
    rw [hstores.nodes, exists_getElem?_insert]
    rcases eq_or_ne names (stepsOf key) with rfl | hne
    · rw [if_pos rfl, if_pos rfl, Option.some.injEq, Node.file.injEq, eq_comm (a := recordMode)]
    -- what is at another place is as it was, or has been made a directory
    · rw [if_neg hne, if_neg hne, ← h.files]
      split
      · rename_i hway
        rcases hstores.before names hway hne with hnone | hdir
        · rw [hnone]
          exact iff_of_false nofun nofun
        · rw [hdir]
      · rfl
  directories names := by
    have hpast : (∃ other ∈ past ++ [key], IsBelow names other) ↔
        (∃ other ∈ past, IsBelow names other) ∨ IsBelow names key := by
      simp only [List.mem_append, List.mem_singleton, or_and_right, exists_or, exists_eq_left]
    rw [hpast, ← or_assoc, ← h.directories, hstores.nodes, isBelow_iff]
    rcases eq_or_ne names (stepsOf key) with rfl | hne
    · rw [if_pos rfl]
      refine iff_of_false nofun ?_
      rintro (hdir | ⟨-, hne⟩)
      · exact hstores.ne_directory hdir
      · exact hne rfl
    · rw [if_neg hne]
      split
      · rename_i hway
        exact iff_of_true rfl (Or.inr ⟨hway, hne⟩)
      · rename_i hway
        exact (or_iff_left fun hbelow => hway hbelow.1).symm
  visible := List.forall_mem_append.mpr ⟨h.visible, List.forall_mem_singleton.mpr hkey⟩
  usable := List.forall_mem_append.mpr ⟨h.usable, List.forall_mem_singleton.mpr husable⟩
  stored other hother := by
    rw [KeyTable.getElem?_insert] at hother
    split at hother
    · rename_i heq
      exact heq ▸ List.mem_append_right past List.mem_cons_self
    · exact List.mem_append_left [key] (h.stored other hother)

/-- A put that succeeds is one more visible key. -/
theorem put {key : String} {value : Bytes} (hkey : IsVisible key)
    (hdone : ((ofDirectory calls root).put key value).run t = (.ok (), t')) :
    Holds root place (past ++ [key]) (table.insert key value) t' := by
  obtain ⟨above, name, hsteps⟩ := exists_stepsOf_eq_concat key
  have hdown := goDown_of_isVisible hkey
  have hname : name ∈ stepsOf key := by
    rw [hsteps]
    exact List.mem_append_right above List.mem_cons_self
  have hpath := pathOf_of_isVisible hkey root
  rw [hsteps] at hdown hpath
  have hfileName := Path.fileName?_down root above (hkey.isName hname) (hkey.ne_up hname)
  rw [put_run hpath hfileName] at hdone
  -- the staging name starts with a dot, so nothing visible is written over
  have hunstaged : t.at? (place ++ (above ++ [stagingName name])) = none :=
    h.hidden (by rw [toList_stagingName]; rfl)
  obtain ⟨hrooted, husable, hstores⟩ :=
    stores_of_saved hdown h.rooted (hkey name hname).2 hunstaged hdone
  rw [← hsteps] at husable hstores
  exact h.of_stores hkey hrooted husable hstores

/-- Without the key's file the tree holds the table without the key. -/
theorem of_erase {key : String} (hrooted : Rooted t' root place)
    (hdir : t.at? (place ++ stepsOf key) ≠ some .directory)
    (ht : t' = t.erase (place ++ stepsOf key)) :
    Holds root place past (table.erase key) t' where
  rooted := hrooted
  files names mode content := by
    rw [ht, at?_erase t (ne_root hdir), exists_getElem?_erase]
    rcases eq_or_ne names (stepsOf key) with rfl | hne
    · rw [if_pos rfl]
      exact iff_of_false nofun fun hvalue => hvalue.2.1 rfl
    · rw [if_neg fun heq => hne (List.append_cancel_left heq), h.files, and_iff_right hne]
  directories names := by
    rw [← h.directories, ht, at?_erase t (ne_root hdir)]
    split
    · rename_i heq
      rw [heq]
      exact iff_of_false (fun hnode => by cases hnode) hdir
    · rfl
  visible := h.visible
  usable := h.usable
  stored other hother := by
    refine h.stored other ?_
    rw [KeyTable.getElem?_erase] at hother
    split at hother
    · cases hother
    · exact hother

/-- A delete takes the key's file away and leaves its directories. -/
theorem delete {key : String} (hkey : IsVisible key)
    (hdone : ((ofDirectory calls root).delete key).run t = (.ok (), t')) :
    Holds root place past (table.erase key) t' := by
  obtain ⟨above, name, hsteps⟩ := exists_stepsOf_eq_concat key
  have hdown := goDown_of_isVisible hkey
  have hpath := pathOf_of_isVisible hkey root
  rw [hsteps] at hdown hpath
  rw [delete_run hpath] at hdone
  rcases hremoved : t.removeFile (root.down (above ++ [name])) with e | t₁
  -- a file that is missing had no record
  · rw [hremoved] at hdone
    have hnone : table[key]? = none := by
      rcases hvalue : table[key]? with - | value
      · rfl
      · have husable := h.usable key (h.stored key (by rw [hvalue]; rfl))
        have hfile := h.file hvalue
        rw [hsteps] at husable hfile
        rw [removeFile_of_file hdown h.rooted husable hfile] at hremoved
        cases hremoved
    rw [KeyTable.erase_of_getElem?_eq_none hnone, ← (Prod.mk.inj hdone).2]
    exact h
  · rw [hremoved] at hdone
    cases hdone
    obtain ⟨hdir, hat⟩ := removeFile_down_eq_ok hdown h.rooted hremoved
    rw [← hsteps] at hdir hat
    exact h.of_erase (h.rooted.removeFile hremoved) hdir hat

/-- What each edit preserves, a run of edits does. -/
theorem run {edits : List Edit} (hkeys : ∀ edit ∈ edits, IsVisible edit.key)
    (hdone : (Edit.performAll (ofDirectory calls root) edits).run t = (.ok (), t')) :
    Holds root place (past ++ edits.filterMap Edit.put?) (edits.foldl Edit.onTable table) t' := by
  induction edits generalizing past table t with
  | nil =>
    cases hdone
    rw [List.filterMap_nil, List.append_nil]
    exact h
  | cons edit rest ih =>
    have hedit := hkeys edit List.mem_cons_self
    have hrest : ∀ edit ∈ rest, IsVisible edit.key := fun e he =>
      hkeys e (List.mem_cons_of_mem edit he)
    -- the first edit was done, or the run would have stopped there
    rw [Edit.performAll, bind_run] at hdone
    split at hdone
    · rename_i t₁ hfirst
      rcases edit with ⟨key, value⟩ | key
      · have hlast := ih (h.put hedit hfirst) hrest hdone
        rw [List.append_assoc] at hlast
        exact hlast
      · exact ih (h.delete hedit hfirst) hrest hdone
    · cases hdone

end Holds

end Directory

end TrustStore.Storage

import TrustStore.Proofs.Registry.Keys

/-!
# What a table lists

A key shows one thing below a text with which it begins: the rest of it if that has no slash, and
else the next step with its slash (`childOf?_eq_some_iff_leaf_or_step`).  Nothing is asked of the
keys or of the text, which may end inside a step.  A table lists what its keys show, strictly
ascending, so that keys which show the same step are one element of the list
(`keyTable_lists_exactly`).
-/

namespace TrustStore.Storage

/-! ### What one key shows -/

theorem firstStep_of_not_mem {rest : List Char} (h : '/' ∉ rest) : firstStep rest = rest := by
  rw [firstStep_eq (Text.splitOn_of_not_mem h), if_pos rfl]

theorem firstStep_append {step : List Char} (h : '/' ∉ step) (more : List Char) :
    firstStep (step ++ '/' :: more) = step ++ ['/'] := by
  have hsplit : Text.splitOn '/' (step ++ '/' :: more) = step :: Text.splitOn '/' more := by
    rw [Text.splitOn_append, Text.splitOn_of_not_mem h]
    rfl
  rw [firstStep_eq hsplit, if_neg (Text.splitOn_ne_nil '/' more)]

/-- The key is the text with a name after it, which has no slash. -/
def IsLeaf (above key name : String) : Prop :=
  name ≠ "" ∧ '/' ∉ name.toList ∧ key = above ++ name

/-- After the text the key goes on with a step and a slash.  The step may be empty. -/
def GoesOn (above key step : String) : Prop :=
  '/' ∉ step.toList ∧ (above ++ step ++ "/").toList <+: key.toList

section

variable {above key step : String}

theorem GoesOn.exists_eq (h : GoesOn above key step) :
    ∃ more, key = above ++ String.ofList (step.toList ++ '/' :: more) := by
  obtain ⟨more, hmore⟩ := h.2
  refine ⟨more, ?_⟩
  rw [← String.toList_inj, ← hmore]
  simp [String.toList_append]

/-- A key that goes on shows its next step with a slash. -/
theorem childOf?_of_goesOn (h : GoesOn above key step) :
    childOf? above key = some (step ++ "/") := by
  obtain ⟨more, rfl⟩ := h.exists_eq
  refine childOf?_eq_some.mpr ⟨_, ?_, rfl, ?_⟩
  · rw [Ne, String.ofList_eq_empty_iff]
    exact List.append_ne_nil_of_right_ne_nil _ (List.cons_ne_nil '/' more)
  · rw [String.toList_ofList, firstStep_append h.1, String.ofList_append, String.ofList_toList]

/-- A key shows its last name, or the step that it goes on with, and nothing else. -/
theorem childOf?_eq_some_iff_leaf_or_step {child : String} :
    childOf? above key = some child ↔
      IsLeaf above key child ∨ ∃ step, child = step ++ "/" ∧ GoesOn above key step := by
  constructor
  · intro h
    obtain ⟨rest, hne, rfl, rfl⟩ := childOf?_eq_some.mp h
    -- a slash in what is left of the key makes its first step a directory
    by_cases hslash : '/' ∈ rest.toList
    · obtain ⟨step, more, hrest, hstep⟩ := List.eq_append_cons_of_mem hslash
      refine .inr ⟨String.ofList step, ?_, ?_, more, ?_⟩
      · rw [hrest, firstStep_append hstep, String.ofList_append]
      · rwa [String.toList_ofList]
      · simp [String.toList_append, hrest]
    · rw [firstStep_of_not_mem hslash, String.ofList_toList]
      exact .inl ⟨hne, hslash, rfl⟩
  · rintro (⟨hne, hslash, rfl⟩ | ⟨step, rfl, hstep⟩)
    · exact childOf?_append hne hslash
    · exact childOf?_of_goesOn hstep

end

/-! ### Lists of tables -/

/-- The text with this name after it is a key, and the name has no slash. -/
def ShowsLeaf (table : KeyTable) (above name : String) : Prop :=
  name ≠ "" ∧ '/' ∉ name.toList ∧ above ++ name ∈ table

/-- Some key begins with the text, this step and a slash. -/
def ShowsStep (table : KeyTable) (above step : String) : Prop :=
  '/' ∉ step.toList ∧ ∃ key ∈ table, (above ++ step ++ "/").toList <+: key.toList

/-- What a listing shows: a leaf for a key that ends there, and a step for a key that goes on. -/
theorem mem_childrenOf_keys {table : KeyTable} {above child : String} :
    child ∈ childrenOf above table.keys ↔ ShowsLeaf table above child ∨
      ∃ step, child = step ++ "/" ∧ ShowsStep table above step := by
  rw [mem_childrenOf]
  constructor
  · rintro ⟨key, hkey, hchild⟩
    rw [Std.ExtTreeMap.mem_keys] at hkey
    rcases childOf?_eq_some_iff_leaf_or_step.mp hchild with
      ⟨hne, hslash, rfl⟩ | ⟨step, rfl, hslash, hbegins⟩
    · exact .inl ⟨hne, hslash, hkey⟩
    · exact .inr ⟨step, rfl, hslash, key, hkey, hbegins⟩
  · rintro (⟨hne, hslash, hkey⟩ | ⟨step, rfl, hslash, key, hkey, hbegins⟩)
    · exact ⟨_, Std.ExtTreeMap.mem_keys.mpr hkey, childOf?_append hne hslash⟩
    · exact ⟨key, Std.ExtTreeMap.mem_keys.mpr hkey, childOf?_of_goesOn ⟨hslash, hbegins⟩⟩

/-- The list of what the keys of a table show below a text. -/
structure ListsExactly (table : KeyTable) (above : String) (l : List String) : Prop where
  /-- The elements ascend by code point, each of them once. -/
  ascending : l.Pairwise (· < ·)
  mem_iff (child : String) : child ∈ l ↔ ShowsLeaf table above child ∨
    ∃ step, child = step ++ "/" ∧ ShowsStep table above step
  /-- However many keys go on with a step, it is one element. -/
  count_step {step : String} (h : ShowsStep table above step) : l.count (step ++ "/") = 1
  /-- A name that is a leaf and a step is listed as both. -/
  mem_both {name : String} (hleaf : ShowsLeaf table above name)
    (hstep : ShowsStep table above name) : name ∈ l ∧ name ++ "/" ∈ l

/-- Below any text a table lists what its keys show, whatever these are. -/
theorem keyTable_lists_exactly (table : KeyTable) (above : String) :
    ∃ l, (KeyTable.storage.list above).run table = (.ok l, table) ∧ ListsExactly table above l := by
  have hascending : (childrenOf above table.keys).Pairwise (· < ·) :=
    Text.sortDistinct_ascending _
  have hleaf {name : String} (h : ShowsLeaf table above name) :
      name ∈ childrenOf above table.keys := mem_childrenOf_keys.mpr (.inl h)
  have hstep {step : String} (h : ShowsStep table above step) :
      step ++ "/" ∈ childrenOf above table.keys := mem_childrenOf_keys.mpr (.inr ⟨step, rfl, h⟩)
  -- order and membership are the sorting's; what is counted follows from them
  refine ⟨childrenOf above table.keys, rfl, hascending, fun child => mem_childrenOf_keys, ?_, ?_⟩
  · intro step h
    have hnodup : (childrenOf above table.keys).Nodup :=
      hascending.imp fun hlt => String.ne_of_lt hlt
    rw [hnodup.count, if_pos (hstep h)]
  · intro name h h'
    exact ⟨hleaf h, hstep h'⟩

-- a text may end inside a step, and a step may be empty
example : ((KeyTable.storage.list "a").run
    (((((∅ : KeyTable).insert "a" []).insert "ab" []).insert "ab/c" []).insert "a//d" [])).1
      = .ok ["/", "b", "b/"] := by
  decide +kernel

end TrustStore.Storage

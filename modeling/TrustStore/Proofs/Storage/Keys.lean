import TrustStore.Proofs.FileTree.Path
import TrustStore.Proofs.Text.Split
import TrustStore.Storage.Directory

/-!
# Keys and their steps

A key is determined by its steps, the parts between its slashes (`stepsOf_injective`).  Where no
step is empty or hidden, the path of the key goes down from the root by these steps
(`pathOf_of_isVisible`), and what the key shows below a text is said by the step that comes after
those of the text (`childOf?_eq_some_iff`).
-/

namespace TrustStore.Storage

/-! ### Steps -/

/-- What stands between the slashes of a key. -/
def stepsOf (key : String) : List String := (Text.splitOn '/' key.toList).map String.ofList

/-- A key is its steps, joined with slashes. -/
theorem intercalate_stepsOf (key : String) : "/".intercalate (stepsOf key) = key := by
  rw [← String.toList_inj, String.toList_intercalate, stepsOf, List.map_map]
  simp only [Function.comp_def, String.toList_ofList, List.map_id']
  exact Text.intercalate_splitOn '/' key.toList

/-- So keys with the same steps are the same. -/
theorem stepsOf_injective {key key' : String} (h : stepsOf key = stepsOf key') : key = key' := by
  rw [← intercalate_stepsOf key, h, intercalate_stepsOf]

/-- No step holds a slash. -/
theorem slash_not_mem_of_mem_stepsOf {step key : String} (h : step ∈ stepsOf key) :
    '/' ∉ step.toList := by
  obtain ⟨part, hpart, rfl⟩ := List.mem_map.mp h
  rw [String.toList_ofList]
  exact Text.not_mem_of_mem_splitOn hpart

theorem stepsOf_intercalate {steps : List String} (h : ∀ step ∈ steps, '/' ∉ step.toList)
    (hne : steps ≠ []) : stepsOf ("/".intercalate steps) = steps := by
  have hsplit : Text.splitOn '/' ("/".intercalate steps).toList = steps.map String.toList :=
    Text.splitOn_intercalate h hne
  rw [stepsOf, hsplit, List.map_map]
  simp only [Function.comp_def, String.ofList_toList, List.map_id']

/-- Keys that are joined with a slash take their steps one after the other. -/
theorem stepsOf_append (key key' : String) :
    stepsOf (key ++ "/" ++ key') = stepsOf key ++ stepsOf key' := by
  have htext : (key ++ "/" ++ key').toList = key.toList ++ '/' :: key'.toList := by
    rw [String.toList_append, String.toList_append, List.append_assoc]
    rfl
  rw [stepsOf, htext, Text.splitOn_append, List.map_append]
  rfl

theorem stepsOf_ne_nil (key : String) : stepsOf key ≠ [] := by
  rw [stepsOf, Ne, List.map_eq_nil_iff]
  exact Text.splitOn_ne_nil '/' key.toList

theorem exists_stepsOf_eq_concat (key : String) : ∃ above name, stepsOf key = above ++ [name] :=
  (List.eq_nil_or_concat' (stepsOf key)).resolve_left (stepsOf_ne_nil key)

/-! ### Listing elements -/

/-- The first step is shown with a slash if there is another one behind it. -/
theorem firstStep_eq {l part : List Char} {parts : List (List Char)}
    (h : Text.splitOn '/' l = part :: parts) :
    firstStep l = if parts = [] then part else part ++ ['/'] := by
  -- by the characters up to the first slash
  induction l generalizing part parts with
  | nil =>
    cases h
    rfl
  | cons c rest ih =>
    rw [Text.splitOn] at h
    rw [firstStep]
    split at h
    · rename_i hc
      rw [if_pos hc]
      obtain ⟨rfl, rfl⟩ := List.cons.inj h
      rw [if_neg (Text.splitOn_ne_nil '/' rest)]
      rfl
    · rename_i hc
      rw [if_neg hc]
      split at h
      · rename_i hrest
        exact absurd hrest (Text.splitOn_ne_nil '/' rest)
      · rename_i first more hrest
        obtain ⟨rfl, rfl⟩ := List.cons.inj h
        rw [ih hrest]
        split <;> rfl

/-- What a key shows above is its first step below the prefix. -/
theorem childOf?_eq_some {above key child : String} :
    childOf? above key = some child ↔
      ∃ rest, rest ≠ "" ∧ key = above ++ rest ∧ child = String.ofList (firstStep rest.toList) := by
  have htext : ∀ rest : List Char, above.toList.isPrefixOf? key.toList = some rest ↔
      key = above ++ String.ofList rest := by
    intro rest
    rw [List.isPrefixOf?_eq_some_iff_append_eq, ← String.toList_inj, String.toList_append,
      String.toList_ofList, eq_comm]
  unfold childOf?
  constructor
  · intro h
    split at h
    · cases h
    · cases h
    · rename_i rest hne hrest
      refine ⟨String.ofList rest, ?_, (htext rest).mp hrest, ?_⟩
      -- a key that is the prefix itself shows nothing
      · intro hempty
        rw [String.ofList_eq_empty_iff.mp hempty] at hne
        exact hne rfl
      · rw [String.toList_ofList]
        exact (Option.some.inj h).symm
  · rintro ⟨rest, hne, hkey, rfl⟩
    rw [(htext rest.toList).mpr (by rwa [String.ofList_toList])]
    split
    · rename_i h
      cases h
    · rename_i h
      exact absurd (String.toList_eq_nil_iff.mp (Option.some.inj h)) hne
    · rename_i chars _ h
      obtain rfl := Option.some.inj h
      rfl

/-- A key that goes on without a slash is shown as the rest of it. -/
theorem childOf?_append {above rest : String} (hne : rest ≠ "") (hslash : '/' ∉ rest.toList) :
    childOf? above (above ++ rest) = some rest := by
  refine childOf?_eq_some.mpr ⟨rest, hne, rfl, ?_⟩
  rw [firstStep_eq (Text.splitOn_of_not_mem hslash), if_pos rfl, String.ofList_toList]

/-- Children are what the keys show. -/
theorem mem_childrenOf {above : String} {keys : List String} {child : String} :
    child ∈ childrenOf above keys ↔ ∃ key ∈ keys, childOf? above key = some child := by
  rw [childrenOf, Text.mem_sortDistinct, List.mem_filterMap]

/-! ### Visible keys -/

/-- A key no step of which is empty or hidden. -/
def IsVisible (key : String) : Prop :=
  ∀ step ∈ stepsOf key, step ≠ "" ∧ step.toList.head? ≠ some '.'

instance (key : String) : Decidable (IsVisible key) :=
  inferInstanceAs (Decidable (∀ step ∈ stepsOf key, _))

namespace IsVisible

variable {key step : String} (h : IsVisible key)

include h

/-- The steps of a visible key are names. -/
theorem isName (hstep : step ∈ stepsOf key) : Path.isName step = true := by
  refine Path.isName_iff.mpr ⟨(h step hstep).1, ?_⟩
  rintro rfl
  exact (h "." hstep).2 rfl

/-- None of them goes up. -/
theorem ne_up (hstep : step ∈ stepsOf key) : step ≠ ".." := by
  rintro rfl
  exact (h ".." hstep).2 rfl

/-- A visible key is neither empty nor does it begin or end with a slash. -/
theorem ofText : Path.ofText key = ⟨false, stepsOf key⟩ := by
  unfold Path.ofText
  split
  · rename_i rest hkey
    have hfirst : "" ∈ stepsOf key := by
      rw [stepsOf, hkey, Text.splitOn, if_pos rfl]
      exact List.mem_cons_self
    exact absurd rfl (h "" hfirst).1
  · rw [Path.piecesOf]
    split
    · rename_i hempty
      have honly : "" ∈ stepsOf key := by
        rw [stepsOf, List.isEmpty_iff.mp hempty]
        exact List.mem_cons_self
      exact absurd rfl (h "" honly).1
    · rfl

end IsVisible

/-! ### Texts above keys -/

/-- A text that leads to a directory by some steps: the empty text, or a visible key with a slash
after it. -/
inductive LeadsTo : String → List String → Prop where
  | root : LeadsTo "" []
  | below {key : String} (h : IsVisible key) : LeadsTo (key ++ "/") (stepsOf key)

/-- The key is a file somewhere below the directory to which the steps lead. -/
def IsBelow (steps : List String) (key : String) : Prop :=
  ∃ step more, stepsOf key = steps ++ step :: more

/-- How the next step of a key is shown: a slash is added where more steps follow. -/
def shownStep (step : String) (more : List String) : String :=
  if more = [] then step else step ++ "/"

/-- A prefix that leads to some steps puts them before those of the rest. -/
theorem LeadsTo.stepsOf_append {above : String} {steps : List String} (h : LeadsTo above steps)
    (rest : String) : stepsOf (above ++ rest) = steps ++ stepsOf rest := by
  rcases h with - | @⟨key, -⟩
  · rw [String.empty_append]
    rfl
  · exact Storage.stepsOf_append key rest

theorem firstStep_toList {key step : String} {more : List String}
    (h : stepsOf key = step :: more) :
    String.ofList (firstStep key.toList) = shownStep step more := by
  obtain ⟨part, parts, hsplit, rfl, rfl⟩ := List.map_eq_cons_iff.mp h
  rw [firstStep_eq hsplit, shownStep]
  simp only [List.map_eq_nil_iff]
  split <;> simp

/-- A visible key shows the step that comes after those of the text. -/
theorem childOf?_eq_some_iff {above key child : String} {steps : List String}
    (habove : LeadsTo above steps) (hkey : IsVisible key) :
    childOf? above key = some child ↔
      ∃ step more, stepsOf key = steps ++ step :: more ∧ child = shownStep step more := by
  rw [childOf?_eq_some]
  constructor
  · rintro ⟨rest, hne, rfl, rfl⟩
    obtain ⟨step, more, hrest⟩ := List.exists_cons_of_ne_nil (stepsOf_ne_nil rest)
    refine ⟨step, more, ?_, firstStep_toList hrest⟩
    rw [habove.stepsOf_append, hrest]
  -- the steps behind the prefix are a key by themselves, which is not empty
  · rintro ⟨step, more, hsteps, rfl⟩
    have hmem : ∀ s ∈ step :: more, s ∈ stepsOf key := fun s hs => by
      rw [hsteps]
      exact List.mem_append_right steps hs
    have hslash : ∀ s ∈ step :: more, '/' ∉ s.toList := fun s hs =>
      slash_not_mem_of_mem_stepsOf (hmem s hs)
    have hrest := stepsOf_intercalate hslash (List.cons_ne_nil step more)
    refine ⟨"/".intercalate (step :: more), ?_, ?_, (firstStep_toList hrest).symm⟩
    · intro hempty
      rw [hempty] at hrest
      obtain ⟨hstep, -⟩ := List.cons.inj hrest
      exact (hkey step (hmem step List.mem_cons_self)).1 hstep.symm
    · refine stepsOf_injective ?_
      rw [habove.stepsOf_append, hrest, hsteps]

/-- A key is shown as the file that it is, or as the directory in which it is. -/
theorem childOf?_eq_some_iff_or {above key child : String} {steps : List String}
    (habove : LeadsTo above steps) (hkey : IsVisible key) :
    childOf? above key = some child ↔ stepsOf key = steps ++ [child] ∨
      ∃ step, child = step ++ "/" ∧ IsBelow (steps ++ [step]) key := by
  rw [childOf?_eq_some_iff habove hkey]
  constructor
  · rintro ⟨step, more, hsteps, rfl⟩
    rcases more with - | ⟨next, more⟩
    · exact Or.inl hsteps
    · refine Or.inr ⟨step, rfl, next, more, ?_⟩
      rw [hsteps, List.append_cons]
  · rintro (hsteps | ⟨step, rfl, next, more, hsteps⟩)
    · exact ⟨child, [], hsteps, rfl⟩
    · refine ⟨step, next :: more, ?_, rfl⟩
      rw [hsteps, List.append_assoc]
      rfl

/-! ### Paths -/

namespace Directory

/-- A visible key has a path below the root. -/
theorem pathOf_of_isVisible {key : String} (h : IsVisible key) (root : Path) :
    pathOf root key = .ok (root.down (stepsOf key)) := by
  have hsteps : (⟨false, stepsOf key⟩ : Path).steps = stepsOf key :=
    List.filter_eq_self.mpr fun step hstep => decide_eq_true (h step hstep).1
  have hplain : isPlain ⟨false, stepsOf key⟩ = true := by
    rw [isPlain, hsteps, Bool.and_eq_true, Bool.and_eq_true]
    refine ⟨⟨rfl, ?_⟩, ?_⟩
    · obtain ⟨step, more, hcons⟩ := List.exists_cons_of_ne_nil (stepsOf_ne_nil key)
      have hstay : step ≠ "." :=
        (Path.isName_iff.mp (h.isName (by rw [hcons]; exact List.mem_cons_self))).2
      rw [hcons]
      simpa using hstay
    · exact List.all_eq_true.mpr fun step hstep => decide_eq_true (h.ne_up hstep)
  rw [pathOf, h.ofText, if_pos hplain, Path.below_eq_down]

/-- A slash after the key is all there is to trim. -/
theorem trimSlashes_of_isVisible {key : String} (h : IsVisible key) :
    trimSlashes (key ++ "/") = key := by
  have hlast : key.toList.reverse.dropWhile (· == '/') = key.toList.reverse := by
    rcases hreverse : key.toList.reverse with - | ⟨c, chars⟩
    · rfl
    · refine List.dropWhile_cons_of_neg ?_
      intro hc
      have hkey : key = String.ofList chars.reverse ++ "/" ++ "" := by
        rw [← String.toList_inj, ← List.reverse_reverse key.toList, hreverse, eq_of_beq hc]
        simp
      refine (h "" ?_).1 rfl
      rw [hkey, stepsOf_append]
      exact List.mem_append_right _ List.mem_cons_self
  have htext : (key ++ "/").toList.reverse = '/' :: key.toList.reverse := by
    rw [String.toList_append, List.reverse_append]
    rfl
  rw [trimSlashes, htext, List.dropWhile_cons_of_pos rfl, hlast, List.reverse_reverse,
    String.ofList_toList]

/-- A prefix that leads to some steps lists the directory that they lead to. -/
theorem listedPath_of_leadsTo {above : String} {steps : List String} (h : LeadsTo above steps)
    (root : Path) :
    listedPath root above = .ok (if steps = [] then root else root.down steps) := by
  rcases h with - | @⟨key, hkey⟩
  · rw [if_pos rfl]
    rfl
  · have hne : key ≠ "" := by
      rintro rfl
      exact (hkey "" List.mem_cons_self).1 rfl
    rw [if_neg (stepsOf_ne_nil key), listedPath, trimSlashes_of_isVisible hkey, if_neg hne,
      pathOf_of_isVisible hkey]

end Directory

end TrustStore.Storage

import TrustStore.Proofs.FileTree.Closed
import TrustStore.Proofs.FileTree.Debris

/-!
# What names lead to

`reach` follows names from a place and says what is at their end, or why they do not get there.  It
is what a walk sees (`enter_eq_reach`), and what a call finds under the last name of its path
(`reach_concat`).  Names lead to a node exactly if they are short, go through directories and the
node is at their end (`reach_eq_ok_iff`).  Where directories have been made on their way, names lead
to the same end as before, but a name may now be found too long where before nothing was found
(`Grown.reach`).
-/

namespace TrustStore.FileTree

variable {t t' : FileTree}

/-! ### Following names -/

/-- What is at the end of some names, which are followed from a place one after the other. -/
def reach (t : FileTree) (q : Place) : List String → Except FileError Node
  | [] => match t.at? q with
    | none => .error .missing
    | some node => .ok node
  | name :: rest => match t.at? q with
    | none => .error .missing
    | some (.file _ _) => .error .notDirectory
    | some .directory => do
      checkName name
      t.reach (q ++ [name]) rest

section Ends

variable {q : Place} {l : List String}

/-- From where nothing is, names find nothing. -/
theorem reach_none (h : t.at? q = none) (l : List String) : t.reach q l = .error .missing := by
  cases l <;> rw [reach, h]

/-- Behind a file there is nothing, and no directory to look in. -/
theorem reach_file {mode : Nat} {content : Bytes} (h : t.at? q = some (.file mode content))
    (hne : l ≠ []) : t.reach q l = .error .notDirectory := by
  cases l with
  | nil => exact absurd rfl hne
  | cons name rest => rw [reach, h]

/-- From a directory the first name leads on, if it is not too long. -/
theorem reach_directory_cons (h : t.at? q = some .directory) (name : String) (rest : List String) :
    t.reach q (name :: rest) = checkName name >>= fun _ => t.reach (q ++ [name]) rest := by
  rw [reach, h]

end Ends

/-! ### Walks and last names -/

section Children

variable {steps : List String} (hsteps : ∀ step ∈ steps, step ≠ "." ∧ step ≠ "..") {q : Place}
  (hq : t.at? q = some .directory)

include hsteps hq

/-- A walk to children ends where their names lead, which must be a directory. -/
theorem enter_eq_reach : t.enter q steps = t.reach q steps >>= fun node => match node with
    | .directory => .ok (q ++ steps)
    | .file _ _ => .error .notDirectory := by
  induction steps generalizing q with
  | nil =>
    rw [reach, hq, List.append_nil]
    rfl
  | cons name rest ih =>
    obtain ⟨hstay, hup⟩ := hsteps name List.mem_cons_self
    rw [enter, if_neg hstay, if_neg hup, reach_directory_cons hq]
    rcases checkName name with e | ⟨⟩
    · rfl
    · simp only [bind, Except.bind]
      rcases hnode : t.at? (q ++ [name]) with - | (- | ⟨mode, content⟩)
      · rw [reach_none hnode]
      · rw [List.append_cons q name rest]
        exact ih (fun s hs => hsteps s (List.mem_cons_of_mem name hs)) hnode
      -- a file ends the walk and, if names follow, the search as well
      · rcases rest with - | ⟨next, rest⟩
        · rw [reach, hnode]
        · rw [reach_file hnode (List.cons_ne_nil next rest)]

/-- What a last name leads to is looked up in the directory before it. -/
theorem reach_concat (name : String) : t.reach q (steps ++ [name]) = (do
    let directory ← t.enter q steps
    checkName name
    match t.at? (directory ++ [name]) with
    | none => .error .missing
    | some node => .ok node) := by
  induction steps generalizing q with
  | nil =>
    rw [List.nil_append, reach_directory_cons hq]
    rfl
  | cons step rest ih =>
    obtain ⟨hstay, hup⟩ := hsteps step List.mem_cons_self
    rw [List.cons_append, reach_directory_cons hq, enter, if_neg hstay, if_neg hup]
    rcases checkName step with e | ⟨⟩
    · rfl
    · simp only [bind, Except.bind]
      -- both look at the same child, and go on from it if it is a directory
      rcases hnode : t.at? (q ++ [step]) with - | (- | ⟨mode, content⟩)
      · rw [reach_none hnode]
      · exact ih (fun s hs => hsteps s (List.mem_cons_of_mem step hs)) hnode
      · rw [reach_file hnode (List.append_ne_nil_of_right_ne_nil rest (List.cons_ne_nil name []))]

end Children

/-! ### Where names get to -/

/-- Names that go through directories may be followed one part after the other. -/
theorem reach_append {l : List String} (hshort : ∀ name ∈ l, name.utf8ByteSize ≤ 255) {q : Place}
    (hdirs : ∀ l', l' <+: l → l' ≠ l → t.at? (q ++ l') = some .directory) (more : List String) :
    t.reach q (l ++ more) = t.reach (q ++ l) more := by
  induction l generalizing q with
  | nil => rw [List.nil_append, List.append_nil]
  | cons name rest ih =>
    have hq := hdirs [] List.nil_prefix (List.cons_ne_nil name rest).symm
    rw [List.append_nil] at hq
    rw [List.cons_append, reach_directory_cons hq, checkName_eq_ok (hshort name List.mem_cons_self),
      List.append_cons q name rest]
    refine ih (fun s hs => hshort s (List.mem_cons_of_mem name hs)) fun l' hl' hne => ?_
    rw [← List.append_cons]
    exact hdirs (name :: l') (List.cons_prefix_cons.mpr ⟨rfl, hl'⟩)
      fun heq => hne (List.cons.inj heq).2

/-- Names get to a node if they go through directories to it and none of them is too long. -/
theorem reach_eq_ok_iff {q : Place} {l : List String} {node : Node} :
    t.reach q l = .ok node ↔ (∀ name ∈ l, name.utf8ByteSize ≤ 255) ∧
      (∀ l', l' <+: l → l' ≠ l → t.at? (q ++ l') = some .directory) ∧
      t.at? (q ++ l) = some node := by
  constructor
  · intro h
    induction l generalizing q with
    | nil =>
      refine ⟨fun _ h => absurd h List.not_mem_nil,
        fun l' hl' hne => absurd (List.prefix_nil.mp hl') hne, ?_⟩
      rw [reach] at h
      rw [List.append_nil]
      split at h
      · cases h
      · rename_i hnode
        cases h
        exact hnode
    | cons name rest ih =>
      rw [reach] at h
      split at h
      · cases h
      · cases h
      -- only from a directory do the names go on
      · rename_i hq
        obtain ⟨⟨⟩, hname, h⟩ := bind_eq_ok.mp h
        obtain ⟨hshort, hdirs, hnode⟩ := ih h
        refine ⟨List.forall_mem_cons.mpr ⟨short_of_checkName hname, hshort⟩,
          directories_cons hq hdirs, ?_⟩
        rw [List.append_cons]
        exact hnode
  · rintro ⟨hshort, hdirs, hnode⟩
    have happend := reach_append hshort hdirs []
    rw [List.append_nil] at happend
    rw [happend, reach, hnode]

/-- Where names find nothing, more of them do not either. -/
theorem reach_append_of_missing {q : Place} {l : List String} (h : t.reach q l = .error .missing)
    (more : List String) : t.reach q (l ++ more) = .error .missing := by
  -- names that follow are not looked at, once nothing is found
  induction l generalizing q with
  | nil =>
    rw [reach] at h
    split at h
    · rename_i hnone
      exact reach_none hnone _
    · cases h
  | cons name rest ih =>
    rw [reach] at h
    split at h
    · rename_i hnone
      exact reach_none hnone _
    · cases h
    · rename_i hq
      rw [List.cons_append, reach_directory_cons hq]
      rcases bind_eq_error.mp h with hname | ⟨⟨⟩, hname, hrest⟩
      · rw [checkName] at hname
        split at hname <;> cases hname
      · rw [hname]
        exact ih hrest

/-- A search that fails for a long name has come to one. -/
theorem exists_long_of_reach {q : Place} {l : List String}
    (h : t.reach q l = .error .nameTooLong) : ∃ name ∈ l, 255 < name.utf8ByteSize := by
  induction l generalizing q with
  | nil =>
    rw [reach] at h
    split at h <;> cases h
  | cons name rest ih =>
    rw [reach] at h
    split at h
    · cases h
    · cases h
    · rcases bind_eq_error.mp h with hname | ⟨⟨⟩, -, hrest⟩
      · rw [checkName] at hname
        split at hname
        · rename_i hlong
          exact ⟨name, List.mem_cons_self, hlong⟩
        · cases hname
      · obtain ⟨long, hmem, hlong⟩ := ih hrest
        exact ⟨long, List.mem_cons_of_mem name hmem, hlong⟩

/-! ### Other trees -/

/-- Names lead to the same end in a tree with the same nodes on their way. -/
theorem reach_congr {q : Place} {l : List String}
    (h : ∀ l', l' <+: l → t'.at? (q ++ l') = t.at? (q ++ l')) : t'.reach q l = t.reach q l := by
  induction l generalizing q with
  | nil =>
    have hq := h [] List.nil_prefix
    rw [List.append_nil] at hq
    rw [reach, reach, hq]
  | cons name rest ih =>
    have hq := h [] List.nil_prefix
    rw [List.append_nil] at hq
    have hrest := ih (q := q ++ [name]) fun l' hl' => by
      rw [← List.append_cons]
      exact h (name :: l') (List.cons_prefix_cons.mpr ⟨rfl, hl'⟩)
    rw [reach, reach, hq, hrest]

/-- On the way of some names `t'` is `t`, but for directories that were missing; their end is the
same. -/
structure Grown (q : Place) (l : List String) (t t' : FileTree) : Prop where
  way : ∀ l', l' <+: l → t'.at? (q ++ l') = t.at? (q ++ l') ∨
    (t.at? (q ++ l') = none ∧ t'.at? (q ++ l') = some .directory)
  last : t'.at? (q ++ l) = t.at? (q ++ l)

namespace Grown

/-- From the next place on, the way has grown alike. -/
theorem tail {q : Place} {name : String} {rest : List String} (h : Grown q (name :: rest) t t') :
    Grown (q ++ [name]) rest t t' where
  way l' hl' := by
    rw [← List.append_cons]
    exact h.way (name :: l') (List.cons_prefix_cons.mpr ⟨rfl, hl'⟩)
  last := by
    rw [← List.append_cons]
    exact h.last

/-- The place where a way begins is as it was, or has been made. -/
theorem head {q : Place} {l : List String} (h : Grown q l t t') :
    t'.at? q = t.at? q ∨ (t.at? q = none ∧ t'.at? q = some .directory) := by
  have hq := h.way [] List.nil_prefix
  rwa [List.append_nil] at hq

/-- From where nothing was, names get to nothing. -/
theorem reach_absent {q : Place} {l : List String} (h : Grown q l t t') (hclosed : t.Closed)
    (hq : t.at? q = none) :
    t'.reach q l = .error .missing ∨ t'.reach q l = .error .nameTooLong := by
  induction l generalizing q with
  | nil =>
    have hlast := h.last
    rw [List.append_nil, hq] at hlast
    exact Or.inl (reach_none hlast [])
  | cons name rest ih =>
    rcases h.head with hsame | ⟨-, hmade⟩
    · exact Or.inl (reach_none (hsame.trans hq) _)
    · rw [reach_directory_cons hmade, checkName]
      split
      · exact Or.inr rfl
      · exact ih h.tail
          (hclosed.nothing_below (ne_directory_of_none hq) (List.cons_ne_nil name []))

/-- Names lead to the same end as before, or nothing was found and one of them is too long. -/
theorem reach {q : Place} {l : List String} (h : Grown q l t t') (hclosed : t.Closed) :
    t'.reach q l = t.reach q l ∨
      (t.reach q l = .error .missing ∧ t'.reach q l = .error .nameTooLong) := by
  induction l generalizing q with
  | nil =>
    have hlast := h.last
    rw [List.append_nil] at hlast
    left
    rw [FileTree.reach, FileTree.reach, hlast]
  | cons name rest ih =>
    rcases h.head with hsame | ⟨hnone, -⟩
    -- the place is what it was, so both searches go on or end alike
    · rw [FileTree.reach, FileTree.reach, hsame]
      rcases t.at? q with - | (- | ⟨mode, content⟩)
      · exact Or.inl rfl
      · dsimp only
        rcases checkName name with e | ⟨⟩
        · exact Or.inl rfl
        · exact ih h.tail
      · exact Or.inl rfl
    -- the place was missing, so that nothing was found before
    · rw [reach_none hnone]
      exact (h.reach_absent hclosed hnone).imp_right fun hlong => ⟨rfl, hlong⟩

end Grown

/-! ### Walks in other trees -/

/-- A walk that gets to its end has done so before, or something was missing then. -/
theorem enter_eq_ok_or_missing
    (h : ∀ q, t'.at? q = some .directory → t.at? q = some .directory ∨ t.at? q = none)
    {q r : Place} {l : List String} (hl : t'.enter q l = .ok r) :
    t.enter q l = .ok r ∨ t.enter q l = .error .missing := by
  induction l generalizing q with
  | nil => exact Or.inl hl
  | cons step rest ih =>
    obtain ⟨hpasses, hrest⟩ := enter_cons_eq_ok_iff.mp hl
    -- a directory of the later tree was one before, or was missing
    have hbefore : t.Passes q step ∨ t.enter q (step :: rest) = .error .missing := by
      rcases hpasses with hstay | hup | ⟨hplain, hdir⟩
      · exact Or.inl (.stay hstay)
      · exact Or.inl (.up hup)
      · rcases h _ hdir with hkept | hnone
        · exact Or.inl (.child hplain hkept)
        · rw [enter_cons hplain, hnone]
          exact Or.inr rfl
    rcases hbefore with hbefore | hmissing
    · rw [hbefore.enter]
      exact ih hrest
    · exact Or.inr hmissing

/-- Where a walk down finds something missing, nothing is below its end. -/
theorem nothing_below_of_missing (hclosed : t.Closed) {q : Place} (hq : t.at? q = some .directory)
    {steps : List String} (hdown : GoesDown steps) (h : t.enter q steps = .error .missing)
    (l : List String) : t.at? (placeBelow q steps ++ l) = none := by
  have hplain : ∀ step ∈ steps.filter (· ≠ "."), IsPlainName step := by
    intro step hstep
    obtain ⟨hmem, hstay⟩ := List.mem_filter.mp hstep
    exact ⟨of_decide_eq_true hstay, (hdown step hmem).1, (hdown step hmem).2⟩
  have hends := enter_ends hplain hq
  rw [enter_filter, h] at hends
  cases hends with
  | @missing l' hl' hnone =>
    obtain ⟨rest, hrest⟩ := hl'
    rw [placeBelow, ← hrest, List.append_assoc, List.append_assoc, ← List.append_assoc q]
    rcases List.eq_nil_or_concat' (rest ++ l) with hnil | ⟨_, _, hconcat⟩
    · rw [hnil, List.append_nil, hnone]
    · exact hclosed.nothing_below (ne_directory_of_none hnone) (by simp [hconcat])

end TrustStore.FileTree

import TrustStore.Policies.Choice
import TrustStore.Proofs.Text.Ascending
import TrustStore.Proofs.Text.Lowercase
import TrustStore.Proofs.Text.Split

/-!
# Resolved policies

`Canonical` is the form of a set of policies that has been resolved: ascending names in their
normal form, and `root` only on its own.  Resolving yields that form (`resolve_canonical`) and
leaves it as it is (`Canonical.resolve`), so a set may be resolved again without harm
(`resolve_resolve`).

`Resolved` says which policies a list of names stands for, and `resolve` yields just these
(`resolve_eq_iff`); so only the normal forms that occur in the list count, not their order and
number (`resolve_congr`).
-/

namespace TrustStore.Policies

/-! ### Normal forms of names -/

/-- A normal name is trimmed and lowered. -/
theorem toList_normalize (name : String) :
    (normalize name).toList = Text.lowercase (Text.trim name.toList) := by
  rw [normalize, String.toList_ofList]

theorem trim_normalize (name : String) :
    Text.trim (normalize name).toList = (normalize name).toList := by
  rw [toList_normalize, Text.trim_lowercase]

theorem lowercase_normalize (name : String) :
    Text.lowercase (normalize name).toList = (normalize name).toList := by
  rw [toList_normalize, Text.lowercase_lowercase]

/-! ### The canonical form -/

structure Canonical (l : List String) : Prop where
  ascending : l.Pairwise (· < ·)
  nonempty : ∀ p ∈ l, p ≠ ""
  trimmed : ∀ p ∈ l, Text.trim p.toList = p.toList
  lower : ∀ p ∈ l, Text.lowercase p.toList = p.toList
  root_alone : l = [root] ∨ root ∉ l

/-- What is left after empty names are dropped are the normal forms of names. -/
theorem mem_filter_normalize {names : List String} {p : String} :
    p ∈ (names.map normalize).filter (· ≠ "") ↔ p ≠ "" ∧ ∃ name ∈ names, normalize name = p := by
  rw [List.mem_filter, List.mem_map, decide_eq_true_iff]
  exact and_comm

theorem canonical_root : Canonical [root] where
  ascending := List.pairwise_singleton _ _
  nonempty := by
    intro p hp
    obtain rfl := List.mem_singleton.mp hp
    decide
  trimmed := by
    intro p hp
    obtain rfl := List.mem_singleton.mp hp
    decide
  lower := by
    intro p hp
    obtain rfl := List.mem_singleton.mp hp
    decide
  root_alone := Or.inl rfl

/-- Whatever the names, the resolved list is canonical. -/
theorem resolve_canonical (names : List String) : Canonical (resolve names) := by
  unfold resolve
  dsimp only
  split
  -- root swallows the other names
  · exact canonical_root
  · rename_i hroot
    refine ⟨Text.sortDistinct_ascending _, ?_, ?_, ?_, Or.inr ?_⟩
    · intro p hp
      exact (mem_filter_normalize.mp (Text.mem_sortDistinct.mp hp)).1
    · intro p hp
      obtain ⟨-, name, -, rfl⟩ := mem_filter_normalize.mp (Text.mem_sortDistinct.mp hp)
      exact trim_normalize name
    · intro p hp
      obtain ⟨-, name, -, rfl⟩ := mem_filter_normalize.mp (Text.mem_sortDistinct.mp hp)
      exact lowercase_normalize name
    · intro hmem
      exact hroot (Text.mem_sortDistinct.mp hmem)

namespace Canonical

variable {l : List String}

theorem normalize (h : Canonical l) {p : String} (hp : p ∈ l) : normalize p = p := by
  rw [Policies.normalize, h.trimmed p hp, h.lower p hp, String.ofList_toList]

theorem map_normalize (h : Canonical l) : l.map Policies.normalize = l := by
  conv_rhs => rw [← List.map_id l]
  exact List.map_congr_left fun p hp => h.normalize hp

/-- Resolving leaves the canonical form as it is. -/
theorem resolve (h : Canonical l) : resolve l = l := by
  have hfilter : l.filter (· ≠ "") = l :=
    List.filter_eq_self.mpr fun p hp => decide_eq_true (h.nonempty p hp)
  rw [Policies.resolve, h.map_normalize, hfilter]
  rcases h.root_alone with rfl | hroot
  · rfl
  · show (if root ∈ l then [root] else Text.sortDistinct l) = l
    rw [if_neg hroot, Text.sortDistinct_of_ascending h.ascending]

end Canonical

/-- Resolving twice is resolving once. -/
theorem resolve_resolve (names : List String) : resolve (resolve names) = resolve names :=
  (resolve_canonical names).resolve

/-! ### The policies that names stand for -/

/-- The policies `l` are those that the names stand for: `root` alone if one of the names means it,
wherever that stands, and otherwise all names that are meant. -/
structure Resolved (names l : List String) : Prop where
  root : (∃ name ∈ names, normalize name = root) → l = [Policies.root]
  ascending : l.Pairwise (· < ·)
  members : (¬ ∃ name ∈ names, normalize name = Policies.root) →
    ∀ p, p ∈ l ↔ p ≠ "" ∧ ∃ name ∈ names, normalize name = p

theorem root_mem_iff {names : List String} :
    root ∈ (names.map normalize).filter (· ≠ "") ↔ ∃ name ∈ names, normalize name = root := by
  rw [mem_filter_normalize]
  exact and_iff_right (by decide)

theorem resolve_resolved (names : List String) : Resolved names (resolve names) where
  root h := if_pos (root_mem_iff.mpr h)
  ascending := (resolve_canonical names).ascending
  members h p := by
    have hsorted : resolve names = Text.sortDistinct ((names.map normalize).filter (· ≠ "")) :=
      if_neg fun hroot => h (root_mem_iff.mp hroot)
    rw [hsorted, Text.mem_sortDistinct, mem_filter_normalize]

/-- Names with the same normal forms, apart from the empty one, stand for the same policies. -/
theorem Resolved.unique {names names' l l' : List String} (h : Resolved names l)
    (h' : Resolved names' l')
    (hsame : ∀ p ≠ "", (∃ name ∈ names, normalize name = p) ↔ ∃ name ∈ names', normalize name = p) :
    l = l' := by
  have hroot := hsame Policies.root (by decide)
  by_cases hmeant : ∃ name ∈ names, normalize name = Policies.root
  · rw [h.root hmeant, h'.root (hroot.mp hmeant)]
  · -- ascending lists are told apart by their members alone
    refine h.ascending.eq_of_mem_iff h'.ascending fun p => ?_
    rw [h.members hmeant, h'.members (mt hroot.mpr hmeant)]
    exact and_congr_right (hsame p)

/-- The resolution of some names is the one list that they stand for. -/
theorem resolve_eq_iff {names l : List String} : resolve names = l ↔ Resolved names l := by
  constructor
  · rintro rfl
    exact resolve_resolved names
  · intro h
    exact (resolve_resolved names).unique h fun _ _ => Iff.rfl

/-- Order, spelling and repetition of the names do not count. -/
theorem resolve_congr {names names' : List String}
    (h : ∀ p ≠ "", (∃ name ∈ names, normalize name = p) ↔ ∃ name ∈ names', normalize name = p) :
    resolve names = resolve names' :=
  (resolve_resolved names).unique (resolve_resolved names') h

example : resolve ["ops", " Dev", "dev", ""] = ["dev", "ops"] := by
  decide +kernel

/-- Neither the order of the names nor repetitions among them matter. -/
theorem resolve_of_mem_iff {names names' : List String}
    (h : ∀ name, name ∈ names ↔ name ∈ names') : resolve names = resolve names' :=
  resolve_congr fun _ _ => exists_congr fun name => and_congr_left fun _ => h name

/-! ### Policies in one text -/

/-- Names without commas mean the same in a list and in the text that joins them. -/
theorem Choice.resolve_delimited {names : List String} (h : ∀ name ∈ names, ',' ∉ name.toList) :
    (Choice.delimited (",".intercalate names)).resolve = (Choice.list names).resolve := by
  rcases names with - | ⟨name, rest⟩
  -- the empty text holds one name, which is empty and dropped
  · rfl
  · have hsplit : Text.splitOn ',' (",".intercalate (name :: rest)).toList
        = (name :: rest).map String.toList :=
      Text.splitOn_intercalate h (List.cons_ne_nil name rest)
    have hnames : ((name :: rest).map String.toList).map String.ofList = name :: rest := by
      rw [List.map_map]
      exact (List.map_congr_left fun _ _ => String.ofList_toList).trans (List.map_id _)
    rw [resolve, resolve, names, names, hsplit, hnames]

end TrustStore.Policies

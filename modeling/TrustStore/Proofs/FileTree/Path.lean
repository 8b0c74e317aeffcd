import Mathlib.Data.List.Basic
import TrustStore.FileTree.Path

/-!
# Paths below a root

`down` goes from a root down by some names.  The steps of such a path are those of the root and then
the names (`steps_down`), its parent leaves out the last name (`parent_down`), and its text grows by
the names and a slash for each (`utf8ByteSize_down_le`).
-/

namespace TrustStore.Path

/-! ### Going down -/

/-- The pieces of a root to which names are added. -/
def basePieces (root : Path) : List String :=
  if root.pieces.getLast? = some "" then root.pieces.dropLast else root.pieces

/-- The path that leads from a root down by the given names. -/
def down (root : Path) (names : List String) : Path := ⟨root.absolute, root.basePieces ++ names⟩

/-- Joining names to a root goes down by them. -/
theorem below_eq_down (root : Path) (names : List String) :
    root.below ⟨false, names⟩ = root.down names := by
  unfold below down basePieces
  split <;> rfl

theorem dropLast_concat_of_getLast? {l : List String} {s : String} (h : l.getLast? = some s) :
    l.dropLast ++ [s] = l :=
  List.dropLast_append_getLast? s h

theorem prefix_basePieces (root : Path) : root.basePieces <+: root.pieces := by
  unfold basePieces
  split
  · exact List.dropLast_prefix _
  · exact List.prefix_refl _

/-- Without an empty last piece a root has the steps that it had. -/
theorem filter_basePieces (root : Path) : root.basePieces.filter (· ≠ "") = root.steps := by
  unfold basePieces steps
  split
  · rename_i h
    conv_rhs => rw [← dropLast_concat_of_getLast? h]
    simp
  · rfl

theorem steps_down (root : Path) {names : List String} (h : ∀ name ∈ names, name ≠ "") :
    (root.down names).steps = root.steps ++ names := by
  have hnames : names.filter (· ≠ "") = names :=
    List.filter_eq_self.mpr fun name hname => decide_eq_true (h name hname)
  show (root.basePieces ++ names).filter (· ≠ "") = _
  rw [List.filter_append, filter_basePieces, hnames]

/-- A path that ends with a name does not end with a slash. -/
theorem slashed_down (root : Path) (names : List String) {name : String} (h : name ≠ "") :
    (root.down (names ++ [name])).slashed = false := by
  have hlast : (root.down (names ++ [name])).pieces.getLast? = some name := by
    show (root.basePieces ++ (names ++ [name])).getLast? = _
    rw [← List.append_assoc, List.getLast?_concat]
  rw [slashed, hlast]
  simp [h]

/-- Going down may be done in two parts. -/
theorem below_down (root : Path) (names : List String) {name : String} (h : name ≠ "")
    (more : List String) :
    (root.down (names ++ [name])).below ⟨false, more⟩ = root.down (names ++ [name] ++ more) := by
  have hlast : (root.down (names ++ [name])).pieces.getLast? ≠ some "" := by
    show (root.basePieces ++ (names ++ [name])).getLast? ≠ _
    rw [← List.append_assoc, List.getLast?_concat]
    simpa using h
  rw [below, if_neg hlast, down, down, ← List.append_assoc, List.append_assoc]
  simp

/-! ### Names and ancestors -/

theorem isName_iff {piece : String} : isName piece = true ↔ piece ≠ "" ∧ piece ≠ "." := by
  simp [isName]

theorem upToName_zero (l : List String) : upToName 0 l = [] := by
  cases l <;> rfl

/-- Pieces up to a name are those before it, and the name. -/
theorem upToName_append (l : List String) {x : String} (hx : isName x = true) (rest : List String) :
    upToName ((l.filter isName).length + 1) (l ++ x :: rest) = l ++ [x] := by
  induction l with
  | nil =>
    rw [List.filter_nil, List.length_nil, List.nil_append, upToName, if_pos hx, upToName_zero]
    rfl
  | cons piece l ih =>
    rw [List.cons_append, upToName]
    rcases hpiece : isName piece with - | -
    · rw [List.filter_cons_of_neg (by simp [hpiece]), if_neg Bool.false_ne_true, ih]
      rfl
    · rw [List.filter_cons_of_pos hpiece, List.length_cons, if_pos rfl, ih]
      rfl

theorem names_cons {piece : String} (h : piece ≠ ".") (l : List String) :
    (⟨false, piece :: l⟩ : Path).names = (piece :: l).filter isName := by
  simp [names, h]

theorem ancestor_cons {piece : String} (h : piece ≠ ".") (l : List String) (n : Nat) :
    (⟨false, piece :: l⟩ : Path).ancestor n = ⟨false, upToName n (piece :: l)⟩ := by
  cases n <;> simp [ancestor, h]

/-- The names of joined pieces, the second part of which begins with a name. -/
theorem names_append (absolute : Bool) (l : List String) {x : String} (hx : isName x = true)
    (rest : List String) :
    (⟨absolute, l ++ x :: rest⟩ : Path).names
      = (⟨absolute, l⟩ : Path).names ++ x :: rest.filter isName := by
  have hdot : x ≠ "." := (isName_iff.mp hx).2
  rcases absolute with - | -
  · rcases l with - | ⟨piece, l⟩
    · simp [names, hdot, hx]
    · rcases eq_or_ne piece "." with rfl | hpiece
      · simp [names, hx]
      · rw [List.cons_append, names_cons hpiece, names_cons hpiece, ← List.cons_append,
          List.filter_append, List.filter_cons_of_pos hx]
  · simp [names, hx]

/-- The ancestor that ends with a given name. -/
theorem ancestor_append (absolute : Bool) (l : List String) {x : String} (hx : isName x = true)
    (rest : List String) :
    (⟨absolute, l ++ x :: rest⟩ : Path).ancestor ((⟨absolute, l⟩ : Path).names.length + 1)
      = ⟨absolute, l ++ [x]⟩ := by
  have hdot : x ≠ "." := (isName_iff.mp hx).2
  rcases absolute with - | -
  · rcases l with - | ⟨piece, l⟩
    · rw [List.nil_append, ancestor_cons hdot]
      exact congrArg (Path.mk false) (upToName_append [] hx rest)
    · rcases eq_or_ne piece "." with rfl | hpiece
      · show (⟨false, "." :: upToName ((l.filter isName).length + 1) (l ++ x :: rest)⟩ : Path) = _
        rw [upToName_append l hx rest]
        rfl
      · rw [List.cons_append, ancestor_cons hpiece, names_cons hpiece, ← List.cons_append]
        exact congrArg (Path.mk false) (upToName_append (piece :: l) hx rest)
  · exact congrArg (Path.mk true) (upToName_append l hx rest)

/-- Pieces up to a name come first. -/
theorem prefix_upToName (number : Nat) (l : List String) : upToName number l <+: l := by
  induction l generalizing number with
  | nil => cases number <;> exact List.nil_prefix
  | cons piece l ih =>
    rcases number with - | n
    · exact List.nil_prefix
    · rw [upToName]
      refine List.cons_prefix_cons.mpr ⟨rfl, ?_⟩
      split
      · exact ih n
      · exact ih (n + 1)

/-- An ancestor begins where the path does. -/
theorem absolute_ancestor (p : Path) (n : Nat) : (p.ancestor n).absolute = p.absolute := by
  unfold ancestor
  split
  · rename_i h _
    exact h.symm
  · rfl

/-- An ancestor takes the first pieces of a path. -/
theorem prefix_pieces_ancestor (p : Path) (n : Nat) : (p.ancestor n).pieces <+: p.pieces := by
  unfold ancestor
  split
  · rename_i rest _ h
    rw [h]
    exact List.cons_prefix_cons.mpr ⟨rfl, prefix_upToName _ rest⟩
  · exact prefix_upToName _ p.pieces

/-- The steps of an ancestor come first. -/
theorem prefix_steps_ancestor (p : Path) (n : Nat) : (p.ancestor n).steps <+: p.steps :=
  (prefix_pieces_ancestor p n).filter _

section Down

variable (root : Path) (above : List String) {name : String} (hname : isName name = true)

include hname

/-- One name more is counted. -/
theorem length_names_down :
    (root.down (above ++ [name])).names.length = (root.down above).names.length + 1 := by
  rw [down, ← List.append_assoc, names_append _ _ hname]
  simp
  rfl

/-- The last ancestor of a path is the path. -/
theorem ancestor_down :
    (root.down (above ++ [name])).ancestor (root.down (above ++ [name])).names.length
      = root.down (above ++ [name]) := by
  rw [length_names_down root above hname]
  unfold down
  rw [← List.append_assoc]
  exact ancestor_append root.absolute (root.basePieces ++ above) hname []

/-- The last name of a path that goes down by it. -/
theorem fileName?_down (hup : name ≠ "..") :
    (root.down (above ++ [name])).fileName? = some name := by
  have hdot : name ≠ "." := (isName_iff.mp hname).2
  have hlast : (root.down (above ++ [name])).names.getLast? = some name := by
    rw [down, ← List.append_assoc, names_append _ _ hname]
    simp
  rw [fileName?, hlast]
  simp [hdot, hup]

end Down

/-! A parent leaves out the last name, and with it what stays before that name. -/

/-- Pieces up to their last name, and those behind it that stay. -/
theorem upToName_length_filter (l rest : List String) :
    ∃ stays, (∀ piece ∈ stays, isName piece = false) ∧
      upToName (l.filter isName).length (l ++ rest) ++ stays = l := by
  -- the induction is on the pieces before the rest; pieces that stay are kept back until a name
  -- follows
  induction l with
  | nil =>
    refine ⟨[], fun _ h => absurd h List.not_mem_nil, ?_⟩
    rw [List.filter_nil, List.length_nil, upToName_zero]
    rfl
  | cons piece l ih =>
    obtain ⟨stays, hstays, hl⟩ := ih
    rcases hpiece : isName piece with - | -
    · rw [List.filter_cons_of_neg (by simp [hpiece]), List.cons_append]
      rcases hcount : (l.filter isName).length with - | n
      -- no name is left, so that nothing is taken
      · refine ⟨piece :: l, ?_, ?_⟩
        · rw [List.length_eq_zero_iff, List.filter_eq_nil_iff] at hcount
          intro other hother
          rcases List.mem_cons.mp hother with rfl | hother
          · exact hpiece
          · exact eq_false_of_ne_true (hcount other hother)
        · rw [upToName_zero]
          rfl
      · refine ⟨stays, hstays, ?_⟩
        rw [hcount] at hl
        rw [upToName, hpiece, if_neg Bool.false_ne_true, List.cons_append, hl]
    · refine ⟨stays, hstays, ?_⟩
      rw [List.filter_cons_of_pos hpiece, List.length_cons, List.cons_append, upToName, hpiece,
        if_pos rfl, List.cons_append, hl]

/-- The ancestor that takes all names of a part takes its pieces, but for those at the end that
stay. -/
theorem ancestor_length_names (absolute : Bool) (l rest : List String) :
    ∃ stays, (∀ piece ∈ stays, isName piece = false) ∧
      ((⟨absolute, l ++ rest⟩ : Path).ancestor (⟨absolute, l⟩ : Path).names.length).pieces ++ stays
        = l := by
  -- only the first piece of a relative path counts as a name though it stays
  rcases absolute with - | -
  · rcases l with - | ⟨piece, l⟩
    · refine ⟨[], fun _ h => absurd h List.not_mem_nil, ?_⟩
      show upToName 0 rest ++ [] = []
      rw [upToName_zero]
      rfl
    · rcases eq_or_ne piece "." with rfl | hpiece
      · obtain ⟨stays, hstays, hl⟩ := upToName_length_filter l rest
        exact ⟨stays, hstays, congrArg (List.cons ".") hl⟩
      · rw [List.cons_append, ancestor_cons hpiece, names_cons hpiece]
        exact upToName_length_filter (piece :: l) rest
  · exact upToName_length_filter l rest

/-- The parent of a path down from a root takes the steps of the directory, but for those that
stay at the end. -/
theorem steps_parent_down (root : Path) {above : List String} {name : String}
    (habove : ∀ step ∈ above, step ≠ "") (hname : isName name = true) :
    ∃ stays, (∀ step ∈ stays, step = ".") ∧
      (root.down (above ++ [name])).parent.steps ++ stays = root.steps ++ above := by
  obtain ⟨stays, hstays, hl⟩ :=
    ancestor_length_names root.absolute (root.basePieces ++ above) [name]
  have hparent : (root.down (above ++ [name])).parent
      = (⟨root.absolute, root.basePieces ++ above ++ [name]⟩ : Path).ancestor
        (root.down above).names.length := by
    rw [parent, length_names_down root above hname, down, ← List.append_assoc]
    rfl
  -- what the ancestor leaves out is no name, and what is no name takes no step or stays
  refine ⟨stays.filter (· ≠ ""), fun step hstep => ?_, ?_⟩
  · obtain ⟨hmem, hne⟩ := List.mem_filter.mp hstep
    by_contra hstay
    have hstep' := hstays step hmem
    rw [isName_iff.mpr ⟨of_decide_eq_true hne, hstay⟩] at hstep'
    cases hstep'
  · rw [← steps_down root habove, hparent, steps, ← List.filter_append]
    exact congrArg (List.filter (· ≠ "")) hl

/-- The parent of an entry is the directory that the path goes down to. -/
theorem parent_down (root : Path) (above : List String) {directory name : String}
    (hdirectory : isName directory = true) (hname : isName name = true) :
    (root.down (above ++ [directory] ++ [name])).parent = root.down (above ++ [directory]) := by
  rw [parent, length_names_down root _ hname, length_names_down root above hdirectory]
  unfold down
  rw [← List.append_assoc, ← List.append_assoc, List.append_assoc _ [directory] [name]]
  exact ancestor_append root.absolute (root.basePieces ++ above) hdirectory [name]

/-! ### Texts -/

/-- The length of the pieces, with a slash for each. -/
def slashedSize : List String → Nat
  | [] => 0
  | s :: l => 1 + s.utf8ByteSize + slashedSize l

theorem slashedSize_cons (s : String) (l : List String) :
    slashedSize (s :: l) = 1 + s.utf8ByteSize + slashedSize l := rfl

/-- Joined with slashes, the pieces have one slash less than they are. -/
theorem utf8ByteSize_intercalate (l : List String) :
    ("/".intercalate l).utf8ByteSize = slashedSize l - 1 := by
  induction l with
  | nil => rw [String.intercalate_nil]; rfl
  | cons s l ih =>
    rcases l with - | ⟨s', l⟩
    · rw [String.intercalate_singleton, slashedSize_cons]
      show _ = 1 + s.utf8ByteSize + 0 - 1
      omega
    · rw [String.intercalate_cons_cons, String.utf8ByteSize_append, String.utf8ByteSize_append, ih,
        slashedSize_cons s, slashedSize_cons s', show "/".utf8ByteSize = 1 from rfl]
      omega

theorem slashedSize_append (l l' : List String) :
    slashedSize (l ++ l') = slashedSize l + slashedSize l' := by
  induction l with
  | nil => exact (Nat.zero_add _).symm
  | cons s l ih =>
    rw [List.cons_append, slashedSize_cons, slashedSize_cons, ih]
    exact (Nat.add_assoc _ _ _).symm

/-- Without an empty last piece a root is not longer. -/
theorem slashedSize_basePieces_le (root : Path) :
    slashedSize root.basePieces ≤ slashedSize root.pieces := by
  unfold basePieces
  split
  · rename_i h
    conv_rhs => rw [← dropLast_concat_of_getLast? h]
    rw [slashedSize_append]
    exact Nat.le_add_right _ _
  · exact Nat.le_refl _

/-- The size of the text of a path. -/
theorem utf8ByteSize_toText (p : Path) :
    p.toText.utf8ByteSize = (if p.absolute then 1 else 0) + (slashedSize p.pieces - 1) := by
  rw [toText, String.utf8ByteSize_append, utf8ByteSize_intercalate]
  split <;> rfl

/-- A path with fewer pieces is not longer. -/
theorem utf8ByteSize_toText_append_le (absolute : Bool) (l rest : List String) :
    (⟨absolute, l⟩ : Path).toText.utf8ByteSize
      ≤ (⟨absolute, l ++ rest⟩ : Path).toText.utf8ByteSize := by
  rw [utf8ByteSize_toText, utf8ByteSize_toText, slashedSize_append]
  dsimp only
  omega

/-- A path down is at most longer by the names, each with a slash. -/
theorem utf8ByteSize_down_le (root : Path) (names : List String) :
    (root.down names).toText.utf8ByteSize ≤ root.toText.utf8ByteSize + slashedSize names := by
  have hbase := slashedSize_basePieces_le root
  rw [utf8ByteSize_toText, utf8ByteSize_toText, down, slashedSize_append]
  dsimp only
  omega

end TrustStore.Path

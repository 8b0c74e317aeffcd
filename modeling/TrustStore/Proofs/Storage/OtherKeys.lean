import TrustStore.Proofs.Storage.Puts
import TrustStore.Storage.KeyTable

/-!
# Other keys

In a table a key is put and deleted by itself.  In a directory the names of a key count, which other
keys may have as well or may go through, and so may keys with the name of the staging file.  What
such a key shows afterwards is said by `ShowsAfterPut` and `ShowsAfterDelete`; every other key shows
what it has shown, but for names that are too long to be looked up in a directory that was missing.
Trees are closed, as they are after any queries (`runAll_privatelyClosed`).
-/

namespace TrustStore.Storage.Directory

open FileTree

/-! ### Reading a key -/

/-- What a key shows when it is read. -/
def reading (t : FileTree) (root : Path) (key : String) : Except Fault (Option Bytes) :=
  (((ofDirectory calls root).get key).run t).1

/-- What is answered for a node that has been found, or for a search that has failed. -/
def answer (isOpen : Bool) (found : Except FileError Node) : Except Fault (Option Bytes) :=
  orMissing none (found >>= fun node => match node with
    | .directory => .error .isDirectory
    | .file _ content => if isOpen then .error .notDirectory else .ok (some content))

/-- What a key shows depends on the node that its names lead to, and on whether it ends open. -/
theorem reading_eq {t : FileTree} (hclosed : t.Closed) (root : Path) {key : String}
    (hkey : IsAccepted key) : reading t root key = answer (endsOpen key) (nodeOf t root key) := by
  rw [reading, get_run (pathOf_of_isAccepted hkey root), readFile_eq hclosed root hkey, answer]
  rcases nodeOf t root key with e | (- | ⟨mode, content⟩)
  · rfl
  · rfl
  · show orMissing none (Except.map some (if endsOpen key then _ else _)) = _
    cases endsOpen key <;> rfl

section NodeOf

variable {t : FileTree} {root : Path} {key : String}

/-- A path that is too long, or holds a zero byte, leads nowhere in any tree. -/
theorem nodeOf_of_checkPath (hpath : checkPath (root.down (stepsOf key)) ≠ .ok ())
    (t' : FileTree) : nodeOf t' root key = nodeOf t root key := by
  rw [nodeOf, nodeOf]
  rcases hcheck : checkPath (root.down (stepsOf key)) with e | ⟨⟩
  · rfl
  · exact absurd hcheck hpath

variable (hpath : checkPath (root.down (stepsOf key)) = .ok ())

include hpath

theorem nodeOf_of_enter {base : Place} (hbase : t.enter (t.start root) root.steps = .ok base) :
    nodeOf t root key = t.reach base (partsOf key) := by
  rw [nodeOf, hpath, hbase]
  rfl

/-- Where the root is missing, so is every key. -/
theorem nodeOf_of_missing (hroot : t.enter (t.start root) root.steps = .error .missing) :
    nodeOf t root key = .error .missing := by
  rw [nodeOf, hpath, hroot]
  rfl

end NodeOf

/-! ### After a put -/

/-- What a key shows before and after a put of a key whose names are `above` and then `name`. -/
structure ShowsAfterPut (t : FileTree) (root : Path) (above : List String) (name : String)
    (value : Bytes) (key : String) (before after : Except Fault (Option Bytes)) : Prop where
  /-- There is no room for the path of the key. -/
  unfit (hpath : checkPath (root.down (stepsOf key)) ≠ .ok ()) : after = before
  /-- The key has the same names. -/
  same (hpath : checkPath (root.down (stepsOf key)) = .ok ())
    (hparts : partsOf key = above ++ [name]) :
    after = if endsOpen key then .error (.file .notDirectory) else .ok (some value)
  /-- The names of the key lead to a directory above the record. -/
  onWay (hpath : checkPath (root.down (stepsOf key)) = .ok ()) (hparts : partsOf key <+: above) :
    after = .error (.file .isDirectory)
  /-- The names of the key go on behind the record. -/
  behind (hpath : checkPath (root.down (stepsOf key)) = .ok ()) {rest : List String}
    (hrest : rest ≠ []) (hparts : partsOf key = above ++ name :: rest) :
    after = .error (.file .notDirectory)
  /-- The names of the key lead to the staging file, or go on behind it. -/
  staged (hpath : checkPath (root.down (stepsOf key)) = .ok ())
    (hparts : above ++ [stagingName name] <+: partsOf key) : after = .ok none
  /-- The names of the key lead elsewhere. -/
  apart (hway : ¬ partsOf key <+: above) (hrecord : ¬ above ++ [name] <+: partsOf key)
    (hstaged : ¬ above ++ [stagingName name] <+: partsOf key) :
    after = before ∨ (before = .ok none ∧ (IsRoot t root →
      after = .error (.file .nameTooLong) ∧ ∃ step ∈ partsOf key, 255 < step.utf8ByteSize))

namespace Filed

variable {t t' : FileTree} {root : Path} {above : List String} {name : String} {value : Bytes}
  {base : Place} (h : Filed t t' root above name value base)

include h

theorem start : t'.start root = t.start root := by
  rw [FileTree.start, FileTree.start, h.workingDirectory]

theorem name_short : name.utf8ByteSize ≤ 255 := by
  have hshort := h.short (stagingName name) (by simp)
  rw [utf8ByteSize_stagingName] at hshort
  omega

/-- Names that go on from the directory of the record are looked up there. -/
theorem reach_above {next : String} (hnext : next.utf8ByteSize ≤ 255) (rest : List String) :
    t'.reach base (above ++ next :: rest) = t'.reach (base ++ (above ++ [next])) rest := by
  rw [reach_append (fun step hstep => h.short step (List.mem_append_left _ hstep))
    (fun l hl _ => h.directories l hl), reach_directory_cons (h.directories above List.prefix_rfl),
    checkName_eq_ok hnext, List.append_assoc]
  rfl

/-- A directory is where it was, or it has been made where nothing was. -/
theorem directory_before {q : Place} (hq : t'.at? q = some .directory) :
    t.at? q = some .directory ∨ t.at? q = none := by
  by_cases hrecord : q = base ++ (above ++ [name])
  · rw [hrecord, h.record] at hq
    cases hq
  by_cases hstaged : q = base ++ (above ++ [stagingName name])
  · rw [hstaged, h.unstaged] at hq
    cases hq
  rcases h.others q hrecord hstaged with hsame | ⟨-, hnone, -⟩
  · exact Or.inl (hsame ▸ hq)
  · exact Or.inr hnone

section Apart

variable {l : List String} (hway : ¬ l <+: above) (hrecord : ¬ above ++ [name] <+: l)
  (hstaged : ¬ above ++ [stagingName name] <+: l)

include hway hrecord hstaged

/-- On the way of names that lead elsewhere there are at most new directories. -/
theorem grown (hlast : base ++ l ∈ wayAbove t root above → t.at? (base ++ l) = none →
    l <+: above) : Grown base l t t' := by
  have hothers (l' : List String) (hl' : l' <+: l) := h.others (base ++ l')
    (fun heq => hrecord (List.append_cancel_left heq ▸ hl'))
    (fun heq => hstaged (List.append_cancel_left heq ▸ hl'))
  refine ⟨fun l' hl' => (hothers l' hl').imp_right fun hmade => hmade.2, ?_⟩
  rcases hothers l List.prefix_rfl with hsame | ⟨hmem, hnone, -⟩
  · exact hsame
  · exact absurd (hlast hmem hnone) hway

variable (hdown : GoDown above)

include hdown

/-- The root has been there. -/
theorem grown_of_enter (hclosed : t.Closed)
    (hbase : t.enter (t.start root) root.steps = .ok base) : Grown base l t t' := by
  refine h.grown hway hrecord hstaged fun hmem hnone => ?_
  obtain ⟨l', hl', heq⟩ := below_of_missing hclosed hbase hdown hmem hnone
  exact List.append_cancel_left heq ▸ hl'

/-- The root has been made with the record. -/
theorem grown_of_goesDown (hgoes : GoesDown root.steps) : Grown base l t t' := by
  have hentered := h.entered
  rw [h.start] at hentered
  have hwalked {l' : List String} (hl' : l' <+: root.steps) :
      walked (t.start root) l' = placeBelow (t.start root) l' :=
    walked_eq_placeBelow (fun step hstep => (hgoes step (hl'.subset hstep)).1) (t.start root)
  refine h.grown hway hrecord hstaged fun hmem _ => ?_
  rcases mem_wayTo_append hmem with ⟨l', hl', heq⟩ | ⟨l', hl', heq⟩
  -- what is above the root is not below it
  · have habove : base ++ l <+: base := by
      rw [← heq, enter_eq_walked hentered, hwalked hl', hwalked List.prefix_rfl]
      exact (List.prefix_append_right_inj _).mpr (hl'.filter _)
    have hlength := habove.length_le
    rw [List.length_append] at hlength
    rw [List.eq_nil_of_length_eq_zero (by omega : l.length = 0)]
    exact List.nil_prefix
  · rw [← enter_eq_walked hentered, walked_children (hdown.of_subset hl'.subset).children] at heq
    exact List.append_cancel_left heq ▸ hl'

end Apart

variable (hclosed : t.Closed) (hdown : GoDown above)

include hclosed hdown

/-- Names that lead elsewhere end as before.  If they have found nothing, one of them may be too
long now, or the root leads elsewhere. -/
theorem nodeOf_apart {key : String} (hpath : checkPath (root.down (stepsOf key)) = .ok ())
    (hway : ¬ partsOf key <+: above) (hrecord : ¬ above ++ [name] <+: partsOf key)
    (hstaged : ¬ above ++ [stagingName name] <+: partsOf key) :
    nodeOf t' root key = nodeOf t root key ∨ (nodeOf t root key = .error .missing ∧
      (IsRoot t root → nodeOf t' root key = .error .nameTooLong)) := by
  have hentered := h.entered
  rw [nodeOf_of_enter hpath hentered]
  rw [h.start] at hentered
  rcases enter_eq_ok_or_missing (fun q hq => h.directory_before hq) hentered with hbase | hmissing
  -- the root has been there all along
  · rw [nodeOf_of_enter hpath hbase]
    exact ((h.grown_of_enter hway hrecord hstaged hdown hclosed hbase).reach hclosed).imp_right
      fun hlong => ⟨hlong.1, fun _ => hlong.2⟩
  -- the put has made the root, in which there was nothing before, if it is one
  by_cases hroot : IsRoot t root
  · have hgoes : GoesDown root.steps := by
      rcases hroot with ⟨place, hplace, -⟩ | hgoes
      · rw [hmissing] at hplace
        cases hplace
      · exact hgoes
    have hnone := nothing_below_of_missing hclosed (hclosed.start root) hgoes hmissing []
    rw [List.append_nil, ← walked_eq_placeBelow fun step hstep => (hgoes step hstep).1,
      ← enter_eq_walked hentered] at hnone
    rw [nodeOf_of_missing hpath hmissing]
    exact ((h.grown_of_goesDown hway hrecord hstaged hdown hgoes).reach_absent hclosed
      hnone).imp_right fun hlong => ⟨rfl, fun _ => hlong⟩
  · exact Or.inr ⟨nodeOf_of_missing hpath hmissing, fun h => absurd h hroot⟩

/-- After a put another key shows what `ShowsAfterPut` says of the way its names lie to those
put. -/
theorem showsAfterPut (hclosed' : t'.Closed) {key : String} (hkey : IsAccepted key) :
    ShowsAfterPut t root above name value key (reading t root key) (reading t' root key) := by
  rw [reading_eq hclosed root hkey, reading_eq hclosed' root hkey]
  -- The put has left the root and the directory of the record in place, so in all cases but the
  -- last the names of the key can be followed in the tree after.
  have hentered := h.entered
  constructor
  case unfit =>
    intro hpath
    rw [nodeOf_of_checkPath hpath]
  case same =>
    intro hpath hparts
    -- the names are those of the record
    rw [nodeOf_of_enter hpath hentered, hparts, h.reach_above h.name_short, reach, h.record]
    cases endsOpen key <;> rfl
  case onWay =>
    intro hpath hparts
    -- the names lead to a directory above the record
    have hreach : t'.reach base (partsOf key) = .ok .directory :=
      reach_eq_ok_iff.mpr
        ⟨fun step hstep => h.short step (List.mem_append_left _ (hparts.subset hstep)),
          fun l hl _ => h.directories l (hl.trans hparts), h.directories _ hparts⟩
    rw [nodeOf_of_enter hpath hentered, hreach]
    rfl
  case behind =>
    intro hpath rest hrest hparts
    -- the record is a file, and nothing is behind a file
    rw [nodeOf_of_enter hpath hentered, hparts, h.reach_above h.name_short,
      reach_file h.record hrest]
    rfl
  case staged =>
    rintro hpath ⟨rest, hparts⟩
    -- the staging file has been moved away
    rw [nodeOf_of_enter hpath hentered, ← hparts, List.append_assoc, List.singleton_append,
      h.reach_above (h.short _ (by simp)), reach_none h.unstaged]
    rfl
  case apart =>
    intro hway hrecord hstaged
    -- neither the record nor the staging file is on the way of the names
    by_cases hpath : checkPath (root.down (stepsOf key)) = .ok ()
    · rcases h.nodeOf_apart hclosed hdown hpath hway hrecord hstaged with hsame | ⟨hbefore, hafter⟩
      · exact Or.inl (by rw [hsame])
      · rw [hbefore]
        refine Or.inr ⟨rfl, fun hroot => ?_⟩
        have hlong := hafter hroot
        rw [hlong]
        rw [nodeOf_of_enter hpath hentered] at hlong
        exact ⟨rfl, exists_long_of_reach hlong⟩
    · exact Or.inl (by rw [nodeOf_of_checkPath hpath])

end Filed

/-! ### After a delete -/

/-- What a key shows before and after a delete of another key. -/
structure ShowsAfterDelete (root : Path) (deleted key : String)
    (before after : Except Fault (Option Bytes)) : Prop where
  /-- The names of the key are those of the deleted one, or go on behind them. -/
  gone (hpath : checkPath (root.down (stepsOf key)) = .ok ())
    (hparts : partsOf deleted <+: partsOf key) : after = .ok none
  /-- There is no room for the path of the key, or its names lead elsewhere. -/
  apart (h : checkPath (root.down (stepsOf key)) ≠ .ok () ∨ ¬ partsOf deleted <+: partsOf key) :
    after = before

/-- How a delete succeeds, and the tree that it leaves. -/
inductive Deleted (t : FileTree) (root : Path) (key : String) : FileTree → Prop where
  | absent (hnode : nodeOf t root key = .error .missing) : Deleted t root key t
  | removed {base : Place} (hbase : t.enter (t.start root) root.steps = .ok base) {mode : Nat}
    {content : Bytes} (hnode : t.reach base (partsOf key) = .ok (.file mode content)) :
    Deleted t root key (t.erase (base ++ partsOf key))

section Delete

variable {t t' : FileTree} {root : Path} {deleted : String}

/-- A delete that succeeds has removed the file of its key, if there was one. -/
theorem deleted_of_delete (hclosed : t.Closed) (hdeleted : IsAccepted deleted)
    (h : ((ofDirectory calls root).delete deleted).run t = (.ok (), t')) :
    Deleted t root deleted t' := by
  rw [delete_run (pathOf_of_isAccepted hdeleted root), removeFile_eq hclosed root hdeleted] at h
  rcases hnode : nodeOf t root deleted with e | (- | ⟨mode, content⟩)
  · rw [hnode] at h
    cases e <;> cases h
    exact .absent hnode
  · rw [hnode] at h
    cases h
  · rw [hnode] at h
    -- a key that goes on behind the file is not deleted
    rcases hopen : endsOpen deleted with - | -
    · rw [hopen] at h
      cases h
      obtain ⟨⟨⟩, -, hreached⟩ := bind_eq_ok.mp hnode
      obtain ⟨base, hbase, hreach⟩ := bind_eq_ok.mp hreached
      rw [placeIn, walked_append, ← enter_eq_walked hbase, walked_children hdeleted.goDown.children]
      exact .removed hbase hreach
    · rw [hopen] at h
      cases h

/-- Where a key has no file, keys that go on from its names have none either. -/
theorem nodeOf_of_absent {key : String} (habsent : nodeOf t root deleted = .error .missing)
    (hpath : checkPath (root.down (stepsOf key)) = .ok ())
    (hparts : partsOf deleted <+: partsOf key) : nodeOf t root key = .error .missing := by
  obtain ⟨rest, hparts⟩ := hparts
  rcases bind_eq_error.mp habsent with hcheck | ⟨⟨⟩, -, hreached⟩
  -- a path that is refused is not missing
  · rw [checkPath] at hcheck
    split at hcheck
    · cases hcheck
    · split at hcheck <;> cases hcheck
  · rcases bind_eq_error.mp hreached with hroot | ⟨base, hbase, hreach⟩
    · exact nodeOf_of_missing hpath hroot
    · rw [nodeOf_of_enter hpath hbase, ← hparts]
      exact reach_append_of_missing hreach rest

namespace Deleted

variable (h : Deleted t root deleted t')

include h

/-- A delete keeps a tree closed. -/
theorem closed (hclosed : t.Closed) : t'.Closed := by
  cases h with
  | absent _ => exact hclosed
  | removed _ hnode => exact hclosed.erase (ne_directory_of_file (reach_eq_ok_iff.mp hnode).2.2)

/-- Names that lead to what has been deleted, or go on behind it, find nothing. -/
theorem nodeOf_gone {key : String} (hpath : checkPath (root.down (stepsOf key)) = .ok ())
    (hparts : partsOf deleted <+: partsOf key) : nodeOf t' root key = .error .missing := by
  cases h with
  | absent hnode => exact nodeOf_of_absent hnode hpath hparts
  | @removed base hbase mode content hnode =>
    obtain ⟨hshort, hdirs, hfile⟩ := reach_eq_ok_iff.mp hnode
    have hdir := ne_directory_of_file hfile
    have hkept (q : Place) (hq : t.at? q = some .directory) := directory_erase hdir hq
    obtain ⟨rest, hparts⟩ := hparts
    rw [nodeOf_of_enter hpath (enter_eq_ok_of_directories hkept hbase), ← hparts,
      reach_append hshort fun l hl hne => hkept _ (hdirs l hl hne)]
    exact reach_none ((at?_erase t (ne_root hdir) _).trans (if_pos rfl)) rest

/-- Names that lead elsewhere end as before. -/
theorem nodeOf_apart {key : String} (hpath : checkPath (root.down (stepsOf key)) = .ok ())
    (hparts : ¬ partsOf deleted <+: partsOf key) : nodeOf t' root key = nodeOf t root key := by
  cases h with
  | absent _ => rfl
  | @removed base hbase mode content hnode =>
    have hdir := ne_directory_of_file (reach_eq_ok_iff.mp hnode).2.2
    have hkept (q : Place) (hq : t.at? q = some .directory) := directory_erase hdir hq
    rw [nodeOf_of_enter hpath (enter_eq_ok_of_directories hkept hbase), nodeOf_of_enter hpath hbase]
    refine reach_congr fun l hl => ?_
    have hne : base ++ l ≠ base ++ partsOf deleted := by
      intro heq
      rw [List.append_cancel_left heq] at hl
      exact hparts hl
    rw [at?_erase t (ne_root hdir), if_neg hne]

/-- After a delete another key shows what `ShowsAfterDelete` says of it. -/
theorem showsAfterDelete (hclosed : t.Closed) {key : String} (hkey : IsAccepted key) :
    ShowsAfterDelete root deleted key (reading t root key) (reading t' root key) := by
  rw [reading_eq hclosed root hkey, reading_eq (h.closed hclosed) root hkey]
  constructor
  case gone =>
    intro hpath hparts
    rw [h.nodeOf_gone hpath hparts]
    rfl
  case apart =>
    intro hapart
    by_cases hpath : checkPath (root.down (stepsOf key)) = .ok ()
    · rw [h.nodeOf_apart hpath (hapart.resolve_left (not_not.mpr hpath))]
    · rw [nodeOf_of_checkPath hpath]

end Deleted

end Delete

/-! ### Tables and directories -/

/-- In a table no key is changed by another one.  In a directory another key is changed only if its
names are those of the record or of its staging file, or one of them leads to the other, or if they
are looked up in a directory that has been made. -/
theorem other_keys_change_by_their_names {key other : String} (hkey : IsAccepted key)
    (hother : IsAccepted other) (hne : key ≠ other) :
    (∀ (table : KeyTable) (value : Bytes),
      ((KeyTable.storage.get other).run ((KeyTable.storage.put key value).run table).2).1
          = ((KeyTable.storage.get other).run table).1 ∧
        ((KeyTable.storage.get other).run ((KeyTable.storage.delete key).run table).2).1
          = ((KeyTable.storage.get other).run table).1) ∧
    ∀ (t : FileTree) (root : Path), t.Closed →
      (∀ value t', ((ofDirectory calls root).put key value).run t = (.ok (), t') →
        ∃ above name, partsOf key = above ++ [name] ∧ ShowsAfterPut t root above name value other
          (reading t root other) (reading t' root other)) ∧
      ∀ t', ((ofDirectory calls root).delete key).run t = (.ok (), t') →
        ShowsAfterDelete root key other (reading t root other) (reading t' root other) := by
  refine ⟨fun table value => ?_,
    fun t root hclosed => ⟨fun value t' hput => ?_, fun t' hdelete => ?_⟩⟩
  -- in a table each key has a record of its own
  · have hcompare : compare key other ≠ .eq := mt Std.LawfulEqCmp.eq_of_compare hne
    constructor
    · show (Except.ok (table.insert key value)[other]? : Except Fault _) = .ok table[other]?
      rw [Std.ExtTreeMap.getElem?_insert, if_neg hcompare]
    · show (Except.ok (table.erase key)[other]? : Except Fault _) = .ok table[other]?
      rw [Std.ExtTreeMap.getElem?_erase, if_neg hcompare]
  -- in a directory the names decide
  · obtain ⟨above, name, hparts⟩ := hkey.exists_partsOf_eq_concat
    obtain ⟨base, hfiled⟩ := exists_filed hclosed hkey hparts hput
    have hdown := hkey.goDown_concat hparts
    have hclosed' := closed_put hclosed root key value
    rw [hput] at hclosed'
    exact ⟨above, name, hparts, hfiled.showsAfterPut hclosed hdown.above hclosed' hother⟩
  · exact (deleted_of_delete hclosed hkey hdelete).showsAfterDelete hclosed hother

/-- A key has been put into an empty directory. -/
def storedTree : FileTree :=
  (((ofDirectory calls (.ofText "/srv")).put "a/b" [120]).run (FileTree.ofDirectory ["srv"])).2

/-- A key with one more slash shows the record, and deletes it. -/
theorem repeated_slash_leads_to_record :
    (∃ above name, partsOf "a/b" = above ++ [name] ∧
      ShowsAfterPut (FileTree.ofDirectory ["srv"]) (.ofText "/srv") above name [120] "a//b"
        (.ok none) (.ok (some [120]))) ∧
    ShowsAfterDelete (.ofText "/srv") "a//b" "a/b" (.ok (some [120])) (.ok none) := by
  have hclosed := closed_ofDirectory ["srv"]
  constructor
  -- the put of `a/b` is shown by `a//b`
  · have hput : (((ofDirectory calls (.ofText "/srv")).put "a/b" [120]).run
        (FileTree.ofDirectory ["srv"])).1 = .ok () := by
      decide +kernel
    have hbefore : reading (FileTree.ofDirectory ["srv"]) (.ofText "/srv") "a//b" = .ok none := by
      decide +kernel
    have hafter : reading storedTree (.ofText "/srv") "a//b" = .ok (some [120]) := by
      decide +kernel
    rw [← hbefore, ← hafter]
    exact ((other_keys_change_by_their_names (by decide +kernel) (by decide +kernel)
      (by decide)).2 _ _ hclosed).1 [120] storedTree (Prod.ext hput rfl)
  -- the delete of `a//b` removes the record that `a/b` has shown
  · have hdelete : (((ofDirectory calls (.ofText "/srv")).delete "a//b").run storedTree).1
        = .ok () := by
      decide +kernel
    have hbefore : reading storedTree (.ofText "/srv") "a/b" = .ok (some [120]) := by
      decide +kernel
    have hafter : reading (((ofDirectory calls (.ofText "/srv")).delete "a//b").run storedTree).2
        (.ofText "/srv") "a/b" = .ok none := by
      decide +kernel
    rw [← hbefore, ← hafter]
    exact ((other_keys_change_by_their_names (by decide +kernel) (by decide +kernel)
      (by decide)).2 _ _ (closed_put hclosed (.ofText "/srv") "a/b" [120])).2 _
      (Prod.ext hdelete rfl)

/-- Two keys may have one file. -/
theorem delete_may_change_other_key : ¬ ∀ (t : FileTree) (root : Path) (key other : String),
    t.Closed → IsAccepted key → IsAccepted other → key ≠ other → ∀ t',
      ((ofDirectory calls root).delete key).run t = (.ok (), t') →
        reading t' root other = reading t root other := by
  intro h
  have hdelete : (((ofDirectory calls (.ofText "/srv")).delete "a//b").run storedTree).1
      = .ok () := by
    decide +kernel
  have hsame := h storedTree (.ofText "/srv") "a//b" "a/b"
    (closed_put (closed_ofDirectory ["srv"]) _ _ _) (by decide +kernel) (by decide +kernel)
    (by decide) _ (Prod.ext hdelete rfl)
  exact absurd hsame (by decide +kernel)

end TrustStore.Storage.Directory

import TrustStore.Proofs.Entry.Restatement
import TrustStore.Proofs.Registry.Interchange
import TrustStore.Proofs.Registry.Refinement

/-!
# Lengths of names in a directory

The name of a file has at most 255 bytes, and the staging file of a record has five bytes more than
its entry.  So a directory stores the entries whose names have 250 bytes, and refuses those with
longer names although the checks accept them (`stored_iff_short`).  `Holds` is the relation between
a map of entries and a tree that every run keeps, with names of any length (`exists_holds_run`): a
write that fails for the length of its name makes the directory of the entries and no more.
-/

namespace TrustStore.Registry

open FileTree Storage.Directory

/-- A step over the directory below a root. -/
def Step.performIn (root : Path) (step : Step) (t : FileTree) : Outcome × FileTree :=
  step.perform (Storage.ofDirectory FileTree.calls root) t

/-- A step in a directory performs the access of its call there. -/
theorem performIn_eq (root : Path) (step : Step) (t : FileTree) :
    step.performIn root t = (step.call.access step.ceilings).onTree root t :=
  perform_ofDirectory root step t

namespace Copies

variable {before t t' : FileTree} {root : Path} {place : Place} {table : KeyTable}
  {entries : String → Option Entry}

/-! ### Answers of a directory -/

/-- A name that is accepted is answered with its entry in the map. -/
theorem onTree_read (hroot : EmptyRoot before root place) (hm : Mirrors entries table)
    (h : Copies before place table t) {name : String}
    (hshort : (Entry.normalizeName name).utf8ByteSize ≤ 255) (answer : Option Entry → Answer) :
    (Access.named name fun n => .read n answer).onTree root t
      = (underName name fun n => answer (entries n), t) := by
  unfold Access.named underName
  rcases hname : Entry.checkedName name with rule | n
  · rfl
  · obtain ⟨rfl, hnormal⟩ := Entry.checkedName_eq_ok_iff.mp hname
    show ((recordIn t root _ >>= Access.entryOf?).map _, t) = _
    rw [h.recordIn_eq hroot hnormal.valid hshort]
    show ((Access.entryOf? table[keyOf _]?).map _, t) = _
    rw [hm.entryOf?_get]
    rfl

/-- A name of up to 255 bytes is read as the entries have it. -/
theorem perform_read (hroot : EmptyRoot before root place) (hm : Mirrors entries table)
    (h : Copies before place table t) (c : Lease.Ceilings) {name : String}
    (hshort : (Entry.normalizeName name).utf8ByteSize ≤ 255) :
    Step.performIn root ⟨c, .read name⟩ t = (underName name fun n => .found (entries n), t) := by
  rw [performIn_eq]
  exact h.onTree_read hroot hm hshort .found

/-- The list is that of the table. -/
theorem perform_list (hroot : EmptyRoot before root place) (hm : Mirrors entries table)
    (h : Copies before place table t) (c : Lease.Ceilings) :
    Step.performIn root ⟨c, .list⟩ t
      = (.ok (.names (Storage.childrenOf directory table.keys)), t) := by
  rw [performIn_eq]
  show ((namesIn t root).map _, t) = _
  rw [h.namesIn_eq hroot hm]
  rfl

/-! ### Changes for names of any length -/

/-- Making the directory of the entries changes nothing of them. -/
theorem make (h : Copies before place table t)
    (hcwd : t'.workingDirectory = t.workingDirectory)
    (hat : ∀ q, t'.at? q = if q = place ++ ["cert"] then some .directory else t.at? q) :
    Copies before place table t' where
  workingDirectory := hcwd.trans h.workingDirectory
  made := by
    left
    rw [hat, if_pos rfl]
  files name := by
    rw [hat, if_neg (by simp)]
    exact h.files name
  -- the directory of the entries is the only new place
  nothing rest hne hcert hentry := by
    rw [hat, if_neg fun heq => hcert (List.append_cancel_left heq)]
    exact h.nothing rest hne hcert hentry
  outside q hq := by
    rw [hat, if_neg (hq ["cert"] (by simp))]
    exact h.outside q hq

/-- A write fails for the length of the name of its staging file. -/
theorem saved_long (hroot : EmptyRoot before root place) (h : Copies before place table t)
    {name : String} (hname : Entry.isValidName name = true) (hlong : 250 < name.utf8ByteSize)
    (value : Bytes) :
    ∃ t', saved t (entryOf root name) (entryOf root (stagingName name)) value
        = (.error (.file .nameTooLong), t') ∧ Copies before place table t' ∧
      opened t' root = .ok (place ++ ["cert"]) := by
  obtain ⟨t', hsaved, hcwd, hat⟩ := Storage.Directory.saved_long hroot.fits (h.enter hroot)
    (h.made.symm.imp_left And.left) hname hlong value
  have hcopies := h.make hcwd hat
  refine ⟨t', hsaved, hcopies, ?_⟩
  rw [opened_of_enter (hcopies.enter hroot), hat, if_pos rfl]

/-- What a deletion removes is the file of the name. -/
theorem removed (hroot : EmptyRoot before root place) (h : Copies before place table t)
    {name : String} (hname : Entry.isValidName name = true)
    (hremoved : t.removeFile (entryOf root name) = .ok t') :
    Copies before place (table.erase (keyOf name)) t' := by
  obtain ⟨directory, last, happroach, -, -, rfl⟩ := removeFile_eq_ok hremoved
  obtain ⟨hopened, rfl⟩ := approach_entryOf_eq_ok (isName_of_isValidName hname) happroach
  obtain rfl := h.opened_eq hroot hopened
  exact h.erase rfl fun q => at?_erase t (by simp) q

end Copies

/-! ### Runs with names of any length -/

/-- The tree holds the entries of a map: their records are its files, and their names are short. -/
structure Holds (before : FileTree) (place : Place) (entries : String → Option Entry)
    (t : FileTree) : Prop where
  table : ∃ table, Mirrors entries table ∧ Copies before place table t
  short : ∀ n e, entries n = some e → n.utf8ByteSize ≤ 250

section Holds

variable {before t : FileTree} {root : Path} {place : Place} {entries : String → Option Entry}

theorem Holds.initial (hroot : EmptyRoot before root place) :
    Holds before place (fun _ => none) before where
  table := ⟨∅, Mirrors.empty, Copies.initial hroot⟩
  short n e h := by cases h

/-- Whatever an access does, the tree still holds some entries. -/
theorem Holds.onTree {α : Type} (hroot : EmptyRoot before root place)
    (h : Holds before place entries t) {a : Access α} (ha : a.Proper) :
    ∃ entries', Holds before place entries' (a.onTree root t).2 := by
  obtain ⟨⟨table, hm, hcopies⟩, hshort⟩ := h
  rcases a with e | answer | ⟨name, answer⟩ | ⟨name, answer⟩ | ⟨e, answer⟩
  -- what is refused, listed or read leaves the tree as it is
  · exact ⟨entries, ⟨table, hm, hcopies⟩, hshort⟩
  · exact ⟨entries, ⟨table, hm, hcopies⟩, hshort⟩
  · exact ⟨entries, ⟨table, hm, hcopies⟩, hshort⟩
  -- a removal that fails, even for the length of the name, changes nothing
  · rw [Access.onTree]
    rcases hremoved : t.removeFile (entryOf root name) with e | t'
    · exact ⟨entries, ⟨table, hm, hcopies⟩, hshort⟩
    · refine ⟨_, ⟨_, hm.erase name, hcopies.removed hroot ha.valid hremoved⟩, fun n e he => ?_⟩
      split at he
      · cases he
      · exact hshort n e he
  · rcases Nat.lt_or_ge 250 e.name.utf8ByteSize with hlong | hle
    -- the write fails, and the entries stay as they are
    · obtain ⟨t', hsaved, hcopies', -⟩ := hcopies.saved_long hroot ha.name.valid hlong e.record
      rw [Access.onTree, hsaved]
      exact ⟨entries, ⟨table, hm, hcopies'⟩, hshort⟩
    · obtain ⟨-, hcopies'⟩ := hcopies.step hroot hm ha fun n hn => Option.some.inj hn ▸ hle
      refine ⟨_, ⟨_, hm.insert ha, hcopies'⟩, fun n e' he' => ?_⟩
      split at he'
      · rename_i hname
        exact hname ▸ hle
      · exact hshort n e' he'

/-- Every run on an empty directory leads to a tree that holds some entries. -/
theorem exists_holds_run (hroot : EmptyRoot before root place) (steps : List Step) :
    ∃ entries, Holds before place entries
      (run (Storage.ofDirectory FileTree.calls root) steps before).2 := by
  refine run_invariant (P := fun _ t => ∃ entries, Holds before place entries t) ?_ steps []
    ⟨_, Holds.initial hroot⟩
  -- a step may fail on its staging file, which leaves the records as they are
  rintro past t ⟨entries, h⟩ step
  rw [perform_ofDirectory]
  exact h.onTree hroot (proper_access step.ceilings step.call)

end Holds

/-! ### The longest names -/

/-- The proposal is stored: it can be read under each spelling of its name, and is listed alone. -/
structure Stored (root : Path) (c : Lease.Ceilings) (p : Entry.Proposal) (t : FileTree) : Prop where
  write : (Step.performIn root ⟨c, .write p⟩ t).1 = .ok (.written (c.warnings p.ttl p.maxTtl))
  read (c' : Lease.Ceilings) (name : String)
    (h : Entry.normalizeName name = Entry.normalizeName p.name) :
    (Step.performIn root ⟨c', .read name⟩ (Step.performIn root ⟨c, .write p⟩ t).2).1
      = .ok (.found (some p.canonical))
  list (c' : Lease.Ceilings) :
    (Step.performIn root ⟨c', .list⟩ (Step.performIn root ⟨c, .write p⟩ t).2).1
      = .ok (.names [Entry.normalizeName p.name])

/-- The write fails for the length of a file name, and there is no entry. -/
structure NotStored (root : Path) (c : Lease.Ceilings) (p : Entry.Proposal) (t : FileTree) :
    Prop where
  write : (Step.performIn root ⟨c, .write p⟩ t).1 = .error (.file .nameTooLong)
  read (c' : Lease.Ceilings) (name : String)
    (h : Entry.normalizeName name = Entry.normalizeName p.name) :
    (Step.performIn root ⟨c', .read name⟩ (Step.performIn root ⟨c, .write p⟩ t).2).1
      = if (Entry.normalizeName p.name).utf8ByteSize ≤ 255 then .ok (.found none)
        else .error (.file .nameTooLong)
  list (c' : Lease.Ceilings) :
    (Step.performIn root ⟨c', .list⟩ (Step.performIn root ⟨c, .write p⟩ t).2).1
      = .ok (.names [])

section Lengths

variable {before : FileTree} {root : Path} {place : Place} (hroot : EmptyRoot before root place)
  (c : Lease.Ceilings) {p : Entry.Proposal} (hentry : p.entry = .ok p.canonical)

include hroot hentry

/-- After the write the tree copies a table that mirrors the map of the one entry. -/
theorem written_of_short (hshort : (Entry.normalizeName p.name).utf8ByteSize ≤ 250) :
    (Step.performIn root ⟨c, .write p⟩ before).1 = .ok (.written (c.warnings p.ttl p.maxTtl)) ∧
      ∃ table, Mirrors (fun n => if Entry.normalizeName p.name = n then some p.canonical else none)
        table ∧ Copies before place table (Step.performIn root ⟨c, .write p⟩ before).2 := by
  have hsound := (Entry.Proposal.entry_eq_ok hentry).2
  have hproper : (Access.store p.canonical
    (Answer.written (c.warnings p.ttl p.maxTtl))).Proper := hsound
  obtain ⟨houtcome, hcopies⟩ := (Copies.initial hroot).step hroot Mirrors.empty hproper
    fun n hn => Option.some.inj hn ▸ hshort
  have hwritten := performIn_eq root ⟨c, .write p⟩ before
  rw [access_write hentry] at hwritten
  rw [← hwritten] at houtcome hcopies
  exact ⟨houtcome, _, Mirrors.empty.insert hsound, hcopies⟩

/-- A write is accepted and stored if the staging name is not too long. -/
theorem stored_of_short (hshort : (Entry.normalizeName p.name).utf8ByteSize ≤ 250) :
    Stored root c p before := by
  have hsound := (Entry.Proposal.entry_eq_ok hentry).2
  obtain ⟨houtcome, table, hm, hcopies⟩ := written_of_short hroot c hentry hshort
  refine ⟨houtcome, fun c' name hname => ?_, fun c' => ?_⟩
  · have hchecked : Entry.checkedName name = .ok (Entry.normalizeName p.name) :=
      hsound.name.checkedName_spelling hname
    rw [hcopies.perform_read hroot hm c' (hname ▸ Nat.le_trans hshort (by decide)), underName,
      hchecked]
    dsimp only
    rw [if_pos rfl]
  -- the list has that one name, since the root was empty
  · rw [hcopies.perform_list hroot hm]
    refine congrArg (fun l => Except.ok (Answer.names l)) ?_
    refine (Text.sortDistinct_ascending _).eq_of_mem_iff (List.pairwise_singleton _ _) fun n => ?_
    rw [← Storage.childrenOf, hm.mem_names, List.mem_singleton]
    rcases eq_or_ne (Entry.normalizeName p.name) n with rfl | hne
    · simp
    · simp [hne, hne.symm]

/-- Otherwise it fails, and no record is left. -/
theorem notStored_of_long (hlong : 250 < (Entry.normalizeName p.name).utf8ByteSize) :
    NotStored root c p before := by
  have hsound := (Entry.Proposal.entry_eq_ok hentry).2
  obtain ⟨t', hsaved, hcopies, hopened⟩ :=
    (Copies.initial hroot).saved_long hroot hsound.name.valid hlong p.canonical.record
  have hwritten : Step.performIn root ⟨c, .write p⟩ before = (.error (.file .nameTooLong), t') := by
    rw [performIn_eq, access_write hentry, Access.onTree, hsaved]
    rfl
  refine ⟨by rw [hwritten], fun c' name hname => ?_, fun c' => ?_⟩
  · have hchecked : Entry.checkedName name = .ok p.canonical.name :=
      hsound.name.checkedName_spelling hname
    rw [hwritten]
    split
    · rename_i hshort
      rw [hcopies.perform_read hroot Mirrors.empty c' (hname ▸ hshort), underName, hchecked]
    -- the file of the entry itself has too long a name
    · rename_i hlonger
      have hlocate := locate_entryOf_long hroot.fits hopened
        (isName_of_isValidName hsound.name.valid) (Entry.ne_up_of_isValidName hsound.name.valid)
        (Entry.nul_not_mem_of_isValidName hsound.name.valid) (Nat.lt_of_not_le hlonger)
      rw [performIn_eq]
      show ((Access.named name fun n => .read n Answer.found).onTree root t').1 = _
      rw [Access.named, hchecked]
      show ((recordIn t' root p.canonical.name >>= Access.entryOf?).map _) = _
      rw [recordIn, FileTree.readFile, hlocate]
      rfl
  · rw [hwritten, hcopies.perform_list hroot Mirrors.empty]
    rfl

end Lengths

/-- A directory stores an accepted entry exactly if its name has at most 250 bytes. -/
theorem stored_iff_short {before : FileTree} {root : Path} {place : Place}
    (hroot : EmptyRoot before root place) (c : Lease.Ceilings) {p : Entry.Proposal} {n : String}
    (hname : Entry.checkedName p.name = .ok n) (hlease : Entry.checkLease p.ttl p.maxTtl = .ok ())
    (hcert : Entry.checkCertificate p.certificate = .ok ()) :
    (n.utf8ByteSize ≤ 250 → Stored root c p before) ∧
      (250 < n.utf8ByteSize → NotStored root c p before) := by
  have hentry := Entry.Proposal.entry_of_checks hname hlease hcert
  obtain ⟨rfl, -⟩ := Entry.checkedName_eq_ok_iff.mp hname
  exact ⟨stored_of_short hroot c hentry, notStored_of_long hroot c hentry⟩

/-- The entry `web` is stored in the empty directory `/srv`. -/
theorem web_is_stored :
    Stored (.ofText "/srv") ⟨60, 60⟩ .acceptable (FileTree.ofDirectory ["srv"]) := by
  obtain ⟨-, hname, hlease, hcert⟩ :=
    Entry.Proposal.checks_of_entry_eq_ok Entry.Proposal.entry_acceptable
  exact (stored_iff_short emptyRoot_srv ⟨60, 60⟩ hname hlease hcert).1 (by decide +kernel)

/-- A name of letters. -/
def lettersName (n : Nat) : String := String.ofList (List.replicate n 'a')

/-- A name of small letters is normal. -/
theorem isNormal_lettersName (n : Nat) : Entry.IsNormal (lettersName (n + 1)) where
  normal := by
    have hlower : ∀ c ∈ List.replicate (n + 1) 'a', Text.IsLower c := by
      intro c hc
      obtain rfl := List.eq_of_mem_replicate hc
      exact ⟨by decide, by decide⟩
    rw [Entry.normalizeName, lettersName, String.toList_ofList, Text.lowercase,
      Text.lowerAfter_of_isLower hlower]
  valid := by
    have hletter : Text.isWordChar 'a' = true := by decide +kernel
    have hlast : (List.replicate (n + 1) 'a').getLast? = some 'a' := by
      rw [List.getLast?_replicate, if_neg (Nat.succ_ne_zero n)]
    rw [Entry.isValidName, lettersName, String.toList_ofList, List.replicate_succ,
      Entry.isValidNameText, ← List.replicate_succ, hlast]
    simp [hletter, Entry.isNameChar]

/-- The proposal under a name of 251 letters. -/
def longNamed : Entry.Proposal := { Entry.Proposal.acceptable with name := lettersName 251 }

/-- That every accepted entry can be stored would be wrong. -/
theorem accepted_names_may_be_too_long :
    ¬ ∀ (p : Entry.Proposal) (n : String), Entry.checkedName p.name = .ok n →
      Entry.checkLease p.ttl p.maxTtl = .ok () → Entry.checkCertificate p.certificate = .ok () →
      ∃ warnings, (Step.performIn (.ofText "/srv") ⟨⟨60, 60⟩, .write p⟩
        (FileTree.ofDirectory ["srv"])).1 = .ok (.written warnings) := by
  intro h
  obtain ⟨-, -, hlease, hcert⟩ :=
    Entry.Proposal.checks_of_entry_eq_ok Entry.Proposal.entry_acceptable
  have hname : Entry.checkedName longNamed.name = .ok (lettersName 251) :=
    (isNormal_lettersName 250).checkedName
  have hlong : 250 < (Entry.normalizeName longNamed.name).utf8ByteSize := by
    rw [show Entry.normalizeName longNamed.name = lettersName 251
      from (isNormal_lettersName 250).normal]
    decide +kernel
  -- all three checks pass, and the write fails all the same
  have hrefused := notStored_of_long emptyRoot_srv ⟨60, 60⟩
    (Entry.Proposal.entry_of_checks (p := longNamed) hname hlease hcert) hlong
  obtain ⟨warnings, hwritten⟩ := h longNamed _ hname hlease hcert
  rw [hrefused.write] at hwritten
  cases hwritten

end TrustStore.Registry

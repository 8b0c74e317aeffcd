import TrustStore.Proofs.Registry.Blame
import TrustStore.Proofs.Registry.Refinement
import TrustStore.Proofs.Storage.FailedWrites
import TrustStore.Proofs.Storage.Queries

/-!
# Calls that fail

A call that fails changes nothing that a caller can see.  On a table it changes nothing at all,
whatever calls of the storage fail (`FailsCleanly`); on a file tree it may leave debris, but no read
and no list shows it (`FailsUnseen`).

A failed write makes missing directories on its way.  Where the path of the root goes up again from
one of them, it leads nowhere before and to what has been there all along afterwards
(`failed_write_may_be_seen`); so a root of a write must only go down from there (`DownFromMissing`).
Trees are assumed to be closed, as all trees are that runs lead to (`closed_run`).
-/

namespace TrustStore

/-! ### Storages with faults -/

namespace Storage

variable {m : Type → Type} [Monad m]

/-- The call, unless it has a fault. -/
def unlessFault {α : Type} (fault : Option Fault) (call : ExceptT Fault m α) : ExceptT Fault m α :=
  match fault with
  | some e => throw e
  | none => call

/-- The storage in which the calls with a fault fail, before they touch anything. -/
def faulty (s : Storage m) (fault : Query → Option Fault) : Storage m where
  get key := unlessFault (fault (.get key)) (s.get key)
  put key value := unlessFault (fault (.put key value)) (s.put key value)
  delete key := unlessFault (fault (.delete key)) (s.delete key)
  list above := unlessFault (fault (.list above)) (s.list above)

/-- The faults while reads or writes fail. -/
def outage (reads writes : Bool) : Query → Option Fault
  | .get _ | .list _ => if reads then some (.storage .unavailable) else none
  | .put _ _ | .delete _ => if writes then some (.storage .unavailable) else none

/-- Switched-off reads and writes are faults of the calls that read and write. -/
theorem failing_eq_faulty (s : Storage m) (reads writes : Bool) :
    s.failing reads writes = s.faulty (outage reads writes) := by
  cases reads <;> cases writes <;> rfl

end Storage

namespace Registry

open Storage (Query)

/-! ### Accesses with faults -/

namespace Access

variable {α : Type}

/-- The call of the storage that an access makes. -/
def query? : Access α → Option Query
  | refuse _ => none
  | list _ => some (.list directory)
  | read name _ => some (.get (keyOf name))
  | delete name _ => some (.delete (keyOf name))
  | store e _ => some (.put (keyOf e.name) e.record)

/-- An access of a faulty table ends with the fault of its call, or as on the table itself. -/
theorem run_faulty (a : Access α) (fault : Query → Option Fault) (t : KeyTable) :
    (a.run (KeyTable.storage.faulty fault)).run t = match a.query?.bind fault with
      | some e => (.error e, t)
      | none => a.onTable t := by
  rcases a with e | answer | ⟨name, answer⟩ | ⟨name, answer⟩ | ⟨e, answer⟩
  -- what is refused makes no call; for the others the call fails or is made
  · rfl
  · show (answer <$> Storage.unlessFault (fault (.list directory))
      (KeyTable.storage.list directory)).run t = _
    rw [query?, Option.bind_some]
    rcases fault (.list directory) with - | e <;> rfl
  · show (Storage.unlessFault (fault (.get (keyOf name))) (KeyTable.storage.get (keyOf name)) >>=
      fun record => ExceptT.mk (pure ((entryOf? record).map answer))).run t = _
    rw [query?, Option.bind_some]
    rcases fault (.get (keyOf name)) with - | e <;> rfl
  · show ((fun _ => answer) <$> Storage.unlessFault (fault (.delete (keyOf name)))
      (KeyTable.storage.delete (keyOf name))).run t = _
    rw [query?, Option.bind_some]
    rcases fault (.delete (keyOf name)) with - | e <;> rfl
  · show ((fun _ => answer) <$> Storage.unlessFault (fault (.put (keyOf e.name) e.record))
      (KeyTable.storage.put (keyOf e.name) e.record)).run t = _
    rw [query?, Option.bind_some]
    rcases fault (.put (keyOf e.name) e.record) with - | e <;> rfl

/-- On a table an access that fails changes nothing. -/
theorem onTable_error {a : Access α} {t : KeyTable} {e : Fault}
    (h : (a.onTable t).1 = .error e) : (a.onTable t).2 = t := by
  rcases a with e | answer | ⟨name, answer⟩ | ⟨name, answer⟩ | ⟨e, answer⟩
  · rfl
  · rfl
  · rfl
  · cases h
  · cases h

/-- On a table only a refused access fails for a fault of the call. -/
theorem eq_refuse_of_onTable {a : Access α} {t : KeyTable} {e : Fault}
    (h : (a.onTable t).1 = .error e) (he : IsRefusal e) : a = .refuse e := by
  rw [← run_keyTable] at h
  exact eq_refuse_of_run Storage.blameless_keyTable h he

end Access

/-- The call of the storage that a step makes. -/
def Step.query? (step : Step) : Option Query := (step.call.access step.ceilings).query?

/-- A step on a faulty table ends with the fault of its call, or as on the table itself. -/
theorem perform_faulty (step : Step) (fault : Query → Option Fault) (t : KeyTable) :
    step.perform (KeyTable.storage.faulty fault) t = match step.query?.bind fault with
      | some e => (.error e, t)
      | none => step.perform KeyTable.storage t := by
  rw [perform_keyTable, perform_eq_run]
  exact Access.run_faulty _ fault t

/-! ### Failures on a table -/

/-- On the table, with faults, a call that fails does so cleanly. -/
structure FailsCleanly (fault : Query → Option Fault) (step : Step) (t : KeyTable) : Prop where
  unchanged (e : Fault) (h : (step.perform (KeyTable.storage.faulty fault) t).1 = .error e) :
    (step.perform (KeyTable.storage.faulty fault) t).2 = t
  /-- A call that would have succeeded fails with the fault that the storage had. -/
  ofStorage (answer : Answer) (e : Fault) (hsound : (step.perform KeyTable.storage t).1 = .ok answer)
    (h : (step.perform (KeyTable.storage.faulty fault) t).1 = .error e) :
    ∃ q, step.query? = some q ∧ fault q = some e
  /-- A call that is refused is refused for the same reason, whether or not the storage fails. -/
  refusal (e : Fault) (h : (step.perform KeyTable.storage t).1 = .error e) (he : IsRefusal e) :
    (step.perform (KeyTable.storage.faulty fault) t).1 = .error e
  write (p : Entry.Proposal) (rule : EntryRule) (hcall : step.call = .write p)
    (h : p.entry = .error rule) :
    (step.perform (KeyTable.storage.faulty fault) t).1 = .error (.argument rule)
  update (name : String) (data : Json.Fields) (p : Entry.Proposal) (rule : EntryRule)
    (hcall : step.call = requestOn .update name data) (hname : Entry.isValidName name = true)
    (hp : Administration.proposal name data = .ok p) (h : p.entry = .error rule) :
    (step.perform (KeyTable.storage.faulty fault) t).1 = .error (.argument rule)

/-- What is refused is refused before the storage is asked. -/
theorem perform_faulty_of_refuse {step : Step} {e : Fault}
    (h : step.call.access step.ceilings = .refuse e) (fault : Query → Option Fault)
    (t : KeyTable) : (step.perform (KeyTable.storage.faulty fault) t).1 = .error e := by
  rw [perform_faulty, perform_keyTable, Step.query?, h]
  rfl

/-- On a table every step fails cleanly, whatever faults the storage has. -/
theorem failsCleanly (fault : Query → Option Fault) (step : Step) (t : KeyTable) :
    FailsCleanly fault step t where
  unchanged e h := by
    -- the fault of the storage changes nothing, nor does an access that fails
    rw [perform_faulty] at h ⊢
    rcases hfault : step.query?.bind fault with - | e'
    · rw [hfault] at h
      dsimp only at h ⊢
      rw [perform_keyTable] at h ⊢
      exact Access.onTable_error h
    · rfl
  ofStorage answer e hsound h := by
    -- the access succeeds without the fault
    rw [perform_faulty] at h
    rcases hfault : step.query?.bind fault with - | e'
    · rw [hfault] at h
      dsimp only at h
      rw [hsound] at h
      cases h
    · rw [hfault] at h
      cases h
      exact Option.bind_eq_some_iff.mp hfault
  refusal e h he := by
    rw [perform_keyTable] at h
    exact perform_faulty_of_refuse (Access.eq_refuse_of_onTable h he) fault t
  write p rule hcall h := by
    refine perform_faulty_of_refuse ?_ fault t
    rw [hcall]
    show Access.storing p _ = _
    rw [Access.storing, h]
  update name data p rule hcall hname hp h := by
    -- the request comes down to the same proposal as a write
    refine perform_faulty_of_refuse ?_ fault t
    rw [hcall]
    show (requestOn .update name data).access _ = _
    rw [access_requestOn_update _ hname hp, Access.storing, h]

/-! ### Failures in a tree -/

open Storage.Directory

/-- A call that fails in a tree is not seen by a later read or list. -/
structure FailsUnseen (root : Path) (step : Step) (t : FileTree) : Prop where
  read (e : Fault)
    (h : (step.perform (Storage.ofDirectory FileTree.calls root) t).1 = .error e)
    (c : Lease.Ceilings) (name : String)
    (hshort : (Entry.normalizeName name).utf8ByteSize ≤ 255) :
    (Step.perform (Storage.ofDirectory FileTree.calls root) ⟨c, .read name⟩
        (step.perform (Storage.ofDirectory FileTree.calls root) t).2).1
      = (Step.perform (Storage.ofDirectory FileTree.calls root) ⟨c, .read name⟩ t).1
  list (e : Fault)
    (h : (step.perform (Storage.ofDirectory FileTree.calls root) t).1 = .error e)
    (c : Lease.Ceilings) :
    (Step.perform (Storage.ofDirectory FileTree.calls root) ⟨c, .list⟩
        (step.perform (Storage.ofDirectory FileTree.calls root) t).2).1
      = (Step.perform (Storage.ofDirectory FileTree.calls root) ⟨c, .list⟩ t).1

/-- The step puts a record into the storage. -/
def Step.Puts (step : Step) : Prop := ∃ key record, step.query? = some (.put key record)

theorem perform_list_ofDirectory (root : Path) (c : Lease.Ceilings) (t : FileTree) :
    (Step.perform (Storage.ofDirectory FileTree.calls root) ⟨c, .list⟩ t).1
      = (namesIn t root).map .names := by
  rw [perform_ofDirectory]
  rfl

/-- An access that fails leaves the tree as it is, or with debris of a write. -/
theorem Access.onTree_error {α : Type} {a : Access α} (ha : a.Proper) {root : Path}
    {t t' : FileTree} (hclosed : t.Closed)
    (hroot : ∀ key record, a.query? = some (.put key record) → DownFromMissing t root) {e : Fault}
    (h : a.onTree root t = (.error e, t')) :
    t' = t ∨ ∃ place name,
      Entries t root place ∧ FileTree.Debris place (place ++ [stagingName name]) t t' := by
  rcases a with e' | answer | ⟨name, answer⟩ | ⟨name, answer⟩ | ⟨entry, answer⟩
  -- what does not write leaves the tree as it is
  · exact Or.inl (congrArg Prod.snd h).symm
  · exact Or.inl (congrArg Prod.snd h).symm
  · exact Or.inl (congrArg Prod.snd h).symm
  · rw [Access.onTree] at h
    rcases hremove : t.removeFile (entryOf root name) with e' | t₁
    · rw [hremove] at h
      exact Or.inl (congrArg Prod.snd h).symm
    · rw [hremove] at h
      cases h
  · rcases hsaved : saved t (entryOf root entry.name) (entryOf root (stagingName entry.name))
      entry.record with ⟨e' | ⟨⟩, t₁⟩
    · rw [Access.onTree, hsaved] at h
      cases h
      rcases (hroot _ _ rfl).cases with ⟨place, hplace⟩ | hblocked
      · exact Or.inr ⟨place, entry.name, hplace,
          saved_debris hplace hclosed ha.name.valid hsaved⟩
      · exact Or.inl (hblocked.eq_of_saved ha.name.valid hsaved)
    · rw [Access.onTree, hsaved] at h
      cases h

/-- What a failing step leaves in a tree is not seen, at any root that only goes down from what
is missing. -/
theorem failsUnseen {root : Path} {step : Step} {t : FileTree} (hclosed : t.Closed)
    (hroot : step.Puts → DownFromMissing t root) : FailsUnseen root step t := by
  have hdebris : ∀ e, (step.perform (Storage.ofDirectory FileTree.calls root) t).1 = .error e →
      (step.perform (Storage.ofDirectory FileTree.calls root) t).2 = t ∨
        ∃ place name, Entries t root place ∧
          FileTree.Debris place (place ++ [stagingName name]) t
            (step.perform (Storage.ofDirectory FileTree.calls root) t).2 := by
    intro e h
    rw [perform_ofDirectory] at h ⊢
    exact Access.onTree_error (proper_access step.ceilings step.call) hclosed
      (fun key record hput => hroot ⟨key, record, hput⟩) (Prod.ext h rfl)
  constructor
  -- the record of a name is not the staging file
  · intro e h c name hshort
    rcases hdebris e h with hsame | ⟨place, staged, hplace, hstaged⟩
    · rw [hsame]
    · rw [perform_ofDirectory root ⟨c, .read name⟩, perform_ofDirectory root ⟨c, .read name⟩]
      show ((Access.named name fun n => .read n Answer.found).onTree root _).1
        = ((Access.named name fun n => .read n Answer.found).onTree root t).1
      unfold Access.named
      rcases hname : Entry.checkedName name with rule | n
      · rfl
      · obtain ⟨rfl, hnormal⟩ := Entry.checkedName_eq_ok_iff.mp hname
        show ((recordIn _ root _ >>= Access.entryOf?).map _) = _
        rw [recordIn_debris hplace hclosed hstaged hnormal.valid hshort
          (stagingName_ne_of_head (Entry.head?_ne_dot_of_isValidName hnormal.valid))]
        rfl
  -- the staging file is hidden
  · intro e h c
    rcases hdebris e h with hsame | ⟨place, staged, hplace, hstaged⟩
    · rw [hsame]
    · rw [perform_list_ofDirectory, perform_list_ofDirectory, namesIn_debris hplace hclosed hstaged]

/-! ### Trees stay closed -/

/-- Every step keeps a tree closed. -/
theorem closed_perform {t : FileTree} (h : t.Closed) (root : Path) (step : Step) :
    (step.perform (Storage.ofDirectory FileTree.calls root) t).2.Closed := by
  rw [perform_ofDirectory]
  rcases step.call.access step.ceilings
    with e | answer | ⟨name, answer⟩ | ⟨name, answer⟩ | ⟨e, answer⟩
  · exact h
  · exact h
  · exact h
  -- only a delete and a write change the tree
  · rw [Access.onTree]
    rcases hremove : t.removeFile (entryOf root name) with e | t'
    · exact h
    · exact h.removeFile hremove
  · exact saved_closed h _ _ e.record

/-- Every tree that runs lead to is closed, if the first one is. -/
theorem closed_run {t : FileTree} (h : t.Closed) (root : Path) (steps : List Step) :
    (run (Storage.ofDirectory FileTree.calls root) steps t).2.Closed :=
  run_invariant (P := fun _ (t : FileTree) => t.Closed)
    (fun _ _ h step => closed_perform h root step) steps [] h

/-! ### Nothing is changed -/

/-- Whatever fails, on whatever store: nothing is changed that a caller can see.  In trees that is
so for a write, too, unless behind a directory that is missing the path of the root goes up or has a
step that is too long. -/
theorem failed_calls_change_nothing :
    (∀ fault step t, FailsCleanly fault step t) ∧
    (∀ root step (t : FileTree), t.Closed → (step.Puts → DownFromMissing t root) →
      FailsUnseen root step t) ∧
    ∀ root steps (t : FileTree), t.Closed →
      (run (Storage.ofDirectory FileTree.calls root) steps t).2.Closed :=
  ⟨failsCleanly, fun _ _ _ hclosed hroot => failsUnseen hclosed hroot,
    fun root steps _ hclosed => closed_run hclosed root steps⟩

/-- There is an entry in `/srv/x`, and a directory has been planted where the file of another one
should be. -/
def plantedTree : FileTree :=
  ((((FileTree.ofDirectory ["srv"]).insert (["srv"] ++ ["x"]) .directory).insert
    (["srv", "x"] ++ ["cert"]) .directory).insert
    (["srv", "x", "cert"] ++ ["a"]) (.file 0o600 [])).insert
    (["srv", "x", "cert"] ++ ["web"]) .directory

/-- The planted tree is built from that of a directory, one node at a time. -/
theorem closed_plantedTree : plantedTree.Closed := by
  have hx : ((FileTree.ofDirectory ["srv"]).insert (["srv"] ++ ["x"]) .directory).Closed :=
    (FileTree.closed_ofDirectory ["srv"]).insert (by decide +kernel) (by decide +kernel)
  have hcert : (((FileTree.ofDirectory ["srv"]).insert (["srv"] ++ ["x"]) .directory).insert
      (["srv", "x"] ++ ["cert"]) .directory).Closed :=
    hx.insert (by decide +kernel) (by decide +kernel)
  have ha : ((((FileTree.ofDirectory ["srv"]).insert (["srv"] ++ ["x"]) .directory).insert
      (["srv", "x"] ++ ["cert"]) .directory).insert
      (["srv", "x", "cert"] ++ ["a"]) (.file 0o600 [])).Closed :=
    hcert.insert (by decide +kernel) (by decide +kernel)
  exact ha.insert (by decide +kernel) (by decide +kernel)

/-- A write of the entry `web`. -/
def acceptableWrite : Step := ⟨⟨60, 60⟩, .write .acceptable⟩

/-- The write comes down to storing the canonical entry. -/
theorem access_acceptableWrite : acceptableWrite.call.access acceptableWrite.ceilings
    = .store Entry.Proposal.acceptable.canonical
      (.written (Lease.Ceilings.warnings ⟨60, 60⟩ 60 0)) := by
  show Call.access ⟨60, 60⟩ (.write .acceptable) = _
  rw [Call.access, Access.storing, Entry.Proposal.entry_acceptable]
  rfl

/-- A write over the planted directory fails when its staging file is moved, and the list does not
show that file; on a table whose writes fail, the write fails with the fault of the storage. -/
theorem failed_write_changes_nothing :
    (acceptableWrite.perform (Storage.ofDirectory FileTree.calls (.ofText "x"))
      plantedTree).1 = .error (.file .isDirectory) ∧
    (Step.perform (Storage.ofDirectory FileTree.calls (.ofText "x")) ⟨⟨60, 60⟩, .list⟩
      (acceptableWrite.perform (Storage.ofDirectory FileTree.calls (.ofText "x"))
        plantedTree).2).1
      = (Step.perform (Storage.ofDirectory FileTree.calls (.ofText "x")) ⟨⟨60, 60⟩, .list⟩
        plantedTree).1 ∧
    (run (Storage.ofDirectory FileTree.calls (.ofText "x")) [acceptableWrite]
      plantedTree).2.Closed ∧
    ∃ q, acceptableWrite.query? = some q ∧
      Storage.outage false true q = some (.storage .unavailable) := by
  have hfails : (acceptableWrite.perform (Storage.ofDirectory FileTree.calls (.ofText "x"))
      plantedTree).1 = .error (.file .isDirectory) := by
    rw [perform_ofDirectory, access_acceptableWrite]
    decide +kernel
  have hroot : IsRoot plantedTree (.ofText "x") := Or.inr (by decide +kernel)
  refine ⟨hfails, ?_, failed_calls_change_nothing.2.2 _ _ _ closed_plantedTree, ?_⟩
  · exact (failed_calls_change_nothing.2.1 (.ofText "x") acceptableWrite plantedTree
      closed_plantedTree fun _ => hroot.downFromMissing).list _ hfails ⟨60, 60⟩
  · refine (failed_calls_change_nothing.1 (Storage.outage false true) acceptableWrite ∅).ofStorage
      (.written (Lease.Ceilings.warnings ⟨60, 60⟩ 60 0)) _ ?_ ?_
    · rw [perform_keyTable, access_acceptableWrite, Access.onTable]
    · rw [perform_faulty, Step.query?, access_acceptableWrite]
      rfl

/-- The same write at the root `missing/../x` makes the directory `missing` before it fails.  The
list showed nothing, since the root led nowhere, and now it shows what is in `/srv/x`. -/
theorem failed_write_may_be_seen :
    (Step.perform (Storage.ofDirectory FileTree.calls (.ofText "missing/../x"))
      ⟨⟨60, 60⟩, .list⟩ plantedTree).1 = .ok (.names []) ∧
    (acceptableWrite.perform (Storage.ofDirectory FileTree.calls (.ofText "missing/../x"))
      plantedTree).1 = .error (.file .isDirectory) ∧
    (Step.perform (Storage.ofDirectory FileTree.calls (.ofText "missing/../x")) ⟨⟨60, 60⟩, .list⟩
      (acceptableWrite.perform (Storage.ofDirectory FileTree.calls (.ofText "missing/../x"))
        plantedTree).2).1 = .ok (.names ["a", "web/"]) ∧
    ¬ ∀ root step (t : FileTree), t.Closed → FailsUnseen root step t := by
  have hbefore : namesIn plantedTree (.ofText "missing/../x") = .ok [] := by decide +kernel
  have hfails : (acceptableWrite.perform
      (Storage.ofDirectory FileTree.calls (.ofText "missing/../x")) plantedTree).1
      = .error (.file .isDirectory) := by
    rw [perform_ofDirectory, access_acceptableWrite]
    decide +kernel
  have hafter : namesIn (acceptableWrite.perform
      (Storage.ofDirectory FileTree.calls (.ofText "missing/../x")) plantedTree).2
      (.ofText "missing/../x") = .ok ["a", "web/"] := by
    rw [perform_ofDirectory, access_acceptableWrite]
    decide +kernel
  rw [perform_list_ofDirectory, perform_list_ofDirectory, hbefore, hafter]
  -- were it unseen, both lists would be the same
  refine ⟨rfl, hfails, rfl, fun h => ?_⟩
  have hlists := (h _ _ _ closed_plantedTree).list _ hfails ⟨60, 60⟩
  rw [perform_list_ofDirectory, perform_list_ofDirectory, hbefore, hafter] at hlists
  cases hlists

end Registry

end TrustStore

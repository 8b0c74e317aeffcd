import TrustStore.Proofs.Registry.Map

/-!
# What callers see of a table

`Refines` says what every call answers on a table, in terms of the history that led to it: names
are answered with their latest entries, lists with the names that have one, and a call leaves all
names but its own alone.  Every run from the empty table leads to such a table
(`keyTable_refines_map`), and each of its records is that of a sound entry
(`keyTable_records_sound`).
-/

namespace TrustStore.Registry

open Administration (Route Request Response)

/-- The outcome of a call under a name: the name is refused, or answered in its normal form. -/
def underName (name : String) (answer : String → Answer) : Outcome :=
  match Entry.checkedName name with
  | .ok n => .ok (answer n)
  | .error rule => .error (.argument rule)

/-- The request for an operation on the entry of a name. -/
def requestOn (operation : Operation) (name : String) (data : Json.Fields) : Call :=
  .request ⟨operation, Administration.entryPath name, data⟩

/-- The table answers as the map of the latest entries of the history does. -/
structure Refines (past : List Event) (t : KeyTable) : Prop where
  read (c : Lease.Ceilings) (name : String) :
    Step.perform KeyTable.storage ⟨c, .read name⟩ t
      = (underName name fun n => .found (latest n past), t)
  readRequest (c : Lease.Ceilings) (name : String) (data : Json.Fields)
    (h : Entry.isValidName name = true) :
    Step.perform KeyTable.storage ⟨c, requestOn .read name data⟩ t
      = (underName name fun n => .response ((latest n past).map fun e => .ofData e.shown), t)
  /-- A request is refused for a name that is not valid as it is written. -/
  refusedRequest (c : Lease.Ceilings) (operation : Operation) (name : String) (data : Json.Fields)
    (hne : name ≠ "") (h : Entry.isValidName name = false) :
    Step.perform KeyTable.storage ⟨c, requestOn operation name data⟩ t
      = (.error (.request (.invalidName name)), t)
  list : ∃ names : List String, names.Pairwise (· < ·) ∧
    (∀ n, n ∈ names ↔ (latest n past).isSome = true) ∧
    (∀ n ∈ names, Entry.checkedName n = .ok n) ∧
    (∀ c, Step.perform KeyTable.storage ⟨c, .list⟩ t = (.ok (.names names), t)) ∧
    ∀ c, ∀ path ∈ ["certs", Administration.entriesPath], ∀ data,
      Step.perform KeyTable.storage ⟨c, .request ⟨.list, path, data⟩⟩ t
        = (.ok (.response (some (.ofKeys names))), t)
  /-- A deletion succeeds whether or not there is an entry, and there is none then. -/
  delete (c : Lease.Ceilings) (name : String) :
    (Step.perform KeyTable.storage ⟨c, .delete name⟩ t).1 = underName name (fun _ => .deleted) ∧
    ∀ c', (Step.perform KeyTable.storage ⟨c', .read name⟩
      (Step.perform KeyTable.storage ⟨c, .delete name⟩ t).2).1 = underName name fun _ => .found none
  deleteRequest (c : Lease.Ceilings) (name : String) (data : Json.Fields)
    (h : Entry.isValidName name = true) :
    (Step.perform KeyTable.storage ⟨c, requestOn .delete name data⟩ t).1
        = underName name (fun _ => .response none) ∧
    ∀ c', (Step.perform KeyTable.storage ⟨c', .read name⟩
      (Step.perform KeyTable.storage ⟨c, requestOn .delete name data⟩ t).2).1
        = underName name fun _ => .found none
  frame (step : Step) (name : String) (h : step.call.subject? ≠ some (Entry.normalizeName name)) :
    ∀ c, (Step.perform KeyTable.storage ⟨c, .read name⟩ (step.perform KeyTable.storage t).2).1
      = (Step.perform KeyTable.storage ⟨c, .read name⟩ t).1
  /-- What is stored can always be read. -/
  readable (step : Step) (problem : Json.Problem) :
    (step.perform KeyTable.storage t).1 ≠ .error (.record problem)

/-! ### Paths of entries -/

/-- The path of an entry is below that of all entries, where its name is found again. -/
theorem belowEntries?_entryPath (name : String) :
    Administration.belowEntries? (Administration.entryPath name) = some name := by
  have hne : Administration.entryPath name ≠ "certs" := by
    intro h
    have hlength := congrArg (fun s => s.toList.length) h
    simp [Administration.entryPath, Administration.entriesPath] at hlength
  rw [Administration.belowEntries?, if_neg hne, Administration.entryPath, String.toList_append,
    List.isPrefixOf?_eq_some_iff_append_eq.mpr rfl, Option.map_some, String.ofList_toList]

/-- The path of a valid name is routed to its entry. -/
theorem ofPath_entryPath {name : String} (h : Entry.isValidName name = true) :
    Route.ofPath (Administration.entryPath name) = .ok (.entry name) := by
  rw [Route.ofPath, belowEntries?_entryPath]
  dsimp only
  rw [if_neg (Entry.ne_empty_of_isValidName h), if_pos h]

/-- The path of a name that is not valid as it stands is not routed. -/
theorem ofPath_entryPath_invalid {name : String} (hne : name ≠ "")
    (h : Entry.isValidName name = false) :
    Route.ofPath (Administration.entryPath name) = .error (.invalidName name) := by
  rw [Route.ofPath, belowEntries?_entryPath]
  dsimp only
  rw [if_neg hne, h]
  rfl

/-- Both spellings of the path of all entries are routed to the list. -/
theorem ofPath_entries {path : String} (h : path ∈ ["certs", Administration.entriesPath]) :
    Route.ofPath path = .ok .entries := by
  rcases List.mem_cons.mp h with rfl | h
  · decide
  · obtain rfl := List.mem_singleton.mp h
    decide

/-! ### Accesses on a table that mirrors a map -/

theorem Access.map_named {α β : Type} (f : α → β) (name : String) (next : String → Access α) :
    (named name next).map f = named name fun n => (next n).map f := by
  unfold named
  cases Entry.checkedName name <;> rfl

theorem Access.map_storing {α β : Type} (f : α → β) (p : Entry.Proposal) (answer : α) :
    (storing p answer).map f = storing p (f answer) := by
  unfold storing
  cases p.entry <;> rfl

/-- A write whose proposal makes an entry stores that entry. -/
theorem access_write {c : Lease.Ceilings} {p : Entry.Proposal} {e : Entry} (h : p.entry = .ok e) :
    (Call.write p).access c = .store e (.written (c.warnings p.ttl p.maxTtl)) := by
  rw [Call.access, Access.storing, h]

/-- A read request looks its entry up under the normal name, and shows it as data. -/
theorem access_requestOn_read (c : Lease.Ceilings) {name : String} (data : Json.Fields)
    (h : Entry.isValidName name = true) :
    (requestOn .read name data).access c
      = .named name fun n => .read n fun e => .response (e.map fun e => .ofData e.shown) := by
  show (requestAccess c ⟨.read, Administration.entryPath name, data⟩).map Answer.response = _
  rw [requestAccess, ofPath_entryPath h]
  exact Access.map_named _ name _

/-- A delete request removes what is under the normal name, and has nothing to answer. -/
theorem access_requestOn_delete (c : Lease.Ceilings) {name : String} (data : Json.Fields)
    (h : Entry.isValidName name = true) :
    (requestOn .delete name data).access c
      = .named name fun n => .delete n (.response none) := by
  show (requestAccess c ⟨.delete, Administration.entryPath name, data⟩).map Answer.response = _
  rw [requestAccess, ofPath_entryPath h]
  exact Access.map_named _ name _

/-- An update request stores the entry of what its data propose, and shows the warnings as texts. -/
theorem access_requestOn_update (c : Lease.Ceilings) {name : String} {data : Json.Fields}
    {p : Entry.Proposal} (h : Entry.isValidName name = true)
    (hdata : Administration.proposal name data = .ok p) :
    (requestOn .update name data).access c
      = .storing p (.response
          (Response.ofWarnings? ((c.warnings p.ttl p.maxTtl).map Lease.Warning.text))) := by
  show (requestAccess c ⟨.update, Administration.entryPath name, data⟩).map Answer.response = _
  rw [requestAccess, ofPath_entryPath h]
  show (updateAccess c name data).map Answer.response = _
  rw [updateAccess, hdata]
  exact Access.map_storing _ p _

namespace Mirrors

variable {entries : String → Option Entry} {t : KeyTable}

/-- A read finds the entry that the table mirrors. -/
theorem onTable_read (h : Mirrors entries t) (name : String) (answer : Option Entry → Answer) :
    (Access.named name fun n => .read n answer).onTable t
      = (underName name fun n => answer (entries n), t) := by
  unfold Access.named underName
  rcases Entry.checkedName name with rule | n
  · rfl
  · show ((Access.entryOf? t[keyOf n]?).map answer, t) = _
    rw [h.entryOf?_get n]
    rfl

theorem perform_read (h : Mirrors entries t) (c : Lease.Ceilings) (name : String) :
    Step.perform KeyTable.storage ⟨c, .read name⟩ t
      = (underName name fun n => .found (entries n), t) := by
  rw [perform_keyTable]
  exact h.onTable_read name .found

/-- After a deletion there is no entry under the name. -/
theorem onTable_delete (h : Mirrors entries t) (name : String) (answer : Answer)
    (c : Lease.Ceilings) :
    ((Access.named name fun n => .delete n answer).onTable t).1 = underName name (fun _ => answer) ∧
    (Step.perform KeyTable.storage ⟨c, .read name⟩
      ((Access.named name fun n => .delete n answer).onTable t).2).1
        = underName name fun _ => .found none := by
  unfold Access.named
  rcases hname : Entry.checkedName name with rule | n
  -- the name is refused, by the deletion and by the read after it
  · constructor
    · rw [underName, hname]
      rfl
    · show (Step.perform KeyTable.storage ⟨c, .read name⟩ t).1 = _
      rw [h.perform_read, underName, underName, hname]
  · constructor
    · rw [underName, hname]
      rfl
    · show (Step.perform KeyTable.storage ⟨c, .read name⟩ (t.erase (keyOf n))).1 = _
      rw [(h.erase n).perform_read, underName, underName, hname]
      dsimp only
      rw [if_pos rfl]

/-- What is stored decodes, so only an access that is refused fails. -/
theorem eq_refuse_of_onTable (h : Mirrors entries t) {α : Type} {a : Access α} {e : Fault}
    (heq : (a.onTable t).1 = .error e) : a = .refuse e := by
  rcases a with e' | answer | ⟨name, answer⟩ | ⟨name, answer⟩ | ⟨e', answer⟩
  · exact congrArg Access.refuse (Except.error.inj heq)
  · cases heq
  -- only a read decodes what is stored, and that is the record of an entry
  · rw [Access.onTable, h.entryOf?_get name] at heq
    cases heq
  · cases heq
  · cases heq

end Mirrors

/-! ### Calls about other names -/

/-- A step leaves alone what is read of names that it is not about. -/
theorem Mirrors.frame {entries : String → Option Entry} {t : KeyTable} (h : Mirrors entries t)
    (step : Step) {name : String} (hname : step.call.subject? ≠ some (Entry.normalizeName name))
    (c : Lease.Ceilings) :
    (Step.perform KeyTable.storage ⟨c, .read name⟩ (step.perform KeyTable.storage t).2).1
      = (Step.perform KeyTable.storage ⟨c, .read name⟩ t).1 := by
  have hkept : (step.call.access step.ceilings).change? (Entry.normalizeName name) = none :=
    Access.change?_of_name? fun h => hname (subject?_of_name? h)
  rw [perform_keyTable step t]
  rw [(h.onTable (proper_access step.ceilings step.call)).perform_read, h.perform_read]
  unfold underName
  rcases hchecked : Entry.checkedName name with rule | n
  · rfl
  · obtain ⟨rfl, -⟩ := Entry.checkedName_eq_ok_iff.mp hchecked
    dsimp only
    rw [hkept, Option.getD_none]

/-! ### Every run refines the map -/

/-- A table that mirrors the latest entries answers every call as these do. -/
theorem Mirrors.refines {past : List Event} {t : KeyTable}
    (h : Mirrors (fun n => latest n past) t) : Refines past t where
  read c name := h.perform_read c name
  readRequest c name data hvalid := by
    rw [perform_keyTable, access_requestOn_read c data hvalid]
    exact h.onTable_read name _
  refusedRequest c operation name data hne hinvalid := by
    rw [perform_keyTable]
    show Access.onTable t ((requestAccess c _).map _) = _
    rw [requestAccess, ofPath_entryPath_invalid hne hinvalid]
    rfl
  list := by
    refine ⟨Storage.childrenOf directory t.keys, Text.sortDistinct_ascending _,
      fun n => h.mem_names, ?_, ?_, ?_⟩
    -- a name in the list is that of an entry, which is sound and so has a normal name
    · intro n hn
      obtain ⟨e, he⟩ := Option.isSome_iff_exists.mp (h.mem_names.mp hn)
      obtain ⟨rfl, hsound⟩ := h.sound n e he
      exact hsound.name.checkedName
    · intro c
      rw [perform_keyTable]
      rfl
    · intro c path hpath data
      rw [perform_keyTable]
      show Access.onTable t ((requestAccess c _).map _) = _
      rw [requestAccess, ofPath_entries hpath]
      rfl
  delete c name := by
    rw [perform_keyTable ⟨c, .delete name⟩ t]
    refine ⟨(h.onTable_delete name .deleted c).1, fun c' => ?_⟩
    exact (h.onTable_delete name .deleted c').2
  deleteRequest c name data hvalid := by
    rw [perform_keyTable ⟨c, requestOn .delete name data⟩ t, access_requestOn_delete c data hvalid]
    refine ⟨(h.onTable_delete name (.response none) c).1, fun c' => ?_⟩
    exact (h.onTable_delete name (.response none) c').2
  frame step name hname c := h.frame step hname c
  readable step problem := by
    rw [perform_keyTable]
    intro heq
    exact refusesCall_access step.ceilings step.call _ (h.eq_refuse_of_onTable heq)

/-- Every run from the empty table answers as the map of the latest entries does. -/
theorem keyTable_refines_map (steps : List Step) :
    Refines (history KeyTable.storage steps ∅) (run KeyTable.storage steps ∅).2 :=
  (mirrors_run steps).refines

/-- Without the refusals that would be wrong: a name may be invalid, and a request may be refused
for a name whose normal form is valid. -/
theorem names_are_refused :
    (¬ ∀ steps c name,
      (Step.perform KeyTable.storage ⟨c, .read name⟩ (run KeyTable.storage steps ∅).2).1
        = .ok (.found
          (latest (Entry.normalizeName name) (history KeyTable.storage steps ∅)))) ∧
    ¬ ∀ steps c name data, Entry.isValidName (Entry.normalizeName name) = true →
      (Step.perform KeyTable.storage ⟨c, requestOn .read name data⟩
        (run KeyTable.storage steps ∅).2).1
        = .ok (.response ((latest (Entry.normalizeName name)
          (history KeyTable.storage steps ∅)).map fun e => .ofData e.shown)) := by
  constructor
  · intro h
    have hread := h [] ⟨0, 0⟩ "-web"
    rw [(mirrors_run []).perform_read, underName,
      show Entry.checkedName "-web" = .error (.invalidName "-web") by decide +kernel] at hread
    cases hread
  -- the normal form of this letter is a valid name, but the letter itself is none
  · intro h
    have hread := h [] ⟨0, 0⟩ "\ua7d2" [] (by decide +kernel)
    rw [(mirrors_run []).refines.refusedRequest _ .read "\ua7d2" [] (by decide)
      (by decide +kernel)] at hread
    cases hread

/-! ### The records -/

/-- Every record is that of a sound entry, under the key of its name. -/
def RecordsSound (t : KeyTable) : Prop :=
  ∀ key record, t[key]? = some record → ∃ e : Entry,
    key = keyOf e.name ∧ e.name ≠ "" ∧ Entry.ofRecord record = .ok e ∧ e.Sound

/-- Every record of a table that mirrors entries is that of a sound one. -/
theorem Mirrors.recordsSound {entries : String → Option Entry} {t : KeyTable}
    (h : Mirrors entries t) : RecordsSound t := by
  intro key record hrecord
  obtain ⟨n, rfl⟩ := h.keys key (by rw [hrecord]; rfl)
  rw [h.records n] at hrecord
  obtain ⟨e, he, rfl⟩ := Option.map_eq_some_iff.mp hrecord
  obtain ⟨rfl, hsound⟩ := h.sound n e he
  exact ⟨e, rfl, Entry.ne_empty_of_isValidName hsound.name.valid, Entry.ofRecord_record e, hsound⟩

/-- Whatever is asked, under whatever ceilings, only records of sound entries are stored. -/
theorem keyTable_records_sound (steps : List Step) :
    RecordsSound (run KeyTable.storage steps ∅).2 :=
  (mirrors_run steps).recordsSound

end TrustStore.Registry

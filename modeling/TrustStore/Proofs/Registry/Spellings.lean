import TrustStore.Proofs.Registry.Refinement
import TrustStore.Proofs.Text.CaseVariants

/-!
# Spellings of a name

Valid names that differ in letter case alone mean one entry, except where one of them has a capital
sigma at the end of a word and the other a small one: these have different normal forms and hold two
entries (`one_name_iff`).  Names with one normal form cannot be told apart by any call, on any
storage (`OneName`).
-/

namespace TrustStore

open Entry (normalizeName checkedName isValidName)

/-! ### Normal forms of spellings -/

namespace Entry

/-- Of the letters that end a word, the same ones are capital sigmas. -/
def FinalSigmasAgree (a b : String) : Prop :=
  ∀ i, Text.endsWord [] a.toList i = true → (a.toList[i]? = some 'Σ' ↔ b.toList[i]? = some 'Σ')

theorem normalizeName_eq_iff {a b : String} (h : Text.CaseVariants a.toList b.toList) :
    normalizeName a = normalizeName b ↔ FinalSigmasAgree a b := by
  rw [← String.toList_inj, toList_normalizeName, toList_normalizeName, Text.lowercase_eq_iff h]
  rfl

/-- A check sees the normal form only. -/
theorem checkedName_congr {a b : String} (h : normalizeName a = normalizeName b) :
    checkedName a = checkedName b := by
  rw [checkedName, checkedName, h]

/-- A proposal is accepted alike under another spelling of its name. -/
theorem Proposal.entry_rename (p : Proposal) (name : String)
    (h : normalizeName p.name = normalizeName name) : { p with name := name }.entry = p.entry := by
  rw [entry, entry, checkedName_congr h]

end Entry

namespace Registry

open Administration (Request Route)

/-- The name of a path is the name of the proposal, and decides nothing else. -/
theorem proposal_rename (a b : String) (data : Json.Fields) :
    Administration.proposal b data
      = (Administration.proposal a data).map fun p => { p with name := b } := by
  unfold Administration.proposal
  rcases Json.decodeValue Entry.Draft.decoder (.object data) with e | draft
  · rfl
  · dsimp only
    unfold Entry.Draft.proposal
    rcases Entry.seconds draft.ttl with e | ttl
    · rfl
    · rcases Entry.seconds draft.maxTtl with e | maxTtl <;> rfl

section SameNormalForm

variable {a b : String} (h : normalizeName a = normalizeName b)

include h

/-- An access under a name sees the normal form only. -/
theorem named_congr {α : Type} (next : String → Access α) :
    Access.named a next = Access.named b next := by
  rw [Access.named, Access.named, Entry.checkedName_congr h]

theorem updateAccess_congr (c : Lease.Ceilings) (data : Json.Fields) :
    updateAccess c a data = updateAccess c b data := by
  rw [updateAccess, updateAccess, proposal_rename a b]
  -- data that states no proposal is refused before the name is looked at
  rcases proposal_cases a data with ⟨cause, hp, -⟩ | ⟨p, hp, hname⟩
  · rw [hp]
    rfl
  · have hentry := Entry.Proposal.entry_rename p b (by rw [hname, h])
    rw [hp]
    show Access.storing p _ = Access.storing { p with name := b } _
    rw [Access.storing, Access.storing, hentry]

/-- Requests under two spellings come down to the same access. -/
theorem requestAccess_congr (ha : isValidName a = true) (hb : isValidName b = true)
    (c : Lease.Ceilings) {operation : Operation} (hoperation : operation ≠ .list)
    (data : Json.Fields) :
    requestAccess c ⟨operation, Administration.entryPath a, data⟩
      = requestAccess c ⟨operation, Administration.entryPath b, data⟩ := by
  rw [requestAccess, requestAccess, ofPath_entryPath ha, ofPath_entryPath hb]
  -- a read, an update and a delete each check the name first
  rcases operation with - | - | - | -
  · exact named_congr h _
  · exact absurd rfl hoperation
  · exact updateAccess_congr h c data
  · exact named_congr h _

end SameNormalForm

/-! ### Steps on any table -/

section Tables

variable {t : KeyTable} {c : Lease.Ceilings} {name n : String}

/-- A write that is accepted puts a record into the table. -/
theorem perform_write_keyTable {p : Entry.Proposal} {e : Entry} (h : p.entry = .ok e) :
    Step.perform KeyTable.storage ⟨c, .write p⟩ t
      = (.ok (.written (c.warnings p.ttl p.maxTtl)), t.insert (keyOf e.name) e.record) := by
  rw [perform_keyTable, access_write h]
  rfl

/-- A delete takes the record of the name out of the table. -/
theorem perform_delete_keyTable (hname : checkedName name = .ok n) :
    Step.perform KeyTable.storage ⟨c, .delete name⟩ t = (.ok .deleted, t.erase (keyOf n)) := by
  rw [perform_keyTable]
  show Access.onTable t (.named name fun n => .delete n Answer.deleted) = _
  rw [Access.named, hname]
  rfl

/-- A read finds the entry whose record is there. -/
theorem perform_read_keyTable (e? : Option Entry) (hname : checkedName name = .ok n)
    (h : t[keyOf n]? = e?.map Entry.record) :
    Step.perform KeyTable.storage ⟨c, .read name⟩ t = (.ok (.found e?), t) := by
  rw [perform_keyTable]
  show Access.onTable t (.named name fun n => .read n Answer.found) = _
  rw [Access.named, hname]
  show ((Access.entryOf? t[keyOf n]?).map Answer.found, t) = _
  rw [h]
  rcases e? with - | e
  · rfl
  · rw [Option.map_some, Access.entryOf?, Entry.ofRecord_record]
    rfl

/-- What was stored last under a name is what a read of the name finds. -/
theorem perform_read_insert {e : Entry} (hname : checkedName name = .ok e.name) :
    (Step.perform KeyTable.storage ⟨c, .read name⟩ (t.insert (keyOf e.name) e.record)).1
      = .ok (.found (some e)) := by
  refine congrArg Prod.fst (perform_read_keyTable (some e) hname ?_)
  rw [KeyTable.getElem?_insert]
  exact if_pos rfl

end Tables

/-! ### One entry or two -/

/-- No call tells two names apart, whatever the storage; so what is written under one is what is
read, removed and replaced under the other. -/
structure OneName (a b : String) : Prop where
  read {m : Type → Type} [Monad m] (registry : Registry m) : registry.read a = registry.read b
  delete {m : Type → Type} [Monad m] (registry : Registry m) :
    registry.delete a = registry.delete b
  write {m : Type → Type} [Monad m] (registry : Registry m) (p : Entry.Proposal) :
    registry.write { p with name := a } = registry.write { p with name := b }
  request {m : Type → Type} [Monad m] [LawfulMonad m] (registry : Registry m)
    (operation : Operation) (h : operation ≠ .list) (data : Json.Fields) :
    Administration.handle registry ⟨operation, Administration.entryPath a, data⟩
      = Administration.handle registry ⟨operation, Administration.entryPath b, data⟩
  written (c : Lease.Ceilings) (p : Entry.Proposal) (t : KeyTable) (hp : p.name = a)
    (h : p.entry = .ok p.canonical) :
    (Step.perform KeyTable.storage ⟨c, .read b⟩
      (run KeyTable.storage [⟨c, .write p⟩] t).2).1 = .ok (.found (some p.canonical))
  deleted (c : Lease.Ceilings) (p : Entry.Proposal) (t : KeyTable) (hp : p.name = a)
    (h : p.entry = .ok p.canonical) :
    (Step.perform KeyTable.storage ⟨c, .read a⟩
      (run KeyTable.storage [⟨c, .write p⟩, ⟨c, .delete b⟩] t).2).1 = .ok (.found none)
  replaced (c : Lease.Ceilings) (p q : Entry.Proposal) (t : KeyTable) (hp : p.name = a)
    (hq : q.name = b) (h : q.entry = .ok q.canonical) :
    (Step.perform KeyTable.storage ⟨c, .read a⟩
      (run KeyTable.storage [⟨c, .write p⟩, ⟨c, .write q⟩] t).2).1
        = .ok (.found (some q.canonical))

/-- After a write under each of two names both have the entry that was written under them. -/
def TwoNames (a b : String) : Prop :=
  ∀ c (p q : Entry.Proposal) (t : KeyTable), p.name = a → q.name = b →
    p.entry = .ok p.canonical → q.entry = .ok q.canonical →
    (Step.perform KeyTable.storage ⟨c, .read a⟩
      (run KeyTable.storage [⟨c, .write p⟩, ⟨c, .write q⟩] t).2).1
        = .ok (.found (some p.canonical)) ∧
    (Step.perform KeyTable.storage ⟨c, .read b⟩
      (run KeyTable.storage [⟨c, .write p⟩, ⟨c, .write q⟩] t).2).1
        = .ok (.found (some q.canonical))

/-- Two spellings with one normal form cannot be told apart. -/
theorem oneName_of_normalizeName_eq {a b : String} (ha : isValidName a = true)
    (hb : isValidName b = true) (h : normalizeName a = normalizeName b) : OneName a b where
  read registry := by
    rw [Registry.read, Registry.read, address, address, Entry.checkedName_congr h]
  delete registry := by
    rw [Registry.delete, Registry.delete, address, address, Entry.checkedName_congr h]
  write registry p := by
    have hentry := Entry.Proposal.entry_rename { p with name := a } b h
    rw [Registry.write, Registry.write, ← hentry]
  request registry operation hoperation data := by
    rw [handle_eq, handle_eq, requestAccess_congr h ha hb registry.ceilings hoperation data]
  written c p t hp hentry := by
    obtain rfl := hp
    obtain ⟨-, hname, -, -⟩ := Entry.Proposal.checks_of_entry_eq_ok hentry
    rw [run_singleton, perform_write_keyTable hentry]
    rw [Entry.checkedName_congr h] at hname
    exact perform_read_insert hname
  -- what one spelling stores the other deletes
  deleted c p t hp hentry := by
    obtain rfl := hp
    obtain ⟨-, hname, -, -⟩ := Entry.Proposal.checks_of_entry_eq_ok hentry
    have hname' := (Entry.checkedName_congr h).symm.trans hname
    rw [run_cons, run_singleton, perform_write_keyTable hentry, perform_delete_keyTable hname']
    refine congrArg Prod.fst (perform_read_keyTable none hname ?_)
    rw [KeyTable.getElem?_erase, if_pos rfl]
    rfl
  -- the second write goes to the key of the first
  replaced c p q t hp hq hentry := by
    obtain rfl := hp
    obtain rfl := hq
    obtain ⟨-, hname, -, -⟩ := Entry.Proposal.checks_of_entry_eq_ok hentry
    have hname' := (Entry.checkedName_congr h).trans hname
    rw [run_cons, run_singleton, perform_write_keyTable hentry]
    exact perform_read_insert hname'

/-- Two spellings with different normal forms have a record each. -/
theorem twoNames_of_normalizeName_ne {a b : String} (h : normalizeName a ≠ normalizeName b) :
    TwoNames a b := by
  rintro c p q t rfl rfl hp hq
  obtain ⟨-, hpname, -, -⟩ := Entry.Proposal.checks_of_entry_eq_ok hp
  obtain ⟨-, hqname, -, -⟩ := Entry.Proposal.checks_of_entry_eq_ok hq
  have hkeys : keyOf (normalizeName p.name) ≠ keyOf q.canonical.name := fun heq =>
    h (keyOf_injective heq)
  rw [run_cons, run_singleton, perform_write_keyTable hp, perform_write_keyTable hq]
  constructor
  -- the record of the second name has another key
  · refine congrArg Prod.fst (perform_read_keyTable (some p.canonical) hpname ?_)
    rw [KeyTable.getElem?_insert, if_neg hkeys]
    dsimp only
    rw [KeyTable.getElem?_insert]
    exact if_pos rfl
  · exact perform_read_insert hqname

/-- Valid names that differ in letter case alone are one name, unless one of them ends a word with a
capital sigma and the other with a small one. -/
theorem one_name_iff {a b : String} (ha : isValidName a = true) (hb : isValidName b = true)
    (h : Text.CaseVariants a.toList b.toList) :
    (normalizeName a = normalizeName b ↔ Entry.FinalSigmasAgree a b) ∧
      (Entry.FinalSigmasAgree a b → OneName a b) ∧
      (¬ Entry.FinalSigmasAgree a b → TwoNames a b) := by
  have hiff := Entry.normalizeName_eq_iff h
  -- case apart, only sigmas at the ends of words can differ in the normal forms
  refine ⟨hiff, fun hagree => ?_, fun hagree => ?_⟩
  · exact oneName_of_normalizeName_eq ha hb (hiff.mpr hagree)
  · exact twoNames_of_normalizeName_ne fun heq => hagree (hiff.mp heq)

/-- A capital sigma at the end of a word in both of them, and a small and a capital one before. -/
theorem sigma_names_are_one : OneName "ΣΑΣ" "σαΣ" := by
  have hiff := one_name_iff (a := "ΣΑΣ") (b := "σαΣ") (by decide +kernel) (by decide +kernel)
    (by decide +kernel)
  exact hiff.2.1 (hiff.1.mp (by decide +kernel))

/-- That letter case never matters would be wrong: the small sigma is left as it is. -/
theorem letter_case_may_matter :
    ¬ ∀ a b : String, isValidName a = true → isValidName b = true →
      Text.CaseVariants a.toList b.toList → normalizeName a = normalizeName b := by
  intro h
  have heq := h "ΑΣ" "ασ" (by decide +kernel) (by decide +kernel) (by decide +kernel)
  revert heq
  decide +kernel

end Registry

end TrustStore

import TrustStore.Proofs.Entry.Record
import TrustStore.Proofs.Registry.Keys
import TrustStore.Proofs.Registry.Run

/-!
# The registry as a map of names

On a table the registry refines a finite map from normal names to entries.  The map is read off the
history of a run: `latest` is the entry of the last successful write of a name, unless a successful
deletion follows it (`change?_eq_some_some`, `latest_eq_some_iff`).  `Mirrors` relates such a map to
a table, each access preserves it (`Mirrors.onTable`), and what the calls answer follows from it.

Names are checked before they are looked up, so a call may refuse a name instead of saying that it
has no entry; a request checks its name as it is written, too.
-/

namespace TrustStore.Registry

open Administration (Route Request Response)

/-! ### What calls change -/

namespace Call

/-- The proposal that a call writes. -/
def proposal? : Call → Option Entry.Proposal
  | .write p => some p
  | .request r =>
    match Route.ofPath r.path, r.operation with
    | .ok (.entry name), .update => (Administration.proposal name r.data).toOption
    | _, _ => none
  | _ => none

/-- The name whose entry a call removes. -/
def removed? : Call → Option String
  | .delete name => some name
  | .request r =>
    match Route.ofPath r.path, r.operation with
    | .ok (.entry name), .delete => some name
    | _, _ => none
  | _ => none

/-- The normal form of the name that a call is about. -/
def subject? : Call → Option String
  | .list => none
  | .read name | .delete name => some (Entry.normalizeName name)
  | .write p => some (Entry.normalizeName p.name)
  | .request r =>
    match Route.ofPath r.path with
    | .ok (.entry name) => some (Entry.normalizeName name)
    | _ => none

/-- What a successful call makes of the entry of a normal name: the entry it has then, or that it
has none; nothing where the call leaves it alone. -/
def change? (call : Call) (name : String) : Option (Option Entry) :=
  match call.proposal?, call.removed? with
  | some p, _ => if Entry.normalizeName p.name = name then some (some p.canonical) else none
  | none, some removed => if Entry.normalizeName removed = name then some none else none
  | none, none => none

end Call

/-- What an event makes of the entry of a name: a call that failed changes nothing. -/
def Event.change? (name : String) : Event → Option (Option Entry)
  | (step, .ok _) => step.call.change? name
  | (_, .error _) => none

/-- The entry of a normal name after a history: that of the last event that changed it. -/
def latest (name : String) (history : List Event) : Option Entry :=
  (history.reverse.findSome? (Event.change? name)).join

/-- The last event decides, if it changes the entry at all. -/
theorem latest_concat (name : String) (past : List Event) (event : Event) :
    latest name (past ++ [event]) = (event.change? name).getD (latest name past) := by
  rw [latest, List.reverse_append, List.reverse_singleton, List.singleton_append,
    List.findSome?_cons]
  rcases event.change? name with - | change <;> rfl

/-- An event puts an entry under a name if it is a write that succeeded, of a proposal for that
name. -/
theorem change?_eq_some_some {name : String} {event : Event} {e : Entry} :
    event.change? name = some (some e) ↔ ∃ step answer p, event = (step, .ok answer) ∧
      step.call.proposal? = some p ∧ Entry.normalizeName p.name = name ∧ p.canonical = e := by
  rcases event with ⟨step, fault | answer⟩
  · simp [Event.change?]
  · rcases h : step.call.proposal? with - | p
    · rcases hremoved : step.call.removed? with - | removed <;>
        simp [Event.change?, Call.change?, h, hremoved]
    · simp [Event.change?, Call.change?, h]

/-- The latest entry of a name is that of a successful write after which no event changed it. -/
theorem latest_eq_some_iff {name : String} {past : List Event} {e : Entry} :
    latest name past = some e ↔ ∃ before event later, past = before ++ event :: later ∧
      event.change? name = some (some e) ∧ ∀ other ∈ later, other.change? name = none := by
  rw [latest, Option.join_eq_some_iff, List.findSome?_eq_some_iff]
  constructor
  · rintro ⟨later, event, before, hsplit, hevent, hlater⟩
    refine ⟨before.reverse, event, later.reverse, ?_, hevent, fun other hother => ?_⟩
    · rw [← List.reverse_reverse past, hsplit]
      simp
    · exact hlater other (List.mem_reverse.mp hother)
  · rintro ⟨before, event, later, rfl, hevent, hlater⟩
    refine ⟨later.reverse, event, before.reverse, by simp, hevent, fun other hother => ?_⟩
    exact hlater other (List.mem_reverse.mp hother)

/-! ### What accesses change -/

namespace Access

variable {α β : Type}

def change? (name : String) : Access α → Option (Option Entry)
  | refuse _ | list _ | read _ _ => none
  | delete n _ => if n = name then some none else none
  | store e _ => if e.name = name then some (some e) else none

theorem change?_map (name : String) (f : α → β) (a : Access α) :
    (a.map f).change? name = a.change? name := by
  cases a <;> rfl

/-- An access that changes something succeeds on every table. -/
theorem onTable_ok_of_change? {name : String} {a : Access α} {t : KeyTable}
    {change : Option Entry} (h : a.change? name = some change) :
    ∃ answer, (a.onTable t).1 = .ok answer := by
  rcases a with e | answer | ⟨n, answer⟩ | ⟨n, answer⟩ | ⟨e, answer⟩
  · cases h
  · cases h
  · cases h
  · exact ⟨answer, rfl⟩
  · exact ⟨answer, rfl⟩

/-- Storing a proposal changes the entry of its normal name alone. -/
theorem storing_change? {name : String} (p : Entry.Proposal) (answer : α) :
    (∃ e, storing p answer = .refuse e) ∨ (storing p answer).change? name
      = if Entry.normalizeName p.name = name then some (some p.canonical) else none := by
  unfold storing
  rcases h : p.entry with rule | e
  · exact Or.inl ⟨_, rfl⟩
  · obtain ⟨rfl, -⟩ := Entry.Proposal.entry_eq_ok h
    exact Or.inr rfl

/-- Deleting a name removes the entry of its normal form alone. -/
theorem named_delete_change? {name : String} (n : String) (answer : α) :
    (∃ e, (named n fun n => .delete n answer) = .refuse e) ∨
      (named n fun n => .delete n answer).change? name
        = if Entry.normalizeName n = name then some none else none := by
  unfold named
  rcases h : Entry.checkedName n with rule | n'
  · exact Or.inl ⟨_, rfl⟩
  · obtain ⟨rfl, -⟩ := Entry.checkedName_eq_ok_iff.mp h
    exact Or.inr rfl

/-- Reading changes nothing. -/
theorem named_read_change? {name : String} (n : String) (answer : Option Entry → α) :
    (named n fun n => .read n answer).change? name = none := by
  unfold named
  cases Entry.checkedName n <;> rfl

end Access

/-! ### The name of a call is that of its access -/

namespace Access

variable {α β : Type}

/-- The name that reaches the storage. -/
def name? : Access α → Option String
  | refuse _ | list _ => none
  | read n _ | delete n _ => some n
  | store e _ => some e.name

theorem name?_map (f : α → β) (a : Access α) : (a.map f).name? = a.name? := by
  cases a <;> rfl

/-- Only the entry of that name can change. -/
theorem change?_of_name? {n : String} {a : Access α} (h : a.name? ≠ some n) :
    a.change? n = none := by
  rcases a with e | answer | ⟨name, answer⟩ | ⟨name, answer⟩ | ⟨e, answer⟩
  · rfl
  · rfl
  · rfl
  · exact if_neg fun heq => h (congrArg some heq)
  · exact if_neg fun heq => h (congrArg some heq)

/-- The name that passes a check is the normal form of what was given. -/
theorem name?_named {name n : String} {next : String → Access α}
    (hnext : ∀ n, (next n).name? = some n) (h : (named name next).name? = some n) :
    n = Entry.normalizeName name := by
  unfold named at h
  rcases hname : Entry.checkedName name with rule | n'
  · rw [hname] at h
    cases h
  · rw [hname] at h
    obtain ⟨rfl, -⟩ := Entry.checkedName_eq_ok_iff.mp hname
    exact (Option.some.inj ((hnext _).symm.trans h)).symm

/-- The name that is stored is the normal form of the proposal's. -/
theorem name?_storing {p : Entry.Proposal} {answer : α} {n : String}
    (h : (storing p answer).name? = some n) : n = Entry.normalizeName p.name := by
  unfold storing at h
  rcases hentry : p.entry with rule | e
  · rw [hentry] at h
    cases h
  · rw [hentry] at h
    obtain ⟨rfl, -⟩ := Entry.Proposal.entry_eq_ok hentry
    cases h
    rfl

end Access

/-- A request reaches the normal form of the name in its path, and no other. -/
theorem RequestEnds.subject?_of_name? {ceilings : Lease.Ceilings} {r : Request}
    {a : Access (Option Response)} {n : String} (h : RequestEnds ceilings r a)
    (hn : a.name? = some n) : (Call.request r).subject? = some n := by
  cases h with
  | astray | onlyListed | notListed | illTyped | list => cases hn
  | read hpath | delete hpath =>
    rw [Call.subject?, hpath]
    exact congrArg some (Access.name?_named (fun _ => rfl) hn).symm
  | update hpath _ _ hname =>
    rw [Call.subject?, hpath, ← hname]
    exact congrArg some (Access.name?_storing hn).symm

/-- What reaches the storage is the name that the call is about. -/
theorem subject?_of_name? {ceilings : Lease.Ceilings} {call : Call} {n : String}
    (h : (call.access ceilings).name? = some n) : call.subject? = some n := by
  rcases call with - | name | name | p | r
  · cases h
  · exact congrArg some (Access.name?_named (fun _ => rfl) h).symm
  · exact congrArg some (Access.name?_named (fun _ => rfl) h).symm
  · exact congrArg some (Access.name?_storing h).symm
  · rw [Call.access, Access.name?_map] at h
    exact (requestEnds ceilings r).subject?_of_name? h

/-! ### The change of a call is that of its access -/

/-- A request that is not refused does to each entry what its operation says. -/
theorem RequestEnds.change?_eq {ceilings : Lease.Ceilings} {r : Request}
    {a : Access (Option Response)} (h : RequestEnds ceilings r a) (name : String) :
    (∃ e, a = .refuse e) ∨ a.change? name = (Call.request r).change? name := by
  cases h with
  | astray | onlyListed | notListed | illTyped => exact Or.inl ⟨_, rfl⟩
  | list hpath hoperation =>
    right
    simp [Access.change?, Call.change?, Call.proposal?, Call.removed?, hpath]
  | read hpath hoperation =>
    right
    simp [Access.named_read_change?, Call.change?, Call.proposal?, Call.removed?, hpath, hoperation]
  | @delete n hpath hoperation =>
    have hcall : (Call.request r).change? name
        = if Entry.normalizeName n = name then some none else none := by
      simp [Call.change?, Call.proposal?, Call.removed?, hpath, hoperation]
    rw [hcall]
    exact Access.named_delete_change? n none
  | @update n p hpath hoperation hdata hname =>
    have hcall : (Call.request r).proposal? = some p := by
      simp [Call.proposal?, hpath, hoperation, hdata, Except.toOption]
    rw [Call.change?, hcall]
    exact Access.storing_change? p _

/-- A call that is not refused changes what its access changes. -/
theorem change?_access (ceilings : Lease.Ceilings) (call : Call) (name : String) :
    (∃ e, call.access ceilings = .refuse e) ∨
      (call.access ceilings).change? name = call.change? name := by
  rcases call with - | n | n | p | r
  · exact Or.inr rfl
  · exact Or.inr (Access.named_read_change? n _)
  · exact Access.named_delete_change? n _
  · exact Access.storing_change? p _
  -- a response in place of the request's own answer changes nothing stored
  · rcases (requestEnds ceilings r).change?_eq name with ⟨e, h⟩ | h
    · left
      exact ⟨e, by rw [Call.access, h]; rfl⟩
    · right
      rw [Call.access, Access.change?_map, h]

/-- The change of an event on a table is that of the access of its step. -/
theorem change?_perform (step : Step) (t : KeyTable) (name : String) :
    Event.change? name (step, (step.perform KeyTable.storage t).1)
      = (step.call.access step.ceilings).change? name := by
  rw [perform_keyTable]
  rcases change?_access step.ceilings step.call name with ⟨e, h⟩ | h
  -- a refused call fails
  · rw [h]
    rfl
  · rcases hchange : (step.call.access step.ceilings).change? name with - | change
    · rw [hchange] at h
      rcases ((step.call.access step.ceilings).onTable t).1 with e | answer
      · rfl
      · exact h.symm
    -- a call that changes something does not fail on a table
    · obtain ⟨answer, hanswer⟩ := Access.onTable_ok_of_change? (t := t) hchange
      rw [hanswer, ← hchange, h]
      rfl

/-! ### Tables that mirror a map -/

/-- The table holds the record of each entry, and entries are sound. -/
structure Mirrors (entries : String → Option Entry) (t : KeyTable) : Prop where
  records : ∀ n, t[keyOf n]? = (entries n).map Entry.record
  keys : ∀ key, t[key]?.isSome = true → ∃ n, key = keyOf n
  sound : ∀ n e, entries n = some e → e.name = n ∧ e.Sound

namespace Mirrors

variable {entries : String → Option Entry} {t : KeyTable}

/-- The empty table mirrors no entries. -/
theorem empty : Mirrors (fun _ => none) ∅ where
  records n := Std.ExtTreeMap.getElem?_empty
  keys key h := by
    rw [Std.ExtTreeMap.getElem?_empty] at h
    cases h
  sound n e h := by cases h

/-- A stored entry is mirrored under its name, and the others stay. -/
theorem insert (h : Mirrors entries t) {e : Entry} (he : e.Sound) :
    Mirrors (fun n => if e.name = n then some e else entries n)
      (t.insert (keyOf e.name) e.record) where
  records n := by
    rw [KeyTable.getElem?_insert]
    rcases eq_or_ne e.name n with rfl | hne
    · rw [if_pos rfl, if_pos rfl]
      rfl
    · rw [if_neg fun heq => hne.symm (keyOf_injective heq), if_neg hne, h.records n]
  keys key hkey := by
    rw [KeyTable.getElem?_insert] at hkey
    split at hkey
    · rename_i heq
      exact ⟨e.name, heq⟩
    · exact h.keys key hkey
  sound n e' he' := by
    split at he'
    · rename_i hname
      obtain rfl := Option.some.inj he'
      exact ⟨hname, he⟩
    · exact h.sound n e' he'

/-- With a key, the entry of its name goes. -/
theorem erase (h : Mirrors entries t) (name : String) :
    Mirrors (fun n => if name = n then none else entries n) (t.erase (keyOf name)) where
  records n := by
    rw [KeyTable.getElem?_erase]
    rcases eq_or_ne name n with rfl | hne
    · rw [if_pos rfl, if_pos rfl]
      rfl
    · rw [if_neg fun heq => hne.symm (keyOf_injective heq), if_neg hne, h.records n]
  keys key hkey := by
    rw [KeyTable.getElem?_erase] at hkey
    split at hkey
    · cases hkey
    · exact h.keys key hkey
  sound n e he := by
    split at he
    · cases he
    · exact h.sound n e he

/-- An access leaves a table that mirrors the map with the change of the access. -/
theorem onTable {α : Type} (h : Mirrors entries t) {a : Access α} (ha : a.Proper) :
    Mirrors (fun n => (a.change? n).getD (entries n)) (a.onTable t).2 := by
  -- a refusal, a list and a read leave the table; only a delete and a put change the entries
  rcases a with e | answer | ⟨name, answer⟩ | ⟨name, answer⟩ | ⟨e, answer⟩
  · exact h
  · exact h
  · exact h
  · have hmap : (fun n => ((Access.delete name answer).change? n).getD (entries n))
        = fun n => if name = n then none else entries n := by
      funext n
      rw [Access.change?]
      split <;> rfl
    rw [hmap]
    exact h.erase name
  · have hmap : (fun n => ((Access.store e answer).change? n).getD (entries n))
        = fun n => if e.name = n then some e else entries n := by
      funext n
      rw [Access.change?]
      split <;> rfl
    rw [hmap]
    exact h.insert ha

/-- The list shows the names that have entries. -/
theorem mem_names (h : Mirrors entries t) {n : String} :
    n ∈ Storage.childrenOf directory t.keys ↔ (entries n).isSome = true := by
  -- a sound name has no slash, so its key shows the whole of it
  have hchild : ∀ n, (entries n).isSome = true →
      Storage.childOf? directory (keyOf n) = some n := by
    intro n hn
    obtain ⟨e, he⟩ := Option.isSome_iff_exists.mp hn
    obtain ⟨rfl, hsound⟩ := h.sound n e he
    exact Storage.childOf?_append (Entry.ne_empty_of_isValidName hsound.name.valid)
      (Entry.slash_not_mem_of_isValidName hsound.name.valid)
  have hsome : ∀ n, t[keyOf n]?.isSome = (entries n).isSome := by
    intro n
    rw [h.records n, Option.isSome_map]
  rw [Storage.mem_childrenOf]
  constructor
  · rintro ⟨key, hkey, hshown⟩
    rw [KeyTable.mem_keys_iff] at hkey
    obtain ⟨n', rfl⟩ := h.keys key hkey
    rw [hsome] at hkey
    rw [hchild n' hkey] at hshown
    obtain rfl := Option.some.inj hshown
    exact hkey
  · intro hn
    refine ⟨keyOf n, ?_, hchild n hn⟩
    rw [KeyTable.mem_keys_iff, hsome]
    exact hn

/-- What is stored for a name decodes to the entry of the name. -/
theorem entryOf?_get (h : Mirrors entries t) (n : String) :
    Access.entryOf? t[keyOf n]? = .ok (entries n) := by
  rw [h.records n]
  rcases entries n with - | e
  · rfl
  · rw [Option.map_some, Access.entryOf?, Entry.ofRecord_record]
    rfl

end Mirrors

/-- After a run the table mirrors the map of the latest entries. -/
theorem mirrors_run (steps : List Step) :
    Mirrors (fun n => latest n (history KeyTable.storage steps ∅))
      (run KeyTable.storage steps ∅).2 := by
  refine run_invariant (P := fun past t => Mirrors (fun n => latest n past) t) ?_ steps []
    Mirrors.empty
  intro past t h step
  -- the step changes the table as its access does, and the latest entries as its event does
  have hstep := h.onTable (proper_access step.ceilings step.call)
  rw [← perform_keyTable] at hstep
  convert hstep using 2 with n
  rw [latest_concat, change?_perform]

end TrustStore.Registry

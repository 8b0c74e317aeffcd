import TrustStore.Proofs.Registry.Failures
import TrustStore.Proofs.Registry.NameGates

/-!
# Faults of callers

On a table that a run leads to, a request fails for what it says itself, and would over any storage;
when the storage has a fault, a request that is fine fails with that fault.  `Fault.isCallerFault`
tells the two apart but for one kind of fault: an operation that its path does not support
(`Unsupported`) is the caller's choice, and is not counted among the faults of callers
(`ClassifiesFaults`).
-/

namespace TrustStore.Registry

open Administration (Route Request)

/-! ### Operations and paths -/

/-- The path of the request names something, which does not support the operation. -/
inductive Unsupported : Request → Prop where
  | entries {operation : Operation} {path : String} (data : Json.Fields)
      (hpath : path ∈ ["certs", Administration.entriesPath]) (h : operation ≠ .list) :
      Unsupported ⟨operation, path, data⟩
  | entry {name : String} (data : Json.Fields) (h : Entry.isValidName name = true) :
      Unsupported ⟨.list, Administration.entryPath name, data⟩

/-- Two paths name the list of all entries. -/
theorem mem_of_ofPath_entries {path : String} (h : Route.ofPath path = .ok .entries) :
    path ∈ ["certs", Administration.entriesPath] := by
  unfold Route.ofPath at h
  split at h
  · cases h
  · rename_i name hbelow
    split at h
    -- nothing is left after the prefix, or the path is the prefix without its slash
    · rename_i hempty
      subst hempty
      unfold Administration.belowEntries? at hbelow
      split at hbelow
      · rename_i hpath
        exact hpath ▸ List.mem_cons_self
      · obtain ⟨rest, hrest, hname⟩ := Option.map_eq_some_iff.mp hbelow
        rw [String.ofList_eq_empty_iff] at hname
        subst hname
        rw [List.isPrefixOf?_eq_some_iff_append_eq, List.append_nil, String.toList_inj] at hrest
        exact hrest ▸ List.mem_cons_of_mem _ List.mem_cons_self
    · split at h <;> cases h

/-- Only one path names an entry in a given spelling. -/
theorem entryPath_of_ofPath {path name : String} (h : Route.ofPath path = .ok (.entry name)) :
    path = Administration.entryPath name := by
  have hne := Entry.ne_empty_of_isValidName (isValidName_of_ofPath h)
  unfold Route.ofPath at h
  split at h
  · cases h
  · rename_i name' hbelow
    split at h
    · cases h
    · split at h
      · cases h
        exact (belowEntries?_eq_some hbelow).resolve_left hne
      · cases h

/-! ### What requests are refused with -/

section

variable {c : Lease.Ceilings} {r : Request} {e : Fault}

/-- An operation that its path does not support is refused as such. -/
theorem requestAccess_of_unsupported (h : Unsupported r) :
    requestAccess c r = .refuse (.unsupported r.operation r.path) := by
  cases h with
  | @entries operation path data hpath hne =>
    rw [requestAccess, ofPath_entries hpath]
    cases operation with
    | list => exact absurd rfl hne
    | read | update | delete => rfl
  | entry data hvalid =>
    rw [requestAccess, ofPath_entryPath hvalid]
    rfl

/-- A request is refused for its path, its data or its entry, or is not supported. -/
theorem RequestEnds.isCallerFault_or_unsupported {a : Access (Option Administration.Response)}
    (h : RequestEnds c r a) (ha : a = .refuse e) : e.isCallerFault = true ∨ Unsupported r := by
  cases h with
  | astray | illTyped =>
    cases ha
    exact Or.inl rfl
  | list => cases ha
  | onlyListed hpath hoperation =>
    exact Or.inr (.entries r.data (mem_of_ofPath_entries hpath) hoperation)
  | notListed hpath hoperation =>
    rcases r with ⟨operation, path, data⟩
    obtain rfl : operation = .list := hoperation
    obtain rfl := entryPath_of_ofPath hpath
    exact Or.inr (.entry data (isValidName_of_ofPath hpath))
  | read | delete =>
    obtain ⟨rule, rfl, -⟩ := (Access.named_eq_refuse_iff (by simp)).mp ha
    exact Or.inl rfl
  | update =>
    obtain ⟨rule, rfl, -⟩ := Access.storing_eq_refuse_iff.mp ha
    exact Or.inl rfl

end

/-! ### Classification -/

theorem eq_unavailable_of_outage {reads writes : Bool} {q : Storage.Query} {e : Fault}
    (h : Storage.outage reads writes q = some e) : e = .storage .unavailable := by
  cases q <;> cases reads <;> cases writes <;> cases h <;> rfl

/-- How the faults of a request on a table are classified. -/
structure ClassifiesFaults (t : KeyTable) (c : Lease.Ceilings) (r : Request) : Prop where
  /-- The request has caused the fault: it fails so over any storage in any state. -/
  caused (e : Fault) (h : (Step.perform KeyTable.storage ⟨c, .request r⟩ t).1 = .error e)
    {σ : Type} (storage : Storage (StateM σ)) (state : σ) :
    (Step.perform storage ⟨c, .request r⟩ state).1 = .error e
  classified (e : Fault) (h : (Step.perform KeyTable.storage ⟨c, .request r⟩ t).1 = .error e) :
    e.isCallerFault = true ↔ ¬ Unsupported r
  unsupported (h : Unsupported r) : (Step.perform KeyTable.storage ⟨c, .request r⟩ t).1
    = .error (.unsupported r.operation r.path)
  /-- Where the request would have succeeded, the fault is the one that the storage has. -/
  storage (fault : Storage.Query → Option Fault)
    (hfault : ∀ q e, fault q = some e → e.isCallerFault = false) (answer : Answer) (e : Fault)
    (hsound : (Step.perform KeyTable.storage ⟨c, .request r⟩ t).1 = .ok answer)
    (h : (Step.perform (KeyTable.storage.faulty fault) ⟨c, .request r⟩ t).1 = .error e) :
    e.isCallerFault = false
  outage (reads writes : Bool) (answer : Answer) (e : Fault)
    (hsound : (Step.perform KeyTable.storage ⟨c, .request r⟩ t).1 = .ok answer)
    (h : (Step.perform (KeyTable.storage.failing reads writes) ⟨c, .request r⟩ t).1 = .error e) :
    e = .storage .unavailable ∧ e.isCallerFault = false

/-- A refusal does not depend on the storage. -/
theorem perform_of_refuse {c : Lease.Ceilings} {r : Request} {e : Fault}
    (h : requestAccess c r = .refuse e) {σ : Type} (storage : Storage (StateM σ)) (state : σ) :
    (Step.perform storage ⟨c, .request r⟩ state).1 = .error e := by
  rw [perform_eq_run]
  show (Access.run storage ((requestAccess c r).map Answer.response) state).1 = _
  rw [h]
  rfl

/-- On a table that mirrors entries nothing but a refusal fails. -/
theorem Mirrors.refuse_of_error {entries : String → Option Entry} {t : KeyTable}
    (ht : Mirrors entries t) {c : Lease.Ceilings} {r : Request} {e : Fault}
    (h : (Step.perform KeyTable.storage ⟨c, .request r⟩ t).1 = .error e) :
    requestAccess c r = .refuse e := by
  rw [perform_keyTable] at h
  exact Access.map_eq_refuse_iff.mp (ht.eq_refuse_of_onTable h)

theorem Mirrors.classifiesFaults {entries : String → Option Entry} {t : KeyTable}
    (ht : Mirrors entries t) (c : Lease.Ceilings) (r : Request) : ClassifiesFaults t c r where
  caused e h _ storage state := perform_of_refuse (ht.refuse_of_error h) storage state
  classified e h := by
    have hrefuse := ht.refuse_of_error h
    constructor
    · intro hcaller hunsupported
      rw [requestAccess_of_unsupported hunsupported] at hrefuse
      cases hrefuse
      cases hcaller
    · exact ((requestEnds c r).isCallerFault_or_unsupported hrefuse).resolve_right
  unsupported h := perform_of_refuse (requestAccess_of_unsupported h) KeyTable.storage t
  storage fault hfault answer e hsound h := by
    obtain ⟨q, -, hq⟩ := (failsCleanly fault _ t).ofStorage answer e hsound h
    exact hfault q e hq
  -- a storage that is down is one whose queries all fail with one fault
  outage reads writes answer e hsound h := by
    rw [Storage.failing_eq_faulty] at h
    obtain ⟨q, -, hq⟩ := (failsCleanly _ _ t).ofStorage answer e hsound h
    obtain rfl := eq_unavailable_of_outage hq
    exact ⟨rfl, rfl⟩

/-- On every table that a run leads to: a request that fails has itself to blame, and its fault is
counted as the caller's unless its operation is not supported; a fault of the storage never is. -/
theorem faults_of_requests_are_classified (steps : List Step) (c : Lease.Ceilings) (r : Request) :
    ClassifiesFaults (run KeyTable.storage steps ∅).2 c r :=
  (mirrors_run steps).classifiesFaults c r

theorem unsupported_list : Unsupported ⟨.list, Administration.entryPath "web", []⟩ :=
  .entry [] (by decide +kernel)

/-- The list of an entry is refused, whatever is stored, and the entry is read unless reads fail. -/
theorem web_cannot_be_listed :
    (Step.perform KeyTable.storage ⟨⟨60, 60⟩, requestOn .list "web" []⟩
        (run KeyTable.storage [⟨⟨60, 60⟩, .write .acceptable⟩] ∅).2).1
      = .error (.unsupported .list (Administration.entryPath "web")) ∧
    (Step.perform KeyTable.storage ⟨⟨60, 60⟩, requestOn .read "web" []⟩ ∅).1
      = .ok (.response none) ∧
    (Step.perform (KeyTable.storage.failing true false) ⟨⟨60, 60⟩, requestOn .read "web" []⟩ ∅).1
      = .error (.storage .unavailable) ∧
    Fault.isCallerFault (.storage .unavailable) = false := by
  have hread : (Step.perform KeyTable.storage ⟨⟨60, 60⟩, requestOn .read "web" []⟩ ∅).1
      = .ok (.response none) := by
    rw [perform_keyTable, access_requestOn_read _ _ (by decide +kernel),
      Mirrors.empty.onTable_read, underName,
      show Entry.checkedName "web" = .ok "web" by decide +kernel]
    rfl
  have hfails : (Step.perform (KeyTable.storage.failing true false)
      ⟨⟨60, 60⟩, requestOn .read "web" []⟩ ∅).1 = .error (.storage .unavailable) := by
    decide +kernel
  refine ⟨?_, hread, hfails, ?_⟩
  · exact (faults_of_requests_are_classified _ ⟨60, 60⟩ _).unsupported unsupported_list
  · exact ((faults_of_requests_are_classified [] ⟨60, 60⟩ _).outage true false _ _ hread hfails).2

/-- A request may fail on its own account and with no fault of a caller. -/
theorem unsupported_is_not_the_callers : ¬ ∀ steps c r e,
    (Step.perform KeyTable.storage ⟨c, .request r⟩ (run KeyTable.storage steps ∅).2).1 = .error e →
      e.isCallerFault = true := by
  intro h
  have hcaller := h [] ⟨60, 60⟩ _ _
    (perform_of_refuse (requestAccess_of_unsupported unsupported_list) _ _)
  cases hcaller

end TrustStore.Registry

import TrustStore.Administration.Handling
import TrustStore.Proofs.Entry.Soundness

/-!
# Calls and their accesses

A `Call` is anything that the registry can be asked: one of its own operations or an administrative
request.  However it is asked, a call comes down to an `Access`: it is refused before the storage
is touched, or it makes a single call of the storage.  `perform_eq` says so for any storage, and
`proper_access` that what reaches the storage has been checked: names are normal and entries sound.
`RequestEnds` lists every access that a request can come down to, with what leads there.
-/

namespace TrustStore.Registry

/-! ### Calls -/

inductive Call where
  | list
  | read (name : String)
  | delete (name : String)
  | write (p : Entry.Proposal)
  | request (r : Administration.Request)

inductive Answer where
  | names (l : List String)
  | found (e : Option Entry)
  | deleted
  | written (warnings : List Lease.Warning)
  | response (r : Option Administration.Response)

section Perform

variable {m : Type → Type} [Monad m]

def Call.perform (registry : Registry m) : Call → ExceptT Fault m Answer
  | .list => Answer.names <$> registry.list
  | .read name => Answer.found <$> registry.read name
  | .delete name => (fun _ => Answer.deleted) <$> registry.delete name
  | .write p => Answer.written <$> registry.write p
  | .request r => Answer.response <$> Administration.handle registry r

end Perform

/-! ### Accesses -/

/-- What a call comes down to, with the answer to what the storage says. -/
inductive Access (α : Type) where
  | refuse (e : Fault)
  | list (answer : List String → α)
  | read (name : String) (answer : Option Entry → α)
  | delete (name : String) (answer : α)
  | store (e : Entry) (answer : α)

namespace Access

variable {α β : Type}

/-- The access with its answer put into another form. -/
def map (f : α → β) : Access α → Access β
  | refuse e => refuse e
  | list answer => list (f ∘ answer)
  | read name answer => read name (f ∘ answer)
  | delete name answer => delete name (f answer)
  | store e answer => store e (f answer)

/-- The names and the entry that reach the storage have been checked. -/
def Proper : Access α → Prop
  | refuse _ | list _ => True
  | read name _ | delete name _ => Entry.IsNormal name
  | store e _ => e.Sound

theorem proper_map {f : α → β} {a : Access α} : (a.map f).Proper ↔ a.Proper := by
  cases a <;> exact Iff.rfl

/-- An access under a name, which is checked first. -/
def named (name : String) (next : String → Access α) : Access α :=
  match Entry.checkedName name with
  | .ok n => next n
  | .error rule => .refuse (.argument rule)

/-- An access that stores the entry of a proposal. -/
def storing (p : Entry.Proposal) (answer : α) : Access α :=
  match p.entry with
  | .ok e => .store e answer
  | .error rule => .refuse (.argument rule)

/-- What goes on with a checked name goes on with a normal one. -/
theorem proper_named {name : String} {next : String → Access α}
    (h : ∀ n, Entry.IsNormal n → (next n).Proper) : (named name next).Proper := by
  unfold named
  split
  · rename_i n hname
    exact h n (Entry.isNormal_of_checkedName hname)
  · trivial

/-- An entry is stored only if its proposal keeps all rules. -/
theorem proper_storing (p : Entry.Proposal) (answer : α) : (storing p answer).Proper := by
  unfold storing
  split
  · rename_i e hentry
    exact (Entry.Proposal.entry_eq_ok hentry).2
  · trivial

/-! ### Running an access -/

variable {m : Type → Type} [Monad m]

/-- The entry of what is stored under a key. -/
def entryOf? : Option Bytes → Except Fault (Option Entry)
  | none => .ok none
  | some record => ((Entry.ofRecord record).map some).mapError .record

/-- An access on a storage: one query at most, and an answer to what that says. -/
def run (storage : Storage m) : Access α → ExceptT Fault m α
  | refuse e => throw e
  | list answer => answer <$> storage.list directory
  | read name answer => do
    let record ← storage.get (keyOf name)
    ExceptT.mk (pure ((entryOf? record).map answer))
  | delete name answer => (fun _ => answer) <$> storage.delete (keyOf name)
  | store e answer => (fun _ => answer) <$> storage.put (keyOf e.name) e.record

variable [LawfulMonad m] {storage : Storage m}

theorem run_map (f : α → β) (a : Access α) : (a.map f).run storage = f <$> a.run storage := by
  rcases a with e | answer | ⟨name, answer⟩ | ⟨name, answer⟩ | ⟨e, answer⟩
  · apply ExceptT.ext
    simp [map, run]
  · exact comp_map answer f (storage.list directory)
  · apply ExceptT.ext
    show _ = (f <$> (storage.get (keyOf name) >>= fun record => _)).run
    rw [map_bind]
    refine congrArg ExceptT.run (bind_congr fun record => ?_)
    apply ExceptT.ext
    rw [ExceptT.run_map, ExceptT.run_mk, ExceptT.run_mk, map_pure]
    cases entryOf? record <;> rfl
  · exact comp_map (fun _ => answer) f (storage.delete (keyOf name))
  · exact comp_map (fun _ => answer) f (storage.put (keyOf e.name) e.record)

/-- The check of a name comes before the storage. -/
theorem run_named (name : String) (next : String → Access α) :
    (named name next).run storage
      = checked (Entry.checkedName name) >>= fun n => (next n).run storage := by
  apply ExceptT.ext
  unfold named
  cases Entry.checkedName name <;> simp [checked, ExceptT.run_bind, run, Except.mapError]

/-- The checks of a proposal come before the storage. -/
theorem run_storing (p : Entry.Proposal) (answer : α) :
    (storing p answer).run storage = checked p.entry >>= fun e => (store e answer).run storage := by
  apply ExceptT.ext
  unfold storing
  cases p.entry <;> simp [checked, ExceptT.run_bind, run, Except.mapError]

end Access

/-! ### What calls come down to -/

open Administration (Route Request Response)

/-- The access of an update, whose data are read first. -/
def updateAccess (ceilings : Lease.Ceilings) (name : String) (data : Json.Fields) :
    Access (Option Response) :=
  match Administration.proposal name data with
  | .ok p =>
    .storing p (Response.ofWarnings? ((ceilings.warnings p.ttl p.maxTtl).map Lease.Warning.text))
  | .error e => .refuse e

/-- The access of a request on what its path names. -/
def accessOf (ceilings : Lease.Ceilings) (route : Route) (r : Request) : Access (Option Response) :=
  match route, r.operation with
  | .entries, .list => .list fun names => some (.ofKeys names)
  | .entry name, .read => .named name fun n => .read n fun e => e.map fun e => .ofData e.shown
  | .entry name, .update => updateAccess ceilings name r.data
  | .entry name, .delete => .named name fun n => .delete n none
  | _, operation => .refuse (.unsupported operation r.path)

/-- The access of a request; a path that names nothing is refused. -/
def requestAccess (ceilings : Lease.Ceilings) (r : Request) : Access (Option Response) :=
  match Route.ofPath r.path with
  | .ok route => accessOf ceilings route r
  | .error e => .refuse (.request e)

/-- The access of a call. -/
def Call.access (ceilings : Lease.Ceilings) : Call → Access Answer
  | .list => .list .names
  | .read name => .named name fun n => .read n .found
  | .delete name => .named name fun n => .delete n .deleted
  | .write p => .storing p (.written (ceilings.warnings p.ttl p.maxTtl))
  | .request r => (requestAccess ceilings r).map .response

section

variable {m : Type → Type} [Monad m] [LawfulMonad m] (registry : Registry m)

theorem read_eq {α : Type} (name : String) (answer : Option Entry → α) :
    answer <$> registry.read name
      = (Access.named name fun n => .read n answer).run registry.storage := by
  rw [Access.run_named]
  unfold read address
  rw [bind_assoc, map_bind]
  refine bind_congr fun n => ?_
  rw [pure_bind, map_bind]
  refine bind_congr fun record => ?_
  apply ExceptT.ext
  rw [ExceptT.run_map, ExceptT.run_mk]
  -- nothing is stored, or what is stored decodes or does not
  rcases record with - | record
  · simp [Access.entryOf?, Except.map]
  · rcases h : Entry.ofRecord record with problem | e <;>
      simp [h, Access.entryOf?, Except.map, Except.mapError]

theorem delete_eq {α : Type} (name : String) (answer : α) :
    (fun _ => answer) <$> registry.delete name
      = (Access.named name fun n => .delete n answer).run registry.storage := by
  rw [Access.run_named]
  unfold delete address
  rw [bind_assoc, map_bind]
  refine bind_congr fun n => ?_
  rw [pure_bind]
  rfl

/-- A write stores the entry of its proposal, if it has one. -/
theorem write_eq {α : Type} (p : Entry.Proposal) (answer : List Lease.Warning → α) :
    answer <$> registry.write p
      = (Access.storing p (answer (registry.ceilings.warnings p.ttl p.maxTtl))).run
          registry.storage := by
  rw [Access.run_storing]
  unfold write
  rw [map_bind]
  refine bind_congr fun e => ?_
  rw [map_bind]
  simp [Access.run]

/-- An update is the write of what its data propose. -/
theorem update_eq (name : String) (data : Json.Fields) :
    (do
      let warnings ← registry.write (← ExceptT.mk (pure (Administration.proposal name data)))
      return Response.ofWarnings? (warnings.map Lease.Warning.text))
      = (updateAccess registry.ceilings name data).run registry.storage := by
  unfold updateAccess
  rcases Administration.proposal name data with fault | p
  · apply ExceptT.ext
    simp [ExceptT.run_bind, Access.run]
  · dsimp only
    rw [← write_eq registry p fun warnings =>
      Response.ofWarnings? (warnings.map Lease.Warning.text), map_eq_pure_bind]
    exact pure_bind p _

theorem answer_eq (route : Route) (r : Request) :
    Administration.answer registry route r
      = (accessOf registry.ceilings route r).run registry.storage := by
  rcases r with ⟨operation, path, data⟩
  rcases route with - | name
  -- all entries can be listed only
  · rcases operation with - | - | - | -
    · rfl
    · exact bind_pure_comp _ _
    · rfl
    · rfl
  -- one entry can be read, updated and deleted
  · rcases operation with - | - | - | -
    · exact (bind_pure_comp _ _).trans (read_eq registry name _)
    · rfl
    · exact update_eq registry name data
    · exact (bind_pure_comp _ _).trans (delete_eq registry name none)

/-- The path of a request is read first, and what it names decides. -/
theorem handle_eq (r : Request) :
    Administration.handle registry r
      = (requestAccess registry.ceilings r).run registry.storage := by
  unfold Administration.handle requestAccess
  rcases Route.ofPath r.path with e | route
  · rfl
  · exact answer_eq registry route r

/-- A call performs its access and nothing else. -/
theorem perform_eq (call : Call) :
    call.perform registry = (call.access registry.ceilings).run registry.storage := by
  rcases call with - | name | name | p | r
  · rfl
  · exact read_eq registry name _
  · exact delete_eq registry name _
  · exact write_eq registry p _
  -- a request answers with a response, any other call with its own result
  · show Answer.response <$> _ = _
    rw [handle_eq, ← Access.run_map]
    rfl

end

/-! ### Every end of a request -/

/-- The data of an update are refused, for no name, or make a proposal under the name of the
path. -/
theorem proposal_cases (name : String) (data : Json.Fields) :
    (∃ cause, Administration.proposal name data = .error (.request cause) ∧
      ∀ n, cause ≠ .invalidName n) ∨
      ∃ p, Administration.proposal name data = .ok p ∧ p.name = name := by
  unfold Administration.proposal
  -- the data decode or do not, and then either length may be refused
  rcases Json.decodeValue Entry.Draft.decoder (.object data) with e | draft
  · exact Or.inl ⟨_, rfl, fun n => nofun⟩
  · dsimp only
    unfold Entry.Draft.proposal Entry.seconds
    rcases draft.ttl.resolve with cause | ttl
    · exact Or.inl ⟨_, rfl, fun n => nofun⟩
    · rcases draft.maxTtl.resolve with cause | maxTtl
      · exact Or.inl ⟨_, rfl, fun n => nofun⟩
      · exact Or.inr ⟨_, rfl, rfl⟩

/-- The access that a request comes down to, with what leads there: its path names nothing, or does
not support the operation, or the data of an update are refused, or the operation is done. -/
inductive RequestEnds (ceilings : Lease.Ceilings) (r : Request) : Access (Option Response) → Prop
  where
  | astray {cause : RequestError} (hpath : Route.ofPath r.path = .error cause) :
    RequestEnds ceilings r (.refuse (.request cause))
  | onlyListed (hpath : Route.ofPath r.path = .ok .entries) (hoperation : r.operation ≠ .list) :
    RequestEnds ceilings r (.refuse (.unsupported r.operation r.path))
  | notListed {name : String} (hpath : Route.ofPath r.path = .ok (.entry name))
    (hoperation : r.operation = .list) :
    RequestEnds ceilings r (.refuse (.unsupported r.operation r.path))
  | list (hpath : Route.ofPath r.path = .ok .entries) (hoperation : r.operation = .list) :
    RequestEnds ceilings r (.list fun names => some (.ofKeys names))
  | read {name : String} (hpath : Route.ofPath r.path = .ok (.entry name))
    (hoperation : r.operation = .read) :
    RequestEnds ceilings r (.named name fun n => .read n fun e => e.map fun e => .ofData e.shown)
  | delete {name : String} (hpath : Route.ofPath r.path = .ok (.entry name))
    (hoperation : r.operation = .delete) :
    RequestEnds ceilings r (.named name fun n => .delete n none)
  | illTyped {name : String} {cause : RequestError}
    (hpath : Route.ofPath r.path = .ok (.entry name)) (hoperation : r.operation = .update)
    (hdata : Administration.proposal name r.data = .error (.request cause))
    (hcause : ∀ n, cause ≠ .invalidName n) :
    RequestEnds ceilings r (.refuse (.request cause))
  | update {name : String} {p : Entry.Proposal} (hpath : Route.ofPath r.path = .ok (.entry name))
    (hoperation : r.operation = .update) (hdata : Administration.proposal name r.data = .ok p)
    (hname : p.name = name) :
    RequestEnds ceilings r (.storing p
      (Response.ofWarnings? ((ceilings.warnings p.ttl p.maxTtl).map Lease.Warning.text)))

/-- There is no other way for it to end. -/
theorem requestEnds (ceilings : Lease.Ceilings) (r : Request) :
    RequestEnds ceilings r (requestAccess ceilings r) := by
  rcases r with ⟨operation, path, data⟩
  unfold requestAccess
  rcases hpath : Route.ofPath path with cause | (- | name)
  · exact .astray hpath
  -- all entries can be listed only
  · rcases operation with - | - | - | -
    · exact .onlyListed hpath nofun
    · exact .list hpath rfl
    · exact .onlyListed hpath nofun
    · exact .onlyListed hpath nofun
  -- one entry can be read, updated and deleted
  · rcases operation with - | - | - | -
    · exact .read hpath rfl
    · exact .notListed hpath rfl
    · show RequestEnds _ _ (updateAccess ceilings name data)
      unfold updateAccess
      rcases proposal_cases name data with ⟨cause, hdata, hcause⟩ | ⟨p, hdata, hname⟩
      · rw [hdata]
        exact .illTyped hpath rfl hdata hcause
      · rw [hdata]
        exact .update hpath rfl hdata hname
    · exact .delete hpath rfl

/-! ### What reaches the storage -/

/-- Whatever a request says, only a normal name or a sound entry passes on. -/
theorem RequestEnds.proper {ceilings : Lease.Ceilings} {r : Request} {a : Access (Option Response)}
    (h : RequestEnds ceilings r a) : a.Proper := by
  cases h with
  | astray | onlyListed | notListed | illTyped | list => trivial
  | read | delete => exact Access.proper_named fun n hn => hn
  | update => exact Access.proper_storing _ _

/-- No call passes on anything unchecked. -/
theorem proper_access (ceilings : Lease.Ceilings) (call : Call) :
    (call.access ceilings).Proper := by
  rcases call with - | name | name | p | r
  · trivial
  · exact Access.proper_named fun n hn => hn
  · exact Access.proper_named fun n hn => hn
  · exact Access.proper_storing p _
  · exact Access.proper_map.mpr (requestEnds ceilings r).proper

/-! ### Refusals -/

/-- The call itself is at fault, and nothing that stands behind it. -/
def IsRefusal : Fault → Prop
  | .argument _ | .request _ | .unsupported _ _ => True
  | _ => False

namespace Access

variable {α β : Type}

theorem map_eq_refuse_iff {f : α → β} {a : Access α} {e : Fault} :
    a.map f = .refuse e ↔ a = .refuse e := by
  cases a <;> simp [map]

/-- What goes on with a name refuses the name, if it does not refuse anything itself. -/
theorem named_eq_refuse_iff {name : String} {next : String → Access α} {e : Fault}
    (hnext : ∀ n e, next n ≠ .refuse e) : named name next = .refuse e ↔
      ∃ rule, e = .argument rule ∧ Entry.checkedName name = .error rule := by
  unfold named
  rcases Entry.checkedName name with rule | n
  · simp [eq_comm]
  · simp [hnext]

theorem storing_eq_refuse_iff {p : Entry.Proposal} {answer : α} {e : Fault} :
    storing p answer = .refuse e ↔ ∃ rule, e = .argument rule ∧ p.entry = .error rule := by
  unfold storing
  rcases p.entry with rule | stored
  · simp [eq_comm]
  · simp

/-- An access refuses for a fault of the call only. -/
def RefusesCall (a : Access α) : Prop := ∀ e, a = .refuse e → IsRefusal e

theorem refusesCall_refuse {e : Fault} (h : IsRefusal e) : (refuse e : Access α).RefusesCall := by
  intro e' he'
  cases he'
  exact h

theorem refusesCall_list (answer : List String → α) : (list answer).RefusesCall := nofun

theorem refusesCall_named {name : String} {next : String → Access α}
    (hnext : ∀ n e, next n ≠ .refuse e) : (named name next).RefusesCall := by
  intro e he
  obtain ⟨rule, rfl, -⟩ := (named_eq_refuse_iff hnext).mp he
  trivial

theorem refusesCall_storing (p : Entry.Proposal) (answer : α) :
    (storing p answer).RefusesCall := by
  intro e he
  obtain ⟨rule, rfl, -⟩ := storing_eq_refuse_iff.mp he
  trivial

end Access

/-- A request is refused for its path, its operation, its data or its entry. -/
theorem RequestEnds.refusesCall {ceilings : Lease.Ceilings} {r : Request}
    {a : Access (Option Response)} (h : RequestEnds ceilings r a) : a.RefusesCall := by
  cases h with
  | astray | onlyListed | notListed | illTyped => exact Access.refusesCall_refuse trivial
  | list => exact Access.refusesCall_list _
  | read | delete => exact Access.refusesCall_named fun _ _ => nofun
  | update => exact Access.refusesCall_storing _ _

/-- A call refuses only for what its caller said. -/
theorem refusesCall_access (ceilings : Lease.Ceilings) (call : Call) :
    (call.access ceilings).RefusesCall := by
  rcases call with - | name | name | p | r
  · exact Access.refusesCall_list _
  · exact Access.refusesCall_named fun _ _ => nofun
  · exact Access.refusesCall_named fun _ _ => nofun
  · exact Access.refusesCall_storing p _
  · exact fun e he => (requestEnds ceilings r).refusesCall e (Access.map_eq_refuse_iff.mp he)

end TrustStore.Registry

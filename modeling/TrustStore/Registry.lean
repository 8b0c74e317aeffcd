import TrustStore.Entry.Acceptance
import TrustStore.Lease.Ceilings
import TrustStore.Storage.Basic

/-!
# The registry

The entries of a storage, each under a key made from its name.  Names are checked, and proposals
accepted, before the storage is touched.
-/

namespace TrustStore

structure Registry (m : Type → Type) where
  storage : Storage m
  ceilings : Lease.Ceilings

namespace Registry

/-! ### Keys -/

/-- What the keys of all entries begin with. -/
def directory : String := "cert/"

def keyOf (name : String) : String := directory ++ name

variable {m : Type → Type} [Monad m]

/-- A rule that is broken is a fault of the argument. -/
def checked {α : Type} (result : Except EntryRule α) : ExceptT Fault m α :=
  ExceptT.mk (pure (result.mapError .argument))

/-- The key of the entry that a name addresses. -/
def address (name : String) : ExceptT Fault m String := do
  return keyOf (← checked (Entry.checkedName name))

/-! ### Operations -/

/-- The names of all entries. -/
def list (r : Registry m) : ExceptT Fault m (List String) := r.storage.list directory

/-- The entry of a name, if there is one. -/
def read (r : Registry m) (name : String) : ExceptT Fault m (Option Entry) := do
  match ← r.storage.get (← address name) with
  | none => return none
  | some record =>
    match Entry.ofRecord record with
    | .ok e => return some e
    | .error e => throw (.record e)

/-- Removes the entry of a name, which need not be there. -/
def delete (r : Registry m) (name : String) : ExceptT Fault m Unit := do
  r.storage.delete (← address name)

/-- Stores the entry of a proposal in place of an earlier one.  The ceilings refuse nothing, but a
proposal that exceeds them is answered with warnings. -/
def write (r : Registry m) (p : Entry.Proposal) : ExceptT Fault m (List Lease.Warning) := do
  let e ← checked p.entry
  r.storage.put (keyOf e.name) e.record
  return r.ceilings.warnings p.ttl p.maxTtl

end Registry

end TrustStore

import TrustStore.Administration.Request
import TrustStore.Administration.Response
import TrustStore.Registry

/-!
# Handling of requests

The path `certs/` names all entries, which can be listed; below it each valid name is the path of
an entry, which can be read, updated and deleted.
-/

namespace TrustStore.Administration

/-! ### Routes -/

/-- What a path names. -/
inductive Route where
  | entries
  | entry (name : String)
deriving DecidableEq, Repr

/-- The path of all entries. -/
def entriesPath : String := "certs/"

def entryPath (name : String) : String := entriesPath ++ name

/-- What stands below the path of all entries, whose slash may be left out. -/
def belowEntries? (path : String) : Option String :=
  if path = "certs" then some ""
  else (entriesPath.toList.isPrefixOf? path.toList).map String.ofList

/-- The name is checked as it stands in the path, letter case and all. -/
def Route.ofPath (path : String) : Except RequestError Route :=
  match belowEntries? path with
  | none => .error (.unknownPath path)
  | some name =>
    if name = "" then .ok .entries
    else if Entry.isValidName name then .ok (.entry name)
    else .error (.invalidName name)

/-! ### Answers -/

/-- The proposal of an update. -/
def proposal (name : String) (data : Json.Fields) : Except Fault Entry.Proposal := do
  match Json.decodeValue Entry.Draft.decoder (.object data) with
  | .ok draft => draft.proposal name
  | .error e => .error (.request (.data e))

variable {m : Type → Type} [Monad m]

def answer (registry : Registry m) (route : Route) (request : Request) :
    ExceptT Fault m (Option Response) :=
  match route, request.operation with
  | .entries, .list => do return some (.ofKeys (← registry.list))
  | .entry name, .read => do return (← registry.read name).map fun e => .ofData e.shown
  | .entry name, .update => do
    let warnings ← registry.write (← ExceptT.mk (pure (proposal name request.data)))
    return Response.ofWarnings? (warnings.map Lease.Warning.text)
  | .entry name, .delete => do
    registry.delete name
    return none
  | _, operation => throw (.unsupported operation request.path)

/-- Answers a request, or says why it could not be done. -/
def handle (registry : Registry m) (request : Request) : ExceptT Fault m (Option Response) :=
  match Route.ofPath request.path with
  | .ok route => answer registry route request
  | .error e => throw (.request e)

end TrustStore.Administration

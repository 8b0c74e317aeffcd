import TrustStore.FileTree.Calls
import TrustStore.Storage.Basic

/-!
# Directories as storages

Each key is a file below a root directory.  A record is first written to a staging file beside its
place, made private there and then moved, so that nobody sees a part of it.
-/

namespace TrustStore.Storage.Directory

/-! ### Paths of keys -/

/-- A path that leads down from where it begins. -/
def isPlain (p : Path) : Bool :=
  !p.absolute && p.steps.head?.any (· ≠ ".") && p.steps.all (· ≠ "..")

/-- The path of a key below the root. -/
def pathOf (root : Path) (key : String) : Except Fault Path :=
  if isPlain (.ofText key) then .ok (root.below (.ofText key))
  else .error (.storage (.invalidKey key))

/-- The path of a staging file. -/
def stagingOf (p : Path) (name : String) : Path := p.sibling ("." ++ name ++ ".tmp")

/-- The text without the slashes at its end. -/
def trimSlashes (s : String) : String :=
  String.ofList (s.toList.reverse.dropWhile (· == '/')).reverse

/-- The directory that is listed for a text. -/
def listedPath (root : Path) (above : String) : Except Fault Path :=
  if trimSlashes above = "" then .ok root else pathOf root (trimSlashes above)

/-! ### Files of keys -/

/-- The mode of a record: only its owner may read and write it. -/
def recordMode : Nat := 0o600

/-- What a directory shows for one of its names: hidden files are passed over. -/
def shownName? (name : String) (isDirectory : Bool) : Option String :=
  if isDirectory then some (name ++ "/")
  else if name.toList.head? == some '.' then none
  else some name

variable {m : Type → Type} [Monad m]

/-- A call whose error is a fault. -/
def call {α : Type} (c : m (Except FileError α)) : ExceptT Fault m α :=
  ExceptT.adapt .file (ExceptT.mk c)

/-- A call that finds nothing, and yields the given value then, where the file is missing. -/
def callOr {α : Type} (default : α) (c : m (Except FileError α)) : ExceptT Fault m α := do
  match ← ExceptT.lift c with
  | .ok a => return a
  | .error .missing => return default
  | .error e => throw (.file e)

/-- Writes a record at a path. -/
def save (fs : FileSystem m) (key : String) (p : Path) (value : Bytes) : ExceptT Fault m Unit := do
  call (fs.createDirectories p.parent)
  match p.fileName? with
  | none => throw (.storage (.invalidKey key))
  | some name =>
    call (fs.writeFile (stagingOf p name) value)
    call (fs.setMode (stagingOf p name) recordMode)
    call (fs.rename (stagingOf p name) p)

end Directory

open Directory

def ofDirectory {m : Type → Type} [Monad m] (fs : FileSystem m) (root : Path) : Storage m where
  get key := do callOr none ((Except.map some ·) <$> fs.readFile (← pathOf root key))
  put key value := do save fs key (← pathOf root key) value
  delete key := do callOr () (fs.removeFile (← pathOf root key))
  list above := do
    let children ← callOr [] (fs.listDirectory (← listedPath root above))
    return Text.sortDistinct (children.filterMap fun (name, isDirectory) =>
      shownName? name isDirectory)

end TrustStore.Storage

import TrustStore.FileTree.Basic

/-!
# File system calls

`FileSystem` lists the calls that a program makes.  `FileTree.calls` answers them from a file tree:
each call succeeds, or fails with an error and changes nothing.
-/

namespace TrustStore

structure FileSystem (m : Type → Type) where
  /-- The content of a file. -/
  readFile : Path → m (Except FileError Bytes)
  /-- Makes a directory. -/
  createDirectory : Path → m (Except FileError Unit)
  isDirectory : Path → m Bool
  /-- Makes a file, or replaces its content and keeps its mode. -/
  writeFile : Path → Bytes → m (Except FileError Unit)
  setMode : Path → Nat → m (Except FileError Unit)
  /-- Moves a file to another path, in place of a file that is there. -/
  rename : Path → Path → m (Except FileError Unit)
  removeFile : Path → m (Except FileError Unit)
  /-- The names in a directory, each with whether it is a directory itself. -/
  listDirectory : Path → m (Except FileError (List (String × Bool)))

namespace FileTree

/-- The mode of a new file. -/
def newFileMode : Nat := 0o644

/-! ### Calls that only look -/

def readFile (t : FileTree) (p : Path) : Except FileError Bytes := do
  match t.at? (← t.locate p) with
  | none => .error .missing
  | some .directory => .error .isDirectory
  | some (.file _ content) => if p.slashed then .error .notDirectory else .ok content

def isDirectory (t : FileTree) (p : Path) : Bool :=
  match t.locate p with
  | .ok place => t.at? place == some .directory
  | .error _ => false

def listDirectory (t : FileTree) (p : Path) : Except FileError (List (String × Bool)) := do
  let place ← t.locate p
  match t.at? place with
  | none => .error .missing
  | some (.file _ _) => .error .notDirectory
  | some .directory => .ok (t.children place)

/-! ### Calls that change the tree -/

def createDirectory (t : FileTree) (p : Path) : Except FileError FileTree := do
  let place ← t.locate p
  match t.at? place with
  | some _ => .error .exists
  | none => .ok (t.insert place .directory)

def writeFile (t : FileTree) (p : Path) (content : Bytes) : Except FileError FileTree := do
  let place ← t.locate p
  match t.at? place with
  | some .directory => .error .isDirectory
  | some (.file mode _) =>
    if p.slashed then .error .notDirectory else .ok (t.insert place (.file mode content))
  | none =>
    if p.slashed then .error .isDirectory else .ok (t.insert place (.file newFileMode content))

def setMode (t : FileTree) (p : Path) (mode : Nat) : Except FileError FileTree := do
  let place ← t.locate p
  match t.at? place with
  | none => .error .missing
  | some .directory => .ok t
  | some (.file _ content) =>
    if p.slashed then .error .notDirectory else .ok (t.insert place (.file mode content))

/-- The source is a file; the target must not be a directory, nor look like one. -/
def rename (t : FileTree) (source target : Path) : Except FileError FileTree := do
  let from' ← t.locate source
  let (directory, name) ← t.approach target
  if !isChildName name then .error .busy
  else
    match t.at? from' with
    | some (.file mode content) =>
      let place := directory ++ [name]
      if target.slashed then .error .notDirectory
      else if t.at? place = some .directory then .error .isDirectory
      else .ok ((t.erase from').insert place (.file mode content))
    | some .directory => .error .isDirectory
    | none => .error .missing

def removeFile (t : FileTree) (p : Path) : Except FileError FileTree := do
  let (directory, name) ← t.approach p
  if !isChildName name then .error .isDirectory
  else
    let place := directory ++ [name]
    match t.at? place with
    | none => .error .missing
    | some .directory => .error .isDirectory
    | some (.file _ _) => if p.slashed then .error .notDirectory else .ok (t.erase place)

/-! ### The calls of a tree -/

/-- A call that looks at the tree. -/
def look {α : Type} (call : FileTree → α) : StateM FileTree α := fun t => (call t, t)

/-- A call that changes the tree if it succeeds. -/
def change (call : FileTree → Except FileError FileTree) :
    StateM FileTree (Except FileError Unit) := fun t =>
  match call t with
  | .ok t' => (.ok (), t')
  | .error e => (.error e, t)

def calls : FileSystem (StateM FileTree) where
  readFile p := look (·.readFile p)
  createDirectory p := change (·.createDirectory p)
  isDirectory p := look (·.isDirectory p)
  writeFile p content := change (·.writeFile p content)
  setMode p mode := change (·.setMode p mode)
  rename source target := change (·.rename source target)
  removeFile p := change (·.removeFile p)
  listDirectory p := look (·.listDirectory p)

end FileTree

/-! ### Making a directory with its ancestors -/

namespace FileSystem

variable {m : Type → Type} [Monad m]

/-- The error of a call that made no directory: none if there is one already. -/
def unlessThere (fs : FileSystem m) (p : Path) (e : FileError) : m (Except FileError Unit) := do
  if ← fs.isDirectory p then return .ok () else return .error e

/-- Makes the directory of the first `n` names of a path.  Where its parent is missing, that is
made first. -/
def createAncestor (fs : FileSystem m) (p : Path) : Nat → m (Except FileError Unit)
  | 0 => return .ok ()
  | n + 1 => do
    match ← fs.createDirectory (p.ancestor (n + 1)) with
    | .ok () => return .ok ()
    | .error .missing =>
      match ← fs.createAncestor p n with
      | .error e => return .error e
      | .ok () =>
        match ← fs.createDirectory (p.ancestor (n + 1)) with
        | .ok () => return .ok ()
        | .error e => fs.unlessThere (p.ancestor (n + 1)) e
    | .error e => fs.unlessThere (p.ancestor (n + 1)) e

def createDirectories (fs : FileSystem m) (p : Path) : m (Except FileError Unit) :=
  fs.createAncestor p p.names.length

end FileSystem

end TrustStore

import Std.Data.ExtTreeMap
import TrustStore.Bytes
import TrustStore.FileTree.Error
import TrustStore.FileTree.Path

/-!
# File trees

A tree of directories and regular files.  A place is the list of names that lead to it from the
root of the tree, which is a directory, and `at?` says what is there.  Two trees with the same
nodes are equal.
-/

namespace TrustStore

inductive Node where
  | directory
  | file (mode : Nat) (content : Bytes)
deriving DecidableEq, Repr

abbrev Place := List String

structure FileTree where
  nodes : Std.ExtTreeMap Place Node
  /-- The directory where relative paths begin. -/
  workingDirectory : Place

namespace FileTree

/-- What is at a place. -/
def at? (t : FileTree) (place : Place) : Option Node :=
  if place.isEmpty then some .directory else t.nodes[place]?

def insert (t : FileTree) (place : Place) (node : Node) : FileTree :=
  { t with nodes := t.nodes.insert place node }

def erase (t : FileTree) (place : Place) : FileTree :=
  { t with nodes := t.nodes.erase place }

@[simp] theorem at?_root (t : FileTree) : t.at? [] = some .directory := rfl

/-- Inserting a node changes what is at its place and nothing else. -/
theorem at?_insert (t : FileTree) {place : Place} (h : place ≠ []) (node : Node) (q : Place) :
    (t.insert place node).at? q = if q = place then some node else t.at? q := by
  cases q with
  | nil => simp [at?, Ne.symm h]
  | cons name rest =>
    simp only [at?, insert, List.isEmpty_cons, Bool.false_eq_true, if_false,
      Std.ExtTreeMap.getElem?_insert, Std.LawfulEqCmp.compare_eq_iff_eq]
    simp only [eq_comm]

theorem at?_erase (t : FileTree) {place : Place} (h : place ≠ []) (q : Place) :
    (t.erase place).at? q = if q = place then none else t.at? q := by
  cases q with
  | nil => simp [at?, Ne.symm h]
  | cons name rest =>
    simp only [at?, erase, List.isEmpty_cons, Bool.false_eq_true, if_false,
      Std.ExtTreeMap.getElem?_erase, Std.LawfulEqCmp.compare_eq_iff_eq]
    simp only [eq_comm]

/-- The children of a directory: the name of each, and whether it is a directory itself. -/
def children (t : FileTree) (place : Place) : List (String × Bool) :=
  t.nodes.toList.filterMap fun (p, node) =>
    match p.getLast? with
    | some name => if p = place ++ [name] then some (name, node == .directory) else none
    | none => none

/-- The tree in which there are only the directories down to the working directory. -/
def ofDirectory (place : Place) : FileTree :=
  (List.range place.length).foldl (fun t n => t.insert (place.take (n + 1)) .directory) ⟨∅, place⟩

/-! ### What a path names -/

/-- A name has at most 255 bytes. -/
def checkName (name : String) : Except FileError Unit :=
  if 255 < name.utf8ByteSize then .error .nameTooLong else .ok ()

/-- Goes from a directory through directories. -/
def enter (t : FileTree) (place : Place) : List String → Except FileError Place
  | [] => .ok place
  | name :: rest =>
    if name = "." then t.enter place rest
    else if name = ".." then t.enter place.dropLast rest
    else do
      checkName name
      match t.at? (place ++ [name]) with
      | none => .error .missing
      | some (.file _ _) => .error .notDirectory
      | some .directory => t.enter (place ++ [name]) rest

/-- A path as a whole has at most 4095 bytes, none of them zero. -/
def checkPath (p : Path) : Except FileError Unit :=
  if p.pieces.any fun piece => piece.toList.contains '\x00' then .error .nulInName
  else if 4095 < p.toText.utf8ByteSize then .error .nameTooLong
  else .ok ()

/-- The place where a path begins. -/
def start (t : FileTree) (p : Path) : Place := if p.absolute then [] else t.workingDirectory

/-- The directory in which the last step of a path is taken, and that step. -/
def approach (t : FileTree) (p : Path) : Except FileError (Place × String) := do
  checkPath p
  match p.steps.getLast? with
  | none => if p.absolute then .ok ([], ".") else .error .missing
  | some name =>
    let directory ← t.enter (t.start p) p.steps.dropLast
    checkName name
    return (directory, name)

/-- Whether a step names a child, and does not stay or go up. -/
def isChildName (name : String) : Bool := !(name == "." || name == "..")

/-- The place of a step from a directory. -/
def placeOf (directory : Place) (name : String) : Place :=
  if name = "." then directory
  else if name = ".." then directory.dropLast
  else directory ++ [name]

/-- The place that a path names; there need not be anything. -/
def locate (t : FileTree) (p : Path) : Except FileError Place :=
  (t.approach p).map fun (directory, name) => placeOf directory name

end FileTree

end TrustStore

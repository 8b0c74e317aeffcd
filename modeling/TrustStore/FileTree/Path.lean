import TrustStore.Text.Split

/-!
# Paths

A path is a text of pieces with slashes between them.  An empty piece takes no step, `.` stays and
`..` goes up; a slash at the end demands a directory.  The pieces are kept as they are written,
since the length of the text counts.
-/

namespace TrustStore

structure Path where
  absolute : Bool
  /-- What stands between the slashes that follow the one of an absolute path. -/
  pieces : List String
deriving DecidableEq, Repr

namespace Path

/-- The pieces of a text; the empty text has none. -/
def piecesOf (text : List Char) : List String :=
  if text.isEmpty then [] else (Text.splitOn '/' text).map String.ofList

def ofText (text : String) : Path :=
  match text.toList with
  | '/' :: rest => ⟨true, piecesOf rest⟩
  | chars => ⟨false, piecesOf chars⟩

def toText (p : Path) : String := (if p.absolute then "/" else "") ++ "/".intercalate p.pieces

/-- The pieces that are walked. -/
def steps (p : Path) : List String := p.pieces.filter (· ≠ "")

def slashed (p : Path) : Bool := !p.steps.isEmpty && p.pieces.getLast? == some ""

/-- The path of `p` below `root`.  A slash at the end of the root is not repeated. -/
def below (root p : Path) : Path :=
  if root.pieces.getLast? = some "" then ⟨root.absolute, root.pieces.dropLast ++ p.pieces⟩
  else ⟨root.absolute, root.pieces ++ p.pieces⟩

/-! ### Names

The names of a path are its pieces without those that take no step or stay, except for one that
stays at the beginning. -/

def isName (piece : String) : Bool := !(piece == "" || piece == ".")

def names (p : Path) : List String :=
  match p.absolute, p.pieces with
  | false, "." :: rest => "." :: rest.filter isName
  | _, pieces => pieces.filter isName

/-- The pieces from the first one to the name number `n`. -/
def upToName : Nat → List String → List String
  | 0, _ | _, [] => []
  | n + 1, piece :: rest =>
    piece :: if isName piece then upToName n rest else upToName (n + 1) rest

/-- The path down to the name number `n`. -/
def ancestor (p : Path) (n : Nat) : Path :=
  match p.absolute, n, p.pieces with
  | false, n + 1, "." :: rest => ⟨false, "." :: upToName n rest⟩
  | absolute, n, pieces => ⟨absolute, upToName n pieces⟩

def parent (p : Path) : Path := p.ancestor (p.names.length - 1)

/-- The last name, unless it stays or goes up. -/
def fileName? (p : Path) : Option String :=
  match p.names.getLast? with
  | some name => if name = "." ∨ name = ".." then none else some name
  | none => none

/-- The path of a file beside `p`. -/
def sibling (p : Path) (name : String) : Path := p.parent.below ⟨false, [name]⟩

end Path

end TrustStore

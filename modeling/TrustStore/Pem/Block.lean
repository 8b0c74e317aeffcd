import TrustStore.Pem.Base64
import TrustStore.Text.Ascii
import TrustStore.Text.Blank

/-!
# PEM blocks

PEM text is read line by line.  A block begins with a line `-----BEGIN label-----` and ends with a
line that begins with `-----END `, whose label is not compared; its body is the lines between, each
without the blanks at its end.  Other lines are passed over.  Reading ends for good at a malformed
block and at a line that is not UTF-8.
-/

namespace TrustStore.Pem

structure Block where
  label : String
  content : Bytes
deriving DecidableEq, Repr

/-! ### Lines -/

/-- The lines of a text, without their ends.  A text that ends a line has no line after it. -/
def lines : Bytes → List Bytes
  | [] => []
  | b :: rest =>
    if b = Ascii.lineFeed then [] :: lines rest
    else
      match lines rest with
      | [] => [[b]]
      | line :: more => (b :: line) :: more

def beginMark : List Char := ['-', '-', '-', '-', '-', 'B', 'E', 'G', 'I', 'N', ' ']

def endMark : List Char := ['-', '-', '-', '-', '-', 'E', 'N', 'D', ' ']

def dashes : List Char := ['-', '-', '-', '-', '-']

/-- Five dashes stand somewhere in the text. -/
def hasDashes : List Char → Bool
  | [] => false
  | c :: rest => dashes.isPrefixOf (c :: rest) || hasDashes rest

/-- The label of a header line from what follows its mark: up to the first dash, provided that the
closing dashes are there. -/
def label? (rest : List Char) : Option String :=
  if hasDashes rest then some (String.ofList (rest.takeWhile (· != '-'))) else none

/-! ### Blocks -/

/-- What a line means for reading: nothing outside a block, or a begun block with the label and the
body so far. -/
inductive Reading where
  | outside
  | inside (label : String) (body : List Char)

/-- The blocks that were read, and whether reading went on to the end of the text. -/
structure Scan where
  blocks : List Block
  clean : Bool
deriving DecidableEq, Repr

def Scan.malformed : Scan := ⟨[], false⟩

def scanLines : Reading → List Bytes → Scan
  | .outside, [] => ⟨[], true⟩
  | .inside _ _, [] => .malformed
  | reading, line :: rest =>
    match line.text? with
    | none => .malformed
    | some text =>
      let s := text.toList
      match reading with
      | .outside =>
        if beginMark.isPrefixOf s then
          match label? (s.drop beginMark.length) with
          | none => .malformed
          | some label => scanLines (.inside label []) rest
        else scanLines .outside rest
      | .inside label body =>
        if endMark.isPrefixOf s then
          match Base64.decode body with
          | none => .malformed
          | some content =>
            let scan := scanLines .outside rest
            { scan with blocks := ⟨label, content⟩ :: scan.blocks }
        else scanLines (.inside label (body ++ Text.trimEnd s)) rest

def scan (text : Bytes) : Scan := scanLines .outside (lines text)

end TrustStore.Pem

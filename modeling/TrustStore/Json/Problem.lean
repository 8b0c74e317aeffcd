import TrustStore.Json.Printer
import TrustStore.Text.Quoted

/-!
# Why a value was refused

A decoder refuses a source that breaks off or one of the wrong shape.  `Problem.message?` is the
text of a wrong shape; a text that is not JSON has none.
-/

namespace TrustStore.Json

/-- What a decoder found where it expected something else. -/
inductive Found where
  | null
  | bool (b : Bool)
  | int (n : Int)
  | float (negative : Bool) (quanta : Nat)
  | string (s : String)
  | sequence
  | map
deriving DecidableEq, Repr

inductive Problem where
  | malformed
  | wrongType (found : Found) (expected : String)
  | wrongValue (found : Found) (expected : String)
  | wrongLength (length : Nat) (expected : String)
  | missingField (name : String)
  | duplicateField (name : String)
  | unknownField (name : String) (known : List String)
  | unknownVariant (name : String) (known : List String)
  | noAlternative (type : String)
deriving DecidableEq, Repr

/-- A word or a text of the input between backquotes. -/
def ticked (s : String) : String := "\x60" ++ s ++ "\x60"

def Found.text : Found → String
  | .null => "null"
  | .bool b => "boolean " ++ ticked (if b then "true" else "false")
  | .int n => "integer " ++ ticked (toString n)
  | .float negative quanta =>
    "floating point " ++ ticked (String.ofList (Number.float negative quanta).text)
  | .string s => "string " ++ Text.quoted s
  | .sequence => "sequence"
  | .map => "map"

def choices (names : List String) : String :=
  "expected one of " ++ ", ".intercalate (names.map ticked)

def Problem.message? : Problem → Option String
  | .malformed => none
  | .wrongType found expected => some ("invalid type: " ++ found.text ++ ", expected " ++ expected)
  | .wrongValue found expected =>
    some ("invalid value: " ++ found.text ++ ", expected " ++ expected)
  | .wrongLength length expected =>
    some ("invalid length " ++ toString length ++ ", expected " ++ expected)
  | .missingField name => some ("missing field " ++ ticked name)
  | .duplicateField name => some ("duplicate field " ++ ticked name)
  | .unknownField name known => some ("unknown field " ++ ticked name ++ ", " ++ choices known)
  | .unknownVariant name known => some ("unknown variant " ++ ticked name ++ ", " ++ choices known)
  | .noAlternative type => some ("data did not match any variant of untagged enum " ++ type)

end TrustStore.Json

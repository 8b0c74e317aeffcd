import TrustStore.Text.Lowercase
import TrustStore.Text.WordChar

/-!
# Entry names

A name begins and ends with a word character; between the two, full stops and hyphens may stand as
well.  Letter case does not matter: an entry is known by the lower case form of its name.
-/

namespace TrustStore.Entry

def normalizeName (name : String) : String := String.ofList (Text.lowercase name.toList)

/-- A character that may stand inside a name. -/
def isNameChar (c : Char) : Bool := Text.isWordChar c || c == '.' || c == '-'

def isValidNameText : List Char → Bool
  | [] => false
  | c :: rest =>
    Text.isWordChar c && rest.all isNameChar && ((c :: rest).getLast?.any Text.isWordChar)

def isValidName (name : String) : Bool := isValidNameText name.toList

end TrustStore.Entry

import TrustStore.Text.WordTable

/-!
# Word characters

The characters that names are made of: letters of any script, marks, decimal digits, connector
punctuation such as the low line, and the two join controls.
-/

namespace TrustStore.Text

def isWordChar (c : Char) : Bool := wordRanges.contains c.toNat

end TrustStore.Text

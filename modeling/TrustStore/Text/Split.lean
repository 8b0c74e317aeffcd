/-!
# Splitting texts
-/

namespace TrustStore.Text

/-- The parts between the separators, empty ones included: always at least one. -/
def splitOn (separator : Char) : List Char → List (List Char)
  | [] => [[]]
  | c :: rest =>
    if c = separator then [] :: splitOn separator rest
    else
      match splitOn separator rest with
      | [] => [[c]]
      | part :: parts => (c :: part) :: parts

end TrustStore.Text

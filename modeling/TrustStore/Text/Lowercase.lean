import TrustStore.Text.CaseTable

/-!
# Lower case

`lowercase` maps a text to its full lower case form, without regard to language.  Two characters
need more than the table: `U+0130` becomes an `i` and a combining dot, and a capital sigma becomes
the final form at the end of a word, that is, where a cased letter stands before it and none
after it.  Characters that are ignored for letter case, such as full stops and combining marks,
may stand in between.
-/

namespace TrustStore.Text

def isCased (c : Char) : Bool := casedRanges.contains c.toNat

def isCaseIgnorable (c : Char) : Bool := caseIgnorableRanges.contains c.toNat

/-! ### Single characters -/

/-- The lower case form of `n` if it belongs to the run. -/
def CaseRun.lower? (r : CaseRun) (n : Nat) : Option Nat :=
  if r.first ≤ n ∧ n ≤ r.last ∧ (n - r.first) % r.step = 0 then some (r.lower + (n - r.first))
  else none

def lowerCode (n : Nat) : Nat := (caseRuns.findSome? (·.lower? n)).getD n

/-- The lower case form of a character on its own. -/
def lowerChar (c : Char) : List Char :=
  if c = '\u0130' then ['i', '\u0307'] else [Char.ofNat (lowerCode c.toNat)]

/-! ### Texts -/

/-- Going away from a letter, the first character that is not ignored is cased. -/
def casedAhead (s : List Char) : Bool := (s.dropWhile isCaseIgnorable).head?.any isCased

/-- Lower case of the rest of a text; `before` is what precedes it, nearest character first. -/
def lowerAfter (before : List Char) : List Char → List Char
  | [] => []
  | c :: rest =>
    (if c = 'Σ' then [if casedAhead before && !casedAhead rest then 'ς' else 'σ']
      else lowerChar c) ++ lowerAfter (c :: before) rest

def lowercase (s : List Char) : List Char := lowerAfter [] s

end TrustStore.Text

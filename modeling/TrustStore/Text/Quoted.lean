import TrustStore.Text.PrintTable

/-!
# Quoted texts in messages

A message shows a text it complains about between double quotes.  Quotes, backslashes and the
common controls are written with a letter, and every character that would not show on its own
with its code point in hexadecimal.
-/

namespace TrustStore.Text

def showsAlone (c : Char) : Bool :=
  !(hiddenRanges.contains c.toNat || extenderRanges.contains c.toNat)

def quotedChar (c : Char) : List Char :=
  match c with
  | '\x00' => ['\\', '0']
  | '\t' => ['\\', 't']
  | '\r' => ['\\', 'r']
  | '\n' => ['\\', 'n']
  | '"' => ['\\', '"']
  | '\\' => ['\\', '\\']
  | _ =>
    if showsAlone c then [c]
    else ['\\', 'u', '{'] ++ Nat.toDigits 16 c.toNat ++ ['}']

def quoted (s : String) : String :=
  String.ofList ('"' :: s.toList.flatMap quotedChar ++ ['"'])

end TrustStore.Text

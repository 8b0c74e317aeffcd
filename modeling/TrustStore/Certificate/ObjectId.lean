import TrustStore.Certificate.Element

/-!
# Object identifiers

An identifier is the content of its element.  The first byte holds two arcs, and each further one
is a number in base 128 whose last byte has its high bit clear.  A number that is not finished at
the end counts all the same.  The text has the arcs in decimal, or the bytes in hexadecimal if an
arc is too long.
-/

namespace TrustStore.Certificate

abbrev ObjectId := Bytes

namespace ObjectId

/-! ### Arcs -/

/-- The bytes of each number. -/
def numbers : Bytes → List Bytes
  | [] => []
  | b :: rest =>
    if b < 0x80 then [b] :: numbers rest
    else
      match numbers rest with
      | [] => [[b]]
      | number :: others => (b :: number) :: others

def isFinished (number : Bytes) : Bool := number.getLastD 0 < 0x80

/-- The value of a number, kept in 64 bits. -/
def numberValue (number : Bytes) : Nat :=
  number.foldl (fun n b => (n * 128 + b.toNat % 128) % UInt64.size) 0

/-- The arcs of an identifier.  The single byte 0 has one arc only. -/
def arcs : ObjectId → List Nat
  | [] => []
  | [0] => [0]
  | b :: rest => b.toNat / 40 :: b.toNat % 40 :: (numbers rest).map numberValue

/-- No number ends open or begins with a zero that could be left out. -/
def isCanonical (id : ObjectId) : Bool :=
  (numbers id.tail).all fun number => isFinished number && number.headD 0 != 0x80

/-! ### Text -/

/-- The greatest number of bytes that always fit 64 bits. -/
def longestNumber : Nat := 9

/-- Every finished number has few enough bytes to be written in decimal. -/
def isDecimal (id : ObjectId) : Bool :=
  (numbers id.tail).all fun number =>
    !isFinished number || decide (number.length ≤ longestNumber)

def text (id : ObjectId) : String :=
  if id.isDecimal then ".".intercalate (id.arcs.map toString)
  else " ".intercalate (id.map fun b => String.ofList (Bytes.hexDigits b))

/-! ### Reading -/

/-- Reads an identifier from an element in primitive form, whatever its tag. -/
def read (s : Bytes) : Option (ObjectId × Bytes) := do
  let (e, rest) ← Element.read s
  if e.constructed then none else some (e.content, rest)

end ObjectId

end TrustStore.Certificate

import TrustStore.Json.Basic

/-!
# Sources

A `Source` is a JSON value as a decoder meets it: its parts in their order, up to the first fault.
A source read from a text may break off inside a container, whose last part is then the one that
could not be read, or hold a string or a number that is well formed but has no value.  Such a leaf
is a fault only for a decoder that wants its value; one that skips it passes over it.  A source
made from a value has no fault.
-/

namespace TrustStore.Json

inductive Source where
  | null
  | bool (b : Bool)
  | number (n : Option Number)
  | string (s : Option String)
  | array (items : List Source) (complete : Bool)
  | object (members : List (Source × Source)) (complete : Bool)
  | fault

namespace Source

/-! ### Sources of values -/

mutual

def ofJson : Json → Source
  | .null => .null
  | .bool b => .bool b
  | .number n => .number (some n)
  | .string s => .string (some s)
  | .array items => .array (ofItems items) true
  | .object members => .object (ofMembers members) true

def ofItems : List Json → List Source
  | [] => []
  | item :: rest => ofJson item :: ofItems rest

def ofMembers : List (String × Json) → List (Source × Source)
  | [] => []
  | (key, value) :: rest => (.string (some key), ofJson value) :: ofMembers rest

end

/-! ### Passing over a source -/

mutual

/-- No part is missing. -/
def readable : Source → Bool
  | .array items complete => complete && readableItems items
  | .object members complete => complete && readableMembers members
  | .fault => false
  | _ => true

def readableItems : List Source → Bool
  | [] => true
  | item :: rest => readable item && readableItems rest

def readableMembers : List (Source × Source) → Bool
  | [] => true
  | (key, value) :: rest => readable key && readable value && readableMembers rest

end

end Source

/-! ### Forms -/

/-- Where a source comes from: a value, or a text in which containers may still be entered `room`
levels deep. -/
inductive Form where
  | value
  | text (room : Nat)
deriving DecidableEq, Repr

/-- The form of the parts of a container, if it may be entered. -/
def Form.inner? : Form → Option Form
  | .value => some .value
  | .text 0 => none
  | .text (room + 1) => some (.text room)

/-- The form of a whole text.  Containers may be nested 127 levels deep. -/
def Form.whole : Form := .text 127

/-! ### The value of a source -/

namespace Source

mutual

/-- The value of a source without faults. -/
def toJson? (form : Form) : Source → Option Json
  | .null => some .null
  | .bool b => some (.bool b)
  | .number n => n.map .number
  | .string s => s.map .string
  | .array items complete =>
    match form.inner? with
    | none => none
    | some inner => if complete then (itemsToJson? inner items).map .array else none
  | .object members complete =>
    match form.inner? with
    | none => none
    | some inner =>
      if complete then (membersToJson? inner members).map fun l => .object (fieldsOf l) else none
  | .fault => none

def itemsToJson? (form : Form) : List Source → Option (List Json)
  | [] => some []
  | item :: rest =>
    match toJson? form item, itemsToJson? form rest with
    | some j, some l => some (j :: l)
    | _, _ => none

def membersToJson? (form : Form) : List (Source × Source) → Option (List (String × Json))
  | [] => some []
  | (key, value) :: rest =>
    match key, toJson? form value, membersToJson? form rest with
    | .string (some k), some j, some l => some ((k, j) :: l)
    | _, _, _ => none

end

end Source

end TrustStore.Json

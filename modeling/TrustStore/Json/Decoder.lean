import TrustStore.Json.Problem
import TrustStore.Json.Reader

/-!
# Decoding

A decoder turns a source into a value of a type.  It goes through the parts in their order and
stops at the first thing that is wrong, be it a fault of the text or a wrong shape.  Records are
decoded by their `Shape`: `survey` checks every part in order, and the fields are then taken from
what it found.
-/

namespace TrustStore.Json

abbrev Decoder (α : Type) := Form → Source → Except Problem α

/-- Reports a source of another type than the expected one. -/
def wrongType (expected : String) : Source → Problem
  | .null => .wrongType .null expected
  | .bool b => .wrongType (.bool b) expected
  | .number (some (.int n)) => .wrongType (.int n) expected
  | .number (some (.float negative quanta)) => .wrongType (.float negative quanta) expected
  | .string (some s) => .wrongType (.string s) expected
  | .array _ _ => .wrongType .sequence expected
  | .object _ _ => .wrongType .map expected
  | .number none | .string none | .fault => .malformed

/-! ### Leaves -/

def textAs (expected : String) : Decoder String := fun _ source =>
  match source with
  | .string (some s) => .ok s
  | source => .error (wrongType expected source)

def text : Decoder String := textAs "a string"

/-- An unsigned integer of 64 bits. -/
def unsigned : Decoder UInt64 := fun _ source =>
  match source with
  | .number (some (.int n)) =>
    if 0 ≤ n ∧ n < UInt64.size then .ok n.toNat.toUInt64 else .error (.wrongValue (.int n) "u64")
  | source => .error (wrongType "u64" source)

/-! ### Containers -/

def textItems (form : Form) : List Source → Except Problem (List String)
  | [] => .ok []
  | item :: rest => do
    let s ← text form item
    let l ← textItems form rest
    return s :: l

def texts : Decoder (List String) := fun form source =>
  match source with
  | .array items complete => do
    let l ← textItems form items
    if complete then .ok l else .error .malformed
  | source => .error (wrongType "a sequence" source)

/-- Any value at all. -/
def any : Decoder Json := fun form source =>
  match source.toJson? form with
  | some j => .ok j
  | none => .error .malformed

/-- An object as a map. -/
def fields : Decoder Fields := fun form source =>
  match source with
  | .object _ _ => do
    match ← any form source with
    | .object l => .ok l
    | _ => .error .malformed
  | source => .error (wrongType "a map" source)

/-! ### Enumerations -/

/-- The single member of an object that names a variant. -/
def variantMember (form : Form) (members : List (Source × Source)) (complete : Bool) :
    Except Problem (Source × Source × Bool) :=
  match form, members with
  | .value, [(key, value)] => .ok (key, value, true)
  | .value, _ => .error (.wrongValue .map "map with a single key")
  | .text _, [] => .error .malformed
  | .text _, (key, value) :: rest => .ok (key, value, complete && rest.isEmpty)

def knownVariant (known : List String) (name : String) : Except Problem String :=
  if name ∈ known then .ok name else .error (.unknownVariant name known)

/-- One of the given names: a string, or an object whose one member has the name and no value. -/
def variant (known : List String) : Decoder String := fun form source =>
  match source with
  | .string (some name) => knownVariant known name
  | .object members complete => do
    let (key, value, closed) ← variantMember form members complete
    match key with
    | .string (some name) =>
      let name ← knownVariant known name
      match value with
      | .null => if closed then .ok name else .error .malformed
      | value => .error (wrongType "unit" value)
    | _ => .error .malformed
  | source =>
    match form with
    | .value => .error (wrongType "string or map" source)
    | .text _ => .error .malformed

/-- The value of an enumeration whose name is given. -/
def oneOf {α : Type} (all : List α) (name : α → String) : Decoder α := fun form source => do
  let given ← variant (all.map name) form source
  match all.find? (name · == given) with
  | some a => .ok a
  | none => .error (.unknownVariant given (all.map name))

/-! ### Records -/

/-- A field of a record: its name, whether it may be left out, and the check of its source. -/
structure Field where
  name : String
  required : Bool
  check : Form → Source → Except Problem Unit

/-- A field that a decoder reads. -/
def Field.of {α : Type} (name : String) (required : Bool) (decoder : Decoder α) : Field :=
  ⟨name, required, fun form source => (decoder form source).map fun _ => ()⟩

/-- The form of a record: how messages call it, its fields, and whether others are refused. -/
structure Shape where
  title : String
  fields : List Field
  strict : Bool

namespace Shape

def names (shape : Shape) : List String := shape.fields.map (·.name)

def field? (shape : Shape) (name : String) : Option Field :=
  shape.fields.find? (·.name == name)

/-- Checks members in order.  `found` are the fields met so far. -/
def surveyMembers (shape : Shape) (form : Form) (found : List (String × Source)) :
    List (Source × Source) → Except Problem (List (String × Source))
  | [] => .ok found
  | (.string (some name), value) :: rest =>
    match shape.field? name with
    | some field =>
      if (found.lookup name).isSome then .error (.duplicateField name)
      else do
        field.check form value
        surveyMembers shape form (found ++ [(name, value)]) rest
    | none =>
      if shape.strict then .error (.unknownField name shape.names)
      else if value.readable then surveyMembers shape form found rest
      else .error .malformed
  | _ :: _ => .error .malformed

/-- Checks items in order, one for each field, and yields them with the fields left over. -/
def surveyItems (form : Form) :
    List Field → List Source → Except Problem (List (String × Source) × List Field × List Source)
  | field :: fields, item :: items => do
    field.check form item
    let (found, rest) ← surveyItems form fields items
    return ((field.name, item) :: found, rest)
  | fields, items => .ok ([], fields, items)

/-- The sources of the fields of a record, which is written as an object or, without the names, as
an array. -/
def survey (shape : Shape) (form : Form) (source : Source) :
    Except Problem (List (String × Source)) :=
  match source, form.inner? with
  | .object members complete, some inner => do
    let found ← shape.surveyMembers inner [] members
    if !complete then .error .malformed
    else
      match shape.fields.find? fun f => f.required && (found.lookup f.name).isNone with
      | some field => .error (.missingField field.name)
      | none => .ok found
  | .array items complete, some inner => do
    let (found, fields, items') ← surveyItems inner shape.fields items
    match fields.findIdx? (·.required), items' with
    | _, _ :: _ =>
      match form with
      | .value => .error (.wrongLength items.length "fewer elements in array")
      | .text _ => .error .malformed
    | missing, [] =>
      if !complete then .error .malformed
      else
        match missing with
        | some i =>
          .error (.wrongLength (found.length + i)
            (shape.title ++ " with " ++ toString shape.fields.length ++ " elements"))
        | none => .ok found
  | .object _ _, none | .array _ _, none => .error .malformed
  | source, _ => .error (wrongType shape.title source)

/-- Decodes the field called `name` if it was found. -/
def optional {α : Type} (found : List (String × Source)) (form : Form) (name : String)
    (decoder : Decoder α) (default : α) : Except Problem α :=
  match found.lookup name with
  | some source => decoder form source
  | none => .ok default

/-- Decodes the field called `name`. -/
def required {α : Type} (found : List (String × Source)) (form : Form) (name : String)
    (decoder : Decoder α) : Except Problem α :=
  match found.lookup name with
  | some source => decoder form source
  | none => .error (.missingField name)

end Shape

/-! ### Whole inputs -/

def decodeValue {α : Type} (decoder : Decoder α) (j : Json) : Except Problem α :=
  decoder .value (.ofJson j)

/-- Decodes a text, after whose value only white space may follow. -/
def decodeBytes {α : Type} (decoder : Decoder α) (s : Bytes) : Except Problem α := do
  let (source, rest) := Source.read s
  let a ← decoder .whole source
  match rest with
  | some rest => if (skipSpace rest).isEmpty then .ok a else .error .malformed
  | none => .error .malformed

def decodeText {α : Type} (decoder : Decoder α) (s : String) : Except Problem α :=
  decodeBytes decoder (.ofText s)

end TrustStore.Json

import TrustStore.Json.Decoder

/-!
# Responses

What a request is answered with, where there is anything to say: data and warnings.  Either is left
out of the written form when it is empty.
-/

namespace TrustStore.Administration

structure Response where
  data : Json.Fields
  warnings : List String

namespace Response

/-- The response to a request for a list. -/
def ofKeys (keys : List String) : Response := ⟨[("keys", .ofTexts keys)], []⟩

def ofData (data : Json.Fields) : Response := ⟨data, []⟩

/-- The response to a request that changed something: none where there are no warnings. -/
def ofWarnings? (warnings : List String) : Option Response :=
  if warnings.isEmpty then none else some ⟨[], warnings⟩

/-! ### As JSON -/

def toJson (r : Response) : Json :=
  .object ((if r.data.isEmpty then [] else [("data", .object r.data)])
    ++ if r.warnings.isEmpty then [] else [("warnings", .ofTexts r.warnings)])

def shape : Json.Shape where
  title := "struct Response"
  fields := [.of "data" false Json.fields, .of "warnings" false Json.texts]
  strict := false

def decoder : Json.Decoder Response := fun form source => do
  let found ← shape.survey form source
  return {
    data := ← Json.Shape.optional found form "data" Json.fields []
    warnings := ← Json.Shape.optional found form "warnings" Json.texts [] }

/-! ### For people -/

/-- What is written to the two streams of a terminal. -/
structure Rendering where
  output : String
  errors : String
deriving DecidableEq, Repr

/-- The data as indented JSON goes to the output, and each warning is a line of the errors. -/
def render (r : Response) : Rendering where
  output := if r.data.isEmpty then "" else (Json.object r.data).prettyText ++ "\n"
  errors := String.join (r.warnings.map fun warning => "WARNING: " ++ warning ++ "\n")

end Response

end TrustStore.Administration

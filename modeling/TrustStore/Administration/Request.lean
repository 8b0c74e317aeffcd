import TrustStore.Json.Decoder
import TrustStore.Operation

/-!
# Requests

A request asks for an operation on what a path names, with data that only an update uses.
-/

namespace TrustStore.Administration

structure Request where
  operation : Operation
  path : String
  data : Json.Fields

namespace Request

/-! ### As JSON -/

def toJson (r : Request) : Json :=
  .object [("operation", .string r.operation.name), ("path", .string r.path),
    ("data", .object r.data)]

def operationDecoder : Json.Decoder Operation := Json.oneOf Operation.all Operation.name

def shape : Json.Shape where
  title := "struct Request"
  fields :=
    [.of "operation" true operationDecoder, .of "path" true Json.text,
     .of "data" false Json.fields]
  strict := false

def decoder : Json.Decoder Request := fun form source => do
  let found ← shape.survey form source
  return {
    operation := ← Json.Shape.required found form "operation" operationDecoder
    path := ← Json.Shape.required found form "path" Json.text
    data := ← Json.Shape.optional found form "data" Json.fields [] }

end Request

end TrustStore.Administration

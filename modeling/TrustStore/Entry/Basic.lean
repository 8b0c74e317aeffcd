import TrustStore.Certificate.Profile
import TrustStore.Json.Decoder

/-!
# Entries

An entry names a certificate that clients may authenticate with, and says what they are granted:
policies, and leases of which `ttl` is the usual length and `maxTtl` the greatest, in seconds, zero
for no bound.  The certificate is kept as the text that was supplied; what it says is read from it
whenever it is asked for.
-/

namespace TrustStore

structure Entry where
  name : String
  certificate : String
  displayName : String
  policies : List String
  ttl : UInt64
  maxTtl : UInt64
deriving DecidableEq, Repr

namespace Entry

/-- What the certificate says: a profile for each certificate of the bundle. -/
def profiles (e : Entry) : List Certificate.Profile :=
  Certificate.Profile.ofPem (.ofText e.certificate)

/-- The fields that are shown to a reader, who knows the name. -/
def shown (e : Entry) : Json.Fields :=
  [("certificate", .string e.certificate), ("display_name", .string e.displayName),
    ("max_ttl", .ofNat e.maxTtl.toNat), ("policies", .ofTexts e.policies),
    ("ttl", .ofNat e.ttl.toNat)]

/-! ### Records -/

def toJson (e : Entry) : Json :=
  .object [("name", .string e.name), ("certificate", .string e.certificate),
    ("display_name", .string e.displayName), ("policies", .ofTexts e.policies),
    ("ttl", .ofNat e.ttl.toNat), ("max_ttl", .ofNat e.maxTtl.toNat)]

/-- The bytes that are stored for an entry. -/
def record (e : Entry) : Bytes := .ofText e.toJson.compactText

def shape : Json.Shape where
  title := "struct TrustEntry"
  fields :=
    [.of "name" true Json.text, .of "certificate" true Json.text,
     .of "display_name" true Json.text, .of "policies" true Json.texts,
     .of "ttl" true Json.unsigned, .of "max_ttl" true Json.unsigned]
  strict := false

def decoder : Json.Decoder Entry := fun form source => do
  let found ← shape.survey form source
  return {
    name := ← Json.Shape.required found form "name" Json.text
    certificate := ← Json.Shape.required found form "certificate" Json.text
    displayName := ← Json.Shape.required found form "display_name" Json.text
    policies := ← Json.Shape.required found form "policies" Json.texts
    ttl := ← Json.Shape.required found form "ttl" Json.unsigned
    maxTtl := ← Json.Shape.required found form "max_ttl" Json.unsigned }

/-- The entry of a stored record. -/
def ofRecord (record : Bytes) : Except Json.Problem Entry := Json.decodeBytes decoder record

end Entry

end TrustStore

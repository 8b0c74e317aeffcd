import TrustStore.Fault
import TrustStore.Lease.Term
import TrustStore.Policies.Choice

/-!
# Drafts of entries

A `Draft` holds the fields of an entry as a caller supplies them; one that is left out has its
default and not what an earlier entry says.  A `Proposal` is a draft under a name, with its policies
and lease lengths resolved.
-/

namespace TrustStore.Entry

structure Draft where
  certificate : String
  displayName : String
  policies : Policies.Choice
  ttl : Lease.Term
  maxTtl : Lease.Term
deriving DecidableEq, Repr

namespace Draft

def empty : Draft := ⟨"", "", .empty, .zero, .zero⟩

/-! ### As JSON -/

def toJson (d : Draft) : Json :=
  .object [("certificate", .string d.certificate), ("display_name", .string d.displayName),
    ("policies", d.policies.toJson), ("ttl", d.ttl.toJson), ("max_ttl", d.maxTtl.toJson)]

def shape : Json.Shape where
  title := "struct CertWriteFields"
  fields :=
    [.of "certificate" false Json.text, .of "display_name" false Json.text,
     .of "policies" false Policies.Choice.decoder, .of "ttl" false Lease.Term.decoder,
     .of "max_ttl" false Lease.Term.decoder]
  strict := true

def decoder : Json.Decoder Draft := fun form source => do
  let found ← shape.survey form source
  return {
    certificate := ← Json.Shape.optional found form "certificate" Json.text empty.certificate
    displayName := ← Json.Shape.optional found form "display_name" Json.text empty.displayName
    policies :=
      ← Json.Shape.optional found form "policies" Policies.Choice.decoder empty.policies
    ttl := ← Json.Shape.optional found form "ttl" Lease.Term.decoder empty.ttl
    maxTtl := ← Json.Shape.optional found form "max_ttl" Lease.Term.decoder empty.maxTtl }

end Draft

/-! ### Proposals -/

structure Proposal where
  name : String
  certificate : String
  displayName : String
  policies : List String
  ttl : Int64
  maxTtl : Int64
deriving DecidableEq, Repr

/-- The seconds of a term that a request states. -/
def seconds (term : Lease.Term) : Except Fault Int64 :=
  term.resolve.mapError fun e => .request (.duration e)

def Draft.proposal (d : Draft) (name : String) : Except Fault Proposal := do
  return {
    name := name
    certificate := d.certificate
    displayName := d.displayName
    policies := d.policies.resolve
    ttl := ← seconds d.ttl
    maxTtl := ← seconds d.maxTtl }

end TrustStore.Entry

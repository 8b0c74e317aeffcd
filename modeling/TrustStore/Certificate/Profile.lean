import TrustStore.Certificate.Body
import TrustStore.Pem.Block

/-!
# Certificate profiles

What an entry needs to know of a certificate: its subject, whether it is a CA, and what it may be
used for.  The profiles of a bundle are those of its PEM blocks that hold a certificate, in order.
-/

namespace TrustStore.Certificate

structure Profile where
  subject : String
  isCa : Bool
  usages : List KeyUsage
  unknownUsages : List String
deriving DecidableEq, Repr

namespace Profile

/-- The profile of a certificate, unless an extension that matters is repeated or unreadable. -/
def ofBody? (body : Body) : Option Profile := do
  let isCa ← Extension.isCa? body.extensions
  let usages ← Extension.keyUsages? body.extensions
  return ⟨body.subject.text, isCa, usages.known, usages.unknown⟩

/-- Any usage is declared, whether its purpose is known or not. -/
def declaresUsages (p : Profile) : Bool := !p.usages.isEmpty || !p.unknownUsages.isEmpty

/-- A CA may authenticate any client; so may a certificate that declares no usage, or one that
permits it. -/
def allowsClientAuth (p : Profile) : Bool :=
  p.isCa || !p.declaresUsages || p.usages.any KeyUsage.permitsClientAuth

/-! ### Bundles -/

def labels : List String := ["CERTIFICATE", "TRUSTED CERTIFICATE"]

def ofBlock? (block : Pem.Block) : Option Profile :=
  if block.label ∈ labels then (Body.ofBytes? block.content).bind ofBody? else none

/-- The profiles of the certificates in a PEM text. -/
def ofPem (text : Bytes) : List Profile := (Pem.scan text).blocks.filterMap ofBlock?

end Profile

end TrustStore.Certificate

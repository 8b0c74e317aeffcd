import TrustStore.Entry.Draft
import TrustStore.Entry.Basic
import TrustStore.Entry.Name

/-!
# Acceptance of entries

The rules that an entry keeps.  A name must be valid in its normal form; the lease lengths must not
be negative, nor the usual one exceed the greatest; and the certificate must be readable and fit for
clients, of a bundle the first.  A proposal that breaks several rules is refused for the first of
them in this order.
-/

namespace TrustStore.Entry

/-- The normal form of a name, if an entry may have it. -/
def checkedName (name : String) : Except EntryRule String :=
  let name := normalizeName name
  if name = "" then .error .missingName
  else if isValidName name then .ok name
  else .error (.invalidName name)

def checkLease (ttl maxTtl : Int64) : Except EntryRule Unit :=
  if ttl < 0 then .error .negativeTtl
  else if maxTtl < 0 then .error .negativeMaxTtl
  else if maxTtl ≠ 0 ∧ maxTtl < ttl then .error .ttlAboveMaxTtl
  else .ok ()

def checkCertificate (certificate : String) : Except EntryRule Unit :=
  match Certificate.Profile.ofPem (.ofText certificate) with
  | [] => .error .unreadableCertificate
  | leaf :: _ => if leaf.allowsClientAuth then .ok () else .error .missingClientAuth

/-- The name that is displayed: the entry's own where none is given. -/
def displayNameOr (displayName name : String) : String :=
  if displayName = "" then name else displayName

/-- The entry that is stored for a proposal. -/
def Proposal.entry (p : Proposal) : Except EntryRule Entry := do
  let name ← checkedName p.name
  checkLease p.ttl p.maxTtl
  checkCertificate p.certificate
  return {
    name := name
    certificate := p.certificate
    displayName := displayNameOr p.displayName name
    policies := Policies.resolve p.policies
    ttl := p.ttl.toUInt64
    maxTtl := p.maxTtl.toUInt64 }

end TrustStore.Entry

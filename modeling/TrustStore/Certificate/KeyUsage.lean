import TrustStore.Certificate.ObjectId
import TrustStore.Json.Decoder

/-!
# Extended key usages

The purposes a certificate may be used for.  Seven of them are flags of the extension; others have
only an object identifier, which is looked up by its text.
-/

namespace TrustStore.Certificate

inductive KeyUsage where
  | any
  | serverAuth
  | clientAuth
  | codeSigning
  | emailProtection
  | timeStamping
  | ocspSigning
  | ipsecEndSystem
  | ipsecTunnel
  | ipsecUser
  | microsoftServerGatedCrypto
  | netscapeServerGatedCrypto
  | microsoftCommercialCodeSigning
  | microsoftKernelCodeSigning
deriving DecidableEq, Repr

namespace KeyUsage

def name : KeyUsage → String
  | any => "any"
  | serverAuth => "server_auth"
  | clientAuth => "client_auth"
  | codeSigning => "code_signing"
  | emailProtection => "email_protection"
  | timeStamping => "time_stamping"
  | ocspSigning => "ocsp_signing"
  | ipsecEndSystem => "ipsec_end_system"
  | ipsecTunnel => "ipsec_tunnel"
  | ipsecUser => "ipsec_user"
  | microsoftServerGatedCrypto => "microsoft_server_gated_crypto"
  | netscapeServerGatedCrypto => "netscape_server_gated_crypto"
  | microsoftCommercialCodeSigning => "microsoft_commercial_code_signing"
  | microsoftKernelCodeSigning => "microsoft_kernel_code_signing"

def all : List KeyUsage :=
  [any, serverAuth, clientAuth, codeSigning, emailProtection, timeStamping, ocspSigning,
   ipsecEndSystem, ipsecTunnel, ipsecUser, microsoftServerGatedCrypto, netscapeServerGatedCrypto,
   microsoftCommercialCodeSigning, microsoftKernelCodeSigning]

def decoder : Json.Decoder KeyUsage := Json.oneOf all name

/-- The purpose of an identifier that is no flag of the extension. -/
def ofObjectId? (text : String) : Option KeyUsage :=
  [("1.3.6.1.5.5.7.3.5", ipsecEndSystem), ("1.3.6.1.5.5.7.3.6", ipsecTunnel),
   ("1.3.6.1.5.5.7.3.7", ipsecUser), ("1.3.6.1.4.1.311.10.3.3", microsoftServerGatedCrypto),
   ("2.16.840.1.113730.4.1", netscapeServerGatedCrypto),
   ("1.3.6.1.4.1.311.2.1.22", microsoftCommercialCodeSigning),
   ("1.3.6.1.4.1.311.61.1.1", microsoftKernelCodeSigning)].lookup text

/-- Whether a client may authenticate with a certificate of this purpose. -/
def permitsClientAuth (usage : KeyUsage) : Bool := usage == clientAuth || usage == any

/-! ### The flags of the extension -/

/-- The identifiers below `1.3.6.1.5.5.7.3`. -/
def purposeId (arc : UInt8) : ObjectId := [0x2B, 0x06, 0x01, 0x05, 0x05, 0x07, 0x03, arc]

/-- The flags with their identifiers, in the order in which they are listed. -/
def flags : List (KeyUsage × ObjectId) :=
  [(any, [0x55, 0x1D, 0x25, 0x00]), (serverAuth, purposeId 1), (clientAuth, purposeId 2),
   (codeSigning, purposeId 3), (emailProtection, purposeId 4), (timeStamping, purposeId 8),
   (ocspSigning, purposeId 9)]

end KeyUsage

/-- The extended key usages of a certificate: the flags that are set, and the further identifiers
in their order. -/
structure KeyUsages where
  isSet : KeyUsage → Bool
  others : List ObjectId

namespace KeyUsages

def none : KeyUsages := ⟨fun _ => false, []⟩

/-- The usages of a list of identifiers.  A repeated identifier counts once. -/
def ofIds (ids : List ObjectId) : KeyUsages where
  isSet usage := KeyUsage.flags.any fun (flag, id) => flag == usage && ids.contains id
  others := (distinct ids).filter fun id => !KeyUsage.flags.any (·.2 == id)
where
  /-- The identifiers without those that have come before. -/
  distinct : List ObjectId → List ObjectId
    | [] => []
    | id :: rest => id :: (distinct rest).filter (· != id)

/-- The purposes: the flags first, then those of further identifiers. -/
def known (usages : KeyUsages) : List KeyUsage :=
  (KeyUsage.flags.map (·.1)).filter usages.isSet
    ++ usages.others.filterMap fun id => KeyUsage.ofObjectId? id.text

/-- The texts of the further identifiers that stand for no purpose. -/
def unknown (usages : KeyUsages) : List String :=
  (usages.others.map ObjectId.text).filter fun text => (KeyUsage.ofObjectId? text).isNone

end KeyUsages

end TrustStore.Certificate

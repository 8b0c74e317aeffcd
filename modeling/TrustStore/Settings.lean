import TrustStore.Fault
import TrustStore.Json.Decoder
import TrustStore.Lease.Ceilings

/-!
# Settings

The ceilings and the place of the storage, as variables of the environment give them.  A variable
that is not set leaves the default; the ceilings must not cross.
-/

namespace TrustStore

structure Settings where
  ceilings : Lease.Ceilings
  storagePath : String
deriving DecidableEq, Repr

namespace Settings

def defaultTtlVariable : String := "CERT_AUTH_DEFAULT_LEASE_TTL"

def maxTtlVariable : String := "CERT_AUTH_MAX_LEASE_TTL"

def storagePathVariable : String := "CERT_AUTH_STORAGE_PATH"

/-- Both ceilings are 32 days. -/
def default : Settings := ⟨⟨2764800, 2764800⟩, "./cert-auth-data"⟩

def check (s : Settings) : Except Fault Unit :=
  if s.ceilings.maxTtl < s.ceilings.defaultTtl then
    .error (.settings (.crossedCeilings s.ceilings.defaultTtl s.ceilings.maxTtl))
  else .ok ()

/-- The ceiling that a variable sets. -/
def ceilingOf (name text : String) : Except Fault UInt64 :=
  match Lease.parseDuration text with
  | .error e => .error (.settings (.invalid name (.duration e)))
  | .ok n => if n < 0 then .error (.settings (.negative name)) else .ok n.toUInt64

/-- A ceiling, or its default where its variable is not set. -/
def ceilingOr (lookup : String → Option String) (name : String) (default : UInt64) :
    Except Fault UInt64 :=
  match lookup name with
  | some text => ceilingOf name text
  | none => .ok default

/-- The settings that the variables give. -/
def ofVariables (lookup : String → Option String) : Except Fault Settings := do
  let defaultTtl ← ceilingOr lookup defaultTtlVariable default.ceilings.defaultTtl
  let maxTtl ← ceilingOr lookup maxTtlVariable default.ceilings.maxTtl
  let settings : Settings :=
    ⟨⟨defaultTtl, maxTtl⟩, (lookup storagePathVariable).getD default.storagePath⟩
  settings.check
  return settings

/-! ### As JSON -/

def toJson (s : Settings) : Json :=
  .object [("default_lease_ttl", .ofNat s.ceilings.defaultTtl.toNat),
    ("max_lease_ttl", .ofNat s.ceilings.maxTtl.toNat), ("storage_path", .string s.storagePath)]

def shape : Json.Shape where
  title := "struct CertAuthConfig"
  fields :=
    [.of "default_lease_ttl" true Json.unsigned, .of "max_lease_ttl" true Json.unsigned,
     .of "storage_path" true (Json.textAs "path string")]
  strict := false

def decoder : Json.Decoder Settings := fun form source => do
  let found ← shape.survey form source
  return {
    ceilings := {
      defaultTtl := ← Json.Shape.required found form "default_lease_ttl" Json.unsigned
      maxTtl := ← Json.Shape.required found form "max_lease_ttl" Json.unsigned }
    storagePath := ← Json.Shape.required found form "storage_path" (Json.textAs "path string") }

end Settings

end TrustStore

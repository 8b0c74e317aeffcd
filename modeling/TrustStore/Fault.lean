import TrustStore.FileTree.Error
import TrustStore.Json.Problem
import TrustStore.Lease.Duration
import TrustStore.Operation

/-!
# Faults

Why an operation failed.  A fault is a cause; `Fault.message` is its text.  The causes fall into
kinds: an entry that breaks a rule, a request that cannot be read, an operation that a path does
not support, and failures of the storage, of stored records, of the file system and of the
settings.
-/

namespace TrustStore

/-! ### Causes -/

/-- A rule of entries that an argument breaks. -/
inductive EntryRule where
  | missingName
  | invalidName (name : String)
  | negativeTtl
  | negativeMaxTtl
  | ttlAboveMaxTtl
  | unreadableCertificate
  | missingClientAuth
deriving DecidableEq, Repr

def EntryRule.message : EntryRule → String
  | missingName => "missing certificate name"
  | invalidName name => "invalid certificate name: " ++ name
  | negativeTtl => "ttl cannot be negative"
  | negativeMaxTtl => "max_ttl cannot be negative"
  | ttlAboveMaxTtl => "ttl should be shorter than max_ttl"
  | unreadableCertificate => "failed to parse certificate"
  | missingClientAuth =>
    "non-CA certificates should have TLS client authentication set as an extended key usage"

/-- Why a request cannot be read. -/
inductive RequestError where
  | duration (cause : Lease.DurationError)
  | unknownPath (path : String)
  | invalidName (name : String)
  | data (cause : Json.Problem)
deriving DecidableEq, Repr

def RequestError.message : RequestError → String
  | duration cause => cause.message
  | unknownPath path => "unknown path: " ++ path
  | invalidName name => "invalid certificate name: " ++ name
  | data cause => cause.message?.getD "malformed data"

inductive StorageError where
  | invalidKey (key : String)
  | unavailable
deriving DecidableEq, Repr

def StorageError.message : StorageError → String
  | invalidKey key => "invalid storage key: " ++ key
  | unavailable => "storage backend unavailable"

/-- Why settings are refused.  `name` is a variable of the environment. -/
inductive SettingsError where
  | invalid (name : String) (cause : RequestError)
  | negative (name : String)
  | crossedCeilings (defaultTtl maxTtl : UInt64)
deriving DecidableEq, Repr

def SettingsError.message : SettingsError → String
  | invalid name cause => name ++ " is invalid: Invalid request: " ++ cause.message
  | negative name => name ++ " cannot be negative"
  | crossedCeilings defaultTtl maxTtl =>
    "default lease TTL (" ++ toString defaultTtl.toNat ++ "s) cannot exceed max lease TTL ("
      ++ toString maxTtl.toNat ++ "s)"

/-! ### Faults -/

inductive Fault where
  | argument (cause : EntryRule)
  | request (cause : RequestError)
  | unsupported (operation : Operation) (path : String)
  | storage (cause : StorageError)
  | record (cause : Json.Problem)
  | file (cause : FileError)
  | settings (cause : SettingsError)
deriving DecidableEq, Repr

namespace Fault

def message : Fault → String
  | argument cause => cause.message
  | request cause => "Invalid request: " ++ cause.message
  | unsupported operation path =>
    "Unsupported operation " ++ operation.name ++ " on path " ++ path
  | storage cause => "Storage error: " ++ cause.message
  | record cause => "Serialization error: " ++ cause.message?.getD "malformed record"
  | file cause => "Io error: " ++ cause.message
  | settings cause => "Configuration error: " ++ cause.message

/-- The caller's arguments or request are at fault, and not what stands behind them. -/
def isCallerFault : Fault → Bool
  | argument _ | request _ => true
  | _ => false

end Fault

end TrustStore

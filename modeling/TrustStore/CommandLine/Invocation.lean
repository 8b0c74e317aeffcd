/-!
# Invocations

What a command line asks for: one of four commands, on a trust store whose directory may be given,
and whether to be verbose about it.
-/

namespace TrustStore.CommandLine

/-- The fields of an entry that may be left out. -/
structure WriteOptions where
  displayName : Option String
  policies : Option String
  ttl : Option String
  maxTtl : Option String
deriving DecidableEq, Repr

inductive Command where
  | list
  | read (name : String)
  | write (name certificateFile : String) (options : WriteOptions)
  | delete (name : String)
deriving DecidableEq, Repr

structure Invocation where
  storagePath : Option String
  verbose : Bool
  command : Command
deriving DecidableEq, Repr

/-! ### Refused command lines -/

/-- Why a command line is not carried out; `help` is what it asks for. -/
inductive UsageError where
  | nothingGiven
  | help
  | missingSubcommand
  | invalidSubcommand
  | unknownArgument
  | missingArgument
  | invalidValue
  | repeatedArgument
  | tooManyValues
deriving DecidableEq, Repr

/-- Help that was asked for is no failure. -/
def UsageError.exitCode : UsageError → Nat
  | .help => 0
  | _ => 2

end TrustStore.CommandLine

/-!
# Parameters

The options of the command line, and on which level each may stand: before the subcommand, or after
it.
-/

namespace TrustStore.CommandLine

inductive Parameter where
  | storagePath
  | verbose
  | help
  | certificateFile
  | displayName
  | policies
  | ttl
  | maxTtl
deriving DecidableEq, Repr

namespace Parameter

/-- The values of a parameter. -/
inductive Kind where
  /-- No value. -/
  | flag
  /-- A text that is not empty. -/
  | path
  | text
  /-- A text that may look like an option. -/
  | anyText
deriving DecidableEq, Repr

def kind : Parameter → Kind
  | storagePath | certificateFile => .path
  | verbose | help => .flag
  | displayName | policies => .text
  | ttl | maxTtl => .anyText

def longName : Parameter → String
  | storagePath => "storage-path"
  | verbose => "verbose"
  | help => "help"
  | certificateFile => "certificate-file"
  | displayName => "display-name"
  | policies => "policies"
  | ttl => "ttl"
  | maxTtl => "max-ttl"

def letter? : Parameter → Option Char
  | verbose => some 'v'
  | help => some 'h'
  | _ => none

end Parameter

/-! ### Subcommands -/

inductive Verb where
  | list
  | read
  | write
  | delete
deriving DecidableEq, Repr

namespace Verb

def ofName? : String → Option Verb
  | "list" => some list
  | "read" => some read
  | "write" => some write
  | "delete" => some delete
  | _ => none

/-- The subcommand that explains the others. -/
def helpName : String := "help"

end Verb

/-! ### Levels -/

inductive Level where
  | top
  | below (verb : Verb)
deriving DecidableEq, Repr

namespace Level

def parameters : Level → List Parameter
  | below .write =>
    [.storagePath, .verbose, .help, .certificateFile, .displayName, .policies, .ttl, .maxTtl]
  | _ => [.storagePath, .verbose, .help]

/-- The name of an entry may stand on the level. -/
def takesName : Level → Bool
  | top | below .list => false
  | _ => true

def ofLongName? (level : Level) (name : String) : Option Parameter :=
  level.parameters.find? (·.longName == name)

def ofLetter? (level : Level) (letter : Char) : Option Parameter :=
  level.parameters.find? (·.letter? == some letter)

end Level

end TrustStore.CommandLine

import TrustStore.Administration.Handling
import TrustStore.CommandLine.Argument
import TrustStore.Settings
import TrustStore.Storage.Directory

/-!
# The program

An invocation becomes a request to the store in the configured directory.  What is answered goes to
the output, warnings and failures to the errors.
-/

namespace TrustStore.CommandLine

open Administration

/-! ### Failures -/

/-- Why an invocation was not carried out. -/
inductive Failure where
  | settings (cause : Fault)
  | unreadableFile (path : String) (cause : FileError)
  | fault (cause : Fault)
deriving DecidableEq, Repr

namespace Failure

def message : Failure → String
  | settings _ => "invalid configuration"
  | unreadableFile path _ => "failed to read " ++ path
  | fault cause => cause.message

/-- What stands behind a failure, if that is another one. -/
def cause? : Failure → Option String
  | settings cause => some cause.message
  | unreadableFile _ cause => some cause.message
  | fault (.file cause) => some cause.message
  | fault (.record cause) => cause.message?
  | fault _ => none

/-- The lines of a text, each indented by four spaces. -/
def indented (s : String) : String :=
  "\n".intercalate ((Text.splitOn '\n' s.toList).map fun line => "    " ++ String.ofList line)

def report (f : Failure) : String :=
  "Error: " ++ f.message ++ "\n"
    ++ (f.cause?.elim "" fun cause => "\nCaused by:\n" ++ indented cause ++ "\n")

end Failure

/-! ### Requests -/

/-- The data of an update: options that are not given are left out. -/
def dataOf (certificate : String) (options : WriteOptions) : Json.Fields :=
  Json.fieldsOf (("certificate", .string certificate) ::
    [("display_name", options.displayName), ("policies", options.policies), ("ttl", options.ttl),
      ("max_ttl", options.maxTtl)].filterMap
        fun (name, value) => value.map fun text => (name, .string text))

variable {m : Type → Type} [Monad m]

/-- The text of a file. -/
def readText (fs : FileSystem m) (path : String) : ExceptT Failure m String := do
  match ← ExceptT.lift (fs.readFile (.ofText path)) with
  | .error e => throw (.unreadableFile path e)
  | .ok content =>
    match content.text? with
    | some text => return text
    | none => throw (.unreadableFile path .notText)

def Command.request (fs : FileSystem m) : Command → ExceptT Failure m Request
  | .list => return ⟨.list, entriesPath, []⟩
  | .read name => return ⟨.read, entryPath name, []⟩
  | .delete name => return ⟨.delete, entryPath name, []⟩
  | .write name certificateFile options => do
    return ⟨.update, entryPath name, dataOf (← readText fs certificateFile) options⟩

/-! ### Runs -/

/-- The settings, of which the invocation may replace the place of the storage. -/
def Invocation.settings (i : Invocation) (s : Settings) : Settings :=
  { s with storagePath := i.storagePath.getD s.storagePath }

def registry (fs : FileSystem m) (s : Settings) : Registry m :=
  ⟨.ofDirectory fs (.ofText s.storagePath), s.ceilings⟩

def Invocation.run (fs : FileSystem m) (environment : String → Option String) (i : Invocation) :
    ExceptT Failure m (Option Response) := do
  let settings ← ExceptT.mk (pure ((Settings.ofVariables environment).mapError .settings))
  let request ← i.command.request fs
  ExceptT.adapt .fault (handle (registry fs (i.settings settings)) request)

/-- How a run of the program ends. -/
inductive Outcome where
  | refused (error : UsageError)
  | succeeded (rendering : Response.Rendering)
  | failed (failure : Failure)
deriving DecidableEq, Repr

def execute (fs : FileSystem m) (environment : String → Option String) (arguments : List String) :
    m Outcome := do
  match Invocation.ofArguments (environment Settings.storagePathVariable) arguments with
  | .error e => return .refused e
  | .ok i =>
    match ← (i.run fs environment).run with
    | .ok response => return .succeeded (response.elim ⟨"", ""⟩ Response.render)
    | .error e => return .failed e

def Outcome.exitCode : Outcome → Nat
  | refused e => e.exitCode
  | succeeded _ => 0
  | failed _ => 1

/-- What a finished run writes. -/
def Outcome.rendering : Outcome → Response.Rendering
  | refused _ => ⟨"", ""⟩
  | succeeded rendering => rendering
  | failed failure => ⟨"", failure.report⟩

end TrustStore.CommandLine

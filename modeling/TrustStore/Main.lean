import TrustStore.CommandLine.Program

/-!
# The command line program

Carries the calls of a run out on the file system of the machine.
-/

namespace TrustStore.CommandLine

/-- The error of a failed call, by its number where it has one.  The number may be negated. -/
def fileErrorOf (e : IO.Error) : FileError :=
  match e with
  | .noFileOrDirectory .. => .missing
  | .alreadyExists .. => .exists
  | .resourceBusy .. => .busy
  | .inappropriateType _ code _ => ofCode code
  | .invalidArgument _ code _ => ofCode code
  | .otherError code _ => ofCode code
  | _ => .other (toString e)
where
  ofCode (code : UInt32) : FileError :=
    let code := if code < 0x80000000 then code else -code
    if code = 2 then .missing
    else if code = 16 then .busy
    else if code = 17 then .exists
    else if code = 20 then .notDirectory
    else if code = 21 then .isDirectory
    else if code = 36 then .nameTooLong
    else .other (toString e)

/-- A call on a path, which must not hold a zero. -/
def callOn {α : Type} (p : Path) (call : String → IO α) : IO (Except FileError α) := do
  if p.toText.toList.contains '\x00' then return .error .nulInName
  else
    try return .ok (← call p.toText)
    catch e => return .error (fileErrorOf e)

/-- The rights that a mode grants to the owner, the group and others. -/
def rightsOf (mode : Nat) : IO.AccessRight × IO.AccessRight × IO.AccessRight :=
  (right (mode / 64), right (mode / 8), right mode)
where
  right (digit : Nat) : IO.AccessRight :=
    ⟨digit / 4 % 2 == 1, digit / 2 % 2 == 1, digit % 2 == 1⟩

def machine : FileSystem IO where
  readFile p := callOn p fun path => do return (← IO.FS.readBinFile path).data.toList
  createDirectory p := callOn p fun path => IO.FS.createDir path
  isDirectory p := do
    match ← callOn p fun path => (IO.FS.DirEntry.mk path "").root.isDir with
    | .ok found => return found
    | .error _ => return false
  writeFile p content := callOn p fun path => IO.FS.writeBinFile path ⟨content.toArray⟩
  setMode p mode := callOn p fun path =>
    let (user, group, other) := rightsOf mode
    IO.setAccessRights path ⟨user, group, other⟩
  rename source target := callOn source fun path => IO.FS.rename path target.toText
  removeFile p := callOn p fun path => IO.FS.removeFile path
  listDirectory p := callOn p fun path => do
    (← (IO.FS.DirEntry.mk path "").root.readDir).toList.mapM fun entry => do
      return (entry.fileName, ← entry.path.isDir)

/-- What is written for a command line that is not carried out. -/
def usage : String :=
  "Usage: certctl [--storage-path PATH] [--verbose] COMMAND\n\n"
    ++ "  list\n  read NAME\n  delete NAME\n"
    ++ "  write NAME --certificate-file FILE [--display-name TEXT] [--policies NAMES]"
    ++ " [--ttl LEASE] [--max-ttl LEASE]\n"

end TrustStore.CommandLine

open TrustStore TrustStore.CommandLine

def main (arguments : List String) : IO UInt32 := do
  let names :=
    [Settings.defaultTtlVariable, Settings.maxTtlVariable, Settings.storagePathVariable]
  let environment ← names.mapM fun name => do return (name, ← IO.getEnv name)
  let outcome ← execute machine (fun name => (environment.lookup name).join) arguments
  match outcome with
  | .refused .help => IO.print usage
  | .refused _ => IO.eprint usage
  | outcome =>
    IO.eprint outcome.rendering.errors
    IO.print outcome.rendering.output
  return outcome.exitCode.toUInt32

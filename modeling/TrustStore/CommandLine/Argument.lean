import TrustStore.CommandLine.Invocation
import TrustStore.CommandLine.Parameter

/-!
# Reading arguments

The arguments are read from left to right, those of the subcommand by the same rules as those before
it.  `Given` collects what a level has been given.  The value of an option may be an argument of its
own; such an option is settled only when the next option or name is accepted, or at the end of its
level, and an option that then still lacks its value is an error.
-/

namespace TrustStore.CommandLine

/-! ### What an argument looks like -/

inductive Look where
  /-- Two hyphens, after which there are no more options. -/
  | escape
  | long (name : String) (value : Option String)
  | short (letters : List Char)
  | plain
deriving DecidableEq, Repr

def Look.ofText (argument : String) : Look :=
  match argument.toList with
  | ['-', '-'] => escape
  | '-' :: '-' :: rest =>
    let value :=
      match rest.dropWhile (· ≠ '=') with
      | [] => none
      | _ :: value => some (String.ofList value)
    long (String.ofList (rest.takeWhile (· ≠ '='))) value
  | '-' :: c :: rest => short (c :: rest)
  | _ => plain

/-! ### What a level has been given -/

structure Given where
  /-- The options, with the empty text for a flag. -/
  settled : List (Parameter × String)
  /-- The last option, while it may not have its value yet. -/
  pending : Option (Parameter × Option String)
  name : Option String
deriving DecidableEq, Repr

namespace Given

def nothing : Given := ⟨[], none, none⟩

def value? (given : Given) (p : Parameter) : Option String := given.settled.lookup p

def settle (given : Given) (p : Parameter) (value : String) : Except UsageError Given :=
  if (given.value? p).isSome then .error .repeatedArgument
  else if p.kind = .path ∧ value = "" then .error .invalidValue
  else .ok { given with settled := given.settled ++ [(p, value)] }

/-- Settles the last option. -/
def commit (given : Given) : Except UsageError Given :=
  match given.pending with
  | none => .ok given
  | some (_, none) => .error .invalidValue
  | some (p, some value) => settle { given with pending := none } p value

/-- The last option takes the argument as its value. -/
def takes (given : Given) (argument : String) : Bool :=
  match given.pending with
  | some (p, none) => p.kind == .anyText || Look.ofText argument == .plain
  | _ => false

def take (given : Given) (argument : String) : Given :=
  { given with pending := given.pending.map fun (p, _) => (p, some argument) }

/-! ### Accepting arguments -/

def raise (given : Given) (p : Parameter) : Except UsageError Given := do
  let given ← given.commit
  if p = .help then .error .help else given.settle p ""

def acceptLong (level : Level) (given : Given) (name : String) (value : Option String) :
    Except UsageError Given :=
  match level.ofLongName? name with
  | none => .error .unknownArgument
  | some p =>
    match p.kind, value with
    | .flag, none => given.raise p
    | .flag, some _ => .error .tooManyValues
    | _, some value => do (← given.commit).settle p value
    | _, none => do return { ← given.commit with pending := some (p, none) }

def acceptShort (level : Level) (given : Given) : List Char → Except UsageError Given
  | [] => .ok given
  | c :: rest =>
    match level.ofLetter? c with
    | none => .error .unknownArgument
    | some p => do acceptShort level (← given.raise p) rest

/-- Accepts the name of an entry.  Where none may stand it is called by what is missing there. -/
def acceptName (level : Level) (given : Given) (argument : String) : Except UsageError Given :=
  if level.takesName && given.name.isNone then do
    return { ← given.commit with name := some argument }
  else .error (if level = .top then .invalidSubcommand else .unknownArgument)

end Given

/-! ### Levels -/

/-- The arguments after two hyphens. -/
def scanNames (level : Level) (given : Given) : List String → Except UsageError Given
  | [] => .ok given
  | argument :: rest =>
    if level = .top ∧ ((Verb.ofName? argument).isSome ∨ argument = Verb.helpName) then
      .error .unknownArgument
    else do scanNames level (← given.acceptName level argument) rest

/-- The subcommand that explains the others names at most one of them. -/
def scanHelp : List String → UsageError
  | [] => .help
  | [name] =>
    if (Verb.ofName? name).isSome ∨ name = Verb.helpName then .help else .invalidSubcommand
  | _ => .invalidSubcommand

/-- The arguments of a level, up to a subcommand. -/
def scan (level : Level) (given : Given) :
    List String → Except UsageError (Given × Option (Verb × List String))
  | [] => .ok (given, none)
  | argument :: rest =>
    if given.takes argument then scan level (given.take argument) rest
    else if level = .top ∧ argument = Verb.helpName then .error (scanHelp rest)
    else
      match if level = .top then Verb.ofName? argument else none with
      | some verb => .ok (given, some (verb, rest))
      | none =>
        match Look.ofText argument with
        | .escape => do return (← scanNames level given rest, none)
        | .long name value => do scan level (← given.acceptLong level name value) rest
        | .short letters => do scan level (← given.acceptShort level letters) rest
        | .plain => do scan level (← given.acceptName level argument) rest

/-- The end of a level.  `inherited` is the storage path that the environment gives; it is looked at
where the level gives none. -/
def close (inherited : Option String) (given : Given) : Except UsageError Given := do
  let given ← given.commit
  if (given.value? .storagePath).isNone ∧ inherited = some "" then .error .invalidValue
  else return given

/-! ### Whole command lines -/

def required {α : Type} (value : Option α) : Except UsageError α :=
  value.elim (.error .missingArgument) .ok

/-- The command that a subcommand stands for. -/
def commandOf (verb : Verb) (given : Given) : Except UsageError Command :=
  match verb with
  | .list => .ok .list
  | .read => do return .read (← required given.name)
  | .delete => do return .delete (← required given.name)
  | .write => do
    return .write (← required given.name) (← required (given.value? .certificateFile))
      { displayName := given.value? .displayName
        policies := given.value? .policies
        ttl := given.value? .ttl
        maxTtl := given.value? .maxTtl }

/-- The invocation that the arguments spell, the name of the program not among them.  Of several
storage paths that after the subcommand counts first, then that before it, then `inherited`. -/
def Invocation.ofArguments (inherited : Option String) (arguments : List String) :
    Except UsageError Invocation := do
  match ← scan .top .nothing arguments with
  | (top, none) =>
    let top ← close inherited top
    .error (if top.settled.isEmpty && inherited.isNone then .nothingGiven else .missingSubcommand)
  | (top, some (verb, rest)) =>
    let below ← close inherited (← scan (.below verb) .nothing rest).1
    let command ← commandOf verb below
    let top ← close inherited top
    return {
      storagePath := below.value? .storagePath <|> top.value? .storagePath <|> inherited
      verbose := (below.value? .verbose).isSome || (top.value? .verbose).isSome
      command := command }

end TrustStore.CommandLine

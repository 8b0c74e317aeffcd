import Mathlib.Data.List.Forall2
import TrustStore.CommandLine.Argument
import TrustStore.Proofs.Chain
import TrustStore.Proofs.Json.Record
import TrustStore.Proofs.Text.Split

/-!
# Command lines that are read back

An invocation has many command lines: its options stand in any order, those that every level takes
before or after the subcommand, and the name of the entry stands anywhere after the subcommand or
last, behind two hyphens.  `Renders` says which they are.  The scan adds one option at a time to
what a level has been given (`scan_option`), so a level ends with the options that were rendered on
it, in their order (`scan_options`, `scan_placed`).  Where no option is rendered twice the order
does not matter, and every rendering of an invocation is read back as that invocation
(`renderings_are_read_back`).
-/

namespace TrustStore.CommandLine

/-! ### What an invocation sets -/

namespace Verb

def name : Verb → String
  | list => "list"
  | read => "read"
  | write => "write"
  | delete => "delete"

theorem ofName?_name (verb : Verb) : ofName? verb.name = some verb := by
  cases verb <;> rfl

theorem name_of_ofName? {text : String} {verb : Verb} (h : ofName? text = some verb) :
    text = verb.name := by
  unfold ofName? at h
  split at h <;> cases h <;> rfl

end Verb

namespace Command

def verb : Command → Verb
  | .list => .list
  | .read _ => .read
  | .write .. => .write
  | .delete _ => .delete

def name? : Command → Option String
  | .list => none
  | .read name | .write name _ _ | .delete name => some name

def value? : Command → Parameter → Option String
  | .write _ file _, .certificateFile => some file
  | .write _ _ options, .displayName => options.displayName
  | .write _ _ options, .policies => options.policies
  | .write _ _ options, .ttl => options.ttl
  | .write _ _ options, .maxTtl => options.maxTtl
  | _, _ => none

end Command

/-- The value that the invocation has for a parameter, the empty text for a flag that is set. -/
def Invocation.value? (i : Invocation) : Parameter → Option String
  | .storagePath => i.storagePath
  | .verbose => if i.verbose then some "" else none
  | p => i.command.value? p

/-- The paths of the invocation are not empty. -/
def Invocation.HasPaths (i : Invocation) : Prop :=
  ∀ p : Parameter, p.kind = .path → i.value? p ≠ some ""

/-! ### Its command lines -/

/-- The argument gives the option its value. -/
inductive Sets : Parameter × String → String → Prop
  | valued {p : Parameter} (h : p.kind ≠ .flag) (value : String) :
      Sets (p, value) ("--" ++ p.longName ++ "=" ++ value)
  | flag {p : Parameter} (h : p.kind = .flag) : Sets (p, "") ("--" ++ p.longName)
  | letter {p : Parameter} {c : Char} (h : p.letter? = some c) :
      Sets (p, "") (String.ofList ['-', c])

/-- The options are those that the invocation sets, in some order. -/
structure Arranges (i : Invocation) (options : List (Parameter × String)) : Prop where
  once : (options.map Prod.fst).Nodup
  mem_iff : ∀ p value, (p, value) ∈ options ↔ i.value? p = some value

/-- The arguments are those of the options and the name, if there is one. -/
inductive Places : Option String → List String → List String → Prop
  | nowhere (options : List String) : Places none options options
  | among {name : String} (h : name.toList.head? ≠ some '-') (before after : List String) :
      Places (some name) (before ++ after) (before ++ name :: after)
  | last (name : String) (options : List String) :
      Places (some name) options (options ++ ["--", name])

/-- The arguments are a command line of the invocation.  Before the subcommand stand only options
that every level takes. -/
inductive Renders (i : Invocation) : List String → Prop
  | intro {before after : List (Parameter × String)} {top options below : List String}
      (harranges : Arranges i (before ++ after))
      (hbefore : ∀ o ∈ before, o.1 ∈ Level.top.parameters)
      (htop : List.Forall₂ Sets before top) (hoptions : List.Forall₂ Sets after options)
      (hplaces : Places i.command.name? options below) :
      Renders i (top ++ i.command.verb.name :: below)

/-! ### Looks of arguments -/

namespace Look

/-- The first equals sign ends the name of an option. -/
theorem ofText_valued {argument name value : String}
    (h : argument.toList = '-' :: '-' :: (name.toList ++ '=' :: value.toList))
    (hname : '=' ∉ name.toList) : ofText argument = .long name (some value) := by
  have hrun : ∀ c ∈ name.toList, decide (c ≠ '=') = true := by
    intro c hc
    simp only [ne_eq, decide_eq_true_eq]
    rintro rfl
    exact hname hc
  have hrest : ∀ c ∈ ('=' :: value.toList).head?, decide (c ≠ '=') = false := by
    rintro c ⟨⟩
    rfl
  have htake := Text.takeWhile_append_eq hrun hrest
  have hdrop := Text.dropWhile_append_eq hrun hrest
  rw [ofText, h]
  obtain ⟨c, rest, hchars⟩ := List.exists_cons_of_ne_nil
    (List.append_ne_nil_of_right_ne_nil name.toList (List.cons_ne_nil '=' value.toList))
  rw [hchars] at htake hdrop ⊢
  show long (String.ofList ((c :: rest).takeWhile _)) _ = _
  rw [htake, hdrop]
  dsimp only
  rw [String.ofList_toList, String.ofList_toList]

theorem ofText_longName_value (p : Parameter) (value : String) :
    ofText ("--" ++ p.longName ++ "=" ++ value) = .long p.longName (some value) := by
  refine ofText_valued ?_ (by cases p <;> decide)
  simp [String.toList_append]

theorem ofText_longName (p : Parameter) :
    ofText ("--" ++ p.longName) = .long p.longName none := by
  cases p <;> decide

theorem ofText_letter {p : Parameter} {c : Char} (h : p.letter? = some c) :
    ofText (String.ofList ['-', c]) = .short [c] := by
  cases p <;> cases h <;> decide

/-- An argument that starts with no hyphen is plain. -/
theorem ofText_of_head? {argument : String} (h : argument.toList.head? ≠ some '-') :
    ofText argument = .plain := by
  rw [ofText]
  rcases hchars : argument.toList with - | ⟨c, rest⟩
  · rfl
  · have hc : c ≠ '-' := by
      rintro rfl
      exact h (by rw [hchars]; rfl)
    split
    · next heq => exact absurd (List.cons.inj heq).1 hc
    · next heq => exact absurd (List.cons.inj heq).1 hc
    · next heq => exact absurd (List.cons.inj heq).1 hc
    · rfl

theorem ofText_of_word {argument : String}
    (h : (Verb.ofName? argument).isSome ∨ argument = Verb.helpName) : ofText argument = .plain := by
  rcases h with h | rfl
  · obtain ⟨verb, hverb⟩ := Option.isSome_iff_exists.mp h
    rw [Verb.name_of_ofName? hverb]
    cases verb <;> decide
  · decide

end Look

/-! ### Options that a level knows -/

namespace Level

theorem below_ne_top (verb : Verb) : below verb ≠ top := nofun

/-- Every level takes the options of the top. -/
theorem parameters_top_subset (verb : Verb) : top.parameters ⊆ (below verb).parameters := by
  cases verb <;> decide

/-- The level takes the option with its value. -/
structure Takes (level : Level) (o : Parameter × String) : Prop where
  mem : o.1 ∈ level.parameters
  ne_help : o.1 ≠ .help
  not_empty : o.1.kind = .path → o.2 ≠ ""

variable {level : Level} {p : Parameter}

theorem ofLongName?_longName (h : p ∈ level.parameters) :
    level.ofLongName? p.longName = some p := by
  revert h
  rcases level with - | (_ | _ | _ | _) <;> cases p <;> decide

theorem ofLetter?_letter {c : Char} (h : p ∈ level.parameters) (hletter : p.letter? = some c) :
    level.ofLetter? c = some p := by
  revert h
  rcases level with - | (_ | _ | _ | _) <;> cases p <;> cases hletter <;> decide

end Level

theorem Parameter.kind_of_letter {p : Parameter} {c : Char} (h : p.letter? = some c) :
    p.kind = .flag := by
  cases p <;> cases h <;> rfl

/-! ### What a level has been given -/

namespace Given

/-- One more option is settled. -/
def add (given : Given) (options : List (Parameter × String)) : Given :=
  { given with settled := given.settled ++ options }

variable {given : Given} {level : Level} {p : Parameter} {value : String}

theorem commit_eq_ok (h : given.pending = none) : given.commit = .ok given := by
  rw [commit, h]

theorem takes_eq_false (h : given.pending = none) (argument : String) :
    given.takes argument = false := by
  rw [takes, h]

theorem settle_eq_ok (hnew : given.value? p = none) (hvalue : p.kind = .path → value ≠ "") :
    given.settle p value = .ok (given.add [(p, value)]) := by
  rw [settle, hnew, if_neg (by simp), if_neg (fun h => hvalue h.1 h.2), add]

theorem raise_eq_ok (hpending : given.pending = none) (hnew : given.value? p = none)
    (hhelp : p ≠ .help) (hkind : p.kind = .flag) : given.raise p = .ok (given.add [(p, "")]) := by
  have hvalue : p.kind = .path → "" ≠ "" := by
    intro h
    rw [hkind] at h
    cases h
  rw [raise, commit_eq_ok hpending]
  show (if p = .help then _ else _) = _
  rw [if_neg hhelp, settle_eq_ok hnew hvalue]

/-- An option with its value is accepted once. -/
theorem acceptLong_value (hpending : given.pending = none) (htakes : level.Takes (p, value))
    (hnew : given.value? p = none) (hkind : p.kind ≠ .flag) :
    given.acceptLong level p.longName (some value) = .ok (given.add [(p, value)]) := by
  have hsettle : (given.commit >>= fun given => given.settle p value)
      = .ok (given.add [(p, value)]) := by
    rw [commit_eq_ok hpending]
    exact settle_eq_ok hnew htakes.not_empty
  rw [acceptLong, Level.ofLongName?_longName htakes.mem]
  dsimp only
  rcases hcases : p.kind with - | - | - | -
  · exact absurd hcases hkind
  all_goals exact hsettle

theorem acceptLong_flag (hpending : given.pending = none) (htakes : level.Takes (p, ""))
    (hnew : given.value? p = none) (hkind : p.kind = .flag) :
    given.acceptLong level p.longName none = .ok (given.add [(p, "")]) := by
  rw [acceptLong, Level.ofLongName?_longName htakes.mem]
  dsimp only
  rw [hkind]
  exact raise_eq_ok hpending hnew htakes.ne_help hkind

theorem acceptShort_letter (hpending : given.pending = none) (htakes : level.Takes (p, ""))
    (hnew : given.value? p = none) {c : Char} (hletter : p.letter? = some c) :
    given.acceptShort level [c] = .ok (given.add [(p, "")]) := by
  rw [acceptShort, Level.ofLetter?_letter htakes.mem hletter]
  dsimp only
  rw [raise_eq_ok hpending hnew htakes.ne_help (Parameter.kind_of_letter hletter)]
  rfl

theorem acceptName_eq_ok (hpending : given.pending = none) (hlevel : level.takesName = true)
    (hnew : given.name = none) (argument : String) :
    given.acceptName level argument = .ok { given with name := some argument } := by
  rw [acceptName, hlevel, hnew, commit_eq_ok hpending]
  rfl

theorem close_eq_ok (hpending : given.pending = none) : close none given = .ok given := by
  rw [close, commit_eq_ok hpending]
  show (if _ then _ else _) = _
  rw [if_neg (by simp)]
  rfl

end Given

/-! ### One step of a scan -/

section

variable {level : Level} {given : Given} {argument : String} (hpending : given.pending = none)
  (rest : List String)

include hpending

/-- An argument that is neither taken as a value nor the name of a subcommand goes by its look. -/
theorem scan_of_not_word
    (hword : level = .top → ¬((Verb.ofName? argument).isSome ∨ argument = Verb.helpName)) :
    scan level given (argument :: rest) = (match Look.ofText argument with
      | .escape => do return (← scanNames level given rest, none)
      | .long name value => do scan level (← given.acceptLong level name value) rest
      | .short letters => do scan level (← given.acceptShort level letters) rest
      | .plain => do scan level (← given.acceptName level argument) rest) := by
  have hhelp : ¬(level = .top ∧ argument = Verb.helpName) := fun h => hword h.1 (.inr h.2)
  have hverb : (if level = .top then Verb.ofName? argument else none) = none := by
    split
    · next htop => exact Option.not_isSome_iff_eq_none.mp fun h => hword htop (.inl h)
    · rfl
  rw [scan, Given.takes_eq_false hpending, if_neg Bool.false_ne_true, if_neg hhelp]
  generalize (if level = .top then Verb.ofName? argument else none) = found at hverb
  subst hverb
  rfl

theorem scan_long {name : String} {value : Option String} {next : Given}
    (hlook : Look.ofText argument = .long name value)
    (haccept : given.acceptLong level name value = .ok next) :
    scan level given (argument :: rest) = scan level next rest := by
  have hword := mt Look.ofText_of_word (by rw [hlook]; exact Look.noConfusion)
  rw [scan_of_not_word hpending rest fun _ => hword, hlook]
  dsimp only
  rw [haccept]
  rfl

theorem scan_short {letters : List Char} {next : Given}
    (hlook : Look.ofText argument = .short letters)
    (haccept : given.acceptShort level letters = .ok next) :
    scan level given (argument :: rest) = scan level next rest := by
  have hword := mt Look.ofText_of_word (by rw [hlook]; exact Look.noConfusion)
  rw [scan_of_not_word hpending rest fun _ => hword, hlook]
  dsimp only
  rw [haccept]
  rfl

/-- An option is added to what the level has been given. -/
theorem scan_option {o : Parameter × String} (hsets : Sets o argument) (htakes : level.Takes o)
    (hnew : given.value? o.1 = none) :
    scan level given (argument :: rest) = scan level (given.add [o]) rest := by
  cases hsets with
  | @valued p hkind value =>
    exact scan_long hpending rest (Look.ofText_longName_value p value)
      (Given.acceptLong_value hpending htakes hnew hkind)
  | @flag p hkind =>
    exact scan_long hpending rest (Look.ofText_longName p)
      (Given.acceptLong_flag hpending htakes hnew hkind)
  | letter hletter =>
    exact scan_short hpending rest (Look.ofText_letter hletter)
      (Given.acceptShort_letter hpending htakes hnew hletter)

/-- A name is taken where the level has one and none is given yet. -/
theorem scan_name {verb : Verb} (hverb : (Level.below verb).takesName = true)
    (hnew : given.name = none) (hhead : argument.toList.head? ≠ some '-') :
    scan (.below verb) given (argument :: rest)
      = scan (.below verb) { given with name := some argument } rest := by
  rw [scan_of_not_word hpending rest (fun h => absurd h (Level.below_ne_top verb)),
    Look.ofText_of_head? hhead]
  dsimp only
  rw [Given.acceptName_eq_ok hpending hverb hnew]
  rfl

/-- After two dashes anything is a name. -/
theorem scan_last_name {verb : Verb} (hverb : (Level.below verb).takesName = true)
    (hnew : given.name = none) (name : String) :
    scan (.below verb) given ["--", name] = .ok ({ given with name := some name }, none) := by
  have hlook : Look.ofText "--" = .escape := by decide
  have hscan : scanNames (.below verb) given [name] = .ok { given with name := some name } := by
    rw [scanNames, if_neg (by simp), Given.acceptName_eq_ok hpending hverb hnew]
    rfl
  rw [scan_of_not_word hpending [name] (fun h => absurd h (Level.below_ne_top verb)), hlook]
  dsimp only
  rw [hscan]
  rfl

theorem scan_verb (verb : Verb) :
    scan .top given (verb.name :: rest) = .ok (given, some (verb, rest)) := by
  have hhelp : verb.name ≠ Verb.helpName := by cases verb <;> decide
  rw [scan, Given.takes_eq_false hpending, if_neg Bool.false_ne_true, if_neg fun h => hhelp h.2,
    if_pos rfl, Verb.ofName?_name]

end

/-! ### Whole levels -/

/-- Options that are distinct from one another and from those before them are all added. -/
theorem scan_options {level : Level} {options : List (Parameter × String)}
    {arguments : List String} (hsets : List.Forall₂ Sets options arguments)
    (htakes : ∀ o ∈ options, level.Takes o) (given : Given) (hpending : given.pending = none)
    (honce : ((given.settled ++ options).map Prod.fst).Nodup) (rest : List String) :
    scan level given (arguments ++ rest) = scan level (given.add options) rest := by
  induction hsets generalizing given with
  | nil => rw [Given.add, List.append_nil, List.nil_append]
  | @cons o argument options arguments ho hsets ih =>
    -- an option may be settled only once, so the list carries that its keys are distinct
    have hnew : given.value? o.1 = none := by
      refine List.lookup_eq_none_iff.mpr fun settled hsettled => bne_iff_ne.mpr fun heq => ?_
      rw [List.map_append, List.nodup_append] at honce
      exact honce.2.2 settled.1 (List.mem_map_of_mem hsettled) o.1 List.mem_cons_self heq.symm
    have htail : (((given.add [o]).settled ++ options).map Prod.fst).Nodup := by
      rw [Given.add, List.append_assoc]
      exact honce
    have htakesTail := fun o ho => htakes o (List.mem_cons_of_mem _ ho)
    have hrest := ih htakesTail (given.add [o]) hpending htail
    rw [List.cons_append, scan_option hpending _ ho (htakes o List.mem_cons_self) hnew, hrest,
      Given.add, Given.add, List.append_assoc]
    rfl

theorem scan_options_to_end {level : Level} {options : List (Parameter × String)}
    {arguments : List String} (hsets : List.Forall₂ Sets options arguments)
    (htakes : ∀ o ∈ options, level.Takes o) (given : Given) (hpending : given.pending = none)
    (honce : ((given.settled ++ options).map Prod.fst).Nodup) :
    scan level given arguments = .ok (given.add options, none) := by
  have hscan := scan_options hsets htakes given hpending honce []
  rw [List.append_nil] at hscan
  rw [hscan]
  rfl

/-- The level after the subcommand ends with its options and its name. -/
theorem scan_placed {verb : Verb} {name : Option String} {options : List (Parameter × String)}
    {arguments below : List String} (hsets : List.Forall₂ Sets options arguments)
    (hplaces : Places name arguments below)
    (hverb : name.isSome → (Level.below verb).takesName = true)
    (htakes : ∀ o ∈ options, (Level.below verb).Takes o) (honce : (options.map Prod.fst).Nodup) :
    scan (.below verb) .nothing below = .ok (⟨options, none, name⟩, none) := by
  cases hplaces with
  | nowhere => exact scan_options_to_end hsets htakes .nothing rfl honce
  | @among name hhead before after =>
    -- the name divides the arguments, and with them the options that they give
    obtain ⟨first, hfirst, second, hsecond, rfl⟩ : ∃ first, List.Forall₂ Sets first before ∧
        ∃ second, List.Forall₂ Sets second after ∧ options = first ++ second :=
      ⟨options.take before.length, List.forall₂_take_append options before after hsets,
        options.drop before.length, List.forall₂_drop_append options before after hsets,
        (List.take_append_drop _ _).symm⟩
    have honceFirst : (first.map Prod.fst).Nodup := by
      rw [List.map_append] at honce
      exact (List.nodup_append.mp honce).1
    have htakesFirst := fun o ho => htakes o (List.mem_append_left second ho)
    have htakesSecond := fun o ho => htakes o (List.mem_append_right first ho)
    rw [scan_options hfirst htakesFirst .nothing rfl honceFirst,
      scan_name rfl after (hverb rfl) rfl hhead]
    exact scan_options_to_end hsecond htakesSecond ⟨first, none, some name⟩ rfl honce
  | last =>
    rw [scan_options hsets htakes .nothing rfl honce, scan_last_name rfl (hverb rfl) rfl]
    rfl

/-! ### Back to the invocation -/

theorem Command.value?_eq_some {command : Command} {p : Parameter} {value : String}
    (h : command.value? p = some value) :
    p ∈ (Level.below command.verb).parameters ∧ p ≠ .help := by
  unfold value? at h
  split at h
  on_goal 6 => cases h
  all_goals simp [verb, Level.parameters]

theorem Command.takesName_of_name? (command : Command) (h : command.name?.isSome) :
    (Level.below command.verb).takesName = true := by
  cases command with
  | list => cases h
  | _ => rfl

/-- A command is made from its values again. -/
theorem commandOf_eq_ok {command : Command} {given : Given} (hname : given.name = command.name?)
    (hvalues : ∀ p ∉ Level.top.parameters, given.value? p = command.value? p) :
    commandOf command.verb given = .ok command := by
  -- a list has none; the others have a name, and a write its file and options
  rcases command with - | name | ⟨name, file, options⟩ | name
  · rfl
  · show (required given.name >>= fun name => .ok (Command.read name)) = _
    rw [hname]
    rfl
  · have hfile := hvalues .certificateFile (by decide)
    have hdisplayName := hvalues .displayName (by decide)
    have hpolicies := hvalues .policies (by decide)
    have httl := hvalues .ttl (by decide)
    have hmaxTtl := hvalues .maxTtl (by decide)
    show commandOf .write given = _
    rw [commandOf, hname, hfile, hdisplayName, hpolicies, httl, hmaxTtl]
    rfl
  · show (required given.name >>= fun name => .ok (Command.delete name)) = _
    rw [hname]
    rfl

namespace Invocation

variable {i : Invocation} {p : Parameter} {value : String}

/-- Every option of an invocation is known at its level. -/
theorem takes_of_value? (hpaths : i.HasPaths) (h : i.value? p = some value) :
    (Level.below i.command.verb).Takes (p, value) := by
  have hknown : p ∈ (Level.below i.command.verb).parameters ∧ p ≠ .help := by
    cases p with
    | storagePath => exact ⟨Level.parameters_top_subset _ (by decide), by decide⟩
    | verbose => exact ⟨Level.parameters_top_subset _ (by decide), by decide⟩
    | _ => exact Command.value?_eq_some h
  refine ⟨hknown.1, hknown.2, ?_⟩
  rintro hkind rfl
  exact hpaths p hkind h

theorem value?_of_not_mem (h : p ∉ Level.top.parameters) : i.value? p = i.command.value? p := by
  cases p <;> first | rfl | exact absurd (by decide) h

/-- A flag has no other value than the empty text. -/
theorem value_of_flag (h : i.value? p = some value) (hkind : p.kind = .flag) : value = "" := by
  cases p with
  | verbose =>
    obtain ⟨-, hvalue⟩ := Option.ite_none_right_eq_some.mp h
    exact (Option.some.inj hvalue).symm
  | help => exact absurd rfl (Command.value?_eq_some h).2
  | _ => cases hkind

end Invocation

namespace Arranges

variable {i : Invocation}

theorem takes {options : List (Parameter × String)} (h : Arranges i options)
    (hpaths : i.HasPaths) : ∀ o ∈ options, (Level.below i.command.verb).Takes o := by
  rintro ⟨p, value⟩ ho
  exact i.takes_of_value? hpaths ((h.mem_iff p value).mp ho)

variable {before after : List (Parameter × String)}

/-- What is looked up after the subcommand and then before it is what the invocation sets. -/
theorem lookup (h : Arranges i (before ++ after)) (p : Parameter) :
    (after.lookup p).or (before.lookup p) = i.value? p := by
  have honce : ((after ++ before).map Prod.fst).Nodup :=
    (List.perm_append_comm.map Prod.fst).nodup_iff.mp h.once
  refine Option.ext fun value => ?_
  rw [← List.lookup_append, Json.lookup_eq_some_iff_of_nodup honce,
    List.perm_append_comm.mem_iff, h.mem_iff]

/-- What only the subcommand takes is found after it. -/
theorem lookup_after (h : Arranges i (before ++ after))
    (hbefore : ∀ o ∈ before, o.1 ∈ Level.top.parameters) {p : Parameter}
    (hp : p ∉ Level.top.parameters) : after.lookup p = i.command.value? p := by
  have hnone : before.lookup p = none := by
    refine List.lookup_eq_none_iff.mpr fun o ho => bne_iff_ne.mpr ?_
    rintro rfl
    exact hp (hbefore o ho)
  rw [← Invocation.value?_of_not_mem hp, ← h.lookup, hnone, Option.or_none]

end Arranges

/-- Every command line of an invocation is read as the invocation. -/
theorem ofArguments_of_renders {i : Invocation} (hpaths : i.HasPaths) {arguments : List String}
    (h : Renders i arguments) : Invocation.ofArguments none arguments = .ok i := by
  obtain @⟨before, after, top, options, below, harranges, hbefore, htop, hoptions, hplaces⟩ := h
  have htakes := harranges.takes hpaths
  have honce := harranges.once
  rw [List.map_append, List.nodup_append] at honce
  have hscanTop : scan .top .nothing (top ++ i.command.verb.name :: below)
      = .ok (⟨before, none, none⟩, some (i.command.verb, below)) := by
    have htakesTop : ∀ o ∈ before, Level.top.Takes o := fun o ho =>
      { htakes o (List.mem_append_left after ho) with mem := hbefore o ho }
    rw [scan_options htop htakesTop .nothing rfl honce.1, scan_verb rfl]
    rfl
  have hscan : scan (.below i.command.verb) .nothing below
      = .ok (⟨after, none, i.command.name?⟩, none) := by
    have htakesBelow := fun o ho => htakes o (List.mem_append_right before ho)
    exact scan_placed hoptions hplaces i.command.takesName_of_name? htakesBelow honce.2.1
  have hcommand : commandOf i.command.verb ⟨after, none, i.command.name?⟩ = .ok i.command :=
    commandOf_eq_ok rfl fun p hp => harranges.lookup_after hbefore hp
  -- what stands below counts first, but no option stands on both levels
  have hstoragePath : (after.lookup .storagePath <|> before.lookup .storagePath <|> none)
      = i.storagePath := by
    have hor : ∀ a b : Option String, (a <|> b <|> none) = a.or b := by
      rintro (- | a) (- | b) <;> rfl
    rw [hor]
    exact harranges.lookup .storagePath
  have hverbose : ((after.lookup .verbose).isSome || (before.lookup .verbose).isSome)
      = i.verbose := by
    rw [← Option.isSome_or, harranges.lookup]
    rcases hflag : i.verbose <;> simp [Invocation.value?, hflag]
  refine bind_eq_ok.mpr ⟨_, hscanTop, ?_⟩
  refine bind_eq_ok.mpr ⟨_, hscan, bind_eq_ok.mpr ⟨_, Given.close_eq_ok rfl, ?_⟩⟩
  refine bind_eq_ok.mpr ⟨_, hcommand, bind_eq_ok.mpr ⟨_, Given.close_eq_ok rfl, ?_⟩⟩
  exact congrArg Except.ok (congrArg₂ (Invocation.mk · · i.command) hstoragePath hverbose)

/-! ### One of the command lines -/

def argumentOf (o : Parameter × String) : String :=
  if o.1.kind = .flag then "--" ++ o.1.longName else "--" ++ o.1.longName ++ "=" ++ o.2

namespace Invocation

/-- The options that the invocation sets, in the order of the parameters. -/
def options (i : Invocation) : List (Parameter × String) :=
  (Level.below .write).parameters.filterMap fun p => (i.value? p).map (p, ·)

/-- All options after the subcommand, and the name behind two hyphens. -/
def arguments (i : Invocation) : List String :=
  i.command.verb.name :: i.options.map argumentOf
    ++ i.command.name?.elim [] fun name => ["--", name]

variable (i : Invocation)

/-- The options of an invocation, in the order of the parameters, are one arrangement. -/
theorem arranges_options : Arranges i i.options := by
  have hmem : ∀ p value, (p, value) ∈ i.options ↔ i.value? p = some value := by
    intro p value
    have hknown : p ∈ (Level.below .write).parameters := by cases p <;> decide
    constructor
    · intro h
      obtain ⟨p', -, heq⟩ := List.mem_filterMap.mp h
      obtain ⟨value', hvalue, hpair⟩ := Option.map_eq_some_iff.mp heq
      cases hpair
      exact hvalue
    · intro h
      exact List.mem_filterMap.mpr ⟨p, hknown, by rw [h]; rfl⟩
  refine ⟨?_, hmem⟩
  -- each parameter is asked for once, so none is given twice
  have hkeys : i.options.map Prod.fst
      = (Level.below .write).parameters.filter fun p => (i.value? p).isSome := by
    rw [options, List.map_filterMap, ← List.filterMap_eq_filter]
    congr 1
    funext p
    rcases h : i.value? p with - | value <;> simp [h, Option.guard]
  rw [hkeys]
  exact List.filter_sublist.nodup (by decide)

theorem sets_argumentOf {options : List (Parameter × String)}
    (h : ∀ o ∈ options, i.value? o.1 = some o.2) :
    List.Forall₂ Sets options (options.map argumentOf) := by
  refine List.forall₂_map_right_iff.mpr (List.forall₂_same.mpr ?_)
  rintro ⟨p, value⟩ ho
  rw [argumentOf]
  split
  · next hkind =>
    obtain rfl : value = "" := i.value_of_flag (h _ ho) hkind
    exact .flag hkind
  · next hkind => exact .valued hkind value

/-- Every invocation has a rendering. -/
theorem renders_arguments : Renders i i.arguments := by
  have harranges : Arranges i ([] ++ i.options) := i.arranges_options
  have hoptions := i.sets_argumentOf fun o ho => (harranges.mem_iff o.1 o.2).mp ho
  have hplaces : Places i.command.name? (i.options.map argumentOf) (i.options.map argumentOf
      ++ i.command.name?.elim [] fun name => ["--", name]) := by
    rcases i.command.name? with - | name
    · rw [Option.elim_none, List.append_nil]
      exact .nowhere _
    · exact .last name _
  exact .intro harranges nofun .nil hoptions hplaces

end Invocation

/-- Every invocation whose paths are not empty has a command line, and each of its command lines is
read back as that invocation. -/
theorem renderings_are_read_back (i : Invocation) (hpaths : i.HasPaths) :
    Renders i i.arguments ∧
      ∀ arguments, Renders i arguments → Invocation.ofArguments none arguments = .ok i :=
  ⟨i.renders_arguments, fun _ h => ofArguments_of_renders hpaths h⟩

/-- Values that are empty, hold an equals sign, start with a hyphen or are the name of an option or
of a subcommand. -/
def lookalikes : Invocation :=
  ⟨some "-s=x", true, .write "--ttl" "help" ⟨some "", some "a=b", none, some "-1h"⟩⟩

theorem lookalikes_are_read_back :
    let arguments := ["-v", "write", "--max-ttl=-1h", "--display-name=", "--storage-path=-s=x",
      "--certificate-file=help", "--policies=a=b", "--", "--ttl"]
    lookalikes.HasPaths ∧ Renders lookalikes arguments ∧
      Invocation.ofArguments none arguments = .ok lookalikes := by
  intro arguments
  have hpaths : lookalikes.HasPaths := by
    intro p hkind
    cases p <;> cases hkind <;> decide
  let after : List (Parameter × String) := [(.maxTtl, "-1h"), (.displayName, ""),
    (.storagePath, "-s=x"), (.certificateFile, "help"), (.policies, "a=b")]
  have harranges : Arranges lookalikes ([(.verbose, "")] ++ after) := by
    refine ⟨by decide, fun p value => ?_⟩
    cases p <;> simp [after, lookalikes, Invocation.value?, Command.value?, eq_comm]
  have hoptions : List.Forall₂ Sets after ["--max-ttl=-1h", "--display-name=",
      "--storage-path=-s=x", "--certificate-file=help", "--policies=a=b"] :=
    lookalikes.sets_argumentOf fun o ho =>
      (harranges.mem_iff o.1 o.2).mp (List.mem_cons_of_mem _ ho)
  have hrenders : Renders lookalikes arguments :=
    .intro harranges (by decide) (.cons (.letter rfl) .nil) hoptions (.last _ _)
  exact ⟨hpaths, hrenders, (renderings_are_read_back lookalikes hpaths).2 _ hrenders⟩

end TrustStore.CommandLine

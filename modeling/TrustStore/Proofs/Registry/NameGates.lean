import TrustStore.Proofs.Entry.Rules
import TrustStore.Proofs.Registry.Blame
import TrustStore.Proofs.Registry.Refinement
import TrustStore.Proofs.Text.WordCase

/-!
# The two gates of names

A request is refused for a name that is not valid as it is written; every other call is refused for
a name whose normal form is not valid.  The two gates let the same names through, but for names with
a capital that is not in the table of word characters: these are never valid as written
(`isValidName_iff`).  So the second gate never stops what has passed the first, and a request is
refused for its name exactly where another call would be, or where there is such a capital
(`name_gates`).
-/

namespace TrustStore

/-! ### Valid names in lower case -/

namespace Entry

open Text (isWordChar isMark wordlessCapitals lowerAt lowerAfter)

/-- A name is made of word characters and marks. -/
theorem isNameChar_eq (c : Char) : isNameChar c = (isWordChar c || isMark c) := by
  rw [isNameChar, isMark, Bool.or_assoc]

theorem not_isNameChar_of_wordless {c : Char} (h : c ∈ wordlessCapitals) :
    isNameChar c = false := by
  rcases List.mem_pair.mp h with rfl | rfl <;> decide +kernel

section Lowercase

variable {before rest s : List Char} {c d : Char}

/-- Lowering keeps the characters of names in names, and the others out. -/
theorem isNameChar_of_mem_lowerAt (hc : c ∉ wordlessCapitals) (h : d ∈ lowerAt before c rest) :
    isNameChar d = isNameChar c := by
  rw [isNameChar_eq, isNameChar_eq, Text.isWordChar_of_mem_lowerAt hc h,
    Text.isMark_of_mem_lowerAt h]

variable (hs : ∀ c ∈ s, c ∉ wordlessCapitals)

include hs

theorem head?_lowerAfter_isWordChar :
    (∃ d ∈ (lowerAfter before s).head?, isWordChar d = true) ↔
      ∃ c ∈ s.head?, isWordChar c = true := by
  rcases s with - | ⟨c, rest⟩
  · rfl
  · obtain ⟨d, hd, hat⟩ := Text.exists_head?_lowerAfter before c rest
    have hclass := Text.isWordChar_of_mem_lowerAt (hs c List.mem_cons_self) hat
    rw [Option.mem_def.mp hd]
    simp [hclass]

theorem forall_lowerAfter_isNameChar :
    (∀ d ∈ lowerAfter before s, isNameChar d = true) ↔ ∀ c ∈ s, isNameChar c = true := by
  constructor
  · intro h c hc
    obtain ⟨d, hd, before', rest, hat⟩ := @Text.exists_mem_lowerAfter before s c hc
    rw [← isNameChar_of_mem_lowerAt (hs c hc) hat]
    exact h d hd
  · intro h d hd
    obtain ⟨c, hc, before', rest, hat⟩ := Text.exists_of_mem_lowerAfter hd
    rw [isNameChar_of_mem_lowerAt (hs c hc) hat]
    exact h c hc

theorem getLast?_lowerAfter_isWordChar :
    (∃ d ∈ (lowerAfter before s).getLast?, isWordChar d = true) ↔
      ∃ c ∈ s.getLast?, isWordChar c = true := by
  rcases hlast : s.getLast? with - | c
  · obtain rfl := List.getLast?_eq_none_iff.mp hlast
    simp [lowerAfter]
  · obtain ⟨d, hd, before', hat⟩ := @Text.exists_getLast?_lowerAfter before s c hlast
    have hclass := Text.isWordChar_of_mem_lowerAt (hs c (List.mem_of_getLast? hlast)) hat
    rw [Option.mem_def.mp hd]
    simp [hclass]

end Lowercase

/-- A name is valid if its normal form is, and it has no capital that is no word character. -/
theorem isValidName_iff (name : String) : isValidName name = true ↔
    isValidName (normalizeName name) = true ∧ ∀ c ∈ name.toList, c ∉ wordlessCapitals := by
  -- without those two capitals, first, middle and last characters keep their kinds
  have hlower (hs : ∀ c ∈ name.toList, c ∉ wordlessCapitals) :
      isValidName (normalizeName name) = true ↔ isValidName name = true := by
    rw [isValidName, isValidName, toList_normalizeName, isValidNameText_iff, isValidNameText_iff,
      Text.lowercase, head?_lowerAfter_isWordChar hs, forall_lowerAfter_isNameChar hs,
      getLast?_lowerAfter_isWordChar hs]
  constructor
  · intro h
    have hs : ∀ c ∈ name.toList, c ∉ wordlessCapitals := by
      intro c hc hwordless
      have hchar := isNameChar_of_mem h hc
      rw [not_isNameChar_of_wordless hwordless] at hchar
      cases hchar
    exact ⟨(hlower hs).mpr h, hs⟩
  · rintro ⟨h, hs⟩
    exact (hlower hs).mp h

/-- The capital of a letter that is a word character need not be one. -/
theorem wordless_capital_is_not_valid : ¬ ∀ name : String,
    isValidName name = true ↔ isValidName (normalizeName name) = true := by
  intro h
  exact absurd (h "\ua7d2") (by decide +kernel)

/-- Only the empty name has an empty normal form. -/
theorem normalizeName_eq_empty_iff {name : String} : normalizeName name = "" ↔ name = "" := by
  rw [← String.toList_eq_nil_iff, toList_normalizeName, Text.lowercase, Text.lowerAfter_eq_nil,
    String.toList_eq_nil_iff]

/-- A name is missing exactly if it is empty. -/
theorem checkedName_eq_missingName_iff {name : String} :
    checkedName name = .error .missingName ↔ name = "" := by
  rw [← normalizeName_eq_empty_iff]
  constructor
  · intro h
    rcases checkedName_eq_error h with ⟨-, hempty⟩ | ⟨hrule, -⟩
    · exact hempty
    · cases hrule
  · intro h
    rw [checkedName, h]
    rfl

/-- Any other name is refused by its normal form. -/
theorem checkedName_eq_invalidName_iff {name : String} (hne : name ≠ "") :
    checkedName name = .error (.invalidName (normalizeName name)) ↔
      isValidName (normalizeName name) = false := by
  have hne' : normalizeName name ≠ "" := mt normalizeName_eq_empty_iff.mp hne
  unfold checkedName
  dsimp only
  rw [if_neg hne']
  cases isValidName (normalizeName name) <;> simp

end Entry

namespace Registry

open Administration (Route Request)
open Entry (normalizeName isValidName checkedName)
open Text (wordlessCapitals)

/-! ### The gate of the registry -/

/-- The rules that are about the name alone. -/
def IsNameRule : EntryRule → Prop
  | .missingName | .invalidName _ => True
  | _ => False

/-- The calls of the registry itself that are about the entry of a name. -/
inductive Call.Under (name : String) : Call → Prop where
  | read : Under name (.read name)
  | delete : Under name (.delete name)
  | write (p : Entry.Proposal) (h : p.name = name) : Under name (.write p)

section

variable {α : Type} {c : Lease.Ceilings} {name : String} {rule : EntryRule} {e : Fault}

/-- Among the checks of a proposal, only that of the name refuses it for its name. -/
theorem entry_eq_error_iff_checkedName {p : Entry.Proposal} (h : IsNameRule rule) :
    p.entry = .error rule ↔ checkedName p.name = .error rule := by
  constructor
  · intro hentry
    have hbroken := (Entry.Proposal.entry_eq_error_iff.mp hentry).broken
    rcases hname : checkedName p.name with other | n
    · rw [Entry.Proposal.entry, hname] at hentry
      exact congrArg Except.error (Except.error.inj hentry)
    · have hrank : rule.rank < 2 := by
        cases rule <;> first | exact h.elim | simp
      exact absurd hbroken (Entry.Proposal.not_brokenBy_of_checkedName hname hrank)
  · intro hname
    rw [Entry.Proposal.entry, hname]
    rfl

/-- A call on a name refuses it exactly for the rule that the check gives. -/
theorem access_under_eq_refuse_iff {call : Call} (hcall : call.Under name) (rule : EntryRule)
    (h : IsNameRule rule) :
    call.access c = .refuse (.argument rule) ↔ checkedName name = .error rule := by
  cases hcall with
  | read | delete =>
    rw [Call.access, Access.named_eq_refuse_iff (by simp)]
    simp
  | write p hname =>
    rw [Call.access, Access.storing_eq_refuse_iff, ← hname, ← entry_eq_error_iff_checkedName h]
    simp

end

/-! ### The gate of requests -/

section

variable {c : Lease.Ceilings} {name path : String} {r : Request} {rule : EntryRule}

/-- What follows the prefix is the name, unless that is empty. -/
theorem belowEntries?_eq_some (h : Administration.belowEntries? path = some name) :
    name = "" ∨ path = Administration.entryPath name := by
  unfold Administration.belowEntries? at h
  split at h
  · exact Or.inl (Option.some.inj h).symm
  · right
    obtain ⟨rest, hrest, rfl⟩ := Option.map_eq_some_iff.mp h
    rw [List.isPrefixOf?_eq_some_iff_append_eq] at hrest
    rw [← String.toList_inj, Administration.entryPath, String.toList_append, String.toList_ofList,
      hrest]

/-- Names are refused where they are not valid as they stand in the path. -/
theorem ofPath_eq_invalidName_iff : Route.ofPath path = .error (.invalidName name) ↔
    path = Administration.entryPath name ∧ name ≠ "" ∧ isValidName name = false := by
  constructor
  · intro h
    unfold Route.ofPath at h
    split at h
    · cases h
    · rename_i found hbelow
      split at h
      · cases h
      · rename_i hne
        split at h
        · cases h
        · rename_i hvalid
          cases h
          -- the name is judged as it stands in the path
          exact ⟨(belowEntries?_eq_some hbelow).resolve_left hne, hne, Bool.eq_false_iff.mpr hvalid⟩
  · rintro ⟨rfl, hne, hvalid⟩
    exact ofPath_entryPath_invalid hne hvalid

/-- A path that names an entry names it validly. -/
theorem isValidName_of_ofPath (h : Route.ofPath path = .ok (.entry name)) :
    isValidName name = true := by
  unfold Route.ofPath at h
  split at h
  · cases h
  · split at h
    · cases h
    · split at h
      · rename_i hvalid
        cases h
        exact hvalid
      · cases h

/-- A name that passes in a path passes in its normal form as well. -/
theorem checkedName_of_ofPath (h : Route.ofPath path = .ok (.entry name)) :
    checkedName name = .ok (normalizeName name) := by
  have hvalid := ((Entry.isValidName_iff name).mp (isValidName_of_ofPath h)).1
  exact Entry.checkedName_eq_ok_iff.mpr ⟨rfl, Entry.normalizeName_normalizeName name, hvalid⟩

/-- Past the path a name is refused for a rule, never for the request. -/
theorem RequestEnds.ofPath_eq_invalidName {a : Access (Option Administration.Response)}
    (h : RequestEnds c r a) (ha : a = .refuse (.request (.invalidName name))) :
    Route.ofPath r.path = .error (.invalidName name) := by
  cases h with
  | astray hpath =>
    cases ha
    exact hpath
  | onlyListed | notListed | list => cases ha
  | illTyped _ _ _ hcause =>
    cases ha
    exact absurd rfl (hcause name)
  | read | delete =>
    obtain ⟨rule, hrule, -⟩ := (Access.named_eq_refuse_iff (by simp)).mp ha
    cases hrule
  | update =>
    obtain ⟨rule, hrule, -⟩ := Access.storing_eq_refuse_iff.mp ha
    cases hrule

/-- The gate comes first, and nothing behind it refuses a request for the name in its path. -/
theorem requestAccess_eq_refuse_iff :
    requestAccess c r = .refuse (.request (.invalidName name)) ↔
      Route.ofPath r.path = .error (.invalidName name) := by
  constructor
  · exact (requestEnds c r).ofPath_eq_invalidName
  · intro h
    rw [requestAccess, h]

/-- What has passed the gate passes that of the registry. -/
theorem RequestEnds.ne_refuse_nameRule {a : Access (Option Administration.Response)}
    (hends : RequestEnds c r a) (h : IsNameRule rule) : a ≠ .refuse (.argument rule) := by
  intro ha
  cases hends with
  | astray | onlyListed | notListed | illTyped | list => cases ha
  | read hpath | delete hpath =>
    obtain ⟨_, heq, hchecked⟩ := (Access.named_eq_refuse_iff (by simp)).mp ha
    rw [checkedName_of_ofPath hpath] at hchecked
    cases hchecked
  | update hpath _ _ hname =>
    obtain ⟨_, heq, hentry⟩ := Access.storing_eq_refuse_iff.mp ha
    cases heq
    rw [entry_eq_error_iff_checkedName h, hname, checkedName_of_ofPath hpath] at hentry
    cases hentry

end

/-! ### The gates agree -/

/-- Over the storage, names stop requests where they stop the calls of the registry. -/
structure GatesAgree {σ : Type} (storage : Storage (StateM σ)) : Prop where
  /-- The rules of names stop no request behind the gate of requests. -/
  request (c : Lease.Ceilings) (r : Request) (state : σ) (rule : EntryRule) (h : IsNameRule rule) :
    (Step.perform storage ⟨c, .request r⟩ state).1 ≠ .error (.argument rule)
  /-- Where a request is refused for a name, the name is in its path. -/
  path (c : Lease.Ceilings) (r : Request) (state : σ) (name : String)
    (h : (Step.perform storage ⟨c, .request r⟩ state).1 = .error (.request (.invalidName name))) :
    name ≠ "" ∧ r.path = Administration.entryPath name
  /-- A request, whatever else it says, is refused for its name exactly if each call of the registry
  under that name is refused for it, or there is a capital that is no word character. -/
  refused (c c' : Lease.Ceilings) (name : String) (hne : name ≠ "") (operation : Operation)
    (data : Json.Fields) (call : Call) (hcall : call.Under name) (state state' : σ) :
    (Step.perform storage ⟨c, requestOn operation name data⟩ state).1
        = .error (.request (.invalidName name)) ↔
      (Step.perform storage ⟨c', call⟩ state').1
          = .error (.argument (.invalidName (normalizeName name))) ∨
        ∃ ch ∈ name.toList, ch ∈ wordlessCapitals
  /-- The calls of the registry miss a name only where there is none. -/
  missing (c : Lease.Ceilings) (name : String) (call : Call) (hcall : call.Under name) (state : σ) :
    (Step.perform storage ⟨c, call⟩ state).1 = .error (.argument .missingName) ↔ name = ""

/-- The two gates agree over every storage that blames nobody. -/
theorem gatesAgree {σ : Type} {storage : Storage (StateM σ)} (hs : storage.Blameless) :
    GatesAgree storage where
  request c r state rule h := by
    rw [Ne, perform_eq_error_iff (e := .argument rule) hs trivial]
    show ¬ (requestAccess c r).map Answer.response = _
    rw [Access.map_eq_refuse_iff]
    exact (requestEnds c r).ne_refuse_nameRule h
  path c r state name h := by
    rw [perform_eq_error_iff (e := .request _) hs trivial] at h
    have hroute := requestAccess_eq_refuse_iff.mp (Access.map_eq_refuse_iff.mp h)
    obtain ⟨hpath, hne, -⟩ := ofPath_eq_invalidName_iff.mp hroute
    exact ⟨hne, hpath⟩
  refused c c' name hne operation data call hcall state state' := by
    rw [perform_eq_error_iff (e := .request _) hs trivial,
      perform_eq_error_iff (e := .argument _) hs trivial,
      access_under_eq_refuse_iff hcall (.invalidName _) trivial,
      Entry.checkedName_eq_invalidName_iff hne]
    show (requestAccess c ⟨operation, Administration.entryPath name, data⟩).map _ = _ ↔ _
    rw [Access.map_eq_refuse_iff, requestAccess_eq_refuse_iff, ofPath_eq_invalidName_iff,
      ← Bool.not_eq_true, ← Bool.not_eq_true, Entry.isValidName_iff]
    -- both sides say that the normal form is not valid or there is a wordless capital
    simp only [hne, ne_eq, not_false_eq_true, true_and, not_and_or, not_forall, not_not]
    simp
  missing c name call hcall state := by
    rw [perform_eq_error_iff (e := .argument _) hs trivial,
      access_under_eq_refuse_iff hcall .missingName trivial,
      Entry.checkedName_eq_missingName_iff]

/-- A name is valid exactly if its normal form is and no capital in it is a stranger to the table of
word characters; and over a table, also while reads or writes fail, and over a directory of any file
system, the two gates agree but for such capitals. -/
theorem name_gates :
    (∀ name, isValidName name = true ↔
      isValidName (normalizeName name) = true ∧ ∀ c ∈ name.toList, c ∉ wordlessCapitals) ∧
    (∀ reads writes, GatesAgree (KeyTable.storage.failing reads writes)) ∧
    (∀ {σ : Type} (fs : FileSystem (StateM σ)) (root : Path),
      GatesAgree (Storage.ofDirectory fs root)) ∧
    ∀ {σ : Type} (storage : Storage (StateM σ)), storage.Blameless → GatesAgree storage :=
  ⟨Entry.isValidName_iff,
    fun reads writes => gatesAgree (Storage.blameless_keyTable.failing reads writes),
    fun fs root => gatesAgree (Storage.blameless_ofDirectory fs root), fun _ => gatesAgree⟩

theorem hyphenated_name_is_refused :
    KeyTable.storage.Blameless ∧
      (Step.perform KeyTable.storage ⟨⟨60, 60⟩, .read "-Web"⟩ (∅ : KeyTable)).1
        = .error (.argument (.invalidName "-web")) ∧
      (Step.perform KeyTable.storage ⟨⟨60, 60⟩, requestOn .read "-Web" []⟩ (∅ : KeyTable)).1
        = .error (.request (.invalidName "-Web")) := by
  have hgates := name_gates.2.2.2 KeyTable.storage Storage.blameless_keyTable
  have hread : (Step.perform KeyTable.storage ⟨⟨60, 60⟩, .read "-Web"⟩ (∅ : KeyTable)).1
      = .error (.argument (.invalidName "-web")) := by
    decide +kernel
  refine ⟨Storage.blameless_keyTable, hread, ?_⟩
  exact (hgates.refused ⟨60, 60⟩ ⟨60, 60⟩ "-Web" (by decide) .read [] (.read "-Web") .read ∅ ∅).mpr
    (.inl hread)

end Registry

end TrustStore

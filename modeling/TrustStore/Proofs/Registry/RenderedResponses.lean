import TrustStore.Proofs.Json.PrettyText
import TrustStore.Proofs.Registry.Run
import TrustStore.Proofs.Text.Decimal
import TrustStore.Proofs.Text.Split
import TrustStore.Proofs.WireTypes

/-!
# Responses read back from a terminal

What is written for a response can be read again.  The output is a JSON text of the data, and it is
decoded as them unless they are nested too deep for a text; the errors have one line for each
warning and say nothing of the data (`Response.isRenderedAs_render`).  A warning that holds no line
end is found again among them, so that the two streams together determine the response
(`Response.eq_of_render_eq`).  Every answer of a registry is of this kind, whatever the storage does
(`rendered_responses_are_read_back`).
-/

namespace TrustStore.Administration

/-! ### The two streams -/

/-- A warning as it is written. -/
def warningLine (warning : String) : List Char := "WARNING: ".toList ++ warning.toList

namespace Response

/-- What is written for a response, and what can be read of it. -/
structure IsRenderedAs (r : Response) (written : Rendering) : Prop where
  /-- Without data the output is left empty. -/
  empty (h : r.data = []) : written.output = ""
  /-- The output is one JSON text, indented, on lines of its own. -/
  pretty (h : r.data ≠ []) : written.output = (Json.object r.data).prettyText ++ "\n"
  spelled (h : r.data ≠ []) : Json.SpellsElement (.ofJson (.object r.data)) written.output.toList
  decoded (h : r.data ≠ []) (hdepth : (Json.object r.data).depth ≤ 127) :
    Json.decodeText Json.fields written.output = .ok r.data
  /-- Data that are nested too deep are written all the same, but not decoded. -/
  deep (h : r.data ≠ []) (hdepth : 127 < (Json.object r.data).depth) :
    Json.decodeText Json.fields written.output = .error .malformed
  /-- The errors are the warnings in order, a line each. -/
  errors : written.errors.toList = r.warnings.flatMap fun w => warningLine w ++ ['\n']

variable {r : Response}

/-- Data are printed with a line break after them. -/
theorem output_of_ne_nil (h : r.data ≠ []) :
    r.render.output = (Json.object r.data).prettyText ++ "\n" := by
  have hempty : ¬ r.data.isEmpty = true := by rwa [List.isEmpty_iff]
  rw [render, if_neg hempty]

/-- Nothing is printed exactly if there are no data. -/
theorem output_eq_empty_iff : r.render.output = "" ↔ r.data = [] := by
  constructor
  · intro houtput
    -- printed data end with a line break
    by_contra hne
    rw [output_of_ne_nil hne] at houtput
    have hlist := congrArg String.toList houtput
    rw [String.toList_append] at hlist
    exact List.append_ne_nil_of_right_ne_nil _ (List.cons_ne_nil _ _) hlist
  · intro h
    rw [render, h]
    rfl

/-- To decode the output is to decode the data. -/
theorem decodeText_output (hdata : Json.Carried r.data) (h : r.data ≠ []) :
    Json.decodeText Json.fields r.render.output
      = if (Json.object r.data).depth ≤ 127 then .ok r.data else .error .malformed := by
  rw [output_of_ne_nil h, Json.decodeText_prettyText Json.fields hdata.exact (by decide),
    Json.fields_ofJson .whole hdata.canonical]
  rfl

/-- Warnings are printed one a line. -/
theorem toList_errors :
    r.render.errors.toList = r.warnings.flatMap fun w => warningLine w ++ ['\n'] := by
  rw [render, String.toList_join, List.flatMap_map]
  refine congrArg (r.warnings.flatMap ·) (funext fun w => ?_)
  rw [String.toList_append, String.toList_append]
  rfl

/-- Every carried response is rendered as described. -/
theorem isRenderedAs_render (hdata : Json.Carried r.data) : r.IsRenderedAs r.render where
  empty h := output_eq_empty_iff.mpr h
  pretty h := output_of_ne_nil h
  spelled h := by
    rw [output_of_ne_nil h]
    exact Json.spellsElement_prettyText hdata.exact (by decide)
  decoded h hdepth := by rw [decodeText_output hdata h, if_pos hdepth]
  deep h hdepth := by rw [decodeText_output hdata h, if_neg (Nat.not_le.mpr hdepth)]
  errors := toList_errors

/-! ### Reading both streams -/

/-- A response of which nothing is lost when it is written. -/
structure Legible (r : Response) : Prop where
  carried : Json.Carried r.data
  depth : (Json.object r.data).depth ≤ 127
  lines : ∀ w ∈ r.warnings, '\n' ∉ w.toList

/-- A line tells its warning. -/
theorem warningLine_injective : Function.Injective warningLine := by
  intro w w' h
  exact String.toList_inj.mp (List.append_cancel_left h)

theorem newline_not_mem_warningLine {w : String} (h : '\n' ∉ w.toList) :
    '\n' ∉ warningLine w := by
  intro hmem
  rcases List.mem_append.mp hmem with hprefix | htext
  · revert hprefix
    decide
  · exact h htext

/-- The lines of the errors are those of the warnings, and an empty one at the end. -/
theorem splitOn_errors (h : ∀ w ∈ r.warnings, '\n' ∉ w.toList) :
    Text.splitOn '\n' r.render.errors.toList = r.warnings.map warningLine ++ [[]] := by
  have hlines : ∀ line ∈ r.warnings.map warningLine, '\n' ∉ line := by
    intro line hline
    obtain ⟨w, hw, rfl⟩ := List.mem_map.mp hline
    exact newline_not_mem_warningLine (h w hw)
  rw [toList_errors, ← Text.splitOn_lines hlines, List.flatMap_map]

/-- A legible response is determined by what is written for it. -/
theorem eq_of_render_eq {r' : Response} (hr : r.Legible) (hr' : r'.Legible)
    (h : r.render = r'.render) : r = r' := by
  have hdata : r.data = r'.data := by
    have houtput : r.render.output = r'.render.output := congrArg Rendering.output h
    by_cases hempty : r.data = []
    · rw [hempty, output_eq_empty_iff.mp (houtput ▸ output_eq_empty_iff.mpr hempty)]
    · -- both outputs are decoded, and they are the same
      have hempty' : r'.data ≠ [] := by
        rwa [ne_eq, ← output_eq_empty_iff, ← houtput, output_eq_empty_iff]
      have hread := (isRenderedAs_render hr.carried).decoded hempty hr.depth
      have hread' := (isRenderedAs_render hr'.carried).decoded hempty' hr'.depth
      rw [houtput, hread'] at hread
      exact (Except.ok.inj hread).symm
  -- the lines are told apart at their breaks, which no warning contains
  have hwarnings : r.warnings = r'.warnings := by
    have hlines := splitOn_errors hr.lines
    rw [h, splitOn_errors hr'.lines] at hlines
    exact List.map_injective_iff.mpr warningLine_injective
      (List.append_cancel_right hlines).symm
  obtain ⟨data, warnings⟩ := r
  obtain ⟨data', warnings'⟩ := r'
  obtain rfl : data = data' := hdata
  obtain rfl : warnings = warnings' := hwarnings
  rfl

/-- Only an empty response leaves both streams empty. -/
theorem render_eq_nothing_iff : r.render = ⟨"", ""⟩ ↔ r.data = [] ∧ r.warnings = [] := by
  constructor
  · intro h
    refine ⟨output_eq_empty_iff.mp (congrArg Rendering.output h), ?_⟩
    have herrors := r.toList_errors
    rw [h] at herrors
    rcases hwarnings : r.warnings with - | ⟨w, rest⟩
    · rfl
    · rw [hwarnings] at herrors
      cases herrors
  · rintro ⟨hdata, hwarnings⟩
    rw [render, hdata, hwarnings]
    rfl

/-! ### Warnings -/

theorem newline_not_mem_toString (n : Int) : '\n' ∉ (toString n).toList := by
  rw [Text.toList_toString]
  have hdigits (k : Nat) : '\n' ∉ Nat.toDigits 10 k := by
    intro hmem
    exact absurd (Text.isDigit_of_mem_toDigits hmem) (by decide)
  split
  · exact hdigits _
  · exact List.not_mem_cons_of_ne_of_not_mem (by decide) (hdigits _)

/-- The registry's own warnings are single lines. -/
theorem newline_not_mem_text (w : Lease.Warning) : '\n' ∉ w.text.toList := by
  have hexcess {field : String} (hfield : '\n' ∉ field.toList) (requested ceiling : Int64) :
      '\n' ∉ (Lease.Warning.excessText field requested ceiling).toList := by
    have hrequested := newline_not_mem_toString requested.toInt
    have hceiling := newline_not_mem_toString ceiling.toInt
    simp only [Lease.Warning.excessText, String.toList_append, List.mem_append, not_or]
    exact ⟨⟨⟨⟨⟨⟨by decide, hfield⟩, by decide⟩, hrequested⟩, by decide⟩, hceiling⟩, by decide⟩
  cases w with
  | ttl requested ceiling => exact hexcess (by decide) requested ceiling
  | maxTtl requested ceiling => exact hexcess (by decide) requested ceiling

end Response

/-! ### Answers -/

/-- What a request may be answered with. -/
inductive IsAnswer : Option Response → Prop
  | nothing : IsAnswer none
  | names (l : List String) : IsAnswer (some (.ofKeys l))
  | entry (e : Entry) : IsAnswer (some (.ofData e.shown))
  | warnings {l : List Lease.Warning} : l ≠ [] → IsAnswer (some ⟨[], l.map Lease.Warning.text⟩)

/-- What is written for an answer. -/
def rendered (answer : Option Response) : Response.Rendering := answer.elim ⟨"", ""⟩ Response.render

/-- A list of names is carried. -/
theorem carried_ofKeys (l : List String) : Json.Carried (Response.ofKeys l).data :=
  ⟨⟨Entry.exactItems_texts l, trivial⟩, List.pairwise_singleton _ _, Json.canonical_ofTexts l,
    trivial⟩

/-- What an entry shows is carried. -/
theorem carried_shown (e : Entry) : Json.Carried e.shown := by
  have hordered : Json.Fields.Ordered e.shown := by
    have hnames : List.Pairwise (· < ·) (e.shown.map Prod.fst) := by
      show List.Pairwise (· < ·) ["certificate", "display_name", "max_ttl", "policies", "ttl"]
      decide
    exact List.pairwise_map.mp hnames
  constructor
  · exact ⟨trivial, trivial, Entry.fitsWord_toNat e.maxTtl, Entry.exactItems_texts e.policies,
      Entry.fitsWord_toNat e.ttl, trivial⟩
  · exact ⟨hordered, trivial, trivial, trivial, Json.canonical_ofTexts e.policies, trivial, trivial⟩

/-- What an entry shows is an object with one list in it. -/
theorem depth_shown (e : Entry) : (Json.object e.shown).depth = 2 := by
  simp [Entry.shown, Json.depth, Json.depthMembers, Json.ofNat]

/-- An answer has something to say, and nothing of that is lost. -/
theorem IsAnswer.legible {r : Response} (h : IsAnswer (some r)) :
    r.Legible ∧ ¬ (r.data = [] ∧ r.warnings = []) := by
  cases h with
  | names l =>
    refine ⟨⟨carried_ofKeys l, ?_, nofun⟩, nofun⟩
    simp [Response.ofKeys, Json.depth, Json.depthMembers]
  | entry e =>
    refine ⟨⟨carried_shown e, ?_, nofun⟩, nofun⟩
    exact Nat.le_trans (Nat.le_of_eq (depth_shown e)) (by decide)
  | @warnings l hne =>
    refine ⟨⟨⟨trivial, List.Pairwise.nil, trivial⟩, Nat.le_of_ble_eq_true rfl, ?_⟩, ?_⟩
    · intro w hw
      obtain ⟨warning, -, rfl⟩ := List.mem_map.mp hw
      exact Response.newline_not_mem_text warning
    · rintro ⟨-, hnil⟩
      exact hne (List.map_eq_nil_iff.mp hnil)

/-- Answers that are printed alike are the same. -/
theorem IsAnswer.eq_of_rendered_eq {a a' : Option Response} (ha : IsAnswer a) (ha' : IsAnswer a')
    (h : rendered a = rendered a') : a = a' := by
  rcases a with - | r <;> rcases a' with - | r'
  · rfl
  · exact absurd (Response.render_eq_nothing_iff.mp h.symm) ha'.legible.2
  · exact absurd (Response.render_eq_nothing_iff.mp h) ha.legible.2
  · exact congrArg some (Response.eq_of_render_eq ha.legible.1 ha'.legible.1 h)

end TrustStore.Administration

namespace TrustStore.Registry

open Administration (Request Response Route IsAnswer rendered handle)

/-- Whatever the storage says, the answer has the property. -/
def Access.Answers {α : Type} (p : α → Prop) : Access α → Prop
  | refuse _ => True
  | list answer => ∀ names, p (answer names)
  | read _ answer => ∀ e, p (answer e)
  | delete _ answer | store _ answer => p answer

namespace Access

variable {α : Type} {p : α → Prop}

/-- Checking a name adds no answer of its own. -/
theorem answers_named {name : String} {next : String → Access α} (h : ∀ n, (next n).Answers p) :
    (named name next).Answers p := by
  unfold named
  split
  · exact h _
  · trivial

/-- Checking a proposal adds no answer of its own. -/
theorem answers_storing (proposal : Entry.Proposal) {answer : α} (h : p answer) :
    (storing proposal answer).Answers p := by
  unfold storing
  split
  · exact h
  · trivial

theorem exists_of_map_run {σ β : Type} {x : ExceptT Fault (StateM σ) β} {f : β → α} {state : σ}
    {a : α} (h : ((f <$> x).run state).1 = .ok a) : ∃ b, f b = a := by
  rw [map_run] at h
  obtain ⟨b, -, hb⟩ := map_eq_ok.mp h
  exact ⟨b, hb⟩

/-- An access that succeeds has one of its answers. -/
theorem Answers.of_run {σ : Type} {storage : Storage (StateM σ)} {access : Access α}
    (h : access.Answers p) {state : σ} {a : α}
    (hrun : ((access.run storage).run state).1 = .ok a) : p a := by
  rcases access with e | answer | ⟨name, answer⟩ | ⟨name, answer⟩ | ⟨e, answer⟩
  · cases hrun
  · obtain ⟨names, rfl⟩ := exists_of_map_run hrun
    exact h names
  -- a read answers only with an entry that decodes
  · rw [run, bind_run] at hrun
    rcases hget : (storage.get (keyOf name)).run state with ⟨e | record, next⟩
    · rw [hget] at hrun
      cases hrun
    · rw [hget] at hrun
      obtain ⟨e, -, rfl⟩ := map_eq_ok.mp (show (entryOf? record).map answer = .ok a from hrun)
      exact h e
  · obtain ⟨-, rfl⟩ := exists_of_map_run hrun
    exact h
  · obtain ⟨-, rfl⟩ := exists_of_map_run hrun
    exact h

end Access

/-- Requests are answered with names, an entry, warnings or nothing. -/
theorem RequestEnds.answers {ceilings : Lease.Ceilings} {q : Request}
    {access : Access (Option Response)} (h : RequestEnds ceilings q access) :
    access.Answers IsAnswer := by
  cases h with
  | astray | onlyListed | notListed | illTyped => trivial
  | list => exact IsAnswer.names
  | read =>
    refine Access.answers_named fun n e => ?_
    cases e with
    | none => exact .nothing
    | some e => exact .entry e
  | delete => exact Access.answers_named fun n => .nothing
  | update =>
    refine Access.answers_storing _ ?_
    rw [Response.ofWarnings?]
    split
    · exact .nothing
    · rename_i hne
      exact .warnings fun hnil => hne (by rw [hnil]; rfl)

/-- The answer of a request, over any storage. -/
theorem isAnswer_of_handle {σ : Type} {registry : Registry (StateM σ)} {q : Request} {state : σ}
    {a : Option Response} (h : ((handle registry q).run state).1 = .ok a) : IsAnswer a := by
  rw [handle_eq] at h
  exact (requestEnds registry.ceilings q).answers.of_run h

/-- What is written for a response whose data are without floats can be read back, unless the data
are nested too deep for a text; and what is written for the answer to a request, on any registry,
determines that answer. -/
theorem rendered_responses_are_read_back :
    (∀ r : Response, Json.Carried r.data → r.IsRenderedAs r.render) ∧
    ∀ {σ σ' : Type} (registry : Registry (StateM σ)) (registry' : Registry (StateM σ'))
      (q q' : Request) (state : σ) (state' : σ') (a a' : Option Response),
      ((handle registry q).run state).1 = .ok a → ((handle registry' q').run state').1 = .ok a' →
        rendered a = rendered a' → a = a' := by
  refine ⟨fun r hdata => Response.isRenderedAs_render hdata, ?_⟩
  intro σ σ' registry registry' q q' state state' a a' ha ha' h
  exact (isAnswer_of_handle ha).eq_of_rendered_eq (isAnswer_of_handle ha') h

/-- A response with nested data, an escaped line end among them, and two warnings. -/
def nestedResponse : Response :=
  ⟨[("a", .array [.null, .object [("b", .string "c\n")]])], ["x", "y"]⟩

/-- A request for the names of all entries. -/
def listRequest : Request := ⟨.list, "certs/", []⟩

/-- The names of all entries that a table with the given keys answers with. -/
def listed (keys : List String) : Except Fault (Option Response) :=
  ((handle ⟨KeyTable.storage, ⟨0, 0⟩⟩ listRequest).run
    (keys.foldl (fun (t : KeyTable) key => t.insert key []) ∅)).1

/-- The nested response is read back.  Two tables that list the same entry are answered for alike,
and one that lists another entry as well is told apart by what is written. -/
theorem nested_response_is_read_back :
    Json.Carried nestedResponse.data ∧
      Json.decodeText Json.fields nestedResponse.render.output = .ok nestedResponse.data ∧
      nestedResponse.render.errors = "WARNING: x\nWARNING: y\n" ∧
      (∃ a a', listed ["cert/web"] = .ok a ∧ listed ["cert/web", "web"] = .ok a' ∧
        rendered a = rendered a' ∧ a = a' ∧ a = some (.ofKeys ["web"])) ∧
      ∃ a a', listed ["cert/web"] = .ok a ∧ listed ["cert/vpn", "cert/web"] = .ok a' ∧
        rendered a ≠ rendered a' := by
  have hcarried : Json.Carried nestedResponse.data := by
    constructor
    · exact ⟨⟨trivial, ⟨trivial, trivial⟩, trivial⟩, trivial⟩
    · exact ⟨List.pairwise_singleton _ _,
        ⟨trivial, ⟨List.pairwise_singleton _ _, trivial, trivial⟩, trivial⟩, trivial⟩
  have hrendered := rendered_responses_are_read_back.1 nestedResponse hcarried
  have hweb : listed ["cert/web"] = .ok (some (.ofKeys ["web"])) := by rfl
  have hbeside : listed ["cert/web", "web"] = .ok (some (.ofKeys ["web"])) := by rfl
  have hboth : listed ["cert/vpn", "cert/web"] = .ok (some (.ofKeys ["vpn", "web"])) := by rfl
  -- a key outside the directory of the entries is not among the answers
  have hsame := rendered_responses_are_read_back.2 _ _ _ _ _ _ _ _ hweb hbeside rfl
  have hother := rendered_responses_are_read_back.2 _ _ _ _ _ _ _ _ hweb hboth
  refine ⟨hcarried, hrendered.decoded (List.cons_ne_nil _ _) (by decide), ?_,
    ⟨_, _, hweb, hbeside, rfl, hsame, rfl⟩, _, _, hweb, hboth, fun h => ?_⟩
  · exact String.toList_inj.mp (hrendered.errors.trans rfl)
  · simpa [Response.ofKeys, Json.ofTexts] using hother h

/-- A response whose data are written, but nested too deep to be decoded. -/
def deepResponse : Response := ⟨[("data", .object [("a", nestedArrays 126)])], []⟩

theorem deep_output_is_refused : ¬ ∀ r : Response, Json.Carried r.data → r.data ≠ [] →
    Json.decodeText Json.fields r.render.output = .ok r.data := by
  intro h
  have hcarried : Json.Carried deepResponse.data :=
    ⟨⟨⟨exact_nestedArrays 126, trivial⟩, trivial⟩, List.pairwise_singleton _ _,
      ⟨List.pairwise_singleton _ _, canonical_nestedArrays 126, trivial⟩, trivial⟩
  have hne : deepResponse.data ≠ [] := List.cons_ne_nil _ _
  have hdepth : 127 < (Json.object deepResponse.data).depth := by
    simp [deepResponse, Json.depth, Json.depthMembers, depth_nestedArrays]
  have hrefused := (Response.isRenderedAs_render hcarried).deep hne hdepth
  rw [h deepResponse hcarried hne] at hrefused
  cases hrefused

end TrustStore.Registry

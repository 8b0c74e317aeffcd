import TrustStore.Administration.Request
import TrustStore.Administration.Response
import TrustStore.Proofs.Entry.Draft
import TrustStore.Proofs.Entry.Record
import TrustStore.Settings

/-!
# Values that travel as JSON

Drafts of entries, settings, requests and responses are encoded as JSON and decoded again.  Each
comes back as it was (`Json.ReadsBack`), whether its encoding travels as a value, which keeps its
members by key, or as a text.  A text must not nest containers deeper than 127 levels: that bounds
the data of requests and responses, which are any JSON without floats, and nothing else.
-/

namespace TrustStore

namespace Json

/-! ### Reading back -/

/-- An encoding as a value: the members are kept by key, and not in the order of the encoder. -/
def kept : Json → Json
  | .object members => .object (fieldsOf members)
  | j => j

/-- What a decoder makes of the encoding of `a`. -/
structure ReadsBack {α : Type} (decoder : Decoder α) (encoding : Json) (a : α) : Prop where
  value : decodeValue decoder encoding.kept = .ok a
  text (h : encoding.depth ≤ 127) : decodeText decoder encoding.compactText = .ok a
  /-- A text that nests its containers too deep is refused. -/
  deep (h : 127 < encoding.depth) : decodeText decoder encoding.compactText = .error .malformed

/-- Data as requests and responses carry them: without floats, every map in order. -/
structure Carried (data : Fields) : Prop where
  exact : (Json.object data).Exact
  canonical : (Json.object data).Canonical

namespace Carried

variable {data : Fields} (h : Carried data)

include h

theorem fields_ofJson {form : Form} (hform : form.Fits (Json.object data).depth) :
    fields form (.ofJson (.object data)) = .ok data := by
  rw [Json.fields_ofJson form h.canonical, if_pos hform]

/-- The members of a whole text have room for 126 levels. -/
theorem fields_deep (hdeep : 126 < (Json.object data).depth) :
    fields (.text 126) (.ofJson (.object data)) = .error .malformed := by
  have hroom : ¬ (Form.text 126).Fits (Json.object data).depth := Nat.not_le.mpr hdeep
  rw [Json.fields_ofJson _ h.canonical, if_neg hroom]

end Carried

/-- A decoder that takes the members in any order, where there is room for them, reads back what
has those members. -/
theorem readsBack_of_perm {α : Type} {decoder : Decoder α} (members : Fields) {a : α}
    (hexact : ExactMembers members) (hdistinct : Distinct members)
    (hok : ∀ {form inner : Form} {fields : Fields}, form.inner? = some inner →
      inner.Fits (depthMembers members) → List.Perm fields members →
      decoder form (.ofJson (.object fields)) = .ok a)
    (hdeep : 126 < depthMembers members →
      decoder .whole (.ofJson (.object members)) = .error .malformed) :
    ReadsBack decoder (.object members) a := by
  have htext := decodeText_compactText decoder (show (Json.object members).Exact from hexact)
  constructor
  -- a value that is kept has its members sorted
  · exact hok rfl trivial (fieldsOf_perm hdistinct)
  · intro h
    rw [htext]
    exact hok rfl (Nat.le_of_succ_le_succ h) (.refl members)
  · intro h
    rw [htext]
    exact hdeep (Nat.lt_of_succ_lt_succ h)

end Json

/-! ### Drafts -/

namespace Entry.Draft

open Json (Shape)

/-- The members that state a draft. -/
def members (d : Draft) : Json.Fields :=
  [("certificate", .string d.certificate), ("display_name", .string d.displayName),
    ("policies", d.policies.toJson), ("ttl", d.ttl.toJson), ("max_ttl", d.maxTtl.toJson)]

theorem distinct_members (d : Draft) : Json.Distinct d.members := by
  show List.Nodup shape.names
  decide

/-- The members of a draft state it in any order. -/
theorem statedBy_of_perm (d : Draft) {form : Json.Form}
    (hform : form.Fits (Json.depthMembers d.members)) {fields : Json.Fields}
    (hperm : List.Perm fields d.members) : d.StatedBy form (Json.sources fields) := by
  have hlookup := Json.lookup_sources_of_perm hperm d.distinct_members
  simp only [members, Json.depthMembers, Json.Form.fits_max] at hform
  obtain ⟨-, -, hpolicies, -, -, -⟩ := hform
  constructor
  · exact Shape.optional_of_lookup (hlookup "certificate") rfl _
  · exact Shape.optional_of_lookup (hlookup "display_name") rfl _
  · exact Shape.optional_of_lookup (hlookup "policies") (d.policies.decoder_toJson hpolicies) _
  · exact Shape.optional_of_lookup (hlookup "ttl") (d.ttl.decoder_toJson form) _
  · exact Shape.optional_of_lookup (hlookup "max_ttl") (d.maxTtl.decoder_toJson form) _

theorem exact_policies (choice : Policies.Choice) : choice.toJson.Exact := by
  cases choice with
  | delimited text => trivial
  | list names => exact exactItems_texts names

theorem exact_term (term : Lease.Term) : term.toJson.Exact := by
  cases term with
  | seconds n =>
    have hhigh : Int64.maxValue.toInt < UInt64.size := by decide
    exact ⟨Int64.le_toInt n, Int.lt_of_le_of_lt (Int64.toInt_le n) hhigh⟩
  | text s => trivial

theorem depthMembers_le (d : Draft) : Json.depthMembers d.members ≤ 1 := by
  have hterm (term : Lease.Term) : term.toJson.depth = 0 := by cases term <;> rfl
  have hpolicies : d.policies.toJson.depth ≤ 1 := by
    cases d.policies with
    | delimited text => exact Nat.zero_le 1
    | list names => exact Nat.le_of_eq (Json.depth_ofTexts names)
  simp [members, Json.depth, Json.depthMembers, hterm, hpolicies]

theorem readsBack (d : Draft) : Json.ReadsBack decoder d.toJson d := by
  refine Json.readsBack_of_perm d.members ?_ d.distinct_members ?_ ?_
  · exact ⟨trivial, trivial, exact_policies d.policies, exact_term d.ttl, exact_term d.maxTtl,
      trivial⟩
  · intro form inner fields hinner hfits hperm
    have hfits' := Json.Form.fits_of_inner hinner hfits
    rw [Json.Source.ofJson, Json.ofMembers_eq_named]
    refine decoder_named hinner (d.statedBy_of_perm hfits hperm) (d.statedBy_of_perm hfits' hperm)
      ?_ ?_
    · rw [Json.Distinct, Json.map_fst_sources]
      exact (hperm.map Prod.fst).nodup_iff.mpr d.distinct_members
    · intro m hm
      have hm' : m.1 ∈ (Json.sources fields).map Prod.fst := List.mem_map_of_mem hm
      rw [Json.map_fst_sources, (hperm.map Prod.fst).mem_iff] at hm'
      exact hm'
  · intro hdeep
    have hle := d.depthMembers_le
    omega

end Entry.Draft

/-! ### Settings -/

namespace Settings

open Json (Shape)

/-- The members that state settings. -/
def members (s : Settings) : Json.Fields :=
  [("default_lease_ttl", .ofNat s.ceilings.defaultTtl.toNat),
    ("max_lease_ttl", .ofNat s.ceilings.maxTtl.toNat), ("storage_path", .string s.storagePath)]

theorem distinct_members (s : Settings) : Json.Distinct s.members := by
  show List.Nodup shape.names
  decide

/-- The members of settings pass their checks. -/
theorem check_members (s : Settings) (form : Json.Form) {m : String × Json}
    (hm : m ∈ s.members) {field : Json.Field} (hfield : shape.field? m.1 = some field) :
    field.check form (.ofJson m.2) = .ok () := by
  simp only [members, List.mem_cons, List.not_mem_nil, or_false] at hm
  rcases hm with rfl | rfl | rfl <;> obtain rfl := Option.some.inj hfield
  · exact Json.Field.check_of (Entry.unsigned_ofNat form s.ceilings.defaultTtl)
  · exact Json.Field.check_of (Entry.unsigned_ofNat form s.ceilings.maxTtl)
  · rfl

/-- Settings are decoded from their members in any order. -/
theorem decoder_of_perm (s : Settings) {form inner : Json.Form}
    (hinner : form.inner? = some inner) {fields : Json.Fields}
    (hperm : List.Perm fields s.members) : decoder form (.ofJson (.object fields)) = .ok s := by
  have hsurvey : shape.survey form (.ofJson (.object fields)) = .ok (Json.sources fields) :=
    Shape.survey_perm hinner hperm s.distinct_members
      (fun m hm => List.mem_map_of_mem (f := Prod.fst) hm)
      (fun m hm field hfield => s.check_members inner hm hfield)
      (fun field hfield _ => List.mem_map_of_mem (f := Json.Field.name) hfield)
  have hlookup := Json.lookup_sources_of_perm hperm s.distinct_members
  have hdefault : Shape.required (Json.sources fields) form "default_lease_ttl" Json.unsigned
      = .ok s.ceilings.defaultTtl :=
    Shape.required_of_lookup (hlookup "default_lease_ttl")
      (Entry.unsigned_ofNat form s.ceilings.defaultTtl)
  have hmax : Shape.required (Json.sources fields) form "max_lease_ttl" Json.unsigned
      = .ok s.ceilings.maxTtl :=
    Shape.required_of_lookup (hlookup "max_lease_ttl")
      (Entry.unsigned_ofNat form s.ceilings.maxTtl)
  have hpath : Shape.required (Json.sources fields) form "storage_path"
      (Json.textAs "path string") = .ok s.storagePath :=
    Shape.required_of_lookup (hlookup "storage_path") rfl
  rw [decoder, hsurvey]
  simp only [bind, Except.bind, hdefault, hmax, hpath]
  rfl

theorem depthMembers_eq (s : Settings) : Json.depthMembers s.members = 0 := rfl

theorem readsBack (s : Settings) : Json.ReadsBack decoder s.toJson s := by
  refine Json.readsBack_of_perm s.members ?_ s.distinct_members ?_ ?_
  · exact ⟨Entry.fitsWord_toNat s.ceilings.defaultTtl, Entry.fitsWord_toNat s.ceilings.maxTtl,
      trivial, trivial⟩
  · intro form inner fields hinner _ hperm
    exact s.decoder_of_perm hinner hperm
  · intro hdeep
    rw [s.depthMembers_eq] at hdeep
    cases hdeep

end Settings

namespace Administration

open Json (Shape)

/-! ### Requests -/

namespace Request

/-- The members that state a request. -/
def members (r : Request) : Json.Fields :=
  [("operation", .string r.operation.name), ("path", .string r.path), ("data", .object r.data)]

theorem distinct_members (r : Request) : Json.Distinct r.members := by
  show List.Nodup shape.names
  decide

theorem operationDecoder_name (form : Json.Form) (operation : Operation) :
    operationDecoder form (.ofJson (.string operation.name)) = .ok operation := by
  cases operation <;> rfl

section

variable (r : Request) (hdata : Json.Carried r.data)

include hdata

theorem fields_data {form : Json.Form} (hform : form.Fits (Json.depthMembers r.members)) :
    Json.fields form (.ofJson (.object r.data)) = .ok r.data := by
  have hmem : ("data", Json.object r.data) ∈ r.members := by simp [members]
  exact hdata.fields_ofJson (Json.fits_of_mem hform hmem)

theorem check_members {form : Json.Form} (hform : form.Fits (Json.depthMembers r.members))
    {m : String × Json} (hm : m ∈ r.members) {field : Json.Field}
    (hfield : shape.field? m.1 = some field) : field.check form (.ofJson m.2) = .ok () := by
  simp only [members, List.mem_cons, List.not_mem_nil, or_false] at hm
  rcases hm with rfl | rfl | rfl <;> obtain rfl := Option.some.inj hfield
  · exact Json.Field.check_of (operationDecoder_name form r.operation)
  · rfl
  · exact Json.Field.check_of (r.fields_data hdata hform)

/-- A request is decoded from its members in any order, if there is room for its data. -/
theorem decoder_of_perm {form inner : Json.Form} (hinner : form.inner? = some inner)
    (hfits : inner.Fits (Json.depthMembers r.members)) {fields : Json.Fields}
    (hperm : List.Perm fields r.members) : decoder form (.ofJson (.object fields)) = .ok r := by
  have hsurvey : shape.survey form (.ofJson (.object fields)) = .ok (Json.sources fields) :=
    Shape.survey_perm hinner hperm r.distinct_members
      (fun m hm => List.mem_map_of_mem (f := Prod.fst) hm)
      (fun m hm field hfield => r.check_members hdata hfits hm hfield)
      (fun field hfield _ => List.mem_map_of_mem (f := Json.Field.name) hfield)
  have hlookup := Json.lookup_sources_of_perm hperm r.distinct_members
  have hoperation : Shape.required (Json.sources fields) form "operation" operationDecoder
      = .ok r.operation :=
    Shape.required_of_lookup (hlookup "operation") (operationDecoder_name form r.operation)
  have hpath : Shape.required (Json.sources fields) form "path" Json.text = .ok r.path :=
    Shape.required_of_lookup (hlookup "path") rfl
  have hfields : Shape.optional (Json.sources fields) form "data" Json.fields [] = .ok r.data :=
    Shape.optional_of_lookup (hlookup "data")
      (r.fields_data hdata (Json.Form.fits_of_inner hinner hfits)) []
  rw [decoder, hsurvey]
  simp only [bind, Except.bind, hoperation, hpath, hfields]
  rfl

/-- Data that are nested too deep are found out when the members are checked. -/
theorem decoder_deep (h : 126 < Json.depthMembers r.members) :
    decoder .whole (.ofJson (.object r.members)) = .error .malformed := by
  have hdeep : 126 < (Json.object r.data).depth := by
    simpa [members, Json.depthMembers, Json.depth] using h
  have hoperation : (Json.Field.of "operation" true operationDecoder).check (.text 126)
      (.ofJson (.string r.operation.name)) = .ok () :=
    Json.Field.check_of (operationDecoder_name (.text 126) r.operation)
  have hfields : (Json.Field.of "data" false Json.fields).check (.text 126)
      (.ofJson (.object r.data)) = .error .malformed :=
    Json.Field.check_of_error (hdata.fields_deep hdeep)
  -- the operation and the path are read, and the data are too deep
  have hmembers : shape.surveyMembers (.text 126) [] (Json.Source.ofMembers r.members)
      = .error .malformed := by
    simp only [members, Json.Source.ofMembers]
    rw [Shape.surveyMembers_cons rfl rfl, Shape.surveyMembers_cons rfl rfl,
      Shape.surveyMembers_cons rfl rfl, hoperation, hfields]
    rfl
  rw [decoder, Json.Source.ofJson, Shape.survey_of_error rfl hmembers]
  rfl

theorem readsBack : Json.ReadsBack decoder r.toJson r := by
  refine Json.readsBack_of_perm r.members ?_ r.distinct_members ?_ (r.decoder_deep hdata)
  · exact ⟨trivial, trivial, hdata.exact, trivial⟩
  · intro form inner fields hinner hfits hperm
    exact r.decoder_of_perm hdata hinner hfits hperm

end

end Request

/-! ### Responses -/

namespace Response

/-- The members that state a response, of which both may be left out. -/
def members (r : Response) : Json.Fields :=
  (if r.data.isEmpty then [] else [("data", .object r.data)])
    ++ if r.warnings.isEmpty then [] else [("warnings", .ofTexts r.warnings)]

theorem members_sublist (r : Response) :
    r.members.Sublist [("data", .object r.data), ("warnings", .ofTexts r.warnings)] := by
  rcases r with ⟨- | ⟨m, data⟩, - | ⟨warning, warnings⟩⟩ <;> simp [members]

theorem distinct_members (r : Response) : Json.Distinct r.members := by
  have hnames : (r.members.map Prod.fst).Sublist shape.names := r.members_sublist.map Prod.fst
  exact List.Nodup.sublist hnames (by decide)

/-- What is left out has the default that it is left out for. -/
theorem lookup_members (r : Response) :
    (r.members.lookup "data" = some (.object r.data) ∨
        r.members.lookup "data" = none ∧ r.data = []) ∧
      (r.members.lookup "warnings" = some (.ofTexts r.warnings) ∨
        r.members.lookup "warnings" = none ∧ r.warnings = []) := by
  rcases r with ⟨- | ⟨m, data⟩, - | ⟨warning, warnings⟩⟩ <;>
    simp [members, List.lookup_cons]

section

variable (r : Response) (hdata : Json.Carried r.data)

include hdata

theorem check_members {form : Json.Form} (hform : form.Fits (Json.depthMembers r.members))
    {m : String × Json} (hm : m ∈ r.members) {field : Json.Field}
    (hfield : shape.field? m.1 = some field) : field.check form (.ofJson m.2) = .ok () := by
  have hfits := Json.fits_of_mem hform hm
  have hm' := r.members_sublist.subset hm
  simp only [List.mem_cons, List.not_mem_nil, or_false] at hm'
  rcases hm' with rfl | rfl <;> obtain rfl := Option.some.inj hfield
  · exact Json.Field.check_of (hdata.fields_ofJson hfits)
  · exact Json.Field.check_of (Entry.texts_ofTexts form r.warnings)

/-- A response is decoded from its members in any order, if there is room for its data. -/
theorem decoder_of_perm {form inner : Json.Form} (hinner : form.inner? = some inner)
    (hfits : inner.Fits (Json.depthMembers r.members)) {fields : Json.Fields}
    (hperm : List.Perm fields r.members) : decoder form (.ofJson (.object fields)) = .ok r := by
  have hnames : ∀ m ∈ r.members, m.1 ∈ shape.names := fun m hm =>
    (r.members_sublist.map Prod.fst).subset (List.mem_map_of_mem hm)
  have hrequired : ∀ field ∈ shape.fields, field.required = true →
      field.name ∈ r.members.map Prod.fst := by
    intro field hfield hrequired
    simp only [shape, List.mem_cons, List.not_mem_nil, or_false] at hfield
    rcases hfield with rfl | rfl <;> cases hrequired
  have hsurvey : shape.survey form (.ofJson (.object fields)) = .ok (Json.sources fields) :=
    Shape.survey_perm hinner hperm r.distinct_members hnames
      (fun m hm field hfield => r.check_members hdata hfits hm hfield) hrequired
  have hlookup := Json.lookup_sources_of_perm hperm r.distinct_members
  obtain ⟨hdataMember, hwarningsMember⟩ := r.lookup_members
  have hfields : Shape.optional (Json.sources fields) form "data" Json.fields [] = .ok r.data := by
    rw [Shape.optional, hlookup]
    rcases hdataMember with hmember | ⟨hmember, hempty⟩
    · have hmem := (Json.lookup_eq_some_iff r.distinct_members).mp hmember
      rw [hmember]
      exact hdata.fields_ofJson (Json.Form.fits_of_inner hinner (Json.fits_of_mem hfits hmem))
    · rw [hmember, hempty]
      rfl
  have hwarnings : Shape.optional (Json.sources fields) form "warnings" Json.texts []
      = .ok r.warnings := by
    rw [Shape.optional, hlookup]
    -- a member that is left out is empty, which is its default
    rcases hwarningsMember with hmember | ⟨hmember, hempty⟩
    · rw [hmember]
      exact Entry.texts_ofTexts form r.warnings
    · rw [hmember, hempty]
      rfl
  rw [decoder, hsurvey]
  simp only [bind, Except.bind, hfields, hwarnings]
  rfl

/-- Only the data can be nested too deep, and they come first. -/
theorem decoder_deep (h : 126 < Json.depthMembers r.members) :
    decoder .whole (.ofJson (.object r.members)) = .error .malformed := by
  have hmembers : ∃ rest, r.members = ("data", .object r.data) :: rest ∧
      126 < (Json.object r.data).depth := by
    rcases r with ⟨- | ⟨m, data⟩, - | ⟨warning, warnings⟩⟩
    · simp [members, Json.depthMembers] at h
    · simp [members, Json.depthMembers] at h
    · exact ⟨[], rfl, by simpa [members, Json.depthMembers] using h⟩
    · refine ⟨_, rfl, ?_⟩
      -- the warnings are one level deep
      have hmax : 126 < max (Json.object (m :: data)).depth 1 := by
        simpa [members, Json.depthMembers] using h
      show 126 < (Json.object (m :: data)).depth
      omega
  obtain ⟨rest, hmembers, hdeep⟩ := hmembers
  have hfields : (Json.Field.of "data" false Json.fields).check (.text 126)
      (.ofJson (.object r.data)) = .error .malformed :=
    Json.Field.check_of_error (hdata.fields_deep hdeep)
  have hsurvey : shape.surveyMembers (.text 126) [] (Json.Source.ofMembers r.members)
      = .error .malformed := by
    rw [hmembers, Json.Source.ofMembers, Shape.surveyMembers_cons rfl rfl, hfields]
    rfl
  rw [decoder, Json.Source.ofJson, Shape.survey_of_error rfl hsurvey]
  rfl

theorem readsBack : Json.ReadsBack decoder r.toJson r := by
  refine Json.readsBack_of_perm r.members ?_ r.distinct_members ?_ (r.decoder_deep hdata)
  · have hexact := hdata.exact
    rcases r with ⟨- | ⟨m, data⟩, - | ⟨warning, warnings⟩⟩
    · trivial
    · exact ⟨Entry.exactItems_texts _, trivial⟩
    · exact ⟨hexact, trivial⟩
    · exact ⟨hexact, Entry.exactItems_texts _, trivial⟩
  · intro form inner fields hinner hfits hperm
    exact r.decoder_of_perm hdata hinner hfits hperm

end

end Response

end Administration

/-! ### Round trips -/

open Administration (Request Response)

/-- Every draft, and all settings, are read back from their value and from their text, whose depth
is within bounds; requests and responses whose data are without floats are read back from their
value, and from their text if the data are not nested too deep. -/
theorem wire_types_read_back :
    (∀ d : Entry.Draft, Json.ReadsBack Entry.Draft.decoder d.toJson d ∧ d.toJson.depth ≤ 127) ∧
    (∀ s : Settings, Json.ReadsBack Settings.decoder s.toJson s ∧ s.toJson.depth ≤ 127) ∧
    (∀ r : Request, Json.Carried r.data → Json.ReadsBack Request.decoder r.toJson r) ∧
    ∀ r : Response, Json.Carried r.data → Json.ReadsBack Response.decoder r.toJson r := by
  refine ⟨fun d => ⟨d.readsBack, ?_⟩, fun s => ⟨s.readsBack, ?_⟩, Request.readsBack,
    Response.readsBack⟩
  · exact Nat.succ_le_succ (Nat.le_trans d.depthMembers_le (by decide))
  · exact Nat.succ_le_succ (Nat.le_trans (Nat.le_of_eq s.depthMembers_eq) (by decide))

/-- A request whose data are nested. -/
def nestedRequest : Request :=
  ⟨.update, "certs/web", [("a", .array [.null, .object [("b", .string "c")]])]⟩

theorem nested_request_is_read_back :
    Json.Carried nestedRequest.data ∧
      Json.decodeValue Request.decoder nestedRequest.toJson.kept = .ok nestedRequest ∧
      Json.decodeText Request.decoder nestedRequest.toJson.compactText = .ok nestedRequest := by
  have hcarried : Json.Carried nestedRequest.data := by
    constructor
    · exact ⟨⟨trivial, ⟨trivial, trivial⟩, trivial⟩, trivial⟩
    · exact ⟨List.pairwise_singleton _ _,
        ⟨trivial, ⟨List.pairwise_singleton _ _, trivial, trivial⟩, trivial⟩, trivial⟩
  have hback := wire_types_read_back.2.2.1 nestedRequest hcarried
  exact ⟨hcarried, hback.value, hback.text (by decide)⟩

/-- Arrays, one inside the other. -/
def nestedArrays : Nat → Json
  | 0 => .null
  | n + 1 => .array [nestedArrays n]

theorem exact_nestedArrays (n : Nat) : (nestedArrays n).Exact := by
  induction n with
  | zero => trivial
  | succ n ih => exact ⟨ih, trivial⟩

theorem canonical_nestedArrays (n : Nat) : (nestedArrays n).Canonical := by
  induction n with
  | zero => trivial
  | succ n ih => exact ⟨ih, trivial⟩

theorem depth_nestedArrays (n : Nat) : (nestedArrays n).depth = n := by
  induction n with
  | zero => rfl
  | succ n ih => simp [nestedArrays, Json.depth, Json.depthItems, ih]

/-- A request for which a text is too deep: its data are a level above the arrays, and the request
is one more. -/
def deepRequest : Request := ⟨.read, "certs/", [("a", nestedArrays 126)]⟩

theorem carried_deepRequest : Json.Carried deepRequest.data :=
  ⟨⟨exact_nestedArrays 126, trivial⟩, List.pairwise_singleton _ _, canonical_nestedArrays 126,
    trivial⟩

theorem deep_request_is_refused : ¬ ∀ r : Request, Json.Carried r.data →
    Json.decodeText Request.decoder r.toJson.compactText = .ok r := by
  intro h
  have hdepth : 127 < deepRequest.toJson.depth := by
    simp [deepRequest, Request.toJson, Json.depth, Json.depthMembers, depth_nestedArrays]
  have hrefused := (deepRequest.readsBack carried_deepRequest).deep hdepth
  rw [h deepRequest carried_deepRequest] at hrefused
  cases hrefused

end TrustStore

import TrustStore.Entry.Draft
import TrustStore.Proofs.Json.Depth

/-!
# Drafts decoded

A draft is decoded from an object member by member: each of its fields is decoded from the member of
its name, or has its default where there is none (`Draft.decoder_named`).  What a value of the right
type is decoded to is said for each of the two forms of policies and of lease terms.
-/

namespace TrustStore

/-! ### Policies -/

namespace Policies.Choice

theorem texts?_map_string (l : List String) : texts? (l.map .string) = some l := by
  induction l with
  | nil => rfl
  | cons s l ih =>
    rw [List.map_cons, texts?, ih]
    rfl

theorem decoder_ofTexts (form : Json.Form) (hform : form.Fits 1) (l : List String) :
    decoder form (.ofJson (.ofTexts l)) = .ok (.list l) := by
  have htexts : ofJson? (.ofTexts l) = some (.list l) := by
    rw [Json.ofTexts, ofJson?, texts?_map_string]
    rfl
  have hany : Json.any form (.ofJson (.ofTexts l)) = .ok (.ofTexts l) := by
    rw [Json.any_ofJson form (Json.canonical_ofTexts l), Json.depth_ofTexts, if_pos hform]
  simp only [decoder, hany, bind, Except.bind, htexts]

theorem decoder_string (form : Json.Form) (s : String) :
    decoder form (.ofJson (.string s)) = .ok (.delimited s) := rfl

theorem decoder_toJson {form : Json.Form} (choice : Choice)
    (hform : form.Fits choice.toJson.depth) :
    decoder form (.ofJson choice.toJson) = .ok choice := by
  cases choice with
  | delimited text => exact decoder_string form text
  | list names =>
    rw [toJson, Json.depth_ofTexts] at hform
    exact decoder_ofTexts form hform names

/-- Only a list of strings is a list of texts. -/
theorem eq_map_string_of_texts? {items : List Json} {l : List String} (h : texts? items = some l) :
    items = l.map .string := by
  fun_induction texts? items generalizing l with
  | case1 =>
    cases h
    rfl
  | case2 s rest ih =>
    obtain ⟨l', hl', rfl⟩ := Option.map_eq_some_iff.mp h
    rw [List.map_cons, ih hl']
  | case3 => cases h

/-- A value is read as a choice only if it is the one that the choice is shown as. -/
theorem eq_toJson_of_ofJson? {j : Json} {choice : Choice} (h : ofJson? j = some choice) :
    j = choice.toJson := by
  unfold ofJson? at h
  split at h
  · cases h
    rfl
  · obtain ⟨l, hl, rfl⟩ := Option.map_eq_some_iff.mp h
    exact congrArg Json.array (eq_map_string_of_texts? hl)
  · cases h

/-- Policies are decoded from what they are written as, and from nothing else. -/
theorem decoder_eq_ok_iff {j : Json} {choice : Choice} :
    decoder .value (.ofJson j) = .ok choice ↔ j = choice.toJson := by
  constructor
  · intro h
    obtain ⟨j', hany, h⟩ := bind_eq_ok.mp h
    have hvalue := Json.any_eq_ok hany
    split at h
    · rename_i choice' hchoice
      cases h
      rw [eq_toJson_of_ofJson? hchoice] at hvalue
      cases choice with
      | delimited text => exact Json.eq_of_toJson? hvalue rfl
      | list names => exact Json.eq_ofTexts_of_toJson? hvalue
    · cases h
  · rintro rfl
    exact decoder_toJson choice trivial

end Policies.Choice

/-! ### Lease terms -/

namespace Lease.Term

/-- An integer of 64 bits is read as that many seconds. -/
theorem decoder_ofInt (form : Json.Form) {n : Int} (hlow : Int64.minValue.toInt ≤ n)
    (hhigh : n ≤ Int64.maxValue.toInt) :
    decoder form (.ofJson (.ofInt n)) = .ok (.seconds (.ofInt n)) := by
  have hterm : ofJson? (.ofInt n) = some (.seconds (.ofInt n)) := if_pos ⟨hlow, hhigh⟩
  have hany : Json.any form (.ofJson (.ofInt n)) = .ok (.ofInt n) := rfl
  simp only [decoder, hany, bind, Except.bind, hterm]

theorem decoder_toInt (form : Json.Form) (n : Int64) :
    decoder form (.ofJson (.ofInt n.toInt)) = .ok (.seconds n) := by
  rw [decoder_ofInt form (Int64.le_toInt n) (Int64.toInt_le n), Int64.ofInt_toInt]

/-- A length that fits a signed number is read as that number. -/
theorem decoder_ofNat (form : Json.Form) {n : Nat} (h : n ≤ Int64.maxValue.toInt) :
    decoder form (.ofJson (.ofNat n)) = .ok (.seconds (.ofInt n)) :=
  decoder_ofInt form (Int.le_trans (by decide) (Int.natCast_nonneg n)) h

theorem decoder_string (form : Json.Form) (s : String) :
    decoder form (.ofJson (.string s)) = .ok (.text s) := rfl

theorem decoder_toJson (form : Json.Form) (term : Term) :
    decoder form (.ofJson term.toJson) = .ok term := by
  cases term with
  | seconds n => exact decoder_toInt form n
  | text s => exact decoder_string form s

/-- A value is read as a term only if it is the one that the term is shown as. -/
theorem eq_toJson_of_ofJson? {j : Json} {term : Term} (h : ofJson? j = some term) :
    j = term.toJson := by
  unfold ofJson? at h
  split at h
  · rename_i n
    split at h
    · rename_i hrange
      have hlimit : Int64.maxValue.toInt < 2 ^ 63 := by decide
      cases h
      rw [toJson, Int64.toInt_ofInt_of_le hrange.1 (Int.lt_of_le_of_lt hrange.2 hlimit)]
      rfl
    · cases h
  · cases h
    rfl
  · cases h

/-- A term is decoded from what it is written as, and from nothing else. -/
theorem decoder_eq_ok_iff {j : Json} {term : Term} :
    decoder .value (.ofJson j) = .ok term ↔ j = term.toJson := by
  constructor
  · intro h
    -- a term has no depth, so it was read as it is
    obtain ⟨j', hany, h⟩ := bind_eq_ok.mp h
    have hvalue := Json.any_eq_ok hany
    split at h
    · rename_i term' hterm
      cases h
      rw [eq_toJson_of_ofJson? hterm] at hvalue
      exact Json.eq_of_toJson? hvalue (by cases term <;> rfl)
    · cases h
  · rintro rfl
    exact decoder_toJson .value term

end Lease.Term

/-! ### Drafts -/

namespace Entry.Draft

open Json (Shape)

/-- The fields of a draft, each as its member or its absence states it. -/
structure StatedBy (d : Draft) (form : Json.Form) (members : Json.Members) : Prop where
  certificate : Shape.optional members form "certificate" Json.text "" = .ok d.certificate
  displayName : Shape.optional members form "display_name" Json.text "" = .ok d.displayName
  policies : Shape.optional members form "policies" Policies.Choice.decoder .empty
    = .ok d.policies
  ttl : Shape.optional members form "ttl" Lease.Term.decoder .zero = .ok d.ttl
  maxTtl : Shape.optional members form "max_ttl" Lease.Term.decoder .zero = .ok d.maxTtl

variable {d : Draft} {form inner : Json.Form} {members : Json.Members}

/-- A member that an optional field is decoded from passes the check of the field. -/
theorem check_of_optional {α : Type} {name : String} {decoder : Json.Decoder α} {default a : α}
    {source : Json.Source} (hlookup : members.lookup name = some source)
    (h : Shape.optional members form name decoder default = .ok a) :
    (Json.Field.of name false decoder).check form source = .ok () := by
  rw [Shape.optional, hlookup] at h
  exact Json.Field.check_of h

/-- Members that state a draft pass the checks of their fields. -/
theorem StatedBy.check (h : d.StatedBy form members) (hdistinct : Json.Distinct members)
    {m : String × Json.Source} (hm : m ∈ members) {field : Json.Field}
    (hfield : shape.field? m.1 = some field) : field.check form m.2 = .ok () := by
  have hlookup : members.lookup m.1 = some m.2 := (Json.lookup_eq_some_iff hdistinct).mpr hm
  have hname : (field.name == m.1) = true :=
    List.find?_some (p := fun f : Json.Field => f.name == m.1) hfield
  have hmem : field ∈ shape.fields := List.mem_of_find?_eq_some hfield
  rw [← eq_of_beq hname] at hlookup
  simp only [shape, List.mem_cons, List.not_mem_nil, or_false] at hmem
  -- one field of the shape after the other
  rcases hmem with rfl | rfl | rfl | rfl | rfl
  · exact check_of_optional hlookup h.certificate
  · exact check_of_optional hlookup h.displayName
  · exact check_of_optional hlookup h.policies
  · exact check_of_optional hlookup h.ttl
  · exact check_of_optional hlookup h.maxTtl

/-- Members that state a draft, and no others, are decoded to that draft.  They are checked as parts
of the object, and decoded once more after it. -/
theorem decoder_named (hinner : form.inner? = some inner) (hcheck : d.StatedBy inner members)
    (h : d.StatedBy form members) (hdistinct : Json.Distinct members)
    (hnames : ∀ m ∈ members, m.1 ∈ shape.names) :
    decoder form (.object (Json.named members) true) = .ok d := by
  -- no member of a draft is required
  have hrequired : ∀ field ∈ shape.fields, field.required = true →
      field.name ∈ members.map Prod.fst := by
    intro field hfield hrequired
    simp only [shape, List.mem_cons, List.not_mem_nil, or_false] at hfield
    rcases hfield with rfl | rfl | rfl | rfl | rfl <;> cases hrequired
  have hsurvey : shape.survey form (.object (Json.named members) true) = .ok members :=
    Shape.survey_own hinner hnames (fun m hm field hfield => hcheck.check hdistinct hm hfield)
      hdistinct hrequired
  rw [decoder, hsurvey]
  simp only [bind, Except.bind, empty, h.certificate, h.displayName, h.policies, h.ttl, h.maxTtl]
  rfl

/-- A map whose members state a draft, and no others, is decoded to that draft. -/
theorem decodeValue_of_statedBy {fields : Json.Fields} (h : d.StatedBy .value (Json.sources fields))
    (hdistinct : Json.Distinct fields) (hnames : ∀ m ∈ fields, m.1 ∈ shape.names) :
    Json.decodeValue decoder (.object fields) = .ok d := by
  rw [Json.decodeValue, Json.Source.ofJson, Json.ofMembers_eq_named]
  refine decoder_named rfl h h ?_ ?_
  · rw [Json.Distinct, Json.map_fst_sources]
    exact hdistinct
  · intro m hm
    obtain ⟨field, hfield, rfl⟩ := List.mem_map.mp hm
    exact hnames field hfield

/-- A map is decoded to a draft only if its members state it, and there are no others. -/
theorem statedBy_of_decodeValue {fields : Json.Fields}
    (h : Json.decodeValue decoder (.object fields) = .ok d) :
    d.StatedBy .value (Json.sources fields) ∧ ∀ m ∈ fields, m.1 ∈ shape.names := by
  rw [Json.decodeValue, Json.Source.ofJson, Json.ofMembers_eq_named] at h
  obtain ⟨found, hsurvey, h⟩ := bind_eq_ok.mp h
  -- the shape is strict, so all members are known
  obtain ⟨rfl, hnames⟩ := Shape.survey_eq_ok rfl rfl hsurvey
  obtain ⟨_, hcertificate, h⟩ := bind_eq_ok.mp h
  obtain ⟨_, hdisplay, h⟩ := bind_eq_ok.mp h
  obtain ⟨_, hpolicies, h⟩ := bind_eq_ok.mp h
  obtain ⟨_, httl, h⟩ := bind_eq_ok.mp h
  obtain ⟨_, hmax, h⟩ := bind_eq_ok.mp h
  cases h
  exact ⟨⟨hcertificate, hdisplay, hpolicies, httl, hmax⟩,
    fun m hm => hnames _ (List.mem_map_of_mem hm)⟩

/-! ### Fields that may be left out -/

/-- A field of a map that is there if it is given, in an encoding that the decoder undoes. -/
theorem optional_fieldsOf {α β : Type} {members : List (String × Option Json)}
    (hdistinct : Json.Distinct members) {name : String} {field : Option β} {encode : β → Json}
    (hlookup : members.lookup name = some (field.map encode)) {decoder : Json.Decoder α}
    {decode : β → α} (hdecode : ∀ b, decoder .value (.ofJson (encode b)) = .ok (decode b))
    (default : α) :
    Shape.optional (Json.sources (Json.fieldsOf (Json.present members))) .value name decoder default
      = .ok (field.elim default decode) := by
  rw [Shape.optional, Json.lookup_sources_fieldsOf hdistinct, hlookup]
  rcases field with - | b
  · rfl
  · exact hdecode b

/-- A proposal depends on what the lengths and policies resolve to. -/
theorem proposal_congr {d d' : Draft} (hcertificate : d.certificate = d'.certificate)
    (hdisplay : d.displayName = d'.displayName)
    (hpolicies : d.policies.resolve = d'.policies.resolve)
    (httl : d.ttl.resolve = d'.ttl.resolve) (hmax : d.maxTtl.resolve = d'.maxTtl.resolve)
    (name : String) : d.proposal name = d'.proposal name := by
  simp only [proposal, seconds, hcertificate, hdisplay, hpolicies, httl, hmax]

end Entry.Draft

end TrustStore

import TrustStore.Json.Decoder
import TrustStore.Proofs.Chain

/-!
# Records

A record is decoded from the members of an object.  The survey finds those that the record has
fields for and passes over the others (`Shape.survey_named`), and as no two of them share a name,
the order in which they stand does not matter (`lookup_of_perm`).
-/

namespace TrustStore.Json

/-! ### Members -/

/-- Members with their names. -/
abbrev Members := List (String × Source)

/-- The members of a source, under the given names. -/
def named (members : Members) : List (Source × Source) :=
  members.map fun m => (.string (some m.1), m.2)

/-- No two members share a name. -/
def Distinct {α : Type} (members : List (String × α)) : Prop := (members.map Prod.fst).Nodup

/-- The members of an object of which nothing is missing are readable. -/
theorem readable_of_named {members : Members}
    (h : (Source.object (named members) true).readable = true) :
    ∀ m ∈ members, m.2.readable = true := by
  have hall : Source.readableMembers (named members) = true := h
  clear h
  induction members with
  | nil =>
    intro m hm
    cases hm
  | cons m members ih =>
    have hparts : (true && m.2.readable && Source.readableMembers (named members)) = true := hall
    rw [Bool.true_and, Bool.and_eq_true] at hparts
    intro m' hm'
    rcases List.mem_cons.mp hm' with rfl | hm'
    · exact hparts.1
    · exact ih hparts.2 m' hm'

/-! ### Look-ups -/

/-- Where no two pairs share a key, to look one up is to find it among them. -/
theorem lookup_eq_some_iff_of_nodup {κ α : Type} [BEq κ] [LawfulBEq κ] {pairs : List (κ × α)}
    (h : (pairs.map Prod.fst).Nodup) {key : κ} {value : α} :
    pairs.lookup key = some value ↔ (key, value) ∈ pairs := by
  induction pairs with
  | nil => simp
  | cons pair pairs ih =>
    obtain ⟨k, v⟩ := pair
    obtain ⟨hfirst, hrest⟩ := List.nodup_cons.mp h
    rw [List.lookup_cons]
    by_cases hkey : key = k
    · subst hkey
      rw [BEq.rfl, Option.some_inj]
      constructor
      · rintro rfl
        exact List.mem_cons_self
      · intro hmem
        -- the key is not repeated further on
        rcases List.mem_cons.mp hmem with heq | hmem
        · exact (Prod.mk.inj heq).2.symm
        · exact absurd (List.mem_map_of_mem (f := Prod.fst) hmem) hfirst
    · rw [beq_eq_false_iff_ne.mpr hkey, ih hrest]
      constructor
      · exact List.mem_cons_of_mem _
      · intro hmem
        rcases List.mem_cons.mp hmem with heq | hmem
        · exact absurd (Prod.mk.inj heq).1 hkey
        · exact hmem

theorem lookup_eq_some_iff {α : Type} {members : List (String × α)} (h : Distinct members)
    {name : String} {value : α} :
    members.lookup name = some value ↔ (name, value) ∈ members :=
  lookup_eq_some_iff_of_nodup h

/-- What is found under a name does not depend on the order of the members. -/
theorem lookup_of_perm {α : Type} {members others : List (String × α)}
    (hperm : members.Perm others) (h : Distinct others) (name : String) :
    members.lookup name = others.lookup name := by
  have hmembers : Distinct members := (hperm.map Prod.fst).nodup_iff.mpr h
  refine Option.ext fun source => ?_
  rw [lookup_eq_some_iff hmembers, lookup_eq_some_iff h, hperm.mem_iff]

theorem lookup_eq_none_iff {α : Type} {members : List (String × α)} {name : String} :
    members.lookup name = none ↔ name ∉ members.map Prod.fst := by
  rw [List.lookup_eq_none_iff, List.mem_map]
  constructor
  · rintro h ⟨m, hm, rfl⟩
    exact bne_iff_ne.mp (h m hm) rfl
  · intro h m hm
    exact bne_iff_ne.mpr fun hname => h ⟨m, hm, hname.symm⟩

/-! ### Surveys -/

theorem Field.check_of {α : Type} {name : String} {required : Bool} {decoder : Decoder α}
    {form : Form} {source : Source} {a : α} (h : decoder form source = .ok a) :
    (Field.of name required decoder).check form source = .ok () := by
  show (decoder form source).map _ = _
  rw [h]
  rfl

theorem Field.check_of_error {α : Type} {name : String} {required : Bool} {decoder : Decoder α}
    {form : Form} {source : Source} {e : Problem} (h : decoder form source = .error e) :
    (Field.of name required decoder).check form source = .error e := by
  show (decoder form source).map _ = _
  rw [h]
  rfl

namespace Shape

section

variable {α : Type} {found : Members} {form : Form} {name : String} {source : Source}
  {decoder : Decoder α} {a : α} (hlookup : found.lookup name = some source)
  (h : decoder form source = .ok a)

include hlookup h

theorem required_of_lookup : required found form name decoder = .ok a := by
  rw [required, hlookup]
  exact h

theorem optional_of_lookup (default : α) : optional found form name decoder default = .ok a := by
  rw [optional, hlookup]
  exact h

end

variable {shape : Shape} {form : Form} {members : Members}

theorem field?_eq_none_iff {name : String} : shape.field? name = none ↔ name ∉ shape.names := by
  rw [field?, List.find?_eq_none, names, List.mem_map]
  constructor
  · rintro h ⟨field, hfield, rfl⟩
    exact h field hfield BEq.rfl
  · intro h field hfield hname
    exact h ⟨field, hfield, eq_of_beq hname⟩

theorem mem_names_of_field? {name : String} {field : Field} (h : shape.field? name = some field) :
    name ∈ shape.names := by
  refine Classical.not_not.mp fun hname => ?_
  rw [field?_eq_none_iff.mpr hname] at h
  cases h

/-- The members that the record has fields for. -/
def known (shape : Shape) (members : Members) : Members :=
  members.filter fun m => m.1 ∈ shape.names

/-- A member passes the check of its field; one without a field may be passed over. -/
structure Admits (shape : Shape) (form : Form) (m : String × Source) : Prop where
  known : ∀ field, shape.field? m.1 = some field → field.check form m.2 = .ok ()
  unknown : m.1 ∉ shape.names → shape.strict = false ∧ m.2.readable = true

/-- A member that has a field, and is the first of its name, is checked before those that follow. -/
theorem surveyMembers_cons {field : Field} {name : String} (hfield : shape.field? name = some field)
    {found : Members} (hnew : found.lookup name = none) (source : Source)
    (rest : List (Source × Source)) :
    shape.surveyMembers form found ((.string (some name), source) :: rest)
      = field.check form source >>= fun _ =>
        shape.surveyMembers form (found ++ [(name, source)]) rest := by
  rw [surveyMembers, hfield, hnew]
  rfl

/-- The survey finds the known members in their order, after those that it has found before. -/
theorem surveyMembers_named (hadmits : ∀ m ∈ members, shape.Admits form m) {found : Members}
    (hdistinct : Distinct (found ++ shape.known members)) :
    shape.surveyMembers form found (named members) = .ok (found ++ shape.known members) := by
  induction members generalizing found with
  | nil =>
    show Except.ok found = .ok (found ++ [])
    rw [List.append_nil]
  | cons m members ih =>
    obtain ⟨name, source⟩ := m
    have hm := hadmits _ List.mem_cons_self
    have hrest := fun m hm => hadmits m (List.mem_cons_of_mem _ hm)
    show shape.surveyMembers form found ((.string (some name), source) :: named members) = _
    rcases hfield : shape.field? name with - | field
    · have hname : name ∉ shape.names := field?_eq_none_iff.mp hfield
      have hknown : shape.known ((name, source) :: members) = shape.known members :=
        List.filter_cons_of_neg (by simpa using hname)
      obtain ⟨hstrict, hreadable⟩ := hm.unknown hname
      rw [hknown] at hdistinct ⊢
      rw [surveyMembers, hfield]
      simp only [hstrict, hreadable]
      exact ih hrest hdistinct
    · have hname := mem_names_of_field? hfield
      have hknown : shape.known ((name, source) :: members)
          = (name, source) :: shape.known members :=
        List.filter_cons_of_pos (by simpa using hname)
      rw [hknown, List.append_cons] at hdistinct
      -- the name is new, since no known member is repeated
      have hnew : found.lookup name = none := by
        rw [lookup_eq_none_iff]
        intro hmem
        rw [Distinct, List.map_append, List.map_append, List.append_assoc] at hdistinct
        exact (List.nodup_append.mp hdistinct).2.2 name hmem name List.mem_cons_self rfl
      rw [surveyMembers_cons hfield hnew, hm.known field hfield, hknown,
        List.append_cons found _ (shape.known members)]
      exact ih hrest hdistinct

/-- An object whose members are admitted, with those that are required, is surveyed. -/
theorem survey_named {inner : Form} (hinner : form.inner? = some inner)
    (hadmits : ∀ m ∈ members, shape.Admits inner m) (hdistinct : Distinct (shape.known members))
    (hrequired : ∀ field ∈ shape.fields, field.required = true →
      field.name ∈ (shape.known members).map Prod.fst) :
    shape.survey form (.object (named members) true) = .ok (shape.known members) := by
  have hfound : shape.surveyMembers inner [] (named members) = .ok (shape.known members) :=
    surveyMembers_named hadmits hdistinct
  -- every required field has been found
  have hmissing : (shape.fields.find? fun f =>
      f.required && ((shape.known members).lookup f.name).isNone) = none := by
    rw [List.find?_eq_none]
    intro field hfield hboth
    rw [Bool.and_eq_true, Option.isNone_iff_eq_none, lookup_eq_none_iff] at hboth
    exact hboth.2 (hrequired field hfield hboth.1)
  unfold survey
  rw [hinner]
  show (shape.surveyMembers inner [] (named members) >>= fun found => _) = _
  rw [hfound]
  simp only [bind, Except.bind, hmissing]
  rfl

/-- An object whose members all have fields, and pass their checks, is surveyed as it is. -/
theorem survey_own {inner : Form} (hinner : form.inner? = some inner)
    (hnames : ∀ m ∈ members, m.1 ∈ shape.names)
    (hchecks : ∀ m ∈ members, ∀ field, shape.field? m.1 = some field →
      field.check inner m.2 = .ok ())
    (hdistinct : Distinct members)
    (hrequired : ∀ field ∈ shape.fields, field.required = true →
      field.name ∈ members.map Prod.fst) :
    shape.survey form (.object (named members) true) = .ok members := by
  have hknown : shape.known members = members :=
    List.filter_eq_self.mpr fun m hm => decide_eq_true (hnames m hm)
  have hadmits : ∀ m ∈ members, shape.Admits inner m := fun m hm =>
    ⟨hchecks m hm, fun hname => absurd (hnames m hm) hname⟩
  rw [← hknown] at hdistinct hrequired
  rw [survey_named hinner hadmits hdistinct hrequired, hknown]

/-- A record that refuses other members is surveyed from its own only. -/
theorem surveyMembers_eq_ok (hstrict : shape.strict = true) {found found' : Members}
    (h : shape.surveyMembers form found (named members) = .ok found') :
    found' = found ++ members ∧ ∀ m ∈ members, m.1 ∈ shape.names := by
  induction members generalizing found with
  | nil =>
    obtain rfl := Except.ok.inj h
    exact ⟨(List.append_nil found).symm, fun _ h => absurd h List.not_mem_nil⟩
  | cons m members ih =>
    obtain ⟨name, source⟩ := m
    change shape.surveyMembers form found ((.string (some name), source) :: named members) = _ at h
    rw [surveyMembers] at h
    split at h
    · rename_i field hfield
      have hname := mem_names_of_field? hfield
      split at h
      · cases h
      · obtain ⟨⟨⟩, -, hrest⟩ := bind_eq_ok.mp h
        obtain ⟨rfl, hnames⟩ := ih hrest
        exact ⟨by rw [List.append_assoc]; rfl, List.forall_mem_cons.mpr ⟨hname, hnames⟩⟩
    -- a strict shape has no other members
    · rw [if_pos hstrict] at h
      cases h

theorem survey_eq_ok {inner : Form} (hinner : form.inner? = some inner)
    (hstrict : shape.strict = true) {found : Members}
    (h : shape.survey form (.object (named members) true) = .ok found) :
    found = members ∧ ∀ m ∈ members, m.1 ∈ shape.names := by
  unfold survey at h
  rw [hinner] at h
  obtain ⟨found', hmembers, h⟩ := bind_eq_ok.mp h
  rw [if_neg (by decide)] at h
  split at h
  · cases h
  · cases h
    exact surveyMembers_eq_ok hstrict hmembers

/-- What is wrong with a member is wrong with the object. -/
theorem survey_of_error {inner : Form} (hinner : form.inner? = some inner)
    {l : List (Source × Source)} {e : Problem} (h : shape.surveyMembers inner [] l = .error e)
    (complete : Bool) : shape.survey form (.object l complete) = .error e := by
  unfold survey
  rw [hinner]
  show (shape.surveyMembers inner [] l >>= fun found => _) = _
  rw [h]
  rfl

end Shape

/-! ### Members of maps -/

/-- The members of a map, each as a source. -/
def sources (fields : Fields) : Members := fields.map fun m => (m.1, .ofJson m.2)

theorem ofMembers_eq_named (fields : Fields) :
    Source.ofMembers fields = named (sources fields) := by
  induction fields with
  | nil => rfl
  | cons m fields ih =>
    show (Source.string (some m.1), Source.ofJson m.2) :: Source.ofMembers fields = _
    rw [ih]
    rfl

theorem map_fst_sources (fields : Fields) :
    (sources fields).map Prod.fst = fields.map Prod.fst := by
  rw [sources, List.map_map]
  rfl

theorem lookup_sources (fields : Fields) (name : String) :
    (sources fields).lookup name = (fields.lookup name).map .ofJson := by
  induction fields with
  | nil => rfl
  | cons m fields ih =>
    obtain ⟨k, v⟩ := m
    show List.lookup name ((k, Source.ofJson v) :: sources fields) = _
    rw [List.lookup_cons, List.lookup_cons, ih]
    cases name == k <;> rfl

/-- The sources of members in any order. -/
theorem lookup_sources_of_perm {fields members : Fields} (hperm : List.Perm fields members)
    (h : Distinct members) (name : String) :
    (sources fields).lookup name = (members.lookup name).map .ofJson := by
  rw [lookup_sources, lookup_of_perm hperm h]

/-- An object that states the fields of a record, in any order and without others, is surveyed. -/
theorem Shape.survey_perm {shape : Shape} {form inner : Form} (hinner : form.inner? = some inner)
    {fields members : Fields} (hperm : List.Perm fields members) (hdistinct : Distinct members)
    (hnames : ∀ m ∈ members, m.1 ∈ shape.names)
    (hchecks : ∀ m ∈ members, ∀ field, shape.field? m.1 = some field →
      field.check inner (.ofJson m.2) = .ok ())
    (hrequired : ∀ field ∈ shape.fields, field.required = true →
      field.name ∈ members.map Prod.fst) :
    shape.survey form (.ofJson (.object fields)) = .ok (sources fields) := by
  have hfirst : (sources fields).map Prod.fst = fields.map Prod.fst := map_fst_sources fields
  have hfields : ∀ m ∈ sources fields, ∃ m' ∈ members, m = (m'.1, .ofJson m'.2) := by
    intro m hm
    obtain ⟨m', hm', rfl⟩ := List.mem_map.mp hm
    exact ⟨m', hperm.mem_iff.mp hm', rfl⟩
  rw [Source.ofJson, ofMembers_eq_named]
  refine survey_own hinner ?_ ?_ ?_ ?_
  · intro m hm
    obtain ⟨m', hm', rfl⟩ := hfields m hm
    exact hnames m' hm'
  · intro m hm field hfield
    obtain ⟨m', hm', rfl⟩ := hfields m hm
    exact hchecks m' hm' field hfield
  · rw [Distinct, hfirst]
    exact (hperm.map Prod.fst).nodup_iff.mpr hdistinct
  · intro field hfield hrequired'
    rw [hfirst, (hperm.map Prod.fst).mem_iff]
    exact hrequired field hfield hrequired'

/-- A new key is inserted somewhere among the others. -/
theorem insert_perm {key : String} {fields : Fields} (h : key ∉ fields.map Prod.fst)
    (value : Json) :
    List.Perm (insert key value fields) ((key, value) :: fields) := by
  induction fields with
  | nil => exact .refl _
  | cons m fields ih =>
    obtain ⟨k, v⟩ := m
    rw [List.map_cons, List.mem_cons, not_or] at h
    unfold insert
    split
    · exact .refl _
    · rw [if_neg h.1]
      exact ((ih h.2).cons (k, v)).trans (.swap (key, value) (k, v) fields)

/-- The map with given members, no two of which share a key, is made of those. -/
theorem fieldsOf_perm {members : List (String × Json)} (h : Distinct members) :
    List.Perm (fieldsOf members) members := by
  -- by induction on the members that are still to be inserted
  have hfold : ∀ (members : List (String × Json)) (fields : Fields),
      ((fields ++ members).map Prod.fst).Nodup →
      List.Perm (members.foldl (fun fields m => insert m.1 m.2 fields) fields)
        (fields ++ members) := by
    intro members
    induction members with
    | nil =>
      intro fields _
      rw [List.append_nil]
      exact .refl _
    | cons m members ih =>
      intro fields hnodup
      have hmiddle : List.Perm (fields ++ m :: members) (m :: fields ++ members) :=
        List.perm_middle
      have hkeys : ((m :: fields ++ members).map Prod.fst).Nodup :=
        (hmiddle.map Prod.fst).nodup_iff.mp hnodup
      have hnew : m.1 ∉ fields.map Prod.fst := by
        intro hmem
        obtain ⟨m', hm', heq⟩ := List.mem_map.mp hmem
        exact (List.nodup_cons.mp hkeys).1
          (List.mem_map.mpr ⟨m', List.mem_append_left _ hm', heq⟩)
      have hinsert : List.Perm (insert m.1 m.2 fields ++ members) (m :: fields ++ members) :=
        (insert_perm hnew m.2).append_right members
      have hnext : ((insert m.1 m.2 fields ++ members).map Prod.fst).Nodup :=
        (hinsert.map Prod.fst).nodup_iff.mpr hkeys
      exact (ih _ hnext).trans (hinsert.trans hmiddle.symm)
  exact hfold members [] h

/-! ### Members that may be left out -/

/-- The members that are there. -/
def present {α : Type} (members : List (String × Option α)) : List (String × α) :=
  members.filterMap fun m => m.2.map (m.1, ·)

/-- The members that are there. -/
theorem mem_present {α : Type} {members : List (String × Option α)} {name : String} {value : α} :
    (name, value) ∈ present members ↔ (name, some value) ∈ members := by
  rw [present, List.mem_filterMap]
  constructor
  · rintro ⟨⟨k, v⟩, hm, heq⟩
    obtain ⟨v, rfl, rfl, rfl⟩ := Option.map_eq_some_iff.mp heq
    exact hm
  · intro hm
    exact ⟨_, hm, rfl⟩

theorem map_fst_present_sublist {α : Type} (members : List (String × Option α)) :
    ((present members).map Prod.fst).Sublist (members.map Prod.fst) := by
  induction members with
  | nil => exact .slnil
  | cons m members ih =>
    obtain ⟨k, - | v⟩ := m
    · exact ih.cons k
    · exact ih.cons_cons k

theorem distinct_present {α : Type} {members : List (String × Option α)} (h : Distinct members) :
    Distinct (present members) :=
  h.sublist (map_fst_present_sublist members)

/-- Looking up a member that is left out finds nothing. -/
theorem lookup_present {α : Type} {members : List (String × Option α)} (h : Distinct members)
    (name : String) : (present members).lookup name = (members.lookup name).join := by
  refine Option.ext fun value => ?_
  rw [lookup_eq_some_iff (distinct_present h), mem_present, Option.join_eq_some_iff,
    lookup_eq_some_iff h]

/-- What is found in a map of the members that are there. -/
theorem lookup_sources_fieldsOf {members : List (String × Option Json)} (h : Distinct members)
    (name : String) :
    (sources (fieldsOf (present members))).lookup name
      = (members.lookup name).join.map .ofJson := by
  have hpresent := distinct_present h
  rw [lookup_sources_of_perm (fieldsOf_perm hpresent) hpresent, lookup_present h]

end TrustStore.Json

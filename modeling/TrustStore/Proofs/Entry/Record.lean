import TrustStore.Entry.Basic
import TrustStore.Proofs.Json.CompactText
import TrustStore.Proofs.Json.Record

/-!
# Records of entries

The record of an entry decodes to that entry (`ofRecord_record`), whatever its texts and numbers
are, so no two entries have the same record.
-/

namespace TrustStore.Entry

/-! ### Fields -/

theorem exactItems_texts (l : List String) : Json.ExactItems (l.map .string) := by
  induction l with
  | nil => trivial
  | cons s l ih => exact ⟨trivial, ih⟩

theorem fitsWord_toNat (n : UInt64) : Json.FitsWord n.toNat := by
  have hlow : Int64.minValue.toInt ≤ 0 := by decide
  have hhigh : n.toNat < UInt64.size := n.toNat_lt
  exact ⟨Int.le_trans hlow (Int.natCast_nonneg _), Int.ofNat_lt.mpr hhigh⟩

theorem textItems_ofItems (form : Json.Form) (l : List String) :
    Json.textItems form (Json.Source.ofItems (l.map .string)) = .ok l := by
  induction l with
  | nil => rfl
  | cons s l ih =>
    rw [List.map_cons, Json.Source.ofItems, Json.textItems, ih]
    rfl

theorem texts_ofTexts (form : Json.Form) (l : List String) :
    Json.texts form (.ofJson (.ofTexts l)) = .ok l := by
  show (Json.textItems form (Json.Source.ofItems (l.map .string)) >>= fun l => _) = _
  rw [textItems_ofItems]
  rfl

theorem unsigned_ofNat (form : Json.Form) (n : UInt64) :
    Json.unsigned form (.ofJson (.ofNat n.toNat)) = .ok n := by
  have hrange : 0 ≤ (n.toNat : Int) ∧ (n.toNat : Int) < UInt64.size :=
    ⟨Int.natCast_nonneg _, (fitsWord_toNat n).2⟩
  rw [Json.ofNat, Json.Source.ofJson, Json.unsigned]
  rw [if_pos hrange, Int.toNat_natCast]
  exact congrArg Except.ok UInt64.ofNat_toNat

/-! ### Records -/

theorem exact_toJson (e : Entry) : e.toJson.Exact :=
  ⟨trivial, trivial, trivial, exactItems_texts e.policies, fitsWord_toNat e.ttl,
    fitsWord_toNat e.maxTtl, trivial⟩

/-- The members that state an entry. -/
def members (e : Entry) : Json.Members :=
  [("name", .string (some e.name)), ("certificate", .string (some e.certificate)),
    ("display_name", .string (some e.displayName)), ("policies", .ofJson (.ofTexts e.policies)),
    ("ttl", .ofJson (.ofNat e.ttl.toNat)), ("max_ttl", .ofJson (.ofNat e.maxTtl.toNat))]

theorem map_fst_members (e : Entry) : e.members.map Prod.fst = shape.names := rfl

theorem distinct_members (e : Entry) : Json.Distinct e.members := by
  rw [Json.Distinct, map_fst_members]
  decide

/-- Each of them passes the check of its field. -/
theorem check_members (e : Entry) (form : Json.Form) {m : String × Json.Source}
    (hm : m ∈ e.members) {field : Json.Field} (hfield : shape.field? m.1 = some field) :
    field.check form m.2 = .ok () := by
  simp only [members, List.mem_cons, List.not_mem_nil, or_false] at hm
  -- each field of the shape on its own member
  rcases hm with rfl | rfl | rfl | rfl | rfl | rfl <;> obtain rfl := Option.some.inj hfield
  · rfl
  · rfl
  · rfl
  · exact Json.Field.check_of (texts_ofTexts form e.policies)
  · exact Json.Field.check_of (unsigned_ofNat form e.ttl)
  · exact Json.Field.check_of (unsigned_ofNat form e.maxTtl)

/-- Where the survey finds the members that state an entry, that entry is decoded. -/
theorem decoder_of_survey (e : Entry) {form : Json.Form} {source : Json.Source}
    {found : Json.Members} (hsurvey : shape.survey form source = .ok found)
    (hfound : ∀ name, found.lookup name = e.members.lookup name) :
    decoder form source = .ok e := by
  have hname : Json.Shape.required found form "name" Json.text = .ok e.name :=
    Json.Shape.required_of_lookup (hfound "name") rfl
  have hcertificate : Json.Shape.required found form "certificate" Json.text
      = .ok e.certificate :=
    Json.Shape.required_of_lookup (hfound "certificate") rfl
  have hdisplay : Json.Shape.required found form "display_name" Json.text
      = .ok e.displayName :=
    Json.Shape.required_of_lookup (hfound "display_name") rfl
  have hpolicies : Json.Shape.required found form "policies" Json.texts = .ok e.policies :=
    Json.Shape.required_of_lookup (hfound "policies") (texts_ofTexts form e.policies)
  have httl : Json.Shape.required found form "ttl" Json.unsigned = .ok e.ttl :=
    Json.Shape.required_of_lookup (hfound "ttl") (unsigned_ofNat form e.ttl)
  have hmax : Json.Shape.required found form "max_ttl" Json.unsigned = .ok e.maxTtl :=
    Json.Shape.required_of_lookup (hfound "max_ttl") (unsigned_ofNat form e.maxTtl)
  rw [decoder, hsurvey]
  simp only [bind, Except.bind, hname, hcertificate, hdisplay, hpolicies, httl, hmax]
  rfl

/-- The members of an entry, in any order and with others between them, decode to it. -/
theorem decoder_named (e : Entry) {form inner : Json.Form} (hinner : form.inner? = some inner)
    {members : Json.Members} (hperm : (shape.known members).Perm e.members)
    (hreadable : ∀ m ∈ members, m.2.readable = true) :
    decoder form (.object (Json.named members) true) = .ok e := by
  have hnames : ((shape.known members).map Prod.fst).Perm shape.names := hperm.map Prod.fst
  have hdistinct : Json.Distinct (shape.known members) := hnames.nodup_iff.mpr e.distinct_members
  -- a member with another name is skipped, since it is readable
  have hadmits : ∀ m ∈ members, shape.Admits inner m := by
    intro m hm
    refine ⟨fun field hfield => ?_, fun _ => ⟨rfl, hreadable m hm⟩⟩
    refine e.check_members inner (hperm.mem_iff.mp (List.mem_filter.mpr ⟨hm, ?_⟩)) hfield
    refine decide_eq_true (Classical.not_not.mp fun hname => ?_)
    rw [Json.Shape.field?_eq_none_iff.mpr hname] at hfield
    cases hfield
  have hrequired : ∀ field ∈ shape.fields, field.required = true →
      field.name ∈ (shape.known members).map Prod.fst := by
    intro field hfield _
    exact hnames.mem_iff.mpr (List.mem_map_of_mem hfield)
  exact e.decoder_of_survey (Json.Shape.survey_named hinner hadmits hdistinct hrequired)
    (Json.lookup_of_perm hperm e.distinct_members)

theorem known_members (e : Entry) : shape.known e.members = e.members := by
  refine List.filter_eq_self.mpr fun m hm => decide_eq_true ?_
  rw [← e.map_fst_members]
  exact List.mem_map_of_mem hm

/-- Every text that states the members of an entry once each is decoded to that entry. -/
theorem ofRecord_of_spells (e : Entry) {members : Json.Members} {t : List Char}
    (hperm : (shape.known members).Perm e.members)
    (h : Json.SpellsElement (.object (Json.named members) true) t) :
    ofRecord (Bytes.ofChars t) = .ok e := by
  rw [ofRecord, Json.decodeBytes_of_spells decoder h]
  exact e.decoder_named rfl hperm (Json.readable_of_named h.readable)

/-- The record of an entry is that of no other. -/
theorem ofRecord_record (e : Entry) : ofRecord e.record = .ok e := by
  have hspells := (Json.spells_compact e.toJson e.exact_toJson).element
  rw [record, Json.ofText_compactText]
  exact e.ofRecord_of_spells (.of_eq e.known_members) hspells

/-- The record of an entry decodes to that entry, and so does every text of an object that states
the six members once each, in any order, however they are spelled and whatever other members stand
between them. -/
theorem record_and_spellings (e : Entry) :
    ofRecord e.record = .ok e ∧
      ∀ (members : Json.Members) (t : List Char),
        (members.filter fun m => m.1 ∈ e.members.map Prod.fst).Perm e.members →
        Json.SpellsElement (.object (Json.named members) true) t →
        ofRecord (Bytes.ofChars t) = .ok e :=
  ⟨e.ofRecord_record, fun _ _ hperm hspells => e.ofRecord_of_spells hperm hspells⟩

/-- An entry as it is stated in another spelling below. -/
def respelled : Entry := ⟨"web", "-", "W", ["dev"], 60, 0⟩

/-- Its members in another order, with one more between them. -/
def respelledMembers : Json.Members :=
  [("max_ttl", .number (some (.int 0))), ("note", .array [] true),
    ("ttl", .number (some (.int 60))), ("policies", .array [.string (some "dev")] true),
    ("display_name", .string (some "W")), ("certificate", .string (some "-")),
    ("name", .string (some "web"))]

/-- The name `ttl` with an escaped letter. -/
theorem spells_ttl :
    Json.Spells (.string (some "ttl")) ['"', 't', '\\', 'u', '0', '0', '7', '4', 'l', '"'] := by
  have hdigits : Json.FourDigits ['0', '0', '7', '4'] 't'.toNat :=
    .mk (w := 0) (x := 0) (y := 7) (z := 4) (by decide) (by decide) (by decide) (by decide)
  have ht : Json.SpellsChar 't' ['t'] := .plain (by decide)
  have hl : Json.SpellsChar 'l' ['l'] := .plain (by decide)
  exact .characters (.cons ht (.cons (.code hdigits) (.cons hl .nil)))

/-- The text of `respelledMembers`. -/
def respelledText : List Char :=
  ("\x7b\n \"max_ttl\":0,\"note\":[ ],\"t\\u0074l\": 60,\"policies\":[\"dev\"\n],"
    ++ "\"display_name\":\"W\",\"certificate\":\"-\",\"name\":\"web\"\x7d\n").toList

theorem spells_respelledText :
    Json.SpellsElement (.object (Json.named respelledMembers) true) respelledText := by
  have hblank : Json.IsGap [' '] := by decide
  have hline : Json.IsGap ['\n'] := by decide
  have hindent : Json.IsGap ['\n', ' '] := by decide
  have hinteger : ∀ n ∈ [(0 : Int), 60], Json.FitsWord n := by decide
  have hmembers : Json.SpellsMembers (Json.named respelledMembers) _ :=
    .cons (.mk hindent (Json.spells_stringText "max_ttl") Json.isGap_nil)
      (Json.Spells.integer (hinteger 0 (by decide))).element
    (.cons (Json.spells_stringText "note").element (Json.Spells.emptyArray hblank).element
    (.cons spells_ttl.element
      (.mk hblank (.integer (hinteger 60 (by decide))) Json.isGap_nil)
    (.cons (Json.spells_stringText "policies").element
      (Json.Spells.array (.last (.mk Json.isGap_nil (Json.spells_stringText "dev") hline))).element
    (.cons (Json.spells_stringText "display_name").element (Json.spells_stringText "W").element
    (.cons (Json.spells_stringText "certificate").element (Json.spells_stringText "-").element
    (.last (Json.spells_stringText "name").element (Json.spells_stringText "web").element))))))
  exact .mk Json.isGap_nil (.object hmembers) hline

/-- A record with its members turned round, spaces and a member more. -/
theorem respelled_is_read :
    Json.SpellsElement (.object (Json.named respelledMembers) true) respelledText ∧
      (respelledMembers.filter fun m => m.1 ∈ respelled.members.map Prod.fst).Perm
        respelled.members ∧
      ofRecord (Bytes.ofChars respelledText) = .ok respelled := by
  have hperm : (respelledMembers.filter fun m => m.1 ∈ respelled.members.map Prod.fst).Perm
      respelled.members :=
    List.reverse_perm respelled.members
  exact ⟨spells_respelledText, hperm,
    (record_and_spellings respelled).2 _ _ hperm spells_respelledText⟩

end TrustStore.Entry

import TrustStore.Json.Decoder
import TrustStore.Proofs.Json.Record

/-!
# Nested values

A value whose maps are in order is the value of its own source (`toJson?_ofJson`), as long as its
containers are not nested deeper than the form of the source allows.  A text allows 127 levels
(`Form.whole`); a source that was made from a value has no limit.
-/

namespace TrustStore.Json

/-! ### Depth -/

mutual

/-- How deep containers are nested in a value. -/
def depth : Json → Nat
  | .array items => depthItems items + 1
  | .object members => depthMembers members + 1
  | _ => 0

def depthItems : List Json → Nat
  | [] => 0
  | item :: rest => max (depth item) (depthItems rest)

def depthMembers : List (String × Json) → Nat
  | [] => 0
  | (_, value) :: rest => max (depth value) (depthMembers rest)

end

namespace Form

/-- The form has room for containers nested so deep. -/
def Fits : Form → Nat → Prop
  | .value, _ => True
  | .text room, depth => depth ≤ room

instance (form : Form) (depth : Nat) : Decidable (form.Fits depth) :=
  match form with
  | .value => inferInstanceAs (Decidable True)
  | .text room => inferInstanceAs (Decidable (depth ≤ room))

@[simp] theorem fits_zero (form : Form) : form.Fits 0 := by
  cases form with
  | value => trivial
  | text room => exact Nat.zero_le room

@[simp] theorem fits_max {form : Form} {m n : Nat} :
    form.Fits (max m n) ↔ form.Fits m ∧ form.Fits n := by
  cases form with
  | value => exact (and_self_iff (a := True)).symm
  | text room => exact Nat.max_le

theorem not_fits_succ {form : Form} (h : form.inner? = none) (n : Nat) : ¬ form.Fits (n + 1) := by
  rcases form with - | - | room
  · cases h
  · exact Nat.not_succ_le_zero n
  · cases h

/-- One level down there is room for one level less. -/
theorem fits_succ_iff {form inner : Form} (h : form.inner? = some inner) {n : Nat} :
    form.Fits (n + 1) ↔ inner.Fits n := by
  rcases form with - | - | room
  · cases h
    exact Iff.rfl
  · cases h
  · cases h
    exact Nat.succ_le_succ_iff

theorem fits_of_inner {form inner : Form} (h : form.inner? = some inner) {n : Nat}
    (hfits : inner.Fits n) : form.Fits n := by
  rcases form with - | - | room
  · trivial
  · cases h
  · cases h
    exact Nat.le_succ_of_le hfits

end Form

/-- A member of an object that fits has room as well. -/
theorem fits_of_mem {form : Form} {members : Fields} (hform : form.Fits (depthMembers members))
    {name : String} {value : Json} (h : (name, value) ∈ members) : form.Fits value.depth := by
  induction members with
  | nil => cases h
  | cons m members ih =>
    obtain ⟨hvalue, hrest⟩ := Form.fits_max.mp hform
    rcases List.mem_cons.mp h with rfl | h
    · exact hvalue
    · exact ih hrest h

/-! ### Canonical values -/

/-- A map keeps members that ascend as they are. -/
theorem fieldsOf_of_ordered {fields : Fields} (h : fields.Ordered) : fieldsOf fields = fields := by
  have hdistinct : Distinct fields :=
    List.pairwise_map.mpr (h.imp fun hlt heq => absurd (heq ▸ hlt) (String.lt_irrefl _))
  refine (fieldsOf_perm hdistinct).eq_of_pairwise ?_ (fieldsOf_ordered fields) h
  intro a b _ _ hab hba
  exact absurd hab (Std.not_gt_of_lt hba)

mutual

/-- The members of all maps in the value ascend. -/
def Canonical : Json → Prop
  | .array items => CanonicalItems items
  | .object members => Fields.Ordered members ∧ CanonicalMembers members
  | _ => True

def CanonicalItems : List Json → Prop
  | [] => True
  | item :: rest => Canonical item ∧ CanonicalItems rest

def CanonicalMembers : List (String × Json) → Prop
  | [] => True
  | (_, value) :: rest => Canonical value ∧ CanonicalMembers rest

end

mutual

/-- A source that was made of a canonical value yields that value, if the form has room for it. -/
theorem toJson?_ofJson (form : Form) : ∀ j : Json, j.Canonical →
    (Source.ofJson j).toJson? form = if form.Fits j.depth then some j else none
  | .null, _ | .bool _, _ | .number _, _ | .string _, _ => (if_pos form.fits_zero).symm
  | .array items, h => by
    rw [Source.ofJson, Source.toJson?, depth]
    rcases hinner : form.inner? with - | inner
    · exact (if_neg (Form.not_fits_succ hinner _)).symm
    · simp only [Form.fits_succ_iff hinner, if_true, itemsToJson?_ofItems inner items h]
      split <;> rfl
  -- ordered members are kept in their order
  | .object members, h => by
    rw [Source.ofJson, Source.toJson?, depth]
    rcases hinner : form.inner? with - | inner
    · exact (if_neg (Form.not_fits_succ hinner _)).symm
    · simp only [Form.fits_succ_iff hinner, if_true, membersToJson?_ofMembers inner members h.2]
      split
      · rw [Option.map_some, fieldsOf_of_ordered h.1]
      · rfl

theorem itemsToJson?_ofItems (form : Form) : ∀ items : List Json, CanonicalItems items →
    Source.itemsToJson? form (Source.ofItems items)
      = if form.Fits (depthItems items) then some items else none
  | [], _ => (if_pos form.fits_zero).symm
  | item :: items, h => by
    rw [Source.ofItems, Source.itemsToJson?, depthItems, toJson?_ofJson form item h.1,
      itemsToJson?_ofItems form items h.2]
    by_cases hitem : form.Fits item.depth <;> by_cases hitems : form.Fits (depthItems items) <;>
      simp [hitem, hitems]

theorem membersToJson?_ofMembers (form : Form) : ∀ members : List (String × Json),
    CanonicalMembers members → Source.membersToJson? form (Source.ofMembers members)
      = if form.Fits (depthMembers members) then some members else none
  | [], _ => (if_pos form.fits_zero).symm
  | (key, value) :: members, h => by
    have hvalue := toJson?_ofJson form value h.1
    have hmembers := membersToJson?_ofMembers form members h.2
    rw [Source.ofMembers, depthMembers]
    unfold Source.membersToJson?
    rw [hvalue, hmembers]
    by_cases hvalue : form.Fits value.depth <;>
      by_cases hmembers : form.Fits (depthMembers members) <;> simp [hvalue, hmembers]

end

/-! ### Decoders that take any value -/

theorem any_eq_ok {form : Form} {source : Source} {j : Json} (h : any form source = .ok j) :
    source.toJson? form = some j := by
  unfold any at h
  split at h
  · rename_i hj
    cases h
    exact hj
  · cases h

theorem any_ofJson (form : Form) {j : Json} (h : j.Canonical) :
    any form (.ofJson j) = if form.Fits j.depth then .ok j else .error .malformed := by
  rw [any, toJson?_ofJson form j h]
  by_cases hfits : form.Fits j.depth
  · rw [if_pos hfits, if_pos hfits]
  · rw [if_neg hfits, if_neg hfits]

theorem fields_ofJson (form : Form) {l : Fields} (h : (Json.object l).Canonical) :
    fields form (.ofJson (.object l))
      = if form.Fits (Json.object l).depth then .ok l else .error .malformed := by
  show (any form (.ofJson (.object l)) >>= fun j => _) = _
  rw [any_ofJson form h]
  split <;> rfl

/-! ### Lists of texts -/

theorem canonicalItems_texts (l : List String) : CanonicalItems (l.map .string) := by
  induction l with
  | nil => trivial
  | cons s l ih => exact ⟨trivial, ih⟩

theorem canonical_ofTexts (l : List String) : (ofTexts l).Canonical := canonicalItems_texts l

theorem depthItems_texts (l : List String) : depthItems (l.map .string) = 0 := by
  induction l with
  | nil => rfl
  | cons s l ih =>
    rw [List.map_cons, depthItems, ih]
    rfl

@[simp] theorem depth_ofTexts (l : List String) : (ofTexts l).depth = 1 := by
  rw [ofTexts, depth, depthItems_texts]

/-! ### Flat values

A map is put in order when its value is taken from its source.  Where there are no maps a value
comes from its own source only. -/

/-- A value without depth is read from itself alone. -/
theorem eq_of_toJson? {form : Form} {j j' : Json} (h : (Source.ofJson j).toJson? form = some j')
    (hdepth : j'.depth = 0) : j = j' := by
  cases j with
  | null | bool b | number n | string s => exact Option.some.inj h
  | array items =>
    rw [Source.ofJson, Source.toJson?] at h
    split at h
    · cases h
    · obtain ⟨l, -, rfl⟩ := Option.map_eq_some_iff.mp h
      cases hdepth
  | object members =>
    rw [Source.ofJson, Source.toJson?] at h
    split at h
    · cases h
    · obtain ⟨l, -, rfl⟩ := Option.map_eq_some_iff.mp h
      cases hdepth

theorem eq_map_string_of_itemsToJson? {form : Form} {items : List Json} {l : List String}
    (h : Source.itemsToJson? form (Source.ofItems items) = some (l.map .string)) :
    items = l.map .string := by
  induction items generalizing l with
  | nil => exact Option.some.inj h
  | cons item items ih =>
    rw [Source.ofItems, Source.itemsToJson?] at h
    split at h
    · rename_i j rest hitem hitems
      obtain ⟨s, l, rfl, rfl, rfl⟩ := List.map_eq_cons_iff.mp (Option.some.inj h).symm
      rw [List.map_cons, eq_of_toJson? hitem rfl, ih hitems]
    · cases h

/-- A list of texts is read from itself alone. -/
theorem eq_ofTexts_of_toJson? {form : Form} {j : Json} {l : List String}
    (h : (Source.ofJson j).toJson? form = some (.ofTexts l)) : j = .ofTexts l := by
  cases j with
  | null | bool b | number n | string s => exact Option.some.inj h
  | array items =>
    rw [Source.ofJson, Source.toJson?] at h
    split at h
    · cases h
    · obtain ⟨items', hitems, heq⟩ := Option.map_eq_some_iff.mp h
      cases heq
      exact congrArg Json.array (eq_map_string_of_itemsToJson? hitems)
  | object members =>
    rw [Source.ofJson, Source.toJson?] at h
    split at h
    · cases h
    · obtain ⟨_, -, heq⟩ := Option.map_eq_some_iff.mp h
      cases heq

end TrustStore.Json

import TrustStore.Proofs.Json.SpelledText

/-!
# Values read back

The compact text of a value spells that value (`spells_compact`), so to decode the text is to decode
the value (`decodeText_compactText`).  The values are those that a text can carry exactly (`Exact`):
their numbers are integers of 64 bits.
-/

namespace TrustStore.Json

/-! ### Exact values -/

mutual

/-- A value without floats, whose integers fit 64 bits. -/
def Exact : Json → Prop
  | .number (.int n) => FitsWord n
  | .number (.float _ _) => False
  | .array items => ExactItems items
  | .object members => ExactMembers members
  | _ => True

def ExactItems : List Json → Prop
  | [] => True
  | item :: rest => Exact item ∧ ExactItems rest

def ExactMembers : List (String × Json) → Prop
  | [] => True
  | (_, value) :: rest => Exact value ∧ ExactMembers rest

end

/-! ### Joined parts

What a printer puts between the brackets of a container: the parts with commas between them, and
white space before each of them and at the end. -/

theorem joinWith_cons (separator part next : List Char) (rest : List (List Char)) :
    joinWith separator (part :: next :: rest)
      = part ++ (separator ++ joinWith separator (next :: rest)) :=
  List.append_assoc _ _ _

/-- A member as it is printed, with white space before the value at most. -/
inductive SpellsMember : Source × Source → List Char → Prop
  | mk {key : Option String} {value : Source} {k gap v : List Char} : Spells (.string key) k →
      IsGap gap → Spells value v → SpellsMember (.string key, value) (k ++ ':' :: (gap ++ v))

section

variable {gap ending : List Char} (hgap : IsGap gap) (hending : IsGap ending)

include hgap hending

/-- Spelled parts with commas between them are spelled items. -/
theorem spellsItems_joinWith {items : List Source} {parts : List (List Char)}
    (h : List.Forall₂ Spells items parts) (hne : items ≠ []) :
    SpellsItems items (gap ++ joinWith (',' :: gap) parts ++ ending) := by
  induction h with
  | nil => exact absurd rfl hne
  | @cons item part items parts hitem hitems ih =>
    rcases hitems with - | @⟨next, nextPart, items, parts, hnext, hrest⟩
    · exact .last (.mk hgap hitem hending)
    · have helement := SpellsElement.mk hgap hitem isGap_nil
      have hspells := SpellsItems.cons helement (ih (List.cons_ne_nil next items))
      rw [joinWith_cons]
      simpa using hspells

theorem spellsMembers_joinWith {members : List (Source × Source)} {parts : List (List Char)}
    (h : List.Forall₂ SpellsMember members parts) (hne : members ≠ []) :
    SpellsMembers members (gap ++ joinWith (',' :: gap) parts ++ ending) := by
  induction h with
  | nil => exact absurd rfl hne
  | @cons member part members parts hmember hmembers ih =>
    obtain ⟨hkey, hbetween, hvalue⟩ := hmember
    rcases hmembers with - | @⟨next, nextPart, members, parts, hnext, hrest⟩
    · have hspells := SpellsMembers.last (.mk hgap hkey isGap_nil) (.mk hbetween hvalue hending)
      simpa [joinWith] using hspells
    · have hspells := SpellsMembers.cons (.mk hgap hkey isGap_nil)
        (.mk hbetween hvalue isGap_nil) (ih (List.cons_ne_nil next members))
      rw [joinWith_cons]
      simpa using hspells

end

/-! ### Compact texts -/

mutual

/-- The compact form is one spelling of a value. -/
theorem spells_compact : ∀ j : Json, j.Exact → Spells (.ofJson j) j.compact
  | .null, _ => .null
  | .bool true, _ => .true
  | .bool false, _ => .false
  | .number (.int _), hj => .integer hj
  | .number (.float _ _), hj => hj.elim
  | .string s, _ => spells_stringText s
  | .array [], _ => .emptyArray isGap_nil
  | .array (item :: items), hj => by
    have hitems := spellsItems_joinWith isGap_nil isGap_nil
      (spells_compactItems (item :: items) hj) (List.cons_ne_nil _ _)
    rw [List.nil_append, List.append_nil] at hitems
    exact .array hitems
  | .object [], _ => .emptyObject isGap_nil
  | .object (member :: members), hj => by
    have hmembers := spellsMembers_joinWith isGap_nil isGap_nil
      (spells_compactMembers (member :: members) hj) (List.cons_ne_nil _ _)
    rw [List.nil_append, List.append_nil] at hmembers
    exact .object hmembers

theorem spells_compactItems : ∀ items : List Json, ExactItems items →
    List.Forall₂ Spells (Source.ofItems items) (compactItems items)
  | [], _ => .nil
  | item :: items, hitems =>
    .cons (spells_compact item hitems.1) (spells_compactItems items hitems.2)

theorem spells_compactMembers : ∀ members : List (String × Json), ExactMembers members →
    List.Forall₂ SpellsMember (Source.ofMembers members) (compactMembers members)
  | [], _ => .nil
  | (key, value) :: members, hmembers =>
    .cons (.mk (spells_stringText key) isGap_nil (spells_compact value hmembers.1))
      (spells_compactMembers members hmembers.2)

end

/-! ### Texts -/

theorem ofText_compactText (j : Json) : Bytes.ofText j.compactText = Bytes.ofChars j.compact :=
  Bytes.ofText_ofList _

/-- Decoding the text of a value is decoding its source. -/
theorem decodeText_compactText {α : Type} (decoder : Decoder α) {j : Json} (h : j.Exact) :
    decodeText decoder j.compactText = decoder .whole (.ofJson j) := by
  rw [decodeText, ofText_compactText]
  exact decodeBytes_of_spells decoder (spells_compact j h).element

end TrustStore.Json

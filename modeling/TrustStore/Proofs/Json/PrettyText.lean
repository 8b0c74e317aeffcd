import TrustStore.Proofs.Json.CompactText

/-!
# Indented values read back

The indented text of a value spells it no less than the compact one (`spells_pretty`): it differs in
white space between the parts, which the grammar allows.  So it is decoded as the value, with or
without a line end after it (`decodeText_prettyText`).
-/

namespace TrustStore.Json

theorem isGap_newline (level : Nat) : IsGap (newline level) := by
  intro c hc
  rcases List.mem_cons.mp hc with rfl | hc
  · decide
  · rw [List.eq_of_mem_replicate hc]
    decide

theorem isGap_space : IsGap [' '] := by decide

/-- A block of parts has white space before each of them and before its end. -/
theorem block_cons (opening closing : Char) (level : Nat) (part : List Char)
    (parts : List (List Char)) :
    block opening closing level (part :: parts) = opening ::
      (newline (level + 1) ++ joinWith (',' :: newline (level + 1)) (part :: parts)
        ++ newline level) ++ [closing] := by
  simp [block]

mutual

/-- The indented form is one spelling of a value. -/
theorem spells_pretty : ∀ (level : Nat) (j : Json), j.Exact → Spells (.ofJson j) (j.pretty level)
  | _, .null, _ => .null
  | _, .bool true, _ => .true
  | _, .bool false, _ => .false
  | _, .number (.int _), hj => .integer hj
  | _, .number (.float _ _), hj => hj.elim
  | _, .string s, _ => spells_stringText s
  | _, .array [], _ => .emptyArray isGap_nil
  | level, .array (item :: items), hj => by
    rw [pretty, prettyItems, block_cons]
    exact .array (spellsItems_joinWith (isGap_newline _) (isGap_newline level)
      (spells_prettyItems (level + 1) (item :: items) hj) (List.cons_ne_nil _ _))
  | _, .object [], _ => .emptyObject isGap_nil
  | level, .object (member :: members), hj => by
    rw [pretty, prettyMembers, block_cons]
    exact .object (spellsMembers_joinWith (isGap_newline _) (isGap_newline level)
      (spells_prettyMembers (level + 1) (member :: members) hj) (List.cons_ne_nil _ _))

theorem spells_prettyItems : ∀ (level : Nat) (items : List Json), ExactItems items →
    List.Forall₂ Spells (Source.ofItems items) (prettyItems level items)
  | _, [], _ => .nil
  | level, item :: items, hitems =>
    .cons (spells_pretty level item hitems.1) (spells_prettyItems level items hitems.2)

theorem spells_prettyMembers : ∀ (level : Nat) (members : List (String × Json)),
    ExactMembers members →
      List.Forall₂ SpellsMember (Source.ofMembers members) (prettyMembers level members)
  | _, [], _ => .nil
  | level, (key, value) :: members, hmembers => by
    have hmember := SpellsMember.mk (spells_stringText key) isGap_space
      (spells_pretty level value hmembers.1)
    rw [prettyMembers, List.append_assoc]
    exact .cons hmember (spells_prettyMembers level members hmembers.2)

end

/-- The indented text with white space after it is a text of the value. -/
theorem spellsElement_prettyText {j : Json} (h : j.Exact) {after : String}
    (hafter : IsGap after.toList) :
    SpellsElement (.ofJson j) (j.prettyText ++ after).toList := by
  rw [prettyText, String.toList_append, String.toList_ofList]
  exact .mk isGap_nil (spells_pretty 0 j h) hafter

/-- Decoding the indented text of a value is decoding its source. -/
theorem decodeText_prettyText {α : Type} (decoder : Decoder α) {j : Json} (h : j.Exact)
    {after : String} (hafter : IsGap after.toList) :
    decodeText decoder (j.prettyText ++ after) = decoder .whole (.ofJson j) := by
  rw [decodeText, Bytes.ofText_eq_ofChars]
  exact decodeBytes_of_spells decoder (spellsElement_prettyText h hafter)

end TrustStore.Json

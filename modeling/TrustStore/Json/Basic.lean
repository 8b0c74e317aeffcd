/-!
# JSON values

A number is an integer of at most 64 bits, signed or not, or a binary64 value.  The members of an
object are kept in a list: a value that stands for a map has its keys strictly ascending, and
`Json.insert` keeps them so.
-/

namespace TrustStore

namespace Json

/-- A number as a reader keeps it.  A float is given by its sign and its quanta. -/
inductive Number where
  | int (value : Int)
  | float (negative : Bool) (quanta : Nat)
deriving DecidableEq, Repr

end Json

inductive Json where
  | null
  | bool (b : Bool)
  | number (n : Json.Number)
  | string (s : String)
  | array (items : List Json)
  | object (members : List (String × Json))

namespace Json

/-- The members of an object that stands for a map. -/
abbrev Fields := List (String × Json)

def ofInt (n : Int) : Json := .number (.int n)

def ofNat (n : Nat) : Json := .number (.int n)

def ofTexts (l : List String) : Json := .array (l.map .string)

/-! ### Maps -/

/-- Puts a member at its place, instead of an earlier one with its key. -/
def insert (key : String) (value : Json) : Fields → Fields
  | [] => [(key, value)]
  | (k, v) :: rest =>
    if key < k then (key, value) :: (k, v) :: rest
    else if key = k then (key, value) :: rest
    else (k, v) :: insert key value rest

/-- The map with the given members; of two with one key the later counts. -/
def fieldsOf (members : List (String × Json)) : Fields :=
  members.foldl (fun fields m => insert m.1 m.2 fields) []

/-- The keys of a map ascend. -/
def Fields.Ordered (fields : Fields) : Prop := fields.Pairwise fun a b => a.1 < b.1

theorem mem_insert {key k : String} {value v : Json} {fields : Fields}
    (h : (k, v) ∈ insert key value fields) : (k, v) = (key, value) ∨ (k, v) ∈ fields := by
  induction fields with
  | nil => exact Or.inl (List.mem_singleton.1 h)
  | cons m rest ih =>
    unfold insert at h
    split at h
    · exact List.mem_cons.1 h
    · split at h
      · exact (List.mem_cons.1 h).imp_right (List.mem_cons_of_mem _)
      · rcases List.mem_cons.1 h with h | h
        · exact Or.inr (h ▸ List.mem_cons_self)
        · exact (ih h).imp_right (List.mem_cons_of_mem _)

theorem Fields.Ordered.insert {fields : Fields} (h : fields.Ordered) (key : String) (value : Json) :
    (Json.insert key value fields : Fields).Ordered := by
  induction h with
  | nil => exact List.pairwise_singleton _ _
  | @cons m rest first ordered ih =>
    unfold Json.insert
    split
    · rename_i before
      refine List.pairwise_cons.2 ⟨fun b hb => ?_, List.pairwise_cons.2 ⟨first, ordered⟩⟩
      rcases List.mem_cons.1 hb with rfl | hb
      · exact before
      · exact String.lt_trans before (first b hb)
    · split
      · rename_i same
        exact List.pairwise_cons.2 ⟨fun b hb => same ▸ first b hb, ordered⟩
      · rename_i notBefore ne
        refine List.pairwise_cons.2 ⟨fun b hb => ?_, ih⟩
        rcases mem_insert hb with hb | hb
        · cases hb
          exact Std.lt_of_le_of_ne (String.not_lt.1 notBefore) (Ne.symm ne)
        · exact first b hb

theorem fieldsOf_ordered (members : List (String × Json)) : (fieldsOf members).Ordered := by
  suffices ∀ fields : Fields, fields.Ordered →
      (members.foldl (fun fields m => insert m.1 m.2 fields) fields).Ordered from
    this [] List.Pairwise.nil
  induction members with
  | nil => exact fun _ h => h
  | cons m rest ih => exact fun fields h => ih _ (h.insert m.1 m.2)

end Json

end TrustStore

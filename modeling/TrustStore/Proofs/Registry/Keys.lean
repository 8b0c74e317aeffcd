import TrustStore.Proofs.Storage.Keys
import TrustStore.Registry
import TrustStore.Storage.KeyTable

/-!
# Keys of entries

Different names have different keys (`keyOf_injective`).  The tables of keys are known through
look-ups after an insertion and after an erasure.
-/

namespace TrustStore

/-! ### Tables -/

namespace KeyTable

variable (t : KeyTable) (key : String)

theorem getElem?_insert (value : Bytes) (k : String) :
    (t.insert key value)[k]? = if k = key then some value else t[k]? := by
  rw [Std.ExtTreeMap.getElem?_insert]
  simp only [Std.LawfulEqCmp.compare_eq_iff_eq]
  simp only [eq_comm]

theorem getElem?_erase (k : String) :
    (t.erase key)[k]? = if k = key then none else t[k]? := by
  rw [Std.ExtTreeMap.getElem?_erase]
  simp only [Std.LawfulEqCmp.compare_eq_iff_eq]
  simp only [eq_comm]

/-- Erasing what is not there changes nothing. -/
theorem erase_of_getElem?_eq_none {t : KeyTable} {key : String} (h : t[key]? = none) :
    t.erase key = t := by
  refine Std.ExtTreeMap.ext_getElem? fun k => ?_
  rw [getElem?_erase]
  split
  · rename_i hk
    rw [hk, h]
  · rfl

theorem mem_keys_iff {t : KeyTable} {key : String} : key ∈ t.keys ↔ t[key]?.isSome = true := by
  rw [Std.ExtTreeMap.mem_keys, Std.ExtTreeMap.isSome_getElem?_iff_mem]

end KeyTable

/-! ### Keys -/

namespace Registry

/-- Different names have different keys. -/
theorem keyOf_injective {a b : String} (h : keyOf a = keyOf b) : a = b := by
  have htext : (keyOf a).toList = (keyOf b).toList := congrArg String.toList h
  rw [keyOf, keyOf, String.toList_append, String.toList_append] at htext
  exact String.toList_inj.mp (List.append_cancel_left htext)

end Registry

end TrustStore

import Std.Data.ExtTreeMap
import TrustStore.Storage.Basic

/-!
# Tables as storages

A table of keys, which never fails.  Two tables that hold the same are equal.
-/

namespace TrustStore

abbrev KeyTable := Std.ExtTreeMap String Bytes

namespace KeyTable

def storage : Storage (StateM KeyTable) where
  get key := do return (← getThe KeyTable)[key]?
  put key value := modifyThe KeyTable (·.insert key value)
  delete key := modifyThe KeyTable (·.erase key)
  list above := do return Storage.childrenOf above (← getThe KeyTable).keys

end KeyTable

end TrustStore

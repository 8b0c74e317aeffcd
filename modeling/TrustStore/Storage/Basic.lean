import TrustStore.Bytes
import TrustStore.Fault
import TrustStore.Text.Order

/-!
# Storages

A storage keeps bytes under keys, which are texts whose steps are divided by slashes.  `list` shows
what stands directly below a text: the rest of a key, or its next step with a slash where more
steps follow.
-/

namespace TrustStore

structure Storage (m : Type → Type) where
  get : String → ExceptT Fault m (Option Bytes)
  /-- Stores the bytes in place of those that the key has had. -/
  put : String → Bytes → ExceptT Fault m Unit
  /-- Removes a key, which need not be there. -/
  delete : String → ExceptT Fault m Unit
  list : String → ExceptT Fault m (List String)

namespace Storage

/-! ### Listing elements -/

/-- A step, with the slash that follows it. -/
def firstStep : List Char → List Char
  | [] => []
  | c :: rest => if c = '/' then ['/'] else c :: firstStep rest

/-- What a key shows in the list of what stands below a text. -/
def childOf? (above key : String) : Option String :=
  match above.toList.isPrefixOf? key.toList with
  | none | some [] => none
  | some rest => some (String.ofList (firstStep rest))

/-- The list of what stands below a text, among the given keys. -/
def childrenOf (above : String) (keys : List String) : List String :=
  Text.sortDistinct (keys.filterMap (childOf? above))

/-! ### Storages that fail -/

variable {m : Type → Type} [Monad m]

def unavailable {α : Type} : ExceptT Fault m α := throw (.storage .unavailable)

/-- The storage while its reads or its writes fail. -/
def failing (s : Storage m) (reads writes : Bool) : Storage m where
  get key := if reads then unavailable else s.get key
  put key value := if writes then unavailable else s.put key value
  delete key := if writes then unavailable else s.delete key
  list above := if reads then unavailable else s.list above

end Storage

end TrustStore

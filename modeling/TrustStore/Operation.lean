/-!
# Operations

What an administrative request asks for.
-/

namespace TrustStore

inductive Operation where
  | read
  | list
  | update
  | delete
deriving DecidableEq, Repr

namespace Operation

def name : Operation → String
  | read => "read"
  | list => "list"
  | update => "update"
  | delete => "delete"

def all : List Operation := [read, list, update, delete]

end Operation

end TrustStore

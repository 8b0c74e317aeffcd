import TrustStore.Proofs.Storage.Directory

/-!
# Queries

A query is one call of a storage, whichever it is, and a reply is what it answers.  A query of a
directory goes by one path, which depends on its text alone (`Query.path`).  If there is none, it is
refused and the tree stays as it is (`onTree_of_error`); else it answers as the calls on that path
do (`onTree_get`, `onTree_put`, `onTree_delete`, `onTree_list`).  Only a put and a delete may change
the tree (`Leaves`).
-/

namespace TrustStore.Storage

/-- A call of a storage. -/
inductive Query where
  | get (key : String)
  | put (key : String) (value : Bytes)
  | delete (key : String)
  | list (above : String)

/-- What a call of a storage answers. -/
inductive Reply where
  | found (record : Option Bytes)
  | done
  | names (names : List String)
deriving DecidableEq

namespace Query

variable {m : Type → Type} [Monad m]

def perform (storage : Storage m) : Query → ExceptT Fault m Reply
  | .get key => Reply.found <$> storage.get key
  | .put key value => (fun _ => Reply.done) <$> storage.put key value
  | .delete key => (fun _ => Reply.done) <$> storage.delete key
  | .list above => Reply.names <$> storage.list above

open Directory

/-- The path that a query goes by. -/
def path (root : Path) : Query → Except Fault Path
  | .get key | .put key _ | .delete key => pathOf root key
  | .list above => listedPath root above

/-- A query of the storage below a root: its answer, and the tree that it leaves. -/
def onTree (root : Path) (q : Query) (t : FileTree) : Except Fault Reply × FileTree :=
  (q.perform (ofDirectory FileTree.calls root)).run t

/-- The tree after several queries, some of which may fail. -/
def runAll (root : Path) (queries : List Query) (t : FileTree) : FileTree :=
  queries.foldl (fun t q => (q.onTree root t).2) t

/-! ### Queries by their paths -/

section

variable {root p : Path} {key : String}

/-- A query is refused before anything is done in the tree. -/
theorem refused_run {α : Type} {path : Except Fault Path} {e : Fault} (h : path = .error e)
    (next : Path → ExceptT Fault (StateM FileTree) α) (reply : α → Reply) (t : FileTree) :
    (reply <$> (liftM path >>= next)).run t = (.error e, t) := by
  rw [h]
  rfl

/-- A query whose path is refused fails, and changes nothing. -/
theorem onTree_of_error {q : Query} {e : Fault} (h : q.path root = .error e) (t : FileTree) :
    q.onTree root t = (.error e, t) := by
  cases q with
  | get key => exact refused_run h _ Reply.found t
  | put key value => exact refused_run h _ (fun _ => Reply.done) t
  | delete key => exact refused_run h _ (fun _ => Reply.done) t
  | list above => exact refused_run h _ Reply.names t

/-- A get in a tree. -/
theorem onTree_get (h : pathOf root key = .ok p) (t : FileTree) : (get key).onTree root t
    = ((orMissing none ((t.readFile p).map some)).map Reply.found, t) := by
  refine (map_run Reply.found _ t).trans ?_
  rw [get_run h]

/-- A put in a tree. -/
theorem onTree_put {name : String} (h : pathOf root key = .ok p) (hname : p.fileName? = some name)
    (value : Bytes) (t : FileTree) : (put key value).onTree root t
      = ((saved t p (stagingOf p name) value).1.map fun _ => Reply.done,
        (saved t p (stagingOf p name) value).2) := by
  refine (map_run (fun _ => Reply.done) _ t).trans ?_
  rw [put_run h hname]

/-- A delete in a tree. -/
theorem onTree_delete (h : pathOf root key = .ok p) (t : FileTree) :
    (delete key).onTree root t = match t.removeFile p with
      | .ok t' => (.ok .done, t')
      | .error e => ((orMissing () (.error e)).map fun _ => Reply.done, t) := by
  refine (map_run (fun _ => Reply.done) _ t).trans ?_
  rw [delete_run h]
  rcases t.removeFile p with e | t' <;> rfl

/-- A list in a tree. -/
theorem onTree_list {above : String} (h : listedPath root above = .ok p) (t : FileTree) :
    (list above).onTree root t
      = (((orMissing [] (t.listDirectory p)).map shown).map Reply.names, t) := by
  refine (map_run Reply.names _ t).trans ?_
  rw [list_run h]

end

/-! ### Trees that queries leave -/

/-- What a query may do to a tree. -/
inductive Leaves (root : Path) (t : FileTree) : Query → FileTree → Prop where
  | same (q : Query) : Leaves root t q t
  | stored (key : String) (value : Bytes) :
    Leaves root t (put key value) (((ofDirectory FileTree.calls root).put key value).run t).2
  | removed {key : String} {p : Path} {t' : FileTree} (hpath : pathOf root key = .ok p)
    (h : t.removeFile p = .ok t') : Leaves root t (delete key) t'

/-- Only a put and a delete that succeeds leave a tree that may be another one. -/
theorem leaves_onTree (root : Path) (t : FileTree) (q : Query) :
    Leaves root t q (q.onTree root t).2 := by
  rcases hpath : q.path root with e | p
  · rw [onTree_of_error hpath]
    exact .same q
  -- by what is asked for, where the path is accepted
  · cases q with
    | get key =>
      rw [onTree_get hpath]
      exact .same _
    | put key value =>
      rw [onTree, perform, map_run]
      exact .stored key value
    | delete key =>
      rw [onTree_delete hpath]
      rcases hremoved : t.removeFile p with e | t'
      · exact .same _
      · exact .removed hpath hremoved
    | list above =>
      rw [onTree_list hpath]
      exact .same _

/-- What each query preserves, all of them preserve. -/
theorem runAll_invariant {root : Path} {P : FileTree → Prop}
    (hstep : ∀ t q t', P t → Leaves root t q t' → P t') (queries : List Query) {t : FileTree}
    (h : P t) : P (runAll root queries t) := by
  induction queries generalizing t with
  | nil => exact h
  | cons q queries ih => exact ih (hstep t q _ h (leaves_onTree root t q))

end Query

end TrustStore.Storage

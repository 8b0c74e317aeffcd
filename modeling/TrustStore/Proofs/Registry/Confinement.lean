import Mathlib.Data.List.Infix
import TrustStore.Proofs.Registry.Map
import TrustStore.Proofs.Storage.Footprint

/-!
# Requests are confined

A request that is answered from a directory stays inside it and sees only its own record, whatever
its path says.  It changes the files of the name that its path names, and makes the directory of the
entries where that is missing; and it is answered alike in trees that agree there, or, if it asks
for the list, in trees whose directory of the entries holds files and directories of the same names
(`requests_are_confined`).
-/

namespace TrustStore.Registry

open FileTree Storage.Directory
open Administration (Request Route)

/-! ### Accesses -/

namespace Access

variable {α : Type} {a : Access α} {root : Path}

/-- The places that an access may change: the files of the name that reaches the storage. -/
def ownPlaces (origin : Place) (root : Path) (a : Access α) : Set Place :=
  {q | ∃ n ∈ a.name?, q ∈ filesOf origin root n}

/-- An access changes the files of its own name, and directories on the way to them. -/
theorem onTree_confined (ha : a.Proper) (root : Path) (t : FileTree) :
    Confined (entriesWay (t.start root) root) (a.ownPlaces (t.start root) root) t
      (a.onTree root t).2 := by
  -- a refusal, a list and a read change nothing; a delete takes one file away, a put renames one
  rcases a with e | answer | ⟨name, answer⟩ | ⟨name, answer⟩ | ⟨e, answer⟩
  · exact .refl _ _ t
  · exact .refl _ _ t
  · exact .refl _ _ t
  · rw [onTree]
    rcases hremoved : t.removeFile (entryOf root name) with e | t'
    · exact .refl _ _ t
    · have hown := record_mem_filesOf (t.start root) root ha.valid
      exact (Confined.refl _ _ t).removeFile ⟨name, rfl, hown⟩ hremoved
  · have hsaved := saved_confined t root ha.name.valid e.record
    refine ⟨hsaved.workingDirectory, fun q hq => hsaved.nodes q fun hfile => hq ?_⟩
    exact ⟨e.name, rfl, hfile⟩

/-- What an access answers depends on the files of its own name, or on what is listed. -/
theorem onTree_congr (ha : a.Proper) {t u : FileTree} {origin : Place} {region : Set Place}
    (h : AgreeOn root origin region t u) (hway : entriesWay origin root ⊆ region)
    (hown : a.ownPlaces origin root ⊆ region)
    (hchildren : ∀ answer, a = .list answer → ∀ child,
      child ∈ t.children (entriesPlace origin root)
        ↔ child ∈ u.children (entriesPlace origin root)) :
    (a.onTree root t).1 = (a.onTree root u).1 := by
  rcases a with e | answer | ⟨name, answer⟩ | ⟨name, answer⟩ | ⟨e, answer⟩
  · rfl
  · rw [onTree, onTree, namesIn_congr h hway (hchildren answer rfl)]
  · have hfiles : filesOf origin root name ⊆ region := fun q hq => hown ⟨name, rfl, hq⟩
    rw [onTree, onTree, recordIn_congr h hway ha.valid hfiles]
  · have hfiles : filesOf origin root name ⊆ region := fun q hq => hown ⟨name, rfl, hq⟩
    rw [onTree, onTree]
    rcases (h.removeFile (within_record hway hfiles ha.valid)).cases with
      ⟨t', u', ht, hu, -⟩ | ⟨e, ht, hu⟩
    · rw [ht, hu]
    · rw [ht, hu]
  · have hfiles : filesOf origin root e.name ⊆ region := fun q hq => hown ⟨e.name, rfl, hq⟩
    show Except.map _ (saved t _ _ e.record).1 = Except.map _ (saved u _ _ e.record).1
    rw [saved_congr h hway ha.name.valid hfiles]

theorem named_ne_list {name : String} {next : String → Access α} {answer : List String → α}
    (hnext : ∀ n, next n ≠ .list answer) : named name next ≠ .list answer := by
  unfold named
  split
  · exact hnext _
  · nofun

theorem storing_ne_list {p : Entry.Proposal} {answer : α} {names : List String → α} :
    storing p answer ≠ .list names := by
  unfold storing
  split <;> nofun

end Access

/-! ### Requests -/

/-- The places of the files that a request is about: those of the name in its path. -/
def requestFiles (origin : Place) (root : Path) (r : Request) : Set Place :=
  {q | ∃ n ∈ (Call.request r).subject?, q ∈ filesOf origin root n}

/-- Two trees that agree on the way to the entries and on the files that a request is about, or, for
a list, on the names and kinds of what is in the directory of the entries. -/
structure LookAlike (root : Path) (r : Request) (t u : FileTree) : Prop where
  start : u.start root = t.start root
  way : ∀ q ∈ entriesWay (t.start root) root, t.at? q = u.at? q
  files : r.operation ≠ .list → ∀ q ∈ requestFiles (t.start root) root r, t.at? q = u.at? q
  children : r.operation = .list → ∀ child, child ∈ t.children (entriesPlace (t.start root) root)
    ↔ child ∈ u.children (entriesPlace (t.start root) root)

/-- The outcome of a request that is handled over a directory, and the tree after it. -/
def handleIn (root : Path) (ceilings : Lease.Ceilings) (r : Request) (t : FileTree) :
    Except Fault (Option Administration.Response) × FileTree :=
  (Administration.handle ⟨Storage.ofDirectory FileTree.calls root, ceilings⟩ r).run t

/-- A request on a directory is its access there. -/
theorem handleIn_eq (root : Path) (ceilings : Lease.Ceilings) (r : Request) (t : FileTree) :
    handleIn root ceilings r t = (requestAccess ceilings r).onTree root t := by
  rw [handleIn, handle_eq]
  exact Access.run_ofDirectory (requestEnds ceilings r).proper root t

/-- What asks for the list is about no name. -/
theorem RequestEnds.operation_ne_list {ceilings : Lease.Ceilings} {r : Request}
    {a : Access (Option Administration.Response)} {n : String} (h : RequestEnds ceilings r a)
    (hn : a.name? = some n) : r.operation ≠ .list := by
  cases h with
  | astray | onlyListed | notListed | illTyped | list => cases hn
  | read _ hoperation | delete _ hoperation | update _ hoperation =>
    rw [hoperation]
    nofun

/-- Only what asks for the list lists. -/
theorem RequestEnds.operation_eq_list {ceilings : Lease.Ceilings} {r : Request}
    {a : Access (Option Administration.Response)}
    {answer : List String → Option Administration.Response} (h : RequestEnds ceilings r a)
    (ha : a = .list answer) : r.operation = .list := by
  cases h with
  | list _ hoperation => exact hoperation
  | astray | onlyListed | notListed | illTyped => cases ha
  | read | delete => exact absurd ha (Access.named_ne_list fun _ => nofun)
  | update => exact absurd ha Access.storing_ne_list

/-- The name that reaches the storage is the one in the path. -/
theorem mem_requestFiles {ceilings : Lease.Ceilings} {r : Request} {origin : Place} {root : Path}
    {q : Place} (h : q ∈ (requestAccess ceilings r).ownPlaces origin root) :
    r.operation ≠ .list ∧ q ∈ requestFiles origin root r := by
  obtain ⟨n, hn, hq⟩ := h
  have hends := requestEnds ceilings r
  exact ⟨hends.operation_ne_list hn, n, hends.subject?_of_name? hn, hq⟩

/-- Whatever a request asks for, it changes only the files of the name in its path and what is
missing on the way to them, and nothing else in the tree can change its answer. -/
theorem requests_are_confined (root : Path) (ceilings : Lease.Ceilings) (r : Request) :
    (∀ t, Confined (entriesWay (t.start root) root) (requestFiles (t.start root) root r) t
      (handleIn root ceilings r t).2) ∧
    ∀ t u, LookAlike root r t u →
      (handleIn root ceilings r t).1 = (handleIn root ceilings r u).1 := by
  have hproper := (requestEnds ceilings r).proper
  constructor
  · intro t
    have hconfined := Access.onTree_confined hproper root t
    rw [handleIn_eq]
    refine ⟨hconfined.workingDirectory, fun q hq => hconfined.nodes q fun hown => ?_⟩
    exact hq (mem_requestFiles hown).2
  · intro t u h
    -- what the access is about is what the request is about, and nothing for a list
    have hagree : AgreeOn root (t.start root) (entriesWay (t.start root) root ∪
        (requestAccess ceilings r).ownPlaces (t.start root) root) t u := by
      refine ⟨rfl, h.start, ?_⟩
      rintro q (hq | hq)
      · exact h.way q hq
      · obtain ⟨hlist, hfile⟩ := mem_requestFiles hq
        exact h.files hlist q hfile
    rw [handleIn_eq, handleIn_eq]
    refine Access.onTree_congr hproper hagree Set.subset_union_left Set.subset_union_right ?_
    intro answer hlist
    exact h.children ((requestEnds ceilings r).operation_eq_list hlist)

/-- A directory that holds the record of one entry. -/
def oneRecordTree : FileTree :=
  ((FileTree.ofDirectory ["srv"]).insert ["srv", "cert"] .directory).insert ["srv", "cert", "web"]
    (.file recordMode Entry.Proposal.acceptable.canonical.record)

/-- That directory, with a record of another name and a file outside. -/
def manyFilesTree : FileTree :=
  (oneRecordTree.insert ["srv", "cert", "mail"] (.file recordMode [])).insert ["passwd"]
    (.file newFileMode [])

theorem at?_manyFilesTree {q : Place} (hmail : q ≠ ["srv", "cert", "mail"])
    (hpasswd : q ≠ ["passwd"]) : manyFilesTree.at? q = oneRecordTree.at? q := by
  rw [manyFilesTree, at?_insert _ (by decide), at?_insert _ (by decide), if_neg hpasswd,
    if_neg hmail]

/-- The entry is read alike beside other files. -/
theorem read_beside_other_files :
    LookAlike (.ofText "/srv") ⟨.read, "certs/WEB", []⟩ oneRecordTree manyFilesTree ∧
    (handleIn (.ofText "/srv") ⟨60, 60⟩ ⟨.read, "certs/WEB", []⟩ oneRecordTree).1
      = (handleIn (.ofText "/srv") ⟨60, 60⟩ ⟨.read, "certs/WEB", []⟩ manyFilesTree).1 := by
  have hlook : LookAlike (.ofText "/srv") ⟨.read, "certs/WEB", []⟩ oneRecordTree manyFilesTree := by
    refine ⟨rfl, ?_, ?_, fun h => by cases h⟩
    · rintro q ⟨l, hl, rfl⟩
      have hway : ∀ l ∈ ["srv", "cert"].inits, walked [] l ≠ ["srv", "cert", "mail"] ∧
          walked [] l ≠ ["passwd"] := by decide +kernel
      obtain ⟨hmail, hpasswd⟩ := hway l ((List.mem_inits _ _).mpr hl)
      exact (at?_manyFilesTree hmail hpasswd).symm
    · rintro - q ⟨n, hn, hq⟩
      have hsubject : (Call.request ⟨.read, "certs/WEB", []⟩).subject? = some "web" := by
        decide +kernel
      obtain rfl := Option.some.inj (hsubject.symm.trans hn)
      rcases hq with rfl | rfl
      · exact (at?_manyFilesTree (by decide +kernel) (by decide +kernel)).symm
      · exact (at?_manyFilesTree (by decide +kernel) (by decide +kernel)).symm
  exact ⟨hlook, (requests_are_confined (.ofText "/srv") ⟨60, 60⟩ _).2 _ _ hlook⟩

end TrustStore.Registry

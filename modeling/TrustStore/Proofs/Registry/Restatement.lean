import TrustStore.Proofs.Registry.NameLengths

/-!
# Updates with what was read

The data of a response to a read can be sent back as the data of an update, under any spelling of
the name.  The update is accepted and changes nothing, and it is answered with the warnings that a
write of the stored lease lengths has (`ReadsBack`).  That holds in every state that a run leads to,
over a table and over a directory (`update_with_read_data`), since the entries there are sound:
stating a sound entry again yields the same entry, and its record is the one that is stored.
-/

namespace TrustStore.Registry

open Administration (Response Route)

/-! ### Accesses of updates -/

/-- A request that is about one entry is refused if the name is not valid as it is written. -/
theorem access_requestOn_invalid (c : Lease.Ceilings) {operation : Operation}
    (hoperation : operation ≠ .list) {name : String} (data : Json.Fields)
    (h : Entry.isValidName name = false) :
    ∃ e, (requestOn operation name data).access c = .refuse e := by
  show ∃ e, (requestAccess c ⟨operation, Administration.entryPath name, data⟩).map
    Answer.response = .refuse e
  rcases eq_or_ne name "" with rfl | hne
  -- that is the path of all entries, which can be listed only
  · have hentries : Route.ofPath (Administration.entryPath "") = .ok .entries := by decide
    rw [requestAccess, hentries]
    cases operation <;> first | exact absurd rfl hoperation | exact ⟨_, rfl⟩
  · rw [requestAccess, ofPath_entryPath_invalid hne h]
    exact ⟨_, rfl⟩

/-- The proposal of what is shown of an entry states the entry again. -/
theorem proposal_shown {e : Entry} (h : e.Sound) (name : String) :
    Administration.proposal name e.shown = .ok (e.restated name) := by
  rw [Administration.proposal, Entry.decodeValue_shown h]
  exact Entry.proposal_draft h name

/-- The warnings of a write of the lease lengths of an entry. -/
def leaseWarnings (c : Lease.Ceilings) (e : Entry) : List Lease.Warning :=
  c.warnings (.ofInt e.ttl.toNat) (.ofInt e.maxTtl.toNat)

section Access

variable {e : Entry} (h : e.Sound) {name : String} (hname : Entry.normalizeName name = e.name)
  (c : Lease.Ceilings)

include h hname

/-- An entry that is restated is stored as it is. -/
theorem access_write_restated :
    (Call.write (e.restated name)).access c = .store e (.written (leaseWarnings c e)) :=
  access_write (h.entry_restated hname)

/-- An update with what an entry shows stores that entry. -/
theorem access_update_shown (hvalid : Entry.isValidName name = true) :
    (requestOn .update name e.shown).access c = .store e
      (.response (Response.ofWarnings? ((leaseWarnings c e).map Lease.Warning.text))) := by
  rw [access_requestOn_update c hvalid (proposal_shown h name), Access.storing,
    h.entry_restated hname]
  rfl

end Access

/-! ### States that read back -/

/-- What a read shows of an entry can be sent back as an update: that is accepted under any spelling
of the name, has the warnings of a write of the entry, and leaves the state the same. -/
def ReadsBack {σ : Type} (storage : Storage (StateM σ)) (same : σ → σ → Prop) (state : σ) : Prop :=
  ∀ c n data response,
    (Step.perform storage ⟨c, requestOn .read n data⟩ state).1
      = .ok (.response (some response)) →
    ∃ e, (Step.perform storage ⟨c, .read n⟩ state).1 = .ok (.found (some e)) ∧
      response = .ofData e.shown ∧
      ∀ m, Entry.isValidName m = true → Entry.normalizeName m = Entry.normalizeName n → ∀ c',
        (Step.perform storage ⟨c', .write (e.restated m)⟩ state).1
          = .ok (.written (leaseWarnings c' e)) ∧
        (Step.perform storage ⟨c', requestOn .update m response.data⟩ state).1
          = .ok (.response
            (Response.ofWarnings? ((leaseWarnings c' e).map Lease.Warning.text))) ∧
        same state (Step.perform storage ⟨c', requestOn .update m response.data⟩ state).2

section ReadsBack

variable {σ : Type} {storage : Storage (StateM σ)} {same : σ → σ → Prop} {state : σ}

/-- A state reads back if what is read there is sound, and storing it once more changes nothing. -/
theorem readsBack_of_reads (reads : String → Except Fault (Option Entry))
    (hread : ∀ n, Entry.IsNormal n → ∀ answer : Option Entry → Answer,
      ((Access.read n answer).run storage).run state = ((reads n).map answer, state))
    (hstore : ∀ n, Entry.IsNormal n → ∀ e, reads n = .ok (some e) → e.Sound ∧ e.name = n ∧
      ∀ answer : Answer, ∃ state', same state state' ∧
        ((Access.store e answer).run storage).run state = (.ok answer, state')) :
    ReadsBack storage same state := by
  intro c n data response hresponse
  have hvalid : Entry.isValidName n = true := by
    by_contra hinvalid
    obtain ⟨e, he⟩ := access_requestOn_invalid c (by decide : Operation.read ≠ .list) data
      (Bool.eq_false_iff.mpr hinvalid)
    rw [perform_eq_run, he] at hresponse
    cases hresponse
  -- the request comes down to a read of the normal form, which finds an entry
  rw [perform_eq_run, access_requestOn_read c data hvalid, Access.named] at hresponse
  rcases hname : Entry.checkedName n with rule | n'
  · rw [hname] at hresponse
    cases hresponse
  obtain ⟨rfl, hnormal⟩ := Entry.checkedName_eq_ok_iff.mp hname
  rw [hname] at hresponse
  dsimp only at hresponse
  rw [hread _ hnormal] at hresponse
  obtain ⟨found, hfound, hanswer⟩ := map_eq_ok.mp hresponse
  rcases found with - | e
  · cases hanswer
  cases hanswer
  obtain ⟨hsound, hentry, hstored⟩ := hstore _ hnormal e hfound
  refine ⟨e, ?_, rfl, fun m hm hspelling c' => ?_⟩
  · rw [perform_eq_run]
    show (((Access.named n fun n => .read n Answer.found).run storage).run state).1 = _
    rw [Access.named, hname]
    dsimp only
    rw [hread _ hnormal, hfound]
    rfl
  -- both the write and the update store the entry as it is
  · have hspelled : Entry.normalizeName m = e.name := hspelling.trans hentry.symm
    obtain ⟨_, -, hwritten⟩ := hstored (.written (leaseWarnings c' e))
    obtain ⟨_, hsame, hupdated⟩ := hstored
      (.response (Response.ofWarnings? ((leaseWarnings c' e).map Lease.Warning.text)))
    rw [perform_eq_run, perform_eq_run, access_write_restated hsound hspelled, hwritten]
    show _ ∧ ((((requestOn .update m e.shown).access c').run storage).run state).1 = _ ∧
      same state ((((requestOn .update m e.shown).access c').run storage).run state).2
    rw [access_update_shown hsound hspelled c' hm, hupdated]
    exact ⟨rfl, rfl, hsame⟩

end ReadsBack

/-! ### Tables -/

/-- Storing once more what is there changes nothing. -/
theorem insert_of_getElem? {t : KeyTable} {key : String} {value : Bytes}
    (h : t[key]? = some value) : t.insert key value = t := by
  ext k v
  rw [KeyTable.getElem?_insert]
  split
  · rename_i hk
    rw [hk, h]
  · rfl

/-- On a table an update with what was read changes nothing. -/
theorem Mirrors.readsBack {entries : String → Option Entry} {t : KeyTable}
    (h : Mirrors entries t) : ReadsBack KeyTable.storage (· = ·) t := by
  refine readsBack_of_reads (fun n => .ok (entries n)) (fun n _ answer => ?_) ?_
  · rw [Access.run_keyTable]
    show ((Access.entryOf? t[keyOf n]?).map answer, t) = _
    rw [h.entryOf?_get n]
  -- the record that is put is the one that is there
  · intro n _ e hread
    have hentry : entries n = some e := Except.ok.inj hread
    obtain ⟨rfl, hsound⟩ := h.sound n e hentry
    refine ⟨hsound, rfl, fun answer => ⟨t, rfl, ?_⟩⟩
    rw [Access.run_keyTable]
    show (Except.ok answer, t.insert (keyOf e.name) e.record) = _
    rw [insert_of_getElem? (by rw [h.records, hentry]; rfl)]

/-! ### Directories -/

open FileTree Storage.Directory

/-- The same nodes everywhere. -/
structure SameNodes (t t' : FileTree) : Prop where
  workingDirectory : t'.workingDirectory = t.workingDirectory
  nodes : ∀ q, t'.at? q = t.at? q

namespace Copies

variable {before t : FileTree} {root : Path} {place : Place} {table : KeyTable}
  {entries : String → Option Entry}

/-- What is read is a record of the table. -/
theorem get_of_recordIn (hroot : EmptyRoot before root place) (h : Copies before place table t)
    {name : String} (hname : Entry.isValidName name = true) {record : Bytes}
    (hrecord : recordIn t root name = .ok (some record)) : table[keyOf name]? = some record := by
  have hread : t.readFile (entryOf root name) = .ok record := by
    rcases hfile : t.readFile (entryOf root name) with e | content
    · rw [recordIn, hfile] at hrecord
      cases e <;> cases hrecord
    · rw [recordIn, hfile] at hrecord
      cases hrecord
      rfl
  -- the file that was read is the one at the record's place
  obtain ⟨q, mode, hopened, hfile⟩ :=
    readFile_entryOf_eq_ok (isName_of_isValidName hname) (Entry.ne_up_of_isValidName hname) hread
  obtain rfl := h.opened_eq hroot hopened
  rw [h.files name] at hfile
  obtain ⟨stored, hget, hnode⟩ := Option.map_eq_some_iff.mp hfile
  cases hnode
  exact hget

/-- Saving a record that is there changes nothing. -/
theorem saved_again (hroot : EmptyRoot before root place) (hm : Mirrors entries table)
    (h : Copies before place table t) {e : Entry} (he : e.Sound) (hentry : entries e.name = some e)
    (hshort : e.name.utf8ByteSize ≤ 250) :
    ∃ t', saved t (entryOf root e.name) (entryOf root (stagingName e.name)) e.record
        = (.ok (), t') ∧ SameNodes t t' := by
  have hrecord : table[keyOf e.name]? = some e.record := by
    rw [hm.records, hentry]
    rfl
  -- the staging file is made and renamed, so it leaves no trace
  obtain ⟨t', hsaved, hcwd, hat⟩ := saved_eq_ok hroot.fits (h.enter hroot)
    (h.made.symm.imp_left And.left) he.name.valid hshort (h.unstaged hm e.name)
    (h.ne_directory e.name) e.record
  refine ⟨t', hsaved, hcwd, fun q => ?_⟩
  rw [hat]
  split
  · rename_i hq
    rw [hq, h.files e.name, hrecord]
    rfl
  · split
    · rename_i hq
      rcases h.made with hdir | ⟨-, hempty⟩
      · rw [hq, hdir]
      · rw [hempty e.name] at hrecord
        cases hrecord
    · rfl

end Copies

/-- In a directory an update with what was read leaves every file as it was. -/
theorem Holds.readsBack {before t : FileTree} {root : Path} {place : Place}
    {entries : String → Option Entry} (hroot : EmptyRoot before root place)
    (h : Holds before place entries t) :
    ReadsBack (Storage.ofDirectory FileTree.calls root) SameNodes t := by
  obtain ⟨⟨table, hm, hcopies⟩, hshort⟩ := h
  refine readsBack_of_reads (fun n => recordIn t root n >>= Access.entryOf?)
    (fun n hn answer => Access.run_ofDirectory (a := .read n answer) hn root t) ?_
  intro n hn e hread
  obtain ⟨record?, hrecord, hdecoded⟩ := bind_eq_ok.mp hread
  rcases record? with - | record
  · cases hdecoded
  -- the record is that of the entry in the map
  have hget := hcopies.get_of_recordIn hroot hn.valid hrecord
  have hentry : entries n = some e := by
    rw [← hget, hm.entryOf?_get n] at hdecoded
    exact Except.ok.inj hdecoded
  obtain ⟨rfl, hsound⟩ := hm.sound n e hentry
  obtain ⟨t', hsaved, hsame⟩ :=
    hcopies.saved_again hroot hm hsound hentry (hshort e.name e hentry)
  refine ⟨hsound, rfl, fun answer => ⟨t', hsame, ?_⟩⟩
  rw [Access.run_ofDirectory (a := .store e answer) hsound, Access.onTree, hsaved]
  rfl

/-- In every state that a run leads to, over a table or over a directory, what was read can be sent
back: the update is accepted, warns as a write does, and changes nothing. -/
theorem update_with_read_data :
    (∀ steps, ReadsBack KeyTable.storage (· = ·) (run KeyTable.storage steps ∅).2) ∧
    ∀ before root place, EmptyRoot before root place → ∀ steps,
      ReadsBack (Storage.ofDirectory FileTree.calls root) SameNodes
        (run (Storage.ofDirectory FileTree.calls root) steps before).2 := by
  constructor
  · intro steps
    exact (mirrors_run steps).readsBack
  · intro before root place hroot steps
    obtain ⟨entries, hholds⟩ := exists_holds_run hroot steps
    exact hholds.readsBack hroot

/-- The tree that a run over the directory below a root leads to. -/
def treeAfter (root : Path) (steps : List Step) (t : FileTree) : FileTree :=
  (run (Storage.ofDirectory FileTree.calls root) steps t).2

/-- The directory `/srv` after a write of the entry `web`. -/
def webTree : FileTree :=
  treeAfter (.ofText "/srv") [⟨⟨60, 60⟩, .write .acceptable⟩] (FileTree.ofDirectory ["srv"])

/-- The entry of `web`, read from the tree that a write of it leaves. -/
theorem read_webTree :
    (Step.perform (Storage.ofDirectory FileTree.calls (.ofText "/srv"))
      ⟨⟨60, 60⟩, requestOn .read "web" []⟩ webTree).1
      = .ok (.response (some (.ofData Entry.Proposal.acceptable.canonical.shown))) := by
  obtain ⟨-, table, hm, hcopies⟩ := written_of_short emptyRoot_srv ⟨60, 60⟩
    Entry.Proposal.entry_acceptable (by decide +kernel)
  have hname : Entry.checkedName "web" = .ok "web" := by decide +kernel
  have htree : webTree = (Step.performIn (.ofText "/srv") ⟨⟨60, 60⟩, .write .acceptable⟩
    (FileTree.ofDirectory ["srv"])).2 := by
    rw [webTree, treeAfter, run_singleton, Step.performIn]
  rw [perform_ofDirectory, access_requestOn_read _ _ (by decide +kernel), htree,
    hcopies.onTree_read emptyRoot_srv hm (by decide +kernel), underName, hname]
  dsimp only
  rw [if_pos (by decide +kernel)]
  rfl

/-- What is read there of `web` can be sent back as an update of `WEB`, under lower ceilings. -/
theorem web_is_sent_back :
    ∃ e, (Step.perform (Storage.ofDirectory FileTree.calls (.ofText "/srv"))
        ⟨⟨60, 60⟩, requestOn .read "web" []⟩ webTree).1 = .ok (.response (some (.ofData e.shown))) ∧
      (Step.perform (Storage.ofDirectory FileTree.calls (.ofText "/srv"))
        ⟨⟨30, 30⟩, requestOn .update "WEB" e.shown⟩ webTree).1
        = .ok (.response
          (Response.ofWarnings? ((leaseWarnings ⟨30, 30⟩ e).map Lease.Warning.text))) ∧
      SameNodes webTree (Step.perform (Storage.ofDirectory FileTree.calls (.ofText "/srv"))
        ⟨⟨30, 30⟩, requestOn .update "WEB" e.shown⟩ webTree).2 := by
  have hreads : ReadsBack (Storage.ofDirectory FileTree.calls (.ofText "/srv")) SameNodes webTree := by
    rw [webTree, treeAfter]
    exact update_with_read_data.2 _ _ _ emptyRoot_srv [⟨⟨60, 60⟩, .write .acceptable⟩]
  obtain ⟨e, -, hresponse, hback⟩ := hreads ⟨60, 60⟩ "web" [] _ read_webTree
  obtain ⟨-, hupdated, hsame⟩ := hback "WEB" (by decide +kernel) (by decide +kernel) ⟨30, 30⟩
  rw [hresponse] at hupdated hsame
  refine ⟨e, ?_, hupdated, hsame⟩
  rw [← hresponse]
  exact read_webTree

end TrustStore.Registry

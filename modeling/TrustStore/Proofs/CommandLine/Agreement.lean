import TrustStore.CommandLine.Program
import TrustStore.FileTree.Calls
import TrustStore.Proofs.Chain
import TrustStore.Proofs.Entry.Draft
import TrustStore.Proofs.Entry.Soundness
import TrustStore.Proofs.Lease.Duration
import TrustStore.Proofs.Policies

/-!
# Command lines and requests

The fields of an entry have texts on a command line and types in a request.  What a command line
states is decoded along other branches than what a request states: its policies are one text with
commas, and its lease lengths are texts of durations.  Both make the same proposal
(`proposal_dataOf`), so to write an entry from the command line is to handle the typed request
(`run_write_eq_handle`).
-/

namespace TrustStore.CommandLine

open Administration Entry

/-! ### Two encodings of the fields -/

/-- The fields of an entry that a write may state. -/
structure Stated where
  displayName : Option String
  policies : Option (List String)
  ttl : Option Int64
  maxTtl : Option Int64

namespace Stated

/-- The fields as options of the command line. -/
def options (f : Stated) : WriteOptions where
  displayName := f.displayName
  policies := f.policies.map (",".intercalate ·)
  ttl := f.ttl.map fun n => toString n.toInt
  maxTtl := f.maxTtl.map fun n => toString n.toInt

/-- The fields as members of a request. -/
def members (f : Stated) (certificate : String) : List (String × Option Json) :=
  [("certificate", some (.string certificate)), ("display_name", f.displayName.map .string),
    ("policies", f.policies.map .ofTexts), ("ttl", f.ttl.map fun n => .ofInt n.toInt),
    ("max_ttl", f.maxTtl.map fun n => .ofInt n.toInt)]

/-- The data of the request that states the fields. -/
def data (f : Stated) (certificate : String) : Json.Fields :=
  Json.fieldsOf (Json.present (f.members certificate))

def draft (f : Stated) (certificate : String) : Draft where
  certificate := certificate
  displayName := f.displayName.elim "" id
  policies := f.policies.elim .empty .list
  ttl := f.ttl.elim .zero .seconds
  maxTtl := f.maxTtl.elim .zero .seconds

end Stated

/-- The options as members, each of them a text. -/
def WriteOptions.members (o : WriteOptions) (certificate : String) : List (String × Option Json) :=
  [("certificate", some (.string certificate)), ("display_name", o.displayName.map .string),
    ("policies", o.policies.map .string), ("ttl", o.ttl.map .string),
    ("max_ttl", o.maxTtl.map .string)]

theorem dataOf_eq (certificate : String) (o : WriteOptions) :
    dataOf certificate o = Json.fieldsOf (Json.present (o.members certificate)) := by
  rcases o with ⟨- | displayName, - | policies, - | ttl, - | maxTtl⟩ <;> rfl

def WriteOptions.draft (o : WriteOptions) (certificate : String) : Draft where
  certificate := certificate
  displayName := o.displayName.elim "" id
  policies := o.policies.elim .empty .delimited
  ttl := o.ttl.elim .zero .text
  maxTtl := o.maxTtl.elim .zero .text

/-! ### Decoding them -/

/-- Members under the names of a draft's fields are distinct and known. -/
theorem distinct_of_names {members : List (String × Option Json)}
    (h : members.map Prod.fst = Draft.shape.names) : Json.Distinct members := by
  rw [Json.Distinct, h]
  decide

/-- Data with the members of a draft are decoded if they state one. -/
theorem decodeValue_members {members : List (String × Option Json)}
    (h : members.map Prod.fst = Draft.shape.names) {d : Draft}
    (hstated : d.StatedBy .value (Json.sources (Json.fieldsOf (Json.present members)))) :
    Json.decodeValue Draft.decoder (.object (Json.fieldsOf (Json.present members))) = .ok d := by
  have hdistinct := Json.distinct_present (distinct_of_names h)
  have hperm := Json.fieldsOf_perm hdistinct
  refine Draft.decodeValue_of_statedBy hstated ?_ ?_
  · exact (hperm.map Prod.fst).nodup_iff.mpr hdistinct
  · intro m hm
    rw [← h]
    exact (Json.map_fst_present_sublist members).subset
      (List.mem_map_of_mem (hperm.mem_iff.mp hm))

/-- The certificate is always given, as the text that it is. -/
theorem certificate_fieldsOf {members : List (String × Option Json)} {certificate : String}
    (hdistinct : Json.Distinct members)
    (hlookup : members.lookup "certificate" = some (some (.string certificate))) :
    Json.Shape.optional (Json.sources (Json.fieldsOf (Json.present members))) .value "certificate"
      Json.text "" = .ok certificate := by
  rw [Json.Shape.optional, Json.lookup_sources_fieldsOf hdistinct, hlookup]
  rfl

/-- The data of a request state its draft. -/
theorem decodeValue_data (f : Stated) (certificate : String) :
    Json.decodeValue Draft.decoder (.object (f.data certificate))
      = .ok (f.draft certificate) := by
  have hdistinct : Json.Distinct (f.members certificate) := distinct_of_names rfl
  refine decodeValue_members rfl ⟨?_, ?_, ?_, ?_, ?_⟩
  · exact certificate_fieldsOf hdistinct rfl
  · exact Draft.optional_fieldsOf hdistinct rfl (fun _ => rfl) ""
  · exact Draft.optional_fieldsOf hdistinct rfl (Policies.Choice.decoder_ofTexts .value trivial) .empty
  · exact Draft.optional_fieldsOf hdistinct rfl (Lease.Term.decoder_toInt .value) .zero
  · exact Draft.optional_fieldsOf hdistinct rfl (Lease.Term.decoder_toInt .value) .zero

/-- The data of the options state theirs. -/
theorem decodeValue_dataOf (o : WriteOptions) (certificate : String) :
    Json.decodeValue Draft.decoder (.object (dataOf certificate o))
      = .ok (o.draft certificate) := by
  have hdistinct : Json.Distinct (o.members certificate) := distinct_of_names rfl
  rw [dataOf_eq]
  refine decodeValue_members rfl ⟨?_, ?_, ?_, ?_, ?_⟩
  · exact certificate_fieldsOf hdistinct rfl
  · exact Draft.optional_fieldsOf hdistinct rfl (fun _ => rfl) ""
  · exact Draft.optional_fieldsOf hdistinct rfl (Policies.Choice.decoder_string .value) .empty
  · exact Draft.optional_fieldsOf hdistinct rfl (Lease.Term.decoder_string .value) .zero
  · exact Draft.optional_fieldsOf hdistinct rfl (Lease.Term.decoder_string .value) .zero

/-! ### The proposal of both -/

/-- A list of policies and the text that joins them mean the same, if none holds a comma. -/
theorem resolve_policies {policies : Option (List String)}
    (h : ∀ names ∈ policies, ∀ name ∈ names, ',' ∉ name.toList) :
    ((policies.map (",".intercalate ·)).elim Policies.Choice.empty .delimited).resolve
      = (policies.elim Policies.Choice.empty .list).resolve := by
  rcases policies with - | names
  · rfl
  · exact Policies.Choice.resolve_delimited (h names rfl)

/-- A length and its decimal text mean the same. -/
theorem resolve_term (n : Option Int64) :
    ((n.map fun n => toString n.toInt).elim Lease.Term.zero .text).resolve
      = (n.elim Lease.Term.zero .seconds).resolve := by
  rcases n with - | n
  · rfl
  · exact Lease.Term.resolve_toString n

/-- Options and data make the same proposal, though the lengths are texts in one and numbers in
the other. -/
theorem proposal_dataOf (f : Stated) (h : ∀ names ∈ f.policies, ∀ name ∈ names, ',' ∉ name.toList)
    (certificate name : String) :
    proposal name (dataOf certificate f.options) = proposal name (f.data certificate) := by
  have hcertificate : (f.options.draft certificate).certificate
      = (f.draft certificate).certificate := rfl
  have hdraft := Draft.proposal_congr hcertificate rfl (resolve_policies h) (resolve_term f.ttl)
    (resolve_term f.maxTtl) name
  rw [proposal, proposal, decodeValue_dataOf, decodeValue_data]
  exact hdraft

/-! ### Requests and runs -/

section

variable {m : Type → Type} [Monad m]

/-- An update is handled by the proposal that its data make. -/
theorem handle_update_congr (registry : Registry m) (path : String) {data data' : Json.Fields}
    (h : ∀ name, proposal name data = proposal name data') :
    handle registry ⟨.update, path, data⟩ = handle registry ⟨.update, path, data'⟩ := by
  unfold handle
  dsimp only
  rcases Route.ofPath path with e | - | name
  · rfl
  · rfl
  · simp only [answer, h name]

end

/-- A file that is UTF-8 is read as its text. -/
theorem readText_run {t : FileTree} {path : String} {content : Bytes} {text : String}
    (hfile : t.readFile (.ofText path) = .ok content) (htext : content.text? = some text) :
    (readText FileTree.calls path).run t = (.ok text, t) := by
  have hlift : (ExceptT.lift (ε := Failure) (FileTree.calls.readFile (.ofText path))).run t
      = (.ok (.ok content), t) := by
    rw [← hfile]
    rfl
  rw [readText, bind_run, hlift]
  dsimp only
  rw [htext]
  rfl

/-- To write an entry from the command line is to handle the typed request on the same storage,
with the same answer and the same tree after it. -/
theorem run_write_eq_handle {t : FileTree} {environment : String → Option String}
    {settings : Settings} (hsettings : Settings.ofVariables environment = .ok settings)
    {file : String} {content : Bytes} {certificate : String}
    (hfile : t.readFile (.ofText file) = .ok content) (htext : content.text? = some certificate)
    (f : Stated) (hcommas : ∀ names ∈ f.policies, ∀ name ∈ names, ',' ∉ name.toList)
    (storagePath : Option String) (verbose : Bool) (name : String) :
    let i : Invocation := ⟨storagePath, verbose, .write name file f.options⟩
    let request : Request := ⟨.update, entryPath name, f.data certificate⟩
    let handled := (handle (registry FileTree.calls (i.settings settings)) request).run t
    (i.run FileTree.calls environment).run t = (handled.1.mapError .fault, handled.2) := by
  intro i request handled
  have hrequest : (i.command.request FileTree.calls).run t
      = (.ok ⟨.update, entryPath name, dataOf certificate f.options⟩, t) := by
    show (readText FileTree.calls file >>= fun text => _).run t = _
    rw [bind_run, readText_run hfile htext]
    rfl
  -- past the file only the data differ, and they make one proposal
  have hhandle := handle_update_congr (registry FileTree.calls (i.settings settings))
    (entryPath name) (proposal_dataOf f hcommas certificate)
  rw [Invocation.run, hsettings, bind_run]
  show (i.command.request FileTree.calls >>= fun request => _).run t = _
  rw [bind_run, hrequest]
  dsimp only
  rw [hhandle]
  rfl

/-- A directory with the file of a certificate. -/
def certificateTree : FileTree :=
  (FileTree.ofDirectory ["srv"]).insert ["srv", "web.pem"]
    (.file FileTree.newFileMode (.ofText Proposal.acceptable.certificate))

/-- Fields with a policy that is blank and a length that no write accepts. -/
def webFields : Stated := ⟨none, some ["Dev", " "], some Int64.minValue, none⟩

theorem web_is_handled :
    let settings : Settings := { Settings.default with storagePath := "/srv/store" }
    let i : Invocation := ⟨some "/srv/store", false, .write "web" "/srv/web.pem" webFields.options⟩
    let request : Request :=
      ⟨.update, entryPath "web", webFields.data Proposal.acceptable.certificate⟩
    let handled := (handle (registry FileTree.calls settings) request).run certificateTree
    webFields.options = ⟨none, some "Dev, ", some "-9223372036854775808", none⟩ ∧
      (i.run FileTree.calls fun _ => none).run certificateTree
        = (handled.1.mapError .fault, handled.2) := by
  intro settings i request handled
  have hsettings : Settings.ofVariables (fun _ => none) = .ok Settings.default := rfl
  refine ⟨by decide +kernel, ?_⟩
  exact run_write_eq_handle hsettings (by decide +kernel) (Bytes.text?_ofText _) webFields
    (by decide +kernel) (some "/srv/store") false "web"

end TrustStore.CommandLine

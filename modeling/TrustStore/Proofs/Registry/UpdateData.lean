import TrustStore.Proofs.Entry.Draft
import TrustStore.Proofs.Registry.Blame
import TrustStore.Proofs.Registry.Refinement

/-!
# Data of updates

The data of an update are read exactly if they are well typed, each member by itself
(`Entry.proposal_eq_ok_iff`, `Entry.wellTyped_iff`).  What is proposed then is stated by the data
alone: a member that is left out has its default, whatever is stored.  Data that are not well typed
are refused, and nothing is touched (`updates_take_well_typed_data`).
-/

namespace TrustStore

/-! ### Values of the right type -/

namespace Entry

/-- The text that a value states. -/
inductive StatesText : Json → String → Prop where
  | string (s : String) : StatesText (.string s) s

/-- A text with commas between the policies, or a list of texts. -/
inductive StatesPolicies : Json → List String → Prop where
  | delimited (text : String) :
    StatesPolicies (.string text) (Policies.Choice.delimited text).resolve
  | list (names : List String) : StatesPolicies (.ofTexts names) (Policies.resolve names)

/-- An integer of 64 bits, or the text of a duration. -/
inductive StatesLength : Json → Int64 → Prop where
  | seconds (n : Int64) : StatesLength (.ofInt n.toInt) n
  | duration {text : String} {n : Int64} (h : Lease.parseDuration text = .ok n) :
    StatesLength (.string text) n

/-- Data whose members all have names that an update knows, and values of their types. -/
structure WellTyped (data : Json.Fields) : Prop where
  known : ∀ m ∈ data, m.1 ∈ ["certificate", "display_name", "policies", "ttl", "max_ttl"]
  certificate : ∀ j, ("certificate", j) ∈ data → ∃ s, StatesText j s
  displayName : ∀ j, ("display_name", j) ∈ data → ∃ s, StatesText j s
  policies : ∀ j, ("policies", j) ∈ data → ∃ l, StatesPolicies j l
  ttl : ∀ j, ("ttl", j) ∈ data → ∃ n, StatesLength j n
  maxTtl : ∀ j, ("max_ttl", j) ∈ data → ∃ n, StatesLength j n

/-- What the member of a name states, or the default where there is none. -/
def Stated {α : Type} (data : Json.Fields) (name : String) (States : Json → α → Prop)
    (default a : α) : Prop :=
  match data.lookup name with
  | some j => States j a
  | none => a = default

/-- The proposal that data state under a name. -/
structure Proposal.StatedBy (p : Proposal) (name : String) (data : Json.Fields) : Prop where
  name : p.name = name
  certificate : Stated data "certificate" StatesText "" p.certificate
  displayName : Stated data "display_name" StatesText "" p.displayName
  policies : Stated data "policies" StatesPolicies [] p.policies
  ttl : Stated data "ttl" StatesLength 0 p.ttl
  maxTtl : Stated data "max_ttl" StatesLength 0 p.maxTtl

section Stated

variable {α β : Type} {data : Json.Fields} {name : String} {States : Json → α → Prop}
  {default a : α}

/-- What a member states comes from what is decoded from it, and so does the default. -/
theorem stated_iff_decoded {decoder : Json.Decoder β} {default' : β} {R : β → α → Prop}
    (hstates : ∀ j, States j a ↔ ∃ b, decoder .value (.ofJson j) = .ok b ∧ R b a)
    (hdefault : a = default ↔ R default' a) :
    Stated data name States default a ↔
      ∃ b, Json.Shape.optional (Json.sources data) .value name decoder default' = .ok b ∧ R b a := by
  rw [Json.Shape.optional, Json.lookup_sources, Stated]
  rcases data.lookup name with - | j
  · simp only [Option.map_none, Except.ok.injEq, hdefault, exists_eq_left']
  · exact hstates j

/-- A member that is stated well, or left out, states something. -/
theorem exists_stated (h : ∀ j, (name, j) ∈ data → ∃ a, States j a) (hdistinct : Json.Distinct data)
    (default : α) : ∃ a, Stated data name States default a := by
  unfold Stated
  split
  · rename_i j hlookup
    exact h j ((Json.lookup_eq_some_iff hdistinct).mp hlookup)
  · exact ⟨default, rfl⟩

/-- With distinct names, what is stated is the member itself. -/
theorem states_of_stated (h : Stated data name States default a) (hdistinct : Json.Distinct data)
    {j : Json} (hmem : (name, j) ∈ data) : States j a := by
  rw [Stated, (Json.lookup_eq_some_iff hdistinct).mpr hmem] at h
  exact h

end Stated

/-! ### What is decoded -/

section Decoded

variable {data : Json.Fields} {j : Json}

/-- A text is decoded exactly from a string. -/
theorem text_eq_ok_iff {s : String} : Json.text .value (.ofJson j) = .ok s ↔ StatesText j s := by
  constructor
  · intro h
    cases j <;> cases h
    exact .string s
  · rintro ⟨⟩
    rfl

/-- Policies are decoded exactly from what states them. -/
theorem statesPolicies_iff {l : List String} : StatesPolicies j l ↔
    ∃ choice, Policies.Choice.decoder .value (.ofJson j) = .ok choice ∧ choice.resolve = l := by
  simp only [Policies.Choice.decoder_eq_ok_iff]
  constructor
  · rintro (text | names)
    · exact ⟨.delimited text, rfl, rfl⟩
    · exact ⟨.list names, rfl, rfl⟩
  · rintro ⟨text | names, rfl, rfl⟩
    · exact .delimited text
    · exact .list names

/-- A term is accepted in the seconds it resolves to. -/
theorem seconds_eq_ok_iff {term : Lease.Term} {n : Int64} :
    seconds term = .ok n ↔ term.resolve = .ok n := by
  rw [seconds]
  rcases term.resolve with e | k <;> simp [Except.mapError]

/-- A length is decoded exactly from what states it. -/
theorem statesLength_iff {n : Int64} : StatesLength j n ↔
    ∃ term, Lease.Term.decoder .value (.ofJson j) = .ok term ∧ seconds term = .ok n := by
  simp only [Lease.Term.decoder_eq_ok_iff, seconds_eq_ok_iff]
  constructor
  · rintro (_ | h)
    · exact ⟨.seconds n, rfl, rfl⟩
    · exact ⟨.text _, rfl, h⟩
  · rintro ⟨k | text, rfl, h⟩
    · cases h
      exact .seconds _
    · exact .duration h

theorem stated_text_iff {name s : String} : Stated data name StatesText "" s ↔
    Json.Shape.optional (Json.sources data) .value name Json.text "" = .ok s := by
  have hstates (j : Json) : StatesText j s ↔ ∃ b, Json.text .value (.ofJson j) = .ok b ∧ b = s := by
    simp only [exists_eq_right, text_eq_ok_iff]
  refine (stated_iff_decoded hstates eq_comm).trans ?_
  simp only [exists_eq_right]

theorem stated_policies_iff {name : String} {l : List String} :
    Stated data name StatesPolicies [] l ↔ ∃ choice,
      Json.Shape.optional (Json.sources data) .value name Policies.Choice.decoder .empty
        = .ok choice ∧ choice.resolve = l :=
  stated_iff_decoded (fun _ => statesPolicies_iff) eq_comm

/-- A length that is left out is zero. -/
theorem stated_length_iff {name : String} {n : Int64} :
    Stated data name StatesLength 0 n ↔ ∃ term,
      Json.Shape.optional (Json.sources data) .value name Lease.Term.decoder .zero = .ok term ∧
        seconds term = .ok n := by
  have hdefault : n = 0 ↔ seconds Lease.Term.zero = .ok n := by
    rw [seconds_eq_ok_iff, Lease.Term.zero, Lease.Term.resolve, Except.ok.injEq]
    exact eq_comm
  exact stated_iff_decoded (R := fun term n => seconds term = .ok n) (fun _ => statesLength_iff)
    hdefault

end Decoded

/-- A proposal is made exactly of data that have no other members and state it. -/
theorem proposal_eq_ok_iff {data : Json.Fields} (hdistinct : Json.Distinct data) {name : String}
    {p : Proposal} : Administration.proposal name data = .ok p ↔
      (∀ m ∈ data, m.1 ∈ Draft.shape.names) ∧ p.StatedBy name data := by
  constructor
  · intro h
    unfold Administration.proposal at h
    split at h
    · rename_i d hd
      obtain ⟨hstated, hnames⟩ := Draft.statedBy_of_decodeValue hd
      -- the lengths are resolved after everything else has been decoded
      obtain ⟨ttl, httl, h⟩ := bind_eq_ok.mp h
      obtain ⟨maxTtl, hmax, h⟩ := bind_eq_ok.mp h
      cases h
      refine ⟨hnames, rfl, stated_text_iff.mpr hstated.certificate,
        stated_text_iff.mpr hstated.displayName, ?_, ?_, ?_⟩
      · exact stated_policies_iff.mpr ⟨d.policies, hstated.policies, rfl⟩
      · exact stated_length_iff.mpr ⟨d.ttl, hstated.ttl, httl⟩
      · exact stated_length_iff.mpr ⟨d.maxTtl, hstated.maxTtl, hmax⟩
    · cases h
  · rintro ⟨hnames, h⟩
    obtain ⟨policies, hpolicies, hresolved⟩ := stated_policies_iff.mp h.policies
    obtain ⟨ttl, httl, hseconds⟩ := stated_length_iff.mp h.ttl
    obtain ⟨maxTtl, hmax, hmaxSeconds⟩ := stated_length_iff.mp h.maxTtl
    have hstated : (⟨p.certificate, p.displayName, policies, ttl, maxTtl⟩ : Draft).StatedBy .value
        (Json.sources data) :=
      ⟨stated_text_iff.mp h.certificate, stated_text_iff.mp h.displayName, hpolicies, httl, hmax⟩
    rw [Administration.proposal, Draft.decodeValue_of_statedBy hstated hdistinct hnames]
    dsimp only
    rw [Draft.proposal, hseconds, hmaxSeconds, hresolved, ← h.name]
    rfl

/-- Data are well typed exactly if they make a proposal. -/
theorem wellTyped_iff {data : Json.Fields} (hdistinct : Json.Distinct data) (name : String) :
    WellTyped data ↔ ∃ p, Administration.proposal name data = .ok p := by
  simp only [proposal_eq_ok_iff hdistinct]
  constructor
  · intro h
    -- each member states something, and together they are a proposal
    obtain ⟨certificate, hcertificate⟩ := exists_stated h.certificate hdistinct ""
    obtain ⟨displayName, hdisplay⟩ := exists_stated h.displayName hdistinct ""
    obtain ⟨policies, hpolicies⟩ := exists_stated h.policies hdistinct []
    obtain ⟨ttl, httl⟩ := exists_stated h.ttl hdistinct 0
    obtain ⟨maxTtl, hmax⟩ := exists_stated h.maxTtl hdistinct 0
    exact ⟨⟨name, certificate, displayName, policies, ttl, maxTtl⟩, h.known, rfl, hcertificate,
      hdisplay, hpolicies, httl, hmax⟩
  · rintro ⟨p, hknown, h⟩
    exact ⟨hknown, fun j hj => ⟨_, states_of_stated h.certificate hdistinct hj⟩,
      fun j hj => ⟨_, states_of_stated h.displayName hdistinct hj⟩,
      fun j hj => ⟨_, states_of_stated h.policies hdistinct hj⟩,
      fun j hj => ⟨_, states_of_stated h.ttl hdistinct hj⟩,
      fun j hj => ⟨_, states_of_stated h.maxTtl hdistinct hj⟩⟩

end Entry

/-! ### Requests -/

namespace Registry

open Administration (Request Response entryPath handle)
open Entry (WellTyped)

section

variable {σ : Type} (registry : Registry (StateM σ)) {name : String}
  (hname : Entry.isValidName name = true) (data : Json.Fields)

include hname

/-- The access of an update on the path of a valid name. -/
theorem handle_update : handle registry ⟨.update, entryPath name, data⟩
    = (updateAccess registry.ceilings name data).run registry.storage := by
  rw [handle_eq, requestAccess, ofPath_entryPath hname]
  rfl

/-- An update whose data make a proposal is a write of that proposal. -/
theorem handle_of_proposal {p : Entry.Proposal} (h : Administration.proposal name data = .ok p) :
    handle registry ⟨.update, entryPath name, data⟩
      = (fun warnings => Response.ofWarnings? (warnings.map Lease.Warning.text)) <$>
        registry.write p := by
  rw [handle_update registry hname, updateAccess, h, write_eq]

/-- Data that are refused leave the storage untouched. -/
theorem handle_of_refused {e : Fault} (h : Administration.proposal name data = .error e)
    (state : σ) :
    (handle registry ⟨.update, entryPath name, data⟩).run state = (.error e, state) := by
  rw [handle_update registry hname, updateAccess, h]
  rfl

end

/-- How a write fails: for a rule that its entry breaks, or with the fault of the storage. -/
def WriteFails {σ : Type} (storage : Storage (StateM σ)) (p : Entry.Proposal) (state : σ)
    (e : Fault) : Prop :=
  (∃ rule, p.entry = .error rule ∧ e = .argument rule) ∨ ∃ entry, p.entry = .ok entry ∧
    ((storage.put (keyOf entry.name) entry.record).run state).1 = .error e

section

variable {σ α : Type} {storage : Storage (StateM σ)} {p : Entry.Proposal} {state : σ} {e : Fault}

/-- Past the data, an update fails as the write fails. -/
theorem writeFails_of_storing {answer : α}
    (h : (((Access.storing p answer).run storage).run state).1 = .error e) :
    WriteFails storage p state e := by
  unfold Access.storing at h
  split at h
  · rename_i entry hentry
    rw [Access.run, map_run] at h
    exact Or.inr ⟨entry, hentry, map_eq_error.mp h⟩
  · rename_i rule hrule
    cases h
    exact Or.inl ⟨rule, hrule, rfl⟩

/-- No write fails because its request cannot be read. -/
theorem WriteFails.ne_request (h : WriteFails storage p state e) (hstorage : storage.Blameless)
    (cause : RequestError) : e ≠ .request cause := by
  rintro rfl
  rcases h with ⟨rule, -, hrule⟩ | ⟨entry, -, hput⟩
  · cases hrule
  · exact hstorage.put _ _ state _ hput trivial

end

/-- The request is the write of a proposal that its data state, and fails only as that does. -/
structure Takes {σ : Type} (registry : Registry (StateM σ)) (name : String) (data : Json.Fields)
    (p : Entry.Proposal) : Prop where
  stated : p.StatedBy name data
  write : handle registry ⟨.update, entryPath name, data⟩
    = (fun warnings => Response.ofWarnings? (warnings.map Lease.Warning.text)) <$> registry.write p
  fails (state : σ) (e : Fault)
    (h : ((handle registry ⟨.update, entryPath name, data⟩).run state).1 = .error e) :
    WriteFails registry.storage p state e

section

variable {σ : Type} (registry : Registry (StateM σ)) {name : String}
  (hname : Entry.isValidName name = true) {data : Json.Fields} (hdistinct : Json.Distinct data)

include hname hdistinct

/-- Well typed data are taken. -/
theorem exists_takes (h : WellTyped data) : ∃ p, Takes registry name data p := by
  obtain ⟨p, hp⟩ := (Entry.wellTyped_iff hdistinct name).mp h
  have hwrite := handle_of_proposal registry hname data hp
  refine ⟨p, ((Entry.proposal_eq_ok_iff hdistinct).mp hp).2, hwrite, fun state e herror => ?_⟩
  rw [hwrite, write_eq] at herror
  exact writeFails_of_storing herror

/-- Other data are refused for the request, whatever is stored. -/
theorem exists_refused (h : ¬ WellTyped data) : ∃ cause, ∀ state,
    (handle registry ⟨.update, entryPath name, data⟩).run state
      = (.error (.request cause), state) := by
  rcases proposal_cases name data with ⟨cause, hp, -⟩ | ⟨p, hp, -⟩
  · exact ⟨cause, handle_of_refused registry hname data hp⟩
  · exact absurd ((Entry.wellTyped_iff hdistinct name).mpr ⟨p, hp⟩) h

/-- An update takes data exactly if they are well typed.  Else it is refused as a request that
cannot be read, and nothing is touched. -/
theorem updates_take_well_typed_data :
    (WellTyped data → ∃ p, Takes registry name data p) ∧
    (¬ WellTyped data → ∃ cause, ∀ state,
      (handle registry ⟨.update, entryPath name, data⟩).run state
        = (.error (.request cause), state)) ∧
    (registry.storage.Blameless → ∀ state, WellTyped data ↔ ∀ cause,
      ((handle registry ⟨.update, entryPath name, data⟩).run state).1
        ≠ .error (.request cause)) := by
  refine ⟨exists_takes registry hname hdistinct, exists_refused registry hname hdistinct,
    fun hstorage state => ⟨fun h cause herror => ?_, fun h => ?_⟩⟩
  · obtain ⟨p, htakes⟩ := exists_takes registry hname hdistinct h
    exact (htakes.fails state _ herror).ne_request hstorage cause rfl
  -- a blameless storage never fails with a fault of the request
  · by_contra hdata
    obtain ⟨cause, hcause⟩ := exists_refused registry hname hdistinct hdata
    exact h cause (by rw [hcause state])

end

/-- Data that leave out what they may. -/
def someData : Json.Fields := [("policies", .ofTexts ["dev"]), ("ttl", .string "60")]

theorem wellTyped_someData : WellTyped someData where
  known := by simp [someData]
  certificate := by simp [someData]
  displayName := by simp [someData]
  policies j hj := by
    obtain rfl : j = .ofTexts ["dev"] := by simpa [someData] using hj
    exact ⟨_, .list ["dev"]⟩
  ttl j hj := by
    obtain rfl : j = .string "60" := by simpa [someData] using hj
    exact ⟨60, .duration (by decide +kernel)⟩
  maxTtl := by simp [someData]

/-- An update of some of the fields is taken, and one of a length that is null is refused. -/
theorem length_may_be_left_out_but_not_null :
    (∃ p, Takes ⟨KeyTable.storage, ⟨0, 0⟩⟩ "web" someData p) ∧
    ∃ cause, ∀ table, (handle ⟨KeyTable.storage, ⟨0, 0⟩⟩
        ⟨.update, entryPath "web", [("max_ttl", .null)]⟩).run table
      = (.error (.request cause), table) := by
  have hname : Entry.isValidName "web" = true := by decide +kernel
  have hnull : ¬ WellTyped [("max_ttl", .null)] := by
    intro h
    obtain ⟨n, hn⟩ := h.maxTtl .null List.mem_cons_self
    cases hn
  have hsome : Json.Distinct someData := by
    rw [Json.Distinct]
    decide
  have hsingle : Json.Distinct [("max_ttl", Json.null)] := List.nodup_singleton "max_ttl"
  exact ⟨(updates_take_well_typed_data _ hname hsome).1 wellTyped_someData,
    (updates_take_well_typed_data _ hname hsingle).2.1 hnull⟩

end Registry

end TrustStore

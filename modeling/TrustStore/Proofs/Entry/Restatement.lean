import TrustStore.Proofs.Entry.Draft
import TrustStore.Proofs.Entry.Record
import TrustStore.Proofs.Entry.Soundness

/-!
# Entries stated again

What a reader is shown of an entry can be handed back as a draft.  The shown fields decode to a
draft that states them (`decodeValue_shown`), and the proposal that it makes under a spelling of the
name is `restated`.  A sound entry is accepted as it is when it is stated again
(`Sound.entry_restated`): its policies are resolved twice more, which leaves them alone, and its
lease lengths are unsigned numbers that a signed one holds.
-/

namespace TrustStore

namespace Entry

/-! ### The draft of what is shown -/

/-- The draft that states the fields of an entry. -/
def draft (e : Entry) : Draft where
  certificate := e.certificate
  displayName := e.displayName
  policies := .list e.policies
  ttl := .seconds (.ofInt e.ttl.toNat)
  maxTtl := .seconds (.ofInt e.maxTtl.toNat)

/-- The proposal that states an entry again, under a spelling of its name. -/
def restated (e : Entry) (name : String) : Proposal where
  name := name
  certificate := e.certificate
  displayName := e.displayName
  policies := e.policies
  ttl := .ofInt e.ttl.toNat
  maxTtl := .ofInt e.maxTtl.toNat

/-- What an entry shows is data for an update. -/
theorem decodeValue_shown {e : Entry} (h : e.Sound) :
    Json.decodeValue Draft.decoder (.object e.shown) = .ok e.draft := by
  refine Draft.decodeValue_of_statedBy ⟨rfl, rfl, ?_, ?_, ?_⟩ ?_ ?_
  · exact Policies.Choice.decoder_ofTexts .value trivial e.policies
  · exact Lease.Term.decoder_ofNat .value h.ttl
  · exact Lease.Term.decoder_ofNat .value h.maxTtl
  · show List.Nodup ["certificate", "display_name", "max_ttl", "policies", "ttl"]
    decide
  · intro m hm
    have hnames : ∀ name ∈ e.shown.map Prod.fst, name ∈ Draft.shape.names := by
      show ∀ name ∈ ["certificate", "display_name", "max_ttl", "policies", "ttl"], _
      decide
    exact hnames m.1 (List.mem_map_of_mem hm)

/-- The draft of a sound entry has lengths that need no reading. -/
theorem proposal_draft {e : Entry} (h : e.Sound) (name : String) :
    e.draft.proposal name = .ok (e.restated name) := by
  have hpolicies : e.draft.policies.resolve = e.policies := h.policies.resolve
  show Except.ok (Proposal.mk name e.certificate e.displayName e.draft.policies.resolve _ _) = _
  rw [hpolicies]
  rfl

/-! ### The entry of what is shown -/

theorem toInt_ofInt_toNat {n : UInt64} (h : n.toNat ≤ Int64.maxValue.toInt) :
    (Int64.ofInt n.toNat).toInt = n.toNat := by
  have hmax : Int64.maxValue.toInt = 2 ^ 63 - 1 := rfl
  exact Int64.toInt_ofInt_of_le (by omega) (by omega)

/-- A word goes through the signed type and back. -/
theorem toUInt64_ofInt_toNat (n : UInt64) : (Int64.ofInt n.toNat).toUInt64 = n := by
  rw [Int64.ofInt_eq_ofNat, Int64.toUInt64_ofNat', UInt64.ofNat_toNat]

/-- The lease of a sound entry passes the checks as signed numbers. -/
theorem Sound.checkLease {e : Entry} (h : e.Sound) :
    checkLease (.ofInt e.ttl.toNat) (.ofInt e.maxTtl.toNat) = .ok () := by
  have httl := toInt_ofInt_toNat h.ttl
  have hmax := toInt_ofInt_toNat h.maxTtl
  refine checkLease_of_le ?_ ?_ ?_
  · rw [Int64.le_iff_toInt_le, httl]
    exact Int.natCast_nonneg _
  · rw [Int64.le_iff_toInt_le, hmax]
    exact Int.natCast_nonneg _
  · rcases h.lease with hzero | hle
    · left
      rw [hzero]
      rfl
    · right
      rw [Int64.le_iff_toInt_le, httl, hmax]
      exact Int.ofNat_le.mpr (UInt64.le_iff_toNat_le.mp hle)

theorem Sound.checkCertificate {e : Entry} (h : e.Sound) :
    checkCertificate e.certificate = .ok () := by
  obtain ⟨leaf, rest, hprofiles, hallows⟩ := h.certificate
  rw [Entry.checkCertificate, show Certificate.Profile.ofPem (.ofText e.certificate) = leaf :: rest
    from hprofiles]
  exact if_pos hallows

/-- Stating a sound entry again changes nothing of it. -/
theorem Sound.entry_restated {e : Entry} (h : e.Sound) {name : String}
    (hname : normalizeName name = e.name) : (e.restated name).entry = .ok e := by
  have hentry : (e.restated name).entry = .ok (e.restated name).canonical :=
    Proposal.entry_of_checks (h.name.checkedName_spelling hname) h.checkLease h.checkCertificate
  -- the display name is not empty, so it is kept
  have hdisplay : displayNameOr e.displayName (normalizeName name) = e.displayName :=
    if_neg h.displayName
  rw [hentry, Proposal.canonical]
  show Except.ok (Entry.mk (normalizeName name) e.certificate
    (displayNameOr e.displayName (normalizeName name)) (Policies.resolve e.policies)
    (Int64.ofInt e.ttl.toNat).toUInt64 (Int64.ofInt e.maxTtl.toNat).toUInt64) = _
  rw [hdisplay, hname, h.policies.resolve, toUInt64_ofInt_toNat, toUInt64_ofInt_toNat]

end Entry

end TrustStore

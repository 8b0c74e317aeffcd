import TrustStore.Proofs.Chain
import TrustStore.Proofs.Entry.Name
import TrustStore.Proofs.Lease.Ceilings
import TrustStore.Proofs.Policies

/-!
# Soundness of entries

`Sound` collects what an entry of the store guarantees, `Proposal.canonical` is the entry that a
proposal stands for.  A proposal is either refused or accepted as that entry, which is then sound
(`Proposal.entry_eq_ok`); nothing but the name, the lease lengths and the certificate decides which.
-/

namespace TrustStore.Entry

/-! ### Sound entries -/

/-- What holds of every entry that is accepted. -/
structure Sound (e : Entry) : Prop where
  name : IsNormal e.name
  displayName : e.displayName ≠ ""
  ttl : e.ttl.toNat ≤ Int64.maxValue.toInt
  maxTtl : e.maxTtl.toNat ≤ Int64.maxValue.toInt
  lease : e.maxTtl = 0 ∨ e.ttl ≤ e.maxTtl
  policies : Policies.Canonical e.policies
  /-- The first certificate of the bundle lets clients authenticate. -/
  certificate : ∃ leaf rest, e.profiles = leaf :: rest ∧ leaf.allowsClientAuth = true

/-! ### The checks -/

/-- Lengths that pass are not negative, and do not cross. -/
theorem checkLease_eq_ok {ttl maxTtl : Int64} (h : checkLease ttl maxTtl = .ok ()) :
    0 ≤ ttl ∧ 0 ≤ maxTtl ∧ (maxTtl = 0 ∨ ttl ≤ maxTtl) := by
  unfold checkLease at h
  split at h
  · cases h
  · rename_i httl
    split at h
    · cases h
    · rename_i hmax
      split at h
      · cases h
      · rename_i hcross
        refine ⟨Int64.not_lt.mp httl, Int64.not_lt.mp hmax, ?_⟩
        rcases Decidable.em (maxTtl = 0) with hzero | hne
        · exact Or.inl hzero
        · exact Or.inr (Int64.not_lt.mp fun hlt => hcross ⟨hne, hlt⟩)

theorem checkLease_of_le {ttl maxTtl : Int64} (httl : 0 ≤ ttl) (hmax : 0 ≤ maxTtl)
    (hcross : maxTtl = 0 ∨ ttl ≤ maxTtl) : checkLease ttl maxTtl = .ok () := by
  rw [checkLease, if_neg (Int64.not_lt.mpr httl), if_neg (Int64.not_lt.mpr hmax), if_neg ?_]
  rintro ⟨hne, hlt⟩
  rcases hcross with hzero | hle
  · exact hne hzero
  · exact Int64.not_lt.mpr hle hlt

/-- A certificate that passes has a first profile, which allows client authentication. -/
theorem checkCertificate_eq_ok {certificate : String} (h : checkCertificate certificate = .ok ()) :
    ∃ leaf rest, Certificate.Profile.ofPem (.ofText certificate) = leaf :: rest ∧
      leaf.allowsClientAuth = true := by
  unfold checkCertificate at h
  split at h
  · cases h
  · rename_i leaf rest hprofiles
    split at h
    · rename_i hallows
      exact ⟨leaf, rest, hprofiles, hallows⟩
    · cases h

theorem displayNameOr_ne_empty {displayName name : String} (h : name ≠ "") :
    displayNameOr displayName name ≠ "" := by
  unfold displayNameOr
  split
  · exact h
  · rename_i hne
    exact hne

/-! ### Accepted proposals -/

theorem toNat_toUInt64_le {n : Int64} (h : 0 ≤ n) :
    n.toUInt64.toNat ≤ Int64.maxValue.toInt := by
  rw [Lease.toNat_toUInt64 h]
  exact Int64.toInt_le n

namespace Proposal

/-- The entry that a proposal stands for. -/
def canonical (p : Proposal) : Entry where
  name := normalizeName p.name
  certificate := p.certificate
  displayName := displayNameOr p.displayName (normalizeName p.name)
  policies := Policies.resolve p.policies
  ttl := p.ttl.toUInt64
  maxTtl := p.maxTtl.toUInt64

variable {p : Proposal} {e : Entry}

/-- What an accepted proposal has passed. -/
theorem checks_of_entry_eq_ok (h : p.entry = .ok e) :
    e = p.canonical ∧ checkedName p.name = .ok (normalizeName p.name) ∧
      checkLease p.ttl p.maxTtl = .ok () ∧ checkCertificate p.certificate = .ok () := by
  unfold entry at h
  -- the three checks come one after the other
  obtain ⟨n, hname, h⟩ := bind_eq_ok.mp h
  obtain ⟨⟨⟩, hlease, h⟩ := bind_eq_ok.mp h
  obtain ⟨⟨⟩, hcert, h⟩ := bind_eq_ok.mp h
  obtain ⟨rfl, -⟩ := checkedName_eq_ok_iff.mp hname
  cases h
  exact ⟨rfl, hname, hlease, hcert⟩

/-- A proposal that passes each check is accepted. -/
theorem entry_of_checks {n : String} (hname : checkedName p.name = .ok n)
    (hlease : checkLease p.ttl p.maxTtl = .ok ())
    (hcert : checkCertificate p.certificate = .ok ()) : p.entry = .ok p.canonical := by
  obtain ⟨rfl, -⟩ := checkedName_eq_ok_iff.mp hname
  rw [entry, hname, hlease, hcert]
  rfl

/-- What passes the checks is sound in canonical form. -/
theorem sound_canonical (hname : IsNormal (normalizeName p.name))
    (hlease : checkLease p.ttl p.maxTtl = .ok ())
    (hcert : checkCertificate p.certificate = .ok ()) : p.canonical.Sound := by
  obtain ⟨httl, hmax, hcross⟩ := checkLease_eq_ok hlease
  refine ⟨hname, displayNameOr_ne_empty (ne_empty_of_isValidName hname.valid),
    toNat_toUInt64_le httl, toNat_toUInt64_le hmax, ?_, Policies.resolve_canonical p.policies,
    checkCertificate_eq_ok hcert⟩
  -- words are compared as the signed lengths are, once those are not negative
  rcases hcross with hzero | hle
  · left
    show p.maxTtl.toUInt64 = 0
    rw [hzero]
    rfl
  · exact Or.inr (Int64.toUInt64_le httl hle)

/-- A proposal that keeps every rule: its certificate restricts no usage. -/
def acceptable : Proposal where
  name := "Web"
  certificate := "-----BEGIN CERTIFICATE-----
MG4wWqADAgECAgEBMAUGAytlcDARMQ8wDQYDVQQDDAZpc3N1ZXIwHhcNMjQwMTAx
MDAwMDAwWhcNMzQwMTAxMDAwMDAwWjACMQAwEjAFBgMrZXADCQARERERERERETAF
BgMrZXADCQBaWlpaWlpaWg==
-----END CERTIFICATE-----
"
  displayName := ""
  policies := ["Dev", "dev "]
  ttl := 60
  maxTtl := 0

theorem entry_acceptable : acceptable.entry = .ok acceptable.canonical := by
  decide +kernel

/-- An accepted proposal yields its canonical entry, and that is sound. -/
theorem entry_eq_ok (h : p.entry = .ok e) : e = p.canonical ∧ e.Sound := by
  obtain ⟨rfl, hname, hlease, hcert⟩ := checks_of_entry_eq_ok h
  exact ⟨rfl, sound_canonical (isNormal_of_checkedName hname) hlease hcert⟩

end Proposal

end TrustStore.Entry

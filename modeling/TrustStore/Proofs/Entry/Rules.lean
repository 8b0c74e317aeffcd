import TrustStore.Proofs.Entry.Soundness

/-!
# Which rule a proposal breaks

A rule is a condition on a proposal, and says nothing about how proposals are checked
(`EntryRule.BrokenBy`).  The checks accept a proposal if it breaks no rule (`entry_eq_ok_iff`), and
refuse it for the first rule that it breaks in the order of the rules (`entry_eq_error_iff`); a
proposal that breaks none is `Acceptable`.
-/

namespace TrustStore

open Entry (normalizeName isValidName)

/-! ### Rules -/

namespace EntryRule

/-- The proposal does what the rule forbids. -/
def BrokenBy (p : Entry.Proposal) : EntryRule → Prop
  | missingName => normalizeName p.name = ""
  | invalidName name =>
    name = normalizeName p.name ∧ name ≠ "" ∧ isValidName name = false
  | negativeTtl => p.ttl < 0
  | negativeMaxTtl => p.maxTtl < 0
  | ttlAboveMaxTtl => p.maxTtl ≠ 0 ∧ p.maxTtl < p.ttl
  | unreadableCertificate => Certificate.Profile.ofPem (.ofText p.certificate) = []
  | missingClientAuth =>
    ∃ leaf rest, Certificate.Profile.ofPem (.ofText p.certificate) = leaf :: rest ∧
      leaf.allowsClientAuth = false

/-- The place of a rule in the order of the rules. -/
@[simp]
def rank : EntryRule → Nat
  | missingName => 0
  | invalidName _ => 1
  | negativeTtl => 2
  | negativeMaxTtl => 3
  | ttlAboveMaxTtl => 4
  | unreadableCertificate => 5
  | missingClientAuth => 6

variable {p : Entry.Proposal} {rule other : EntryRule}

/-- The rule is the first one that the proposal breaks. -/
structure FirstBrokenBy (p : Entry.Proposal) (rule : EntryRule) : Prop where
  broken : rule.BrokenBy p
  first : ∀ other : EntryRule, other.rank < rule.rank → ¬ other.BrokenBy p

theorem eq_of_rank_eq (hrank : rule.rank = other.rank) (h : rule.BrokenBy p)
    (hother : other.BrokenBy p) : rule = other := by
  cases rule with
  | invalidName name =>
    cases other with
    | invalidName name' => exact congrArg invalidName (h.1.trans hother.1.symm)
    | _ => simp at hrank
  | _ => cases other <;> first | rfl | simp at hrank

/-- Two rules cannot both be the first. -/
theorem FirstBrokenBy.unique (h : FirstBrokenBy p rule) (hother : FirstBrokenBy p other) :
    rule = other := by
  rcases Nat.lt_trichotomy rule.rank other.rank with hlt | heq | hlt
  · exact absurd h.broken (hother.first rule hlt)
  · exact eq_of_rank_eq heq h.broken hother.broken
  · exact absurd hother.broken (h.first other hlt)

end EntryRule

namespace Entry

/-! ### The checks -/

/-- A name is refused because it is missing, or because it is not valid. -/
theorem checkedName_eq_error {name : String} {rule : EntryRule}
    (h : checkedName name = .error rule) :
    rule = .missingName ∧ normalizeName name = "" ∨
      rule = .invalidName (normalizeName name) ∧ normalizeName name ≠ "" ∧
        isValidName (normalizeName name) = false := by
  unfold checkedName at h
  dsimp only at h
  split at h
  · rename_i hempty
    exact Or.inl ⟨(Except.error.inj h).symm, hempty⟩
  · rename_i hne
    split at h
    · cases h
    · rename_i hvalid
      exact Or.inr ⟨(Except.error.inj h).symm, hne, Bool.eq_false_iff.mpr hvalid⟩

/-- Lengths are refused in the order of the checks. -/
theorem checkLease_eq_error {ttl maxTtl : Int64} {rule : EntryRule}
    (h : checkLease ttl maxTtl = .error rule) :
    rule = .negativeTtl ∧ ttl < 0 ∨
      rule = .negativeMaxTtl ∧ ¬ ttl < 0 ∧ maxTtl < 0 ∨
      rule = .ttlAboveMaxTtl ∧ ¬ ttl < 0 ∧ ¬ maxTtl < 0 ∧ maxTtl ≠ 0 ∧ maxTtl < ttl := by
  unfold checkLease at h
  split at h
  · rename_i httl
    exact Or.inl ⟨(Except.error.inj h).symm, httl⟩
  · rename_i httl
    right
    split at h
    · rename_i hmax
      exact Or.inl ⟨(Except.error.inj h).symm, httl, hmax⟩
    · rename_i hmax
      right
      split at h
      · rename_i hcross
        exact ⟨(Except.error.inj h).symm, httl, hmax, hcross⟩
      · cases h

/-- A certificate is refused because nothing is read from it, or for its purposes. -/
theorem checkCertificate_eq_error {certificate : String} {rule : EntryRule}
    (h : checkCertificate certificate = .error rule) :
    rule = .unreadableCertificate ∧ Certificate.Profile.ofPem (.ofText certificate) = [] ∨
      rule = .missingClientAuth ∧ ∃ leaf rest,
        Certificate.Profile.ofPem (.ofText certificate) = leaf :: rest ∧
          leaf.allowsClientAuth = false := by
  unfold checkCertificate at h
  split at h
  · rename_i hprofiles
    exact Or.inl ⟨(Except.error.inj h).symm, hprofiles⟩
  · rename_i leaf rest hprofiles
    split at h
    · cases h
    · rename_i hallows
      exact Or.inr ⟨(Except.error.inj h).symm, leaf, rest, hprofiles,
        Bool.eq_false_iff.mpr hallows⟩

namespace Proposal

open EntryRule (BrokenBy FirstBrokenBy)

variable {p : Proposal} {e : Entry} {rule : EntryRule}

theorem not_above_iff {ttl maxTtl : Int64} :
    ¬ (maxTtl ≠ 0 ∧ maxTtl < ttl) ↔ maxTtl = 0 ∨ ttl ≤ maxTtl := by
  rw [not_and_or, not_not, Int64.not_lt]

/-! ### Acceptable proposals -/

/-- What a proposal must be like. -/
structure Acceptable (p : Proposal) : Prop where
  named : normalizeName p.name ≠ ""
  valid : isValidName (normalizeName p.name) = true
  ttl : 0 ≤ p.ttl
  maxTtl : 0 ≤ p.maxTtl
  lease : p.maxTtl = 0 ∨ p.ttl ≤ p.maxTtl
  readable : Certificate.Profile.ofPem (.ofText p.certificate) ≠ []
  clientAuth : ∀ leaf ∈ (Certificate.Profile.ofPem (.ofText p.certificate)).head?,
    leaf.allowsClientAuth = true

/-- A proposal is acceptable if it breaks no rule. -/
theorem acceptable_iff : Acceptable p ↔ ∀ rule : EntryRule, ¬ rule.BrokenBy p := by
  constructor
  · intro h rule hbroken
    cases rule with
    | missingName => exact h.named hbroken
    | invalidName name =>
      obtain ⟨rfl, -, hinvalid⟩ := hbroken
      exact Bool.eq_false_iff.mp hinvalid h.valid
    | negativeTtl => exact Int64.not_lt.mpr h.ttl hbroken
    | negativeMaxTtl => exact Int64.not_lt.mpr h.maxTtl hbroken
    | ttlAboveMaxTtl => exact not_above_iff.mpr h.lease hbroken
    | unreadableCertificate => exact h.readable hbroken
    | missingClientAuth =>
      obtain ⟨leaf, rest, hprofiles, hallows⟩ := hbroken
      exact Bool.eq_false_iff.mp hallows (h.clientAuth leaf (by rw [hprofiles]; rfl))
  · intro h
    -- each conjunct is the denial of one rule
    have hnamed : normalizeName p.name ≠ "" := h .missingName
    refine ⟨hnamed, ?_, Int64.not_lt.mp (h .negativeTtl), Int64.not_lt.mp (h .negativeMaxTtl),
      not_above_iff.mp (h .ttlAboveMaxTtl), h .unreadableCertificate, ?_⟩
    · by_contra hinvalid
      exact h (.invalidName _) ⟨rfl, hnamed, Bool.eq_false_iff.mpr hinvalid⟩
    · intro leaf hleaf
      obtain ⟨rest, hprofiles⟩ := List.head?_eq_some_iff.mp hleaf
      by_contra hallows
      exact h .missingClientAuth ⟨leaf, rest, hprofiles, Bool.eq_false_iff.mpr hallows⟩

/-- An acceptable proposal passes each check. -/
theorem Acceptable.entry_eq (h : p.Acceptable) : p.entry = .ok p.canonical := by
  have hname : checkedName p.name = .ok (normalizeName p.name) :=
    checkedName_eq_ok_iff.mpr ⟨rfl, normalizeName_normalizeName p.name, h.valid⟩
  refine entry_of_checks hname (checkLease_of_le h.ttl h.maxTtl h.lease) ?_
  unfold checkCertificate
  split
  · rename_i hprofiles
    exact absurd hprofiles h.readable
  · rename_i leaf rest hprofiles
    exact if_pos (h.clientAuth leaf (by rw [hprofiles]; rfl))

/-- What passes each check is acceptable. -/
theorem acceptable_of_entry_eq_ok (h : p.entry = .ok e) : p.Acceptable := by
  obtain ⟨-, hname, hlease, hcert⟩ := checks_of_entry_eq_ok h
  have hvalid := (isNormal_of_checkedName hname).valid
  obtain ⟨httl, hmax, hcross⟩ := checkLease_eq_ok hlease
  obtain ⟨leaf, rest, hprofiles, hallows⟩ := checkCertificate_eq_ok hcert
  refine ⟨ne_empty_of_isValidName hvalid, hvalid, httl, hmax, hcross, ?_, ?_⟩
  · rw [hprofiles]
    exact List.cons_ne_nil leaf rest
  · intro leaf' hleaf
    rw [hprofiles] at hleaf
    obtain rfl := Option.some.inj hleaf
    exact hallows

/-- The entries of proposals are the canonical ones of those that keep all rules. -/
theorem entry_eq_ok_iff : p.entry = .ok e ↔ p.Acceptable ∧ e = p.canonical := by
  constructor
  · intro h
    exact ⟨acceptable_of_entry_eq_ok h, (checks_of_entry_eq_ok h).1⟩
  · rintro ⟨h, rfl⟩
    exact h.entry_eq

/-! ### The first rule that is broken -/

/-- Past the name no rule about it is broken. -/
theorem not_brokenBy_of_checkedName {n : String} (hname : checkedName p.name = .ok n)
    (h : rule.rank < 2) : ¬ rule.BrokenBy p := by
  obtain ⟨rfl, hnormal⟩ := checkedName_eq_ok_iff.mp hname
  cases rule with
  | missingName => exact ne_empty_of_isValidName hnormal.valid
  | invalidName name =>
    rintro ⟨rfl, -, hinvalid⟩
    exact Bool.eq_false_iff.mp hinvalid hnormal.valid
  | _ => simp at h

/-- Past the lengths no rule about them is broken. -/
theorem not_brokenBy_of_checkLease {n : String} (hname : checkedName p.name = .ok n)
    (hlease : checkLease p.ttl p.maxTtl = .ok ()) (h : rule.rank < 5) : ¬ rule.BrokenBy p := by
  obtain ⟨httl, hmax, hcross⟩ := checkLease_eq_ok hlease
  cases rule with
  | missingName | invalidName _ => exact not_brokenBy_of_checkedName hname (by simp)
  | negativeTtl => exact Int64.not_lt.mpr httl
  | negativeMaxTtl => exact Int64.not_lt.mpr hmax
  | ttlAboveMaxTtl => exact not_above_iff.mpr hcross
  | unreadableCertificate | missingClientAuth => simp at h

/-- A refused proposal is refused for the first rule that it breaks. -/
theorem firstBrokenBy_of_entry_eq_error (h : p.entry = .error rule) : FirstBrokenBy p rule := by
  unfold entry at h
  -- the checks before the one that fails have ruled out the earlier rules
  rcases bind_eq_error.mp h with hname | ⟨n, hname, h⟩
  · rcases checkedName_eq_error hname with ⟨rfl, hempty⟩ | ⟨rfl, hne, hinvalid⟩
    · exact ⟨hempty, fun other hlt => absurd hlt (Nat.not_lt_zero _)⟩
    · refine ⟨⟨rfl, hne, hinvalid⟩, fun other hlt => ?_⟩
      cases other with
      | missingName => exact hne
      | _ => simp at hlt
  rcases bind_eq_error.mp h with hlease | ⟨⟨⟩, hlease, h⟩
  · rcases checkLease_eq_error hlease with
      ⟨rfl, httl⟩ | ⟨rfl, httl, hmax⟩ | ⟨rfl, httl, hmax, hcross⟩
    · exact ⟨httl, fun other hlt => not_brokenBy_of_checkedName hname hlt⟩
    · refine ⟨hmax, fun other hlt => ?_⟩
      cases other with
      | missingName | invalidName _ => exact not_brokenBy_of_checkedName hname (by simp)
      | negativeTtl => exact httl
      | _ => simp at hlt
    · refine ⟨hcross, fun other hlt => ?_⟩
      cases other with
      | missingName | invalidName _ => exact not_brokenBy_of_checkedName hname (by simp)
      | negativeTtl => exact httl
      | negativeMaxTtl => exact hmax
      | _ => simp at hlt
  rcases bind_eq_error.mp h with hcert | ⟨⟨⟩, -, h⟩
  · rcases checkCertificate_eq_error hcert with ⟨rfl, hprofiles⟩ | ⟨rfl, hrefused⟩
    · exact ⟨hprofiles, fun other hlt => not_brokenBy_of_checkLease hname hlease hlt⟩
    · refine ⟨hrefused, fun other hlt => ?_⟩
      obtain ⟨leaf, rest, hprofiles, -⟩ := hrefused
      cases other with
      | unreadableCertificate =>
        intro hnone
        rw [BrokenBy, hprofiles] at hnone
        cases hnone
      | missingClientAuth => simp at hlt
      | _ => exact not_brokenBy_of_checkLease hname hlease (by simp)
  · cases h

/-- The proposal is refused for the first rule that it breaks, and for no other. -/
theorem entry_eq_error_iff : p.entry = .error rule ↔ FirstBrokenBy p rule := by
  constructor
  · exact firstBrokenBy_of_entry_eq_error
  · intro h
    rcases hentry : p.entry with other | e
    · exact congrArg Except.error ((firstBrokenBy_of_entry_eq_error hentry).unique h)
    -- an accepted proposal breaks no rule at all
    · have hacceptable := acceptable_of_entry_eq_ok hentry
      exact absurd h.broken (acceptable_iff.mp hacceptable rule)

end Proposal

end Entry

end TrustStore

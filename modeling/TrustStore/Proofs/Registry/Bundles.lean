import TrustStore.Proofs.Pem.Grammar
import TrustStore.Proofs.Registry.Writes

/-!
# Bundles of certificates

The profiles of a bundle are those of its parts, one part after the other, up to the first malformed
part.  So only the first certificate of a bundle decides whether it is accepted, and nothing that
follows a certificate in the bundle makes a write refuse it (`bundles_are_compositional`).
-/

namespace TrustStore

/-! ### Profiles of joined texts -/

namespace Certificate.Profile

open Pem (EndsLine Written Malformed scan lines)

/-- The block yields no profile: its label is another one, its content is not a certificate, or an
extension of the certificate keeps it from being read. -/
def Skipped (block : Pem.Block) : Prop :=
  block.label ∉ labels ∨ Body.ofBytes? block.content = none ∨
    ∃ body, Body.ofBytes? block.content = some body ∧ ofBody? body = none

/-- A skipped block has no profile. -/
theorem Skipped.ofBlock? {block : Pem.Block} (h : Skipped block) : ofBlock? block = none := by
  rw [Profile.ofBlock?]
  split
  · rename_i hlabel
    rcases h with hother | hcontent | ⟨body, hcontent, hbody⟩
    · exact absurd hlabel hother
    · rw [hcontent]
      rfl
    · rw [hcontent]
      exact hbody
  · rfl

variable {a : Bytes} (ha : EndsLine a)

include ha

/-- More text after the end of a line takes no profile away. -/
theorem ofPem_prefix (b : Bytes) : ofPem a <+: ofPem (a ++ b) :=
  (Pem.blocks_prefix ha b).filterMap ofBlock?

section Clean

variable (hclean : (scan a).clean = true)

include hclean

/-- After a clean end the profiles of what follows come after those before. -/
theorem ofPem_append (b : Bytes) : ofPem (a ++ b) = ofPem a ++ ofPem b := by
  rw [ofPem, Pem.scan_append ha hclean]
  exact List.filterMap_append

/-- Blocks without a profile, and text between them, may be inserted wherever no block is open. -/
theorem ofPem_insert {c : Bytes} {blocks : List Pem.Block} (hc : EndsLine c)
    (hwritten : Written (lines c) blocks) (hskipped : ∀ block ∈ blocks, Skipped block)
    (b : Bytes) : ofPem (a ++ (c ++ b)) = ofPem (a ++ b) := by
  have hscan := Pem.scan_of_written hwritten
  have hnone : ofPem c = [] := by
    rw [ofPem, hscan]
    exact List.filterMap_eq_nil_iff.mpr fun block hblock => (hskipped block hblock).ofBlock?
  -- the inserted part is read through to its end, so what follows it is read as before
  have hcb : ofPem (c ++ b) = ofPem b := by
    rw [ofPem_append hc (congrArg Pem.Scan.clean hscan), hnone, List.nil_append]
  rw [ofPem_append ha hclean, ofPem_append ha hclean, hcb]

/-- Nothing is read past a malformed part. -/
theorem ofPem_append_malformed {m : Bytes} (hm : EndsLine m) (hmalformed : Malformed (lines m))
    (b : Bytes) : ofPem (a ++ (m ++ b)) = ofPem a := by
  rw [ofPem, Pem.scan_append_malformed ha hclean hm hmalformed, ofPem]

end Clean

end Certificate.Profile

/-! ### Longer bundles -/

/-- The proposal with more text after its certificate. -/
def Entry.Proposal.extend (p : Entry.Proposal) (more : String) : Entry.Proposal :=
  { p with certificate := p.certificate ++ more }

namespace Registry

open Certificate.Profile (ofPem Skipped)
open Entry.Proposal (Acceptable)
open Pem (EndsLine Written Malformed scan lines)

/-- The first certificate stays the first one, and it is the one that counts. -/
theorem acceptable_extend {p : Entry.Proposal} (h : Acceptable p)
    (hend : EndsLine (.ofText p.certificate)) (more : String) : Acceptable (p.extend more) := by
  obtain ⟨leaf, others, hprofiles⟩ := List.exists_cons_of_ne_nil h.readable
  obtain ⟨rest, hrest⟩ := Certificate.Profile.ofPem_prefix hend (.ofText more)
  have hlonger : ofPem (.ofText (p.certificate ++ more)) = leaf :: (others ++ rest) := by
    rw [Bytes.ofText_append, ← hrest, hprofiles, List.cons_append]
  -- only the certificate is longer; the other rules are kept as they were
  refine ⟨h.named, h.valid, h.ttl, h.maxTtl, h.lease, ?_, fun other hother => ?_⟩
  · exact fun hnil => List.cons_ne_nil _ _ (hlonger.symm.trans hnil)
  · have hhead : (ofPem (.ofText (p.certificate ++ more))).head?
        = (ofPem (.ofText p.certificate)).head? := by
      rw [hlonger, hprofiles]
      rfl
    exact h.clientAuth other (hhead ▸ hother)

/-- A bundle yields the profiles of what is written in it, block by block, up to its first malformed
part; so what follows in a longer bundle can add profiles, but neither take any away nor change them,
and a write that accepts a bundle accepts every longer one, with the same warnings. -/
theorem bundles_are_compositional :
    (∀ a blocks, scan a = ⟨blocks, true⟩ ↔ Written (lines a) blocks) ∧
      (∀ a, EndsLine a → (∀ b, ofPem a <+: ofPem (a ++ b)) ∧ ((scan a).clean = true →
        (∀ b, ofPem (a ++ b) = ofPem a ++ ofPem b) ∧
        (∀ c blocks, EndsLine c → Written (lines c) blocks → (∀ block ∈ blocks, Skipped block) →
          ∀ b, ofPem (a ++ (c ++ b)) = ofPem (a ++ b)) ∧
        ∀ m, EndsLine m → Malformed (lines m) → ∀ b, ofPem (a ++ (m ++ b)) = ofPem a)) ∧
      ∀ (p : Entry.Proposal) (e : Entry) (more : String), EndsLine (.ofText p.certificate) →
        p.entry = .ok e →
        (p.extend more).entry = .ok { e with certificate := p.certificate ++ more } ∧
        ∀ (c : Lease.Ceilings) (t : KeyTable), ∃ warnings,
          (write ⟨KeyTable.storage, c⟩ p).run t
            = (.ok warnings, t.insert (keyOf e.name) e.record) ∧
          (write ⟨KeyTable.storage, c⟩ (p.extend more)).run t
            = (.ok warnings, t.insert (keyOf e.name)
              { e with certificate := p.certificate ++ more }.record) := by
  refine ⟨fun _ _ => Pem.scan_eq_iff, fun a ha => ⟨Certificate.Profile.ofPem_prefix ha, fun hclean =>
    ⟨Certificate.Profile.ofPem_append ha hclean,
      fun c blocks hc => Certificate.Profile.ofPem_insert ha hclean hc,
      fun m => Certificate.Profile.ofPem_append_malformed ha hclean⟩⟩, ?_⟩
  intro p e more hend hentry
  -- both writes are accepted, and their warnings depend on the lengths alone
  obtain ⟨hacceptable, rfl⟩ := Entry.Proposal.entry_eq_ok_iff.mp hentry
  have hlonger := acceptable_extend hacceptable hend more
  exact ⟨hlonger.entry_eq, fun c t =>
    ⟨c.warnings p.ttl p.maxTtl, write_of_acceptable hacceptable, write_of_acceptable hlonger⟩⟩

/-- A block with a certificate's label and three zero bytes in it. -/
def bogusBlock : Bytes :=
  .ofText "-----BEGIN CERTIFICATE-----\nAAAA\n-----END CERTIFICATE-----\n"

theorem web_bundle_may_grow :
    (∀ b, ofPem (.ofText Entry.Proposal.acceptable.certificate ++ b)
      = ofPem (.ofText Entry.Proposal.acceptable.certificate) ++ ofPem b) ∧
      (∀ b, ofPem (.ofText Entry.Proposal.acceptable.certificate ++ (bogusBlock ++ b))
        = ofPem (.ofText Entry.Proposal.acceptable.certificate ++ b)) ∧
      (∀ b, ofPem (.ofText Entry.Proposal.acceptable.certificate
          ++ (.ofText "-----BEGIN CERTIFICATE\n" ++ b))
        = ofPem (.ofText Entry.Proposal.acceptable.certificate)) ∧
      ∀ more, Acceptable (Entry.Proposal.acceptable.extend more) := by
  obtain ⟨hwritten, hbundles, hwrites⟩ := bundles_are_compositional
  have hend : EndsLine (.ofText Entry.Proposal.acceptable.certificate) := by
    decide +kernel
  have hclean : (scan (.ofText Entry.Proposal.acceptable.certificate)).clean = true := by
    decide +kernel
  obtain ⟨-, hparts⟩ := hbundles _ hend
  obtain ⟨happend, hinsert, hmalformed⟩ := hparts hclean
  have hbogus : Written (lines bogusBlock) [⟨"CERTIFICATE", [0, 0, 0]⟩] :=
    (hwritten _ _).mp (by decide +kernel)
  refine ⟨happend, hinsert bogusBlock _ (by decide +kernel) hbogus ?_,
    hmalformed _ (by decide +kernel) ?_, fun more => ?_⟩
  · intro block hblock
    obtain rfl := List.mem_singleton.mp hblock
    exact Or.inr (Or.inl (by decide +kernel))
  · have hlines : lines (.ofText "-----BEGIN CERTIFICATE\n")
        = [Bytes.ofChars (Pem.beginMark ++ "CERTIFICATE".toList)] := by
      decide +kernel
    rw [hlines]
    exact .header (by decide +kernel) []
  · exact Entry.Proposal.acceptable_of_entry_eq_ok
      (hwrites _ _ more hend Entry.Proposal.entry_acceptable).1

end Registry

end TrustStore

import TrustStore.Proofs.Entry.Rules
import TrustStore.Proofs.Registry.Excess
import TrustStore.Storage.KeyTable

/-!
# Outcomes of writes

On a table the outcome of a write is settled by the proposal and the ceilings.  An acceptable
proposal is stored as its canonical entry, with a warning for each length above its ceiling; any
other one is refused for the first rule that it breaks, and leaves the table alone.  The ceilings
have no part in which of the two happens (`write_outcome`).
-/

namespace TrustStore.Registry

open Entry.Proposal (Acceptable)
open EntryRule (FirstBrokenBy)

variable {c : Lease.Ceilings} {p : Entry.Proposal} {t : KeyTable} {rule : EntryRule}

/-- A proposal that keeps all rules is stored in canonical form. -/
theorem write_of_acceptable (h : Acceptable p) :
    (write ⟨KeyTable.storage, c⟩ p).run t
      = (.ok (c.warnings p.ttl p.maxTtl),
        t.insert (keyOf p.canonical.name) p.canonical.record) :=
  write_run h.entry_eq t

/-- A proposal that breaks one is refused for the first, and nothing is stored. -/
theorem write_of_firstBrokenBy (h : FirstBrokenBy p rule) :
    (write ⟨KeyTable.storage, c⟩ p).run t = (.error (.argument rule), t) := by
  rw [write, Entry.Proposal.entry_eq_error_iff.mpr h]
  rfl

/-- A proposal that is not acceptable breaks a rule first. -/
theorem exists_firstBrokenBy (h : ¬ Acceptable p) : ∃ rule, FirstBrokenBy p rule := by
  rcases hentry : p.entry with rule | e
  · exact ⟨rule, Entry.Proposal.entry_eq_error_iff.mp hentry⟩
  · exact absurd (Entry.Proposal.acceptable_of_entry_eq_ok hentry) h

/-- A write succeeds exactly for acceptable proposals.  These are stored, and answered with the
texts for what lies above the ceilings; every other proposal is refused for the first rule that it
breaks, and nothing is stored. -/
theorem write_outcome (c : Lease.Ceilings) (p : Entry.Proposal) (t : KeyTable) :
    ((∃ warnings next, (write ⟨KeyTable.storage, c⟩ p).run t = (.ok warnings, next)) ↔
      Acceptable p) ∧
    (Acceptable p → ∃ warnings, warnings.map Lease.Warning.text = c.excessTexts p.ttl p.maxTtl ∧
      (write ⟨KeyTable.storage, c⟩ p).run t
        = (.ok warnings, t.insert (keyOf p.canonical.name) p.canonical.record)) ∧
    (¬ Acceptable p → ∃ rule, FirstBrokenBy p rule) ∧
    ∀ rule, (write ⟨KeyTable.storage, c⟩ p).run t = (.error (.argument rule), t) ↔
      FirstBrokenBy p rule := by
  refine ⟨⟨?_, fun h => ⟨_, _, write_of_acceptable h⟩⟩, ?_, exists_firstBrokenBy, fun rule =>
    ⟨?_, write_of_firstBrokenBy⟩⟩
  · rintro ⟨warnings, next, hwrite⟩
    obtain ⟨e, hentry, -⟩ := write_eq_ok hwrite
    exact Entry.Proposal.acceptable_of_entry_eq_ok hentry
  · intro h
    exact ⟨_, c.texts_warnings p.ttl p.maxTtl, write_of_acceptable h⟩
  -- only the first rule that is broken is reported
  · intro hwrite
    by_cases h : Acceptable p
    · rw [write_of_acceptable h] at hwrite
      cases hwrite
    · obtain ⟨other, hother⟩ := exists_firstBrokenBy h
      rw [write_of_firstBrokenBy hother] at hwrite
      cases hwrite
      exact hother

/-- A minute is stored where half a minute is usual, but not without a warning. -/
theorem minute_is_stored_with_warning :
    Acceptable .acceptable ∧ ∃ warnings, warnings.map Lease.Warning.text
        = ["Given ttl of 60 seconds is greater than current mount/system default of 30 seconds"] ∧
      (write ⟨KeyTable.storage, ⟨30, 0⟩⟩ .acceptable).run (∅ : KeyTable)
        = (.ok warnings, (∅ : KeyTable).insert (keyOf Entry.Proposal.acceptable.canonical.name)
          Entry.Proposal.acceptable.canonical.record) := by
  have hacceptable := Entry.Proposal.acceptable_of_entry_eq_ok Entry.Proposal.entry_acceptable
  obtain ⟨warnings, htexts, hwrite⟩ := (write_outcome ⟨30, 0⟩ .acceptable ∅).2.1 hacceptable
  have hexcess : Lease.Ceilings.excessTexts ⟨30, 0⟩ Entry.Proposal.acceptable.ttl
        Entry.Proposal.acceptable.maxTtl
      = ["Given ttl of 60 seconds is greater than current mount/system default of 30 seconds"] := by
    decide +kernel
  exact ⟨hacceptable, warnings, htexts.trans hexcess, hwrite⟩

end TrustStore.Registry

import TrustStore.Proofs.Registry.Spellings
import TrustStore.Proofs.Registry.Writes

/-!
# Policies as stored

The policies of a draft are resolved when a proposal is made of it, and once more when the proposal
is written.  The second time changes nothing: what is stored, and what a read then finds, are the
policies that the names of the draft stand for (`policies_are_stored_as_resolved`).
-/

namespace TrustStore

/-! ### Policies of proposals -/

namespace Entry

variable {d : Draft} {name : String} {p : Proposal}

/-- A proposal takes the policies of its draft, resolved. -/
theorem policies_of_proposal_eq_ok (h : d.proposal name = .ok p) :
    p.name = name ∧ p.policies = d.policies.resolve := by
  unfold Draft.proposal at h
  obtain ⟨ttl, -, h⟩ := bind_eq_ok.mp h
  obtain ⟨maxTtl, -, h⟩ := bind_eq_ok.mp h
  cases h
  exact ⟨rfl, rfl⟩

/-- Resolving again leaves the policies of a draft as they are. -/
theorem policies_canonical_of_proposal (h : d.proposal name = .ok p) :
    p.canonical.policies = d.policies.resolve := by
  show Policies.resolve p.policies = _
  rw [(policies_of_proposal_eq_ok h).2]
  exact Policies.resolve_resolve d.policies.names

end Entry

namespace Registry

open Policies (normalize resolve)

/-- On a table, the entry of an accepted proposal is what a read under its name finds. -/
theorem read_after_write {p : Entry.Proposal} (h : p.Acceptable) (c c' : Lease.Ceilings)
    (t : KeyTable) :
    (Step.perform KeyTable.storage ⟨c', .read p.name⟩
      (run KeyTable.storage [⟨c, .write p⟩] t).2).1 = .ok (.found (some p.canonical)) := by
  obtain ⟨-, hname, -, -⟩ := Entry.Proposal.checks_of_entry_eq_ok h.entry_eq
  rw [run_singleton, perform_write_keyTable h.entry_eq]
  exact perform_read_insert hname

/-- A list of names is resolved to `root` alone if one of them means it, and else to the ascending
list of the names that are meant.  Only which names are meant counts, not their order and number, and
resolving again changes nothing; so what a write stores are the policies of the draft. -/
theorem policies_are_stored_as_resolved :
    (∀ names : List String,
      ((∃ name ∈ names, normalize name = Policies.root) → resolve names = [Policies.root]) ∧
      ((∀ name ∈ names, normalize name ≠ Policies.root) → (resolve names).Pairwise (· < ·) ∧
        ∀ p, p ∈ resolve names ↔ p ≠ "" ∧ ∃ name ∈ names, normalize name = p)) ∧
      (∀ names names' : List String, (∀ name, name ∈ names ↔ name ∈ names') →
        resolve names = resolve names') ∧
      (∀ names, resolve (resolve names) = resolve names) ∧
      ∀ (d : Entry.Draft) (name : String) (p : Entry.Proposal), d.proposal name = .ok p →
        (∀ {σ : Type} (registry : Registry (StateM σ)) (state next : σ) (warnings),
          (registry.write p).run state = (.ok warnings, next) →
          ∃ e, (registry.storage.put (keyOf e.name) e.record).run state = (.ok (), next) ∧
            Entry.ofRecord e.record = .ok e ∧ e.policies = d.policies.resolve) ∧
        (p.Acceptable → ∀ (c c' : Lease.Ceilings) (t : KeyTable),
          ∃ e, (Step.perform KeyTable.storage ⟨c', .read name⟩
              (run KeyTable.storage [⟨c, .write p⟩] t).2).1 = .ok (.found (some e)) ∧
            e.policies = d.policies.resolve) := by
  refine ⟨fun names => ⟨(Policies.resolve_resolved names).root, fun h => ?_⟩,
    fun _ _ => Policies.resolve_of_mem_iff, Policies.resolve_resolve,
    fun d name p hp => ⟨?_, fun h c c' t => ?_⟩⟩
  -- no name means root, so all that are meant are kept
  · have hroot : ¬ ∃ name ∈ names, normalize name = Policies.root := by
      rintro ⟨name, hname, heq⟩
      exact h name hname heq
    have hresolved := Policies.resolve_resolved names
    exact ⟨hresolved.ascending, hresolved.members hroot⟩
  -- over any storage the record that is put has them
  · intro σ registry state next warnings hwrite
    obtain ⟨e, hentry, -, hput⟩ := write_eq_ok hwrite
    obtain ⟨rfl, -⟩ := Entry.Proposal.checks_of_entry_eq_ok hentry
    exact ⟨_, hput, Entry.ofRecord_record _, Entry.policies_canonical_of_proposal hp⟩
  -- on a table they are read back from it
  · obtain ⟨rfl, -⟩ := Entry.policies_of_proposal_eq_ok hp
    exact ⟨_, read_after_write h c c' t, Entry.policies_canonical_of_proposal hp⟩

/-- A draft whose policies are stated in one text, with `root` in capitals among them. -/
def webDraft : Entry.Draft where
  certificate := Entry.Proposal.acceptable.certificate
  displayName := ""
  policies := .delimited "dev,ROOT ,ops"
  ttl := .seconds 60
  maxTtl := .zero

theorem web_has_root_alone :
    resolve ["dev", "ROOT ", "ops"] = ["root"] ∧
      ∃ p, webDraft.proposal "Web" = .ok p ∧ p.Acceptable ∧
        ∃ e, (Step.perform KeyTable.storage ⟨⟨0, 0⟩, .read "Web"⟩
            (run KeyTable.storage [⟨⟨0, 0⟩, .write p⟩] ∅).2).1 = .ok (.found (some e)) ∧
          e.policies = ["root"] := by
  obtain ⟨hnames, -, -, hstored⟩ := policies_are_stored_as_resolved
  have hroot : resolve ["dev", "ROOT ", "ops"] = ["root"] :=
    (hnames _).1 ⟨"ROOT ", by decide, by decide +kernel⟩
  have hp : webDraft.proposal "Web"
      = .ok { Entry.Proposal.acceptable with policies := ["root"] } := by
    decide +kernel
  have hacceptable : Entry.Proposal.Acceptable
      { Entry.Proposal.acceptable with policies := ["root"] } := by
    obtain ⟨-, hname, hlease, hcert⟩ :=
      Entry.Proposal.checks_of_entry_eq_ok Entry.Proposal.entry_acceptable
    exact Entry.Proposal.acceptable_of_entry_eq_ok
      (Entry.Proposal.entry_of_checks hname hlease hcert)
  obtain ⟨e, hread, hpolicies⟩ := (hstored webDraft "Web" _ hp).2 hacceptable ⟨0, 0⟩ ⟨0, 0⟩ ∅
  exact ⟨hroot, _, hp, hacceptable, e, hread, hpolicies.trans hroot⟩

end Registry

end TrustStore

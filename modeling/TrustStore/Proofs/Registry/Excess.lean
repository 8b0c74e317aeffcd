import TrustStore.Proofs.Entry.Record
import TrustStore.Proofs.Registry.Run
import TrustStore.Proofs.Settings

/-!
# Leases beyond the ceilings

A write that exceeds a ceiling is accepted, but never silently: what is stored without a warning
lies within the ceilings of the settings.  The usual length is compared with the lower ceiling
alone; that it stays below the other one too is owed to the order that settings keep.
-/

namespace TrustStore.Registry

variable {σ : Type}

/-- A write of an accepted proposal stores its entry, and is answered with the warnings. -/
theorem write_run {registry : Registry (StateM σ)} {p : Entry.Proposal} {e : Entry}
    (h : p.entry = .ok e) (state : σ) :
    (registry.write p).run state
      = (((registry.storage.put (keyOf e.name) e.record).run state).1.map
          fun _ => registry.ceilings.warnings p.ttl p.maxTtl,
        ((registry.storage.put (keyOf e.name) e.record).run state).2) := by
  rw [write, h]
  show ((fun _ => registry.ceilings.warnings p.ttl p.maxTtl)
    <$> registry.storage.put (keyOf e.name) e.record).run state = _
  exact map_run _ _ state

/-- A write that succeeds has stored the entry of its proposal, and gives the warnings for its
lengths. -/
theorem write_eq_ok {registry : Registry (StateM σ)} {p : Entry.Proposal}
    {warnings : List Lease.Warning} {state next : σ}
    (h : (registry.write p).run state = (.ok warnings, next)) :
    ∃ e, p.entry = .ok e ∧ warnings = registry.ceilings.warnings p.ttl p.maxTtl ∧
      (registry.storage.put (keyOf e.name) e.record).run state = (.ok (), next) := by
  rcases hentry : p.entry with rule | e
  · rw [write, hentry] at h
    cases h
  · rw [write_run hentry] at h
    obtain ⟨houtcome, hnext⟩ := Prod.mk.inj h
    obtain ⟨⟨⟩, hput, hwarnings⟩ := map_eq_ok.mp houtcome
    exact ⟨e, rfl, hwarnings.symm, Prod.ext hput hnext⟩

/-- The entry of a proposal without warnings lies within the ceilings. -/
theorem within_of_warnings_eq_nil {c : Lease.Ceilings} {p : Entry.Proposal} {e : Entry}
    (h : p.entry = .ok e) (hwarnings : c.warnings p.ttl p.maxTtl = []) :
    e.ttl ≤ c.defaultTtl ∧ e.maxTtl ≤ c.maxTtl := by
  obtain ⟨rfl, -, hlease, -⟩ := Entry.Proposal.checks_of_entry_eq_ok h
  obtain ⟨httl, hmax, -⟩ := Entry.checkLease_eq_ok hlease
  obtain ⟨hdefault, hgreatest⟩ := Lease.Ceilings.warnings_eq_nil_iff.mp hwarnings
  exact ⟨(Lease.toUInt64_le_iff httl).mpr hdefault, (Lease.toUInt64_le_iff hmax).mpr hgreatest⟩

/-- A lookup gives the settings that it stands for or is refused for its variables, and what is
written under settings without a warning lies within their ceilings, the lower one first. -/
theorem no_silent_excess (lookup : String → Option String) :
    (∀ s, Settings.ofVariables lookup = .ok s ↔ Settings.Accepts lookup s) ∧
      ((∀ s, ¬ Settings.Accepts lookup s) →
        ∃ cause, Settings.ofVariables lookup = .error (.settings cause) ∧
          Settings.Refuses lookup cause) ∧
      ∀ s, Settings.ofVariables lookup = .ok s →
        ∀ {σ : Type} (storage : Storage (StateM σ)) (p : Entry.Proposal) (state next : σ),
          (Registry.write ⟨storage, s.ceilings⟩ p).run state = (.ok [], next) →
          ∃ e, (storage.put (keyOf e.name) e.record).run state = (.ok (), next) ∧
            Entry.ofRecord e.record = .ok e ∧ e = p.canonical ∧
            e.ttl ≤ s.ceilings.defaultTtl ∧ e.ttl ≤ s.ceilings.maxTtl ∧
            (e.maxTtl = 0 ∨ e.maxTtl ≤ s.ceilings.maxTtl) := by
  refine ⟨fun s => Settings.ofVariables_eq_ok_iff, Settings.ofVariables_of_not_accepts, ?_⟩
  intro s hs σ storage p state next hwrite
  obtain ⟨e, hentry, hwarnings, hput⟩ := write_eq_ok hwrite
  -- no warning means no length beyond its ceiling, and the settings order the ceilings
  obtain ⟨httl, hmax⟩ := within_of_warnings_eq_nil hentry hwarnings.symm
  have hordered := (Settings.ofVariables_eq_ok_iff.mp hs).ordered
  exact ⟨e, hput, Entry.ofRecord_record e, (Entry.Proposal.entry_eq_ok hentry).1, httl,
    UInt64.le_trans httl hordered, Or.inr hmax⟩

/-- The variables of a registry whose usual lease is at most an hour. -/
def hourVariables (name : String) : Option String :=
  if name = Settings.defaultTtlVariable then some "1h" else none

/-- A write without warnings, under a default lifetime of an hour. -/
theorem web_is_within_an_hour :
    Settings.ofVariables hourVariables = .ok ⟨⟨3600, 2764800⟩, "./cert-auth-data"⟩ ∧
      ((Registry.write ⟨KeyTable.storage, ⟨3600, 2764800⟩⟩ .acceptable).run (∅ : KeyTable)).1
        = .ok [] ∧
      Entry.Proposal.acceptable.canonical.ttl ≤ 3600 := by
  have hsettings : Settings.ofVariables hourVariables
      = .ok ⟨⟨3600, 2764800⟩, "./cert-auth-data"⟩ := by
    decide +kernel
  obtain ⟨next, hwrite⟩ : ∃ next, (Registry.write ⟨KeyTable.storage, ⟨3600, 2764800⟩⟩
      .acceptable).run (∅ : KeyTable) = (.ok [], next) :=
    ⟨_, write_run Entry.Proposal.entry_acceptable ∅⟩
  obtain ⟨_, -, -, rfl, httl, -⟩ :=
    (no_silent_excess hourVariables).2.2 _ hsettings KeyTable.storage .acceptable ∅ _ hwrite
  exact ⟨hsettings, congrArg Prod.fst hwrite, httl⟩

end TrustStore.Registry

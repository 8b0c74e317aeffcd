import TrustStore.Proofs.Chain
import TrustStore.Proofs.Lease.Ceilings
import TrustStore.Settings

/-!
# What the variables give

A variable states a ceiling if it is not set, or if its text is a duration that is not negative.
`Accepts` says which settings a lookup stands for: both ceilings are stated, and they do not cross.
The settings are read exactly where there are such (`ofVariables_eq_ok_iff`); every other lookup is
refused for one of the causes of `Refuses`, and for no other fault (`ofVariables_eq_error`).
-/

namespace TrustStore.Settings

variable {lookup : String → Option String} {name : String} {default : UInt64}

/-- The ceiling that a variable stands for: the seconds of its text, or the default. -/
inductive States (lookup : String → Option String) (name : String) (default : UInt64) :
    UInt64 → Prop
  | text {s : String} {n : Int64} {seconds : UInt64} : lookup name = some s →
      Lease.parseDuration s = .ok n → n.toInt = seconds.toNat → States lookup name default seconds
  | unset : lookup name = none → States lookup name default default

/-- The settings that a lookup stands for. -/
structure Accepts (lookup : String → Option String) (s : Settings) : Prop where
  defaultTtl : States lookup defaultTtlVariable 2764800 s.ceilings.defaultTtl
  maxTtl : States lookup maxTtlVariable 2764800 s.ceilings.maxTtl
  ordered : s.ceilings.defaultTtl ≤ s.ceilings.maxTtl
  storagePath : s.storagePath = (lookup storagePathVariable).getD "./cert-auth-data"

/-- What a lookup may be refused for. -/
inductive Refuses (lookup : String → Option String) : SettingsError → Prop
  | invalid {name s : String} {cause : Lease.DurationError} :
      name ∈ [defaultTtlVariable, maxTtlVariable] → lookup name = some s →
      Lease.parseDuration s = .error cause → Refuses lookup (.invalid name (.duration cause))
  | negative {name s : String} {n : Int64} :
      name ∈ [defaultTtlVariable, maxTtlVariable] → lookup name = some s →
      Lease.parseDuration s = .ok n → n < 0 → Refuses lookup (.negative name)
  | crossed {defaultTtl maxTtl : UInt64} : States lookup defaultTtlVariable 2764800 defaultTtl →
      States lookup maxTtlVariable 2764800 maxTtl → maxTtl < defaultTtl →
      Refuses lookup (.crossedCeilings defaultTtl maxTtl)

/-! ### One ceiling -/

/-- The ceilings that are read are those that a variable states. -/
theorem ceilingOr_eq_ok_iff {seconds : UInt64} :
    ceilingOr lookup name default = .ok seconds ↔ States lookup name default seconds := by
  constructor
  · intro h
    unfold ceilingOr at h
    split at h
    · rename_i s hs
      unfold ceilingOf at h
      split at h
      · cases h
      · rename_i n hn
        split at h
        · cases h
        · rename_i hneg
          cases h
          exact .text hs hn (Lease.toNat_toUInt64 (Int64.not_lt.mp hneg)).symm
    · rename_i hs
      cases h
      exact .unset hs
  · intro h
    rcases h with @⟨s, n, seconds, hs, hn, hseconds⟩ | hs
    -- a count of seconds is not negative, and a word holds it
    · have hneg : ¬ n < 0 := by
        rw [Int64.lt_iff_toInt_lt, hseconds]
        exact Int.not_lt.mpr (Int.natCast_nonneg _)
      have hword : n.toUInt64 = seconds := by
        refine UInt64.toNat_inj.mp (Int.ofNat.inj ?_)
        exact (Lease.toNat_toUInt64 (Int64.not_lt.mp hneg)).trans hseconds
      simp only [ceilingOr, hs, ceilingOf, hn, if_neg hneg, hword]
    · simp only [ceilingOr, hs]

/-- A ceiling is refused for its own variable. -/
theorem ceilingOr_eq_error (hname : name ∈ [defaultTtlVariable, maxTtlVariable]) {e : Fault}
    (h : ceilingOr lookup name default = .error e) :
    ∃ cause, e = .settings cause ∧ Refuses lookup cause := by
  unfold ceilingOr at h
  split at h
  · rename_i s hs
    unfold ceilingOf at h
    split at h
    · rename_i cause hcause
      cases h
      exact ⟨_, rfl, .invalid hname hs hcause⟩
    · rename_i n hn
      split at h
      -- the one length that reads well and is refused is a negative one
      · rename_i hneg
        cases h
        exact ⟨_, rfl, .negative hname hs hn hneg⟩
      · cases h
  · cases h

/-! ### The settings -/

/-- Settings are accepted if the default lifetime is within the ceiling. -/
theorem check_eq_ok_iff {s : Settings} :
    s.check = .ok () ↔ s.ceilings.defaultTtl ≤ s.ceilings.maxTtl := by
  rw [← UInt64.not_lt]
  unfold check
  split
  · rename_i h
    exact iff_of_false nofun (not_not_intro h)
  · rename_i h
    exact iff_of_true rfl h

/-- Otherwise the fault gives both. -/
theorem check_eq_error_iff {s : Settings} {e : Fault} :
    s.check = .error e ↔ s.ceilings.maxTtl < s.ceilings.defaultTtl ∧
      e = .settings (.crossedCeilings s.ceilings.defaultTtl s.ceilings.maxTtl) := by
  unfold check
  split
  · rename_i h
    exact ⟨fun he => ⟨h, (Except.error.inj he).symm⟩, fun he => congrArg Except.error he.2.symm⟩
  · rename_i h
    exact iff_of_false nofun fun he => h he.1

/-- The lookup gives the settings that it stands for, and no others. -/
theorem ofVariables_eq_ok_iff {s : Settings} : ofVariables lookup = .ok s ↔ Accepts lookup s := by
  constructor
  · intro h
    unfold ofVariables at h
    -- both lengths are read before they are compared
    obtain ⟨defaultTtl, hdefault, h⟩ := bind_eq_ok.mp h
    obtain ⟨maxTtl, hmax, h⟩ := bind_eq_ok.mp h
    obtain ⟨⟨⟩, hcheck, h⟩ := bind_eq_ok.mp h
    cases h
    exact ⟨ceilingOr_eq_ok_iff.mp hdefault, ceilingOr_eq_ok_iff.mp hmax,
      check_eq_ok_iff.mp hcheck, rfl⟩
  · intro h
    obtain ⟨⟨defaultTtl, maxTtl⟩, path⟩ := s
    obtain ⟨hdefault, hmax, hordered, hpath⟩ := h
    obtain rfl : path = _ := hpath
    unfold ofVariables
    refine bind_eq_ok.mpr ⟨defaultTtl, ceilingOr_eq_ok_iff.mpr hdefault, ?_⟩
    refine bind_eq_ok.mpr ⟨maxTtl, ceilingOr_eq_ok_iff.mpr hmax, ?_⟩
    exact bind_eq_ok.mpr ⟨(), check_eq_ok_iff.mpr hordered, rfl⟩

/-- Where no settings are read, the lookup gives cause for it. -/
theorem ofVariables_eq_error {e : Fault} (h : ofVariables lookup = .error e) :
    ∃ cause, e = .settings cause ∧ Refuses lookup cause := by
  unfold ofVariables at h
  rcases bind_eq_error.mp h with hdefault | ⟨defaultTtl, hdefault, h⟩
  · exact ceilingOr_eq_error (by simp) hdefault
  rcases bind_eq_error.mp h with hmax | ⟨maxTtl, hmax, h⟩
  · exact ceilingOr_eq_error (by simp) hmax
  -- both ceilings are stated, so they cross
  rcases bind_eq_error.mp h with hcheck | ⟨⟨⟩, -, h⟩
  · obtain ⟨hlt, rfl⟩ := check_eq_error_iff.mp hcheck
    exact ⟨_, rfl, .crossed (ceilingOr_eq_ok_iff.mp hdefault) (ceilingOr_eq_ok_iff.mp hmax) hlt⟩
  · cases h

/-- A lookup that stands for no settings is refused as such. -/
theorem ofVariables_of_not_accepts (h : ∀ s, ¬ Accepts lookup s) :
    ∃ cause, ofVariables lookup = .error (.settings cause) ∧ Refuses lookup cause := by
  rcases hresult : ofVariables lookup with e | s
  · obtain ⟨cause, rfl, hcause⟩ := ofVariables_eq_error hresult
    exact ⟨cause, rfl, hcause⟩
  · exact absurd (ofVariables_eq_ok_iff.mp hresult) (h s)

end TrustStore.Settings

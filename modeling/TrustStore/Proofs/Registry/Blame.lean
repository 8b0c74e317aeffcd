import TrustStore.Proofs.Registry.Run
import TrustStore.Storage.Directory

/-!
# Who is to blame

A call is refused for what its caller said before the storage is touched, and a storage never says
that its caller is at fault (`Storage.Blameless`).  So a call that fails with a refusal comes down
to that refusal, and the state has no say in it (`Access.eq_refuse_of_run`).
-/

namespace TrustStore

open Registry (IsRefusal)

variable {σ α β : Type}

/-! ### Programs -/

/-- Whatever the program fails with, its caller is not at fault. -/
def Blameless (x : ExceptT Fault (StateM σ) α) : Prop :=
  ∀ state e, (x.run state).1 = .error e → ¬ IsRefusal e

namespace Blameless

theorem pure (a : α) : Blameless (pure a : ExceptT Fault (StateM σ) α) := by
  intro state e h
  cases h

theorem throw {e : Fault} (he : ¬ IsRefusal e) :
    Blameless (throw e : ExceptT Fault (StateM σ) α) := by
  intro state e' h
  obtain rfl := Except.error.inj h
  exact he

theorem lift (x : StateM σ α) : Blameless (ExceptT.lift x : ExceptT Fault (StateM σ) α) := by
  intro state e h
  cases h

/-- Two blameless parts make a blameless whole. -/
theorem bind {x : ExceptT Fault (StateM σ) α} {f : α → ExceptT Fault (StateM σ) β}
    (hx : Blameless x) (hf : ∀ a, Blameless (f a)) : Blameless (x >>= f) := by
  intro state e h
  rw [ExceptT.run_bind] at h
  change (StateT.bind x.run _ state).1 = _ at h
  rw [StateT.bind] at h
  -- the first part fails, or the second runs from the state it leaves
  rcases hx' : x.run state with ⟨e' | a, next⟩
  · rw [hx'] at h
    obtain rfl := Except.error.inj h
    exact hx state e' (by rw [hx'])
  · rw [hx'] at h
    exact hf a next e h

theorem map {x : ExceptT Fault (StateM σ) α} (f : α → β) (hx : Blameless x) :
    Blameless (f <$> x) := by
  rw [map_eq_pure_bind]
  exact hx.bind fun a => pure (f a)

end Blameless

/-! ### Storages -/

namespace Storage

/-- A storage whose calls are blameless. -/
structure Blameless (s : Storage (StateM σ)) : Prop where
  get (key : String) : TrustStore.Blameless (s.get key)
  put (key : String) (value : Bytes) : TrustStore.Blameless (s.put key value)
  delete (key : String) : TrustStore.Blameless (s.delete key)
  list (above : String) : TrustStore.Blameless (s.list above)

/-- A table fails for nothing. -/
theorem blameless_keyTable : Blameless KeyTable.storage where
  get _ := fun _ _ h => nomatch h
  put _ _ := fun _ _ h => nomatch h
  delete _ := fun _ _ h => nomatch h
  list _ := fun _ _ h => nomatch h

/-- An outage is nobody's fault. -/
theorem Blameless.failing {s : Storage (StateM σ)} (h : s.Blameless) (reads writes : Bool) :
    (s.failing reads writes).Blameless := by
  have hdown {α : Type} : TrustStore.Blameless (unavailable : ExceptT Fault (StateM σ) α) :=
    .throw id
  constructor
  · intro key
    cases reads
    · exact h.get key
    · exact hdown
  · intro key value
    cases writes
    · exact h.put key value
    · exact hdown
  · intro key
    cases writes
    · exact h.delete key
    · exact hdown
  · intro above
    cases reads
    · exact h.list above
    · exact hdown

/-! ### Directories -/

namespace Directory

/-- The fault of a call is the file system's. -/
theorem blameless_call (c : StateM σ (Except FileError α)) : TrustStore.Blameless (call c) := by
  intro state e h
  have hrun : ((call c).run state).1 = (c state).1.mapError .file := by
    show ((Except.mapError Fault.file <$> c : StateM σ _) state).1 = _
    rfl
  rw [hrun] at h
  rcases hc : (c state).1 with e' | a
  · rw [hc] at h
    obtain rfl := Except.error.inj h
    exact id
  · rw [hc] at h
    cases h

/-- A missing file is no fault where there is a default. -/
theorem blameless_callOr (default : α) (c : StateM σ (Except FileError α)) :
    TrustStore.Blameless (callOr default c) := by
  refine (TrustStore.Blameless.lift c).bind fun outcome => ?_
  rcases outcome with e | a
  · cases e with
    | missing => exact .pure default
    | _ => exact .throw id
  · exact .pure a

/-- A key that is no path below the root is the fault of the storage. -/
theorem blameless_pathOf (root : Path) (key : String) :
    TrustStore.Blameless (liftM (pathOf root key) : ExceptT Fault (StateM σ) Path) := by
  unfold pathOf
  split
  · exact .pure _
  · exact .throw id

theorem blameless_listedPath (root : Path) (above : String) :
    TrustStore.Blameless (liftM (listedPath root above) : ExceptT Fault (StateM σ) Path) := by
  unfold listedPath
  split
  · exact .pure root
  · exact blameless_pathOf root _

/-- What saving a file fails with is the file system's fault. -/
theorem blameless_save (fs : FileSystem (StateM σ)) (key : String) (p : Path) (value : Bytes) :
    TrustStore.Blameless (save fs key p value) := by
  refine (blameless_call _).bind fun _ => ?_
  rcases p.fileName? with - | name
  · exact .throw id
  · refine (blameless_call _).bind fun _ => ?_
    exact (blameless_call _).bind fun _ => blameless_call _

end Directory

open Directory in
/-- Whatever the file system does, it is not the fault of who calls the storage. -/
theorem blameless_ofDirectory (fs : FileSystem (StateM σ)) (root : Path) :
    (ofDirectory fs root).Blameless where
  get key := (blameless_pathOf root key).bind fun _ => blameless_callOr none _
  put key value := (blameless_pathOf root key).bind fun p => blameless_save fs key p value
  delete key := (blameless_pathOf root key).bind fun _ => blameless_callOr () _
  list above := (blameless_listedPath root above).bind fun _ =>
    (blameless_callOr [] _).bind fun _ => .pure _

end Storage

/-! ### Accesses -/

namespace Registry.Access

variable {storage : Storage (StateM σ)}

/-- A record that does not decode is a fault of the storage. -/
theorem blameless_entryOf? (answer : Option Entry → α) (record : Option Bytes) :
    Blameless (ExceptT.mk (pure ((entryOf? record).map answer)) : ExceptT Fault (StateM σ) α) := by
  intro state e h
  rcases record with - | record
  · cases h
  · change ((((Entry.ofRecord record).map some).mapError Fault.record).map answer) = _ at h
    rcases hrecord : Entry.ofRecord record with problem | entry
    · rw [hrecord] at h
      obtain rfl := Except.error.inj h
      exact id
    · rw [hrecord] at h
      cases h

/-- What an access does with the storage is blameless. -/
theorem refuse_or_blameless (hs : storage.Blameless) (a : Access α) :
    (∃ e, a = .refuse e) ∨ Blameless (a.run storage) := by
  -- all but a refusal run through the storage, with one query each
  rcases a with e | answer | ⟨name, answer⟩ | ⟨name, answer⟩ | ⟨e, answer⟩
  · exact Or.inl ⟨e, rfl⟩
  · exact Or.inr ((hs.list _).map answer)
  · exact Or.inr ((hs.get _).bind fun record => blameless_entryOf? answer record)
  · exact Or.inr ((hs.delete _).map _)
  · exact Or.inr ((hs.put _ _).map _)

/-- Only an access that is refused fails for a fault of the call. -/
theorem eq_refuse_of_run (hs : storage.Blameless) {a : Access α} {state : σ} {e : Fault}
    (h : ((a.run storage).run state).1 = .error e) (he : IsRefusal e) : a = .refuse e := by
  rcases refuse_or_blameless hs a with ⟨e', rfl⟩ | hblameless
  · exact congrArg refuse (Except.error.inj h)
  · exact absurd he (hblameless state e h)

end Registry.Access

namespace Registry

/-- A call is refused over a storage exactly if it comes down to the refusal. -/
theorem perform_eq_error_iff {storage : Storage (StateM σ)} (hs : storage.Blameless) {step : Step}
    {state : σ} {e : Fault} (he : IsRefusal e) :
    (step.perform storage state).1 = .error e ↔ step.call.access step.ceilings = .refuse e := by
  rw [perform_eq_run]
  constructor
  · intro h
    exact Access.eq_refuse_of_run hs h he
  · intro h
    rw [h]
    rfl

end Registry

end TrustStore

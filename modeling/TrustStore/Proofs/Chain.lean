/-!
# Chains of steps that may fail

A chain of steps succeeds if each of them does, one after the other, and fails with the fault of the
first that does not.  With `bind_eq_ok` and `bind_eq_error` the outcome of a chain is taken apart
into those of its steps.
-/

namespace TrustStore

variable {ε α β : Type}

/-- A chain succeeds exactly if each of its steps does. -/
theorem bind_eq_ok {x : Except ε α} {f : α → Except ε β} {b : β} :
    x >>= f = .ok b ↔ ∃ a, x = .ok a ∧ f a = .ok b := by
  rcases x with e | a
  · constructor
    · intro h
      cases h
    · rintro ⟨a, h, -⟩
      cases h
  · constructor
    · intro h
      exact ⟨a, rfl, h⟩
    · rintro ⟨a, h, hf⟩
      cases h
      exact hf

/-- A chain fails at the first of its steps that fails. -/
theorem bind_eq_error {x : Except ε α} {f : α → Except ε β} {e : ε} :
    x >>= f = .error e ↔ x = .error e ∨ ∃ a, x = .ok a ∧ f a = .error e := by
  rcases x with e' | a
  · constructor
    · intro h
      cases h
      exact Or.inl rfl
    · rintro (h | ⟨a, h, -⟩)
      · cases h
        rfl
      · cases h
  · constructor
    · intro h
      exact Or.inr ⟨a, rfl, h⟩
    · rintro (h | ⟨a, h, hf⟩)
      · cases h
      · cases h
        exact hf

theorem map_eq_ok {x : Except ε α} {f : α → β} {b : β} :
    x.map f = .ok b ↔ ∃ a, x = .ok a ∧ f a = b := by
  rcases x with e | a
  · constructor
    · intro h
      cases h
    · rintro ⟨a, h, -⟩
      cases h
  · constructor
    · intro h
      exact ⟨a, rfl, Except.ok.inj h⟩
    · rintro ⟨a, h, rfl⟩
      cases h
      rfl

theorem map_eq_error {x : Except ε α} {f : α → β} {e : ε} : x.map f = .error e ↔ x = .error e := by
  rcases x with e' | a <;> simp [Except.map]

/-! ### Chains with a state -/

variable {σ : Type}

/-- The second part runs from the state that the first one leaves, unless that fails. -/
theorem bind_run (c : ExceptT ε (StateM σ) α) (f : α → ExceptT ε (StateM σ) β) (state : σ) :
    (c >>= f).run state = match c.run state with
      | (.ok a, next) => (f a).run next
      | (.error e, next) => (.error e, next) := by
  show (ExceptT.bindCont f (c.run state).1 : StateM σ (Except ε β)) (c.run state).2 = _
  rcases c.run state with ⟨e | a, next⟩ <;> rfl

theorem map_run (f : α → β) (c : ExceptT ε (StateM σ) α) (state : σ) :
    (f <$> c).run state = ((c.run state).1.map f, (c.run state).2) := by
  rw [map_eq_pure_bind, bind_run]
  rcases c.run state with ⟨e | a, next⟩ <;> rfl

end TrustStore

import TrustStore.Proofs.Registry.Access
import TrustStore.Storage.KeyTable

/-!
# Runs of the registry

A run is a list of steps, each a call under the ceilings of its time, made one after the other on
one storage.  Its history pairs each step with its outcome.  `run_invariant` carries a property of
histories and states from the steps to the run.
-/

namespace TrustStore.Registry

/-! ### Steps and runs -/

structure Step where
  ceilings : Lease.Ceilings
  call : Call

/-- How a call ends. -/
abbrev Outcome := Except Fault Answer

/-- Whether a call failed with a fault can be computed. -/
instance (outcome : Outcome) (e : Fault) : Decidable (outcome = .error e) :=
  match outcome with
  | .ok _ => isFalse nofun
  | .error e' => decidable_of_iff (e' = e) ⟨congrArg Except.error, Except.error.inj⟩

variable {σ : Type}

/-- The outcome of a step, and the state after it. -/
def Step.perform (storage : Storage (StateM σ)) (step : Step) (state : σ) : Outcome × σ :=
  (step.call.perform ⟨storage, step.ceilings⟩).run state

/-- The outcomes of the steps, and the state after the last one. -/
def run (storage : Storage (StateM σ)) : List Step → σ → List Outcome × σ
  | [], state => ([], state)
  | step :: rest, state =>
    let (outcome, next) := step.perform storage state
    let (outcomes, last) := run storage rest next
    (outcome :: outcomes, last)

abbrev Event := Step × Outcome

/-- The events of a run, the first one first. -/
def history (storage : Storage (StateM σ)) (steps : List Step) (state : σ) : List Event :=
  steps.zip (run storage steps state).1

section

variable {storage : Storage (StateM σ)}

theorem run_cons (step : Step) (rest : List Step) (state : σ) :
    (run storage (step :: rest) state).2
      = (run storage rest (step.perform storage state).2).2 := rfl

theorem run_singleton (step : Step) (state : σ) :
    (run storage [step] state).2 = (step.perform storage state).2 := rfl

theorem history_cons (step : Step) (rest : List Step) (state : σ) :
    history storage (step :: rest) state
      = (step, (step.perform storage state).1)
        :: history storage rest (step.perform storage state).2 := rfl

/-- What each step preserves, a run preserves. -/
theorem run_invariant {P : List Event → σ → Prop}
    (hstep : ∀ past state, P past state → ∀ step : Step,
      P (past ++ [(step, (step.perform storage state).1)]) (step.perform storage state).2)
    (steps : List Step) (past : List Event) {state : σ} (h : P past state) :
    P (past ++ history storage steps state) (run storage steps state).2 := by
  induction steps generalizing past state with
  | nil =>
    rw [history, List.zip_nil_left, List.append_nil]
    exact h
  | cons step rest ih =>
    rw [run_cons, history_cons, List.append_cons]
    exact ih _ (hstep past state h step)

/-- A step performs the access of its call. -/
theorem perform_eq_run (step : Step) (state : σ) :
    step.perform storage state = ((step.call.access step.ceilings).run storage).run state :=
  congrArg (fun call : ExceptT Fault (StateM σ) Answer => call.run state)
    (perform_eq ⟨storage, step.ceilings⟩ step.call)

end

/-! ### Steps on a table -/

namespace Access

variable {α : Type}

/-- What an access does to a table. -/
def onTable (t : KeyTable) : Access α → Except Fault α × KeyTable
  | refuse e => (.error e, t)
  | list answer => (.ok (answer (Storage.childrenOf directory t.keys)), t)
  | read name answer => ((entryOf? t[keyOf name]?).map answer, t)
  | delete name answer => (.ok answer, t.erase (keyOf name))
  | store e answer => (.ok answer, t.insert (keyOf e.name) e.record)

theorem run_keyTable (a : Access α) (t : KeyTable) :
    (a.run KeyTable.storage).run t = a.onTable t := by
  cases a <;> rfl

end Access

/-- On a table an access is one look-up or one change. -/
theorem perform_keyTable (step : Step) (t : KeyTable) :
    step.perform KeyTable.storage t = (step.call.access step.ceilings).onTable t := by
  rw [perform_eq_run]
  exact Access.run_keyTable _ t

end TrustStore.Registry

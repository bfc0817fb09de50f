/-!
# Machines and their runs

A machine takes actions, each of which may be impossible in a state.  A run
may be restricted by a guard, a condition on the state before each action.
-/

namespace Machines

structure Machine (σ α : Type) where
  step : σ → α → Option σ

namespace Machine

variable {σ α : Type} (machine : Machine σ α)

/-- The states of the runs from `start` whose every action meets `guard`. -/
inductive Reachable (guard : σ → α → Prop) (start : σ) : σ → Prop where
  | start : Reachable guard start start
  | step {state next : σ} (action : α)
      (reached : Reachable guard start state) (allowed : guard state action)
      (steps : machine.step state action = some next) :
      Reachable guard start next

/-- The condition that excludes nothing. -/
def anything (_ : σ) (_ : α) : Prop := True

instance (state : σ) (action : α) : Decidable (anything state action) :=
  .isTrue trivial

/-- The state after a list of actions, where each is possible and meets the
guard. -/
def run (guard : σ → α → Prop)
    [∀ state action, Decidable (guard state action)] : σ → List α → Option σ
  | state, [] => some state
  | state, action :: rest =>
      if guard state action then
        match machine.step state action with
        | none => none
        | some next => run guard next rest
      else none

variable {machine} {guard : σ → α → Prop} {start : σ}

/-- What holds at the start and is kept by every step holds in every state. -/
theorem Reachable.invariant {holds : σ → Prop} {state : σ}
    (reached : machine.Reachable guard start state) (initial : holds start)
    (kept : ∀ state action next, holds state → guard state action →
      machine.step state action = some next → holds next) : holds state := by
  induction reached with
  | start => exact initial
  | step action _ allowed steps induction =>
      exact kept _ action _ induction allowed steps

theorem Reachable.weaken {weaker : σ → α → Prop} {state : σ}
    (reached : machine.Reachable guard start state)
    (implies : ∀ state action, guard state action → weaker state action) :
    machine.Reachable weaker start state := by
  induction reached with
  | start => exact .start
  | step action _ allowed steps induction =>
      exact .step action induction (implies _ action allowed) steps

theorem reachable_of_run [∀ state action, Decidable (guard state action)]
    {state final : σ} {actions : List α}
    (reached : machine.Reachable guard start state)
    (runs : machine.run guard state actions = some final) :
    machine.Reachable guard start final := by
  induction actions generalizing state with
  | nil =>
      rw [run, Option.some.injEq] at runs
      rw [← runs]
      exact reached
  | cons action rest induction =>
      rw [run] at runs
      split at runs <;> rename_i allowed
      · cases steps : machine.step state action with
        | none =>
            rw [steps] at runs
            cases runs
        | some next =>
            rw [steps] at runs
            exact induction (.step action reached allowed steps) runs
      · cases runs

end Machine

end Machines

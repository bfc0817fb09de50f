import Mathlib.Tactic.Common

/-!
# What runs show

Every step of a run shows something: a call and what it returns, or a message.
A run of one system can be explained by another where every step is one of the
other with the same to show.
-/

namespace Machines

variable {σ τ α : Type}

/-- The steps from one state to another, and what they show. -/
inductive Traces (step : σ → α → σ → Prop) (start : σ) : List α → σ → Prop where
  | start : Traces step start [] start
  | step {events : List α} {event : α} {state next : σ}
      (before : Traces step start events state)
      (last : step state event next) :
      Traces step start (events ++ [event]) next

namespace Traces

variable {step : σ → α → σ → Prop} {coarse : τ → α → τ → Prop}
  {start final : σ} {events : List α}

theorem cons {first : α} {middle : σ} (begins : step start first middle)
    (traces : Traces step middle events final) :
    Traces step start (first :: events) final := by
  induction traces with
  | start => exact .step .start begins
  | step _ last induction => exact .step induction last

/-- Related states stay related, when every step is one of the coarser
system. -/
theorem simulated (related : σ → τ → Prop)
    (traces : Traces step start events final) {other : τ}
    (initial : related start other)
    (explained : ∀ state other event next, related state other →
      step state event next →
        ∃ after, coarse other event after ∧ related next after) :
    ∃ after, Traces coarse other events after ∧ related final after := by
  induction traces with
  | start => exact ⟨other, .start, initial⟩
  | step _ last induction =>
      obtain ⟨middle, reached, related⟩ := induction
      obtain ⟨after, next, stays⟩ := explained _ middle _ _ related last
      exact ⟨after, .step reached next, stays⟩

end Traces

end Machines

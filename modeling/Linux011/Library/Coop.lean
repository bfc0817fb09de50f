/-!
# Programs that give up the processor

A cooperative task runs undisturbed until it sleeps.  `Run` is one such
stretch: it ends with a value, stops the machine, or falls asleep with a
condition under which it may be resumed and a continuation that takes the
state it finds on waking.  Loops run on fuel; a run that uses it up is
`spent`.  `crossed` marks a point that an assumption of the verification
rules out, and carries on with what the code does there.

Two judgments speak about runs.  `wp` is for a task alone with its
environment.  `Safe` is for a task among others: each task owns a resource,
the resources of all tasks add up to what the invariant sees, and a task may
rely, across a sleep, on whatever its own resource keeps stable.
-/

namespace Coop

inductive Run (σ α : Type) where
  | done (value : α) (state : σ)
  | panic (message : String)
  | spent
  | crossed (rest : Run σ α)
  | asleep (ready : σ → Bool) (state : σ) (resume : σ → Run σ α)

/-- A program takes the state it starts in to a run. -/
def Prog (σ α : Type) : Type := σ → Run σ α

variable {σ α β : Type}

namespace Run

def bind : Run σ α → (α → Prog σ β) → Run σ β
  | done value state, next => next value state
  | panic message, _ => .panic message
  | spent, _ => .spent
  | crossed rest, next => .crossed (rest.bind next)
  | asleep ready state resume, next =>
      .asleep ready state fun state => (resume state).bind next

/-- The value and the state a run without sleep ends with, marks left out. -/
def outcome : Run σ α → Option (α × σ)
  | done value state => some (value, state)
  | crossed rest => rest.outcome
  | _ => none

end Run

namespace Prog

instance : Monad (Prog σ) where
  pure value := fun state => .done value state
  bind program next := fun state => (program state).bind next

def get : Prog σ σ := fun state => .done state state

def modify (change : σ → σ) : Prog σ Unit := fun state =>
  .done () (change state)

def panic (message : String) : Prog σ α := fun _ => .panic message

def spent : Prog σ α := fun _ => .spent

def cross : Prog σ Unit := fun state => .crossed (.done () state)

/-- Sleep until woken in a state that satisfies `ready`; no sleep at all if
the present state does. -/
def waitUntil (ready : σ → Bool) : Prog σ Unit := fun state =>
  if ready state then .done () state
  else .asleep ready state fun state => .done () state

/-- Give up the processor once, whatever the state. -/
def sleep : Prog σ Unit := fun state =>
  .asleep (fun _ => true) state fun state => .done () state

/-- `body 0`, …, `body (count - 1)`. -/
def upTo (body : Nat → Prog σ Unit) : Nat → Prog σ Unit
  | 0 => pure ()
  | count + 1 => do
      upTo body count
      body count

end Prog

/-! ## A task alone with its environment -/

/-- The ways a run may end without a value. -/
structure Fate where
  panic : String → Prop
  spent : Prop
  crossed : Prop

/-- Partial correctness of runs that cross no mark: a panic, or running out
of fuel, owes nothing. -/
def Fate.any : Fate where
  panic := fun _ => True
  spent := True
  crossed := True

/-- Partial correctness where no mark may be crossed. -/
def Fate.uncrossed : Fate where
  panic := fun _ => True
  spent := True
  crossed := False

/-- Partial correctness of runs that cross no mark, and no panic in them. -/
def Fate.noPanic : Fate where
  panic := fun _ => False
  spent := True
  crossed := True

/-- Total correctness of runs that cross no mark. -/
def Fate.returns : Fate where
  panic := fun _ => False
  spent := False
  crossed := True

section Environment

variable {fate : Fate} {env : σ → σ → Prop}

/-- The run ends in a state and with a value that satisfy `post`, whatever
the environment does while the task sleeps. -/
def Run.wp (fate : Fate) (env : σ → σ → Prop) (post : α → σ → Prop) :
    Run σ α → Prop
  | .done value state => post value state
  | .panic message => fate.panic message
  | .spent => fate.spent
  | .crossed _ => fate.crossed
  | .asleep ready state resume =>
      ∀ next, env state next → ready next = true →
        (resume next).wp fate env post

def Prog.wp (fate : Fate) (env : σ → σ → Prop) (program : Prog σ α)
    (post : α → σ → Prop) (state : σ) : Prop :=
  (program state).wp fate env post

theorem Run.wp_mono {run : Run σ α} {post weaker : α → σ → Prop}
    (holds : run.wp fate env post)
    (implies : ∀ value state, post value state → weaker value state) :
    run.wp fate env weaker := by
  induction run with
  | done value state => exact implies value state holds
  | panic message => exact holds
  | spent => exact holds
  | crossed rest induction => exact holds
  | asleep ready state resume induction =>
      intro next step isReady
      exact induction next (holds next step isReady)

theorem Run.wp_bind {run : Run σ α} {next : α → Prog σ β}
    {post : β → σ → Prop} :
    (run.bind next).wp fate env post ↔
      run.wp fate env fun value state =>
        (next value).wp fate env post state := by
  induction run with
  | done value state => exact Iff.rfl
  | panic message => exact Iff.rfl
  | spent => exact Iff.rfl
  | crossed rest induction => exact Iff.rfl
  | asleep ready state resume induction =>
      constructor
      · intro holds next step isReady
        exact (induction next).mp (holds next step isReady)
      · intro holds next step isReady
        exact (induction next).mpr (holds next step isReady)

namespace Prog

variable {post : α → σ → Prop} {state : σ}

theorem wp_mono {program : Prog σ α} {weaker : α → σ → Prop}
    (holds : program.wp fate env post state)
    (implies : ∀ value state, post value state → weaker value state) :
    program.wp fate env weaker state :=
  Run.wp_mono holds implies

@[simp] theorem wp_pure {value : α} :
    (pure value : Prog σ α).wp fate env post state ↔ post value state :=
  Iff.rfl

@[simp] theorem wp_bind {program : Prog σ α} {next : α → Prog σ β}
    {post : β → σ → Prop} :
    (program >>= next).wp fate env post state ↔
      program.wp fate env
        (fun value state => (next value).wp fate env post state) state :=
  Run.wp_bind

@[simp] theorem wp_get {post : σ → σ → Prop} :
    (get : Prog σ σ).wp fate env post state ↔ post state state :=
  Iff.rfl

@[simp] theorem wp_modify {change : σ → σ} {post : Unit → σ → Prop} :
    (modify change).wp fate env post state ↔ post () (change state) :=
  Iff.rfl

theorem wp_cross {post : Unit → σ → Prop} :
    (cross : Prog σ Unit).wp fate env post state ↔ fate.crossed :=
  Iff.rfl

/-- Waiting under an environment that may also do nothing. -/
theorem wp_waitUntil (idle : ∀ state, env state state) {ready : σ → Bool}
    {post : Unit → σ → Prop}
    (wakes : ∀ next, env state next → ready next = true → post () next) :
    (waitUntil ready).wp fate env post state := by
  unfold wp waitUntil
  by_cases isReady : ready state = true
  · rw [if_pos isReady]
    exact wakes state (idle state) isReady
  · rw [if_neg isReady]
    exact wakes

theorem wp_sleep {post : Unit → σ → Prop} :
    (sleep : Prog σ Unit).wp fate env post state ↔
      ∀ next, env state next → post () next :=
  ⟨fun holds next step => holds next step rfl,
    fun holds next step _ => holds next step⟩

theorem wp_upTo {body : Nat → Prog σ Unit} {count : Nat}
    {invariant : Nat → σ → Prop} (initial : invariant 0 state)
    (step : ∀ index, index < count → ∀ state, invariant index state →
      (body index).wp fate env (fun _ => invariant (index + 1)) state) :
    (upTo body count).wp fate env (fun _ => invariant count) state := by
  induction count with
  | zero => exact initial
  | succ count induction =>
      refine wp_bind.mpr (wp_mono (induction ?_) ?_)
      · intro index inRange
        exact step index (Nat.lt_succ_of_lt inRange)
      · intro _ middle holds
        exact step count (Nat.lt_succ_self count) middle holds

/-- A loop whose invariant does not depend on the pass. -/
theorem wp_loop {body : Nat → Prog σ Unit} {count : Nat} {holds : σ → Prop}
    (initial : holds state)
    (step : ∀ index, index < count → ∀ state, holds state →
      (body index).wp fate env (fun _ next => holds next) state) :
    (upTo body count).wp fate env (fun _ next => holds next) state :=
  @wp_upTo _ fate env state body count (fun _ => holds) initial step

end Prog

end Environment

end Coop

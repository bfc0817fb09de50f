import Linux011.Library.Hoare

/-!
# How a run ends

`wp` asks nothing of a run behind a mark.  Here a run is followed to its end,
and what is asked of the ending may depend on whether a mark was crossed on
the way.
-/

namespace Coop

variable {σ α β : Type} {env : σ → σ → Prop}

/-- A run that neither stops nor crosses a mark. -/
def Fate.total : Fate where
  panic := fun _ => False
  spent := False
  crossed := False

inductive Ending (α σ : Type) where
  | returned (value : α) (state : σ)
  | panic (message : String)
  | spent

/-- The ending is one the fate allows, or a value that satisfies `post`. -/
def Ending.Meets (fate : Fate) (post : α → σ → Prop) : Ending α σ → Prop
  | .returned value state => post value state
  | .panic message => fate.panic message
  | .spent => fate.spent

namespace Run

/-- Whatever the environment does, `post` holds of the ending, and of whether
a mark was crossed. -/
def ends (env : σ → σ → Prop) (post : Bool → Ending α σ → Prop) :
    Run σ α → Prop
  | .done value state => post false (.returned value state)
  | .panic message => post false (.panic message)
  | .spent => post false .spent
  | .crossed rest => rest.ends env fun _ => post true
  | .asleep ready state resume =>
      ∀ next, env state next → ready next = true → (resume next).ends env post

theorem ends_mono {run : Run σ α} {post weaker : Bool → Ending α σ → Prop}
    (holds : run.ends env post)
    (implies : ∀ marked ending, post marked ending → weaker marked ending) :
    run.ends env weaker := by
  induction run generalizing post weaker with
  | done value state => exact implies _ _ holds
  | panic message => exact implies _ _ holds
  | spent => exact implies _ _ holds
  | crossed rest induction =>
      exact induction holds fun _ ending => implies true ending
  | asleep ready state resume induction =>
      intro next moved isReady
      exact induction next (holds next moved isReady) implies

/-- Fate and postcondition of the run without its marks. -/
theorem ends_of_unmarked {run : Run σ α} {fate : Fate} {post : α → σ → Prop}
    (holds : run.unmarked.wp fate env post) :
    run.ends env fun _ ending => ending.Meets fate post := by
  induction run with
  | done value state => exact holds
  | panic message => exact holds
  | spent => exact holds
  | crossed rest induction => exact induction holds
  | asleep ready state resume induction =>
      intro next moved isReady
      exact induction next (holds next moved isReady)

/-- A run that returns for sure. -/
theorem ends_of_total {run : Run σ α} {good : α → σ → Prop}
    {post : Bool → Ending α σ → Prop} (holds : run.wp .total env good)
    (implies : ∀ value state, good value state →
      post false (.returned value state)) :
    run.ends env post := by
  induction run with
  | done value state => exact implies value state holds
  | panic message => exact holds.elim
  | spent => exact holds.elim
  | crossed rest induction => exact holds.elim
  | asleep ready state resume induction =>
      intro next moved isReady
      exact induction next (holds next moved isReady)

end Run

namespace Prog

/-- The run of a program from a state, judged by its ending. -/
structure Ends (env : σ → σ → Prop) (program : Prog σ α)
    (post : Bool → Ending α σ → Prop) (state : σ) : Prop where
  run : (program state).ends env post

end Prog

/-- What is left to show where `next` follows. -/
def Ending.GoesOn (env : σ → σ → Prop) (next : α → Prog σ β)
    (post : Bool → Ending β σ → Prop) (marked : Bool) : Ending α σ → Prop
  | .returned value state =>
      (next value).Ends env (fun further => post (marked || further)) state
  | .panic message => post marked (.panic message)
  | .spent => post marked .spent

theorem Run.ends_bind {run : Run σ α} {next : α → Prog σ β}
    {post : Bool → Ending β σ → Prop}
    (holds : run.ends env fun marked ending =>
      ending.GoesOn env next post marked) :
    (run.bind next).ends env post := by
  induction run generalizing post with
  | done value state => exact holds.run
  | panic message => exact holds
  | spent => exact holds
  | crossed rest induction =>
      refine induction (ends_mono holds ?_)
      intro marked ending goesOn
      cases ending with
      | returned value state => exact goesOn
      | panic message => exact goesOn
      | spent => exact goesOn
  | asleep ready state resume induction =>
      intro next moved isReady
      exact induction next (holds next moved isReady)

namespace Prog

variable {program : Prog σ α} {next : α → Prog σ β} {state : σ}
  {post : Bool → Ending β σ → Prop}

theorem ends_mono {program : Prog σ α}
    {post weaker : Bool → Ending α σ → Prop}
    (holds : program.Ends env post state)
    (implies : ∀ marked ending, post marked ending → weaker marked ending) :
    program.Ends env weaker state :=
  ⟨Run.ends_mono holds.run implies⟩

theorem ends_bind
    (holds : program.Ends env (fun marked ending =>
      ending.GoesOn env next post marked) state) :
    (program >>= next).Ends env post state :=
  ⟨Run.ends_bind holds.run⟩

theorem ends_get {next : σ → Prog σ β}
    (holds : (next state).Ends env post state) :
    (get >>= next).Ends env post state :=
  ⟨holds.run⟩

theorem ends_modify {change : σ → σ} {next : Unit → Prog σ β}
    (holds : (next ()).Ends env post (change state)) :
    (modify change >>= next).Ends env post state :=
  ⟨holds.run⟩

theorem ends_sleep {next : Unit → Prog σ β}
    (holds : ∀ later, env state later → (next ()).Ends env post later) :
    (sleep >>= next).Ends env post state :=
  ⟨fun later moved _ => (holds later moved).run⟩

/-- A program that returns for sure. -/
theorem ends_of_total {program : Prog σ α} {good : α → σ → Prop}
    {post : Bool → Ending α σ → Prop} (holds : program.wp .total env good state)
    (implies : ∀ value later, good value later →
      post false (.returned value later)) :
    program.Ends env post state :=
  ⟨Run.ends_of_total holds implies⟩

theorem ends_of_hoare {program : Prog σ α} {pre : σ → Prop}
    {good : α → σ → Prop} {post : Bool → Ending α σ → Prop}
    (hoare : Hoare .total env pre program good) (isPre : pre state)
    (implies : ∀ value later, good value later →
      post false (.returned value later)) :
    program.Ends env post state :=
  ends_of_total (hoare.run state isPre) implies

/-- What follows a program that returns for sure. -/
theorem ends_then {between : α → σ → Prop}
    (first : program.wp .total env between state)
    (second : ∀ value later, between value later →
      (next value).Ends env post later) :
    (program >>= next).Ends env post state := by
  refine ends_bind (ends_of_total first ?_)
  intro value later holds
  exact ends_mono (second value later holds) fun further ending isPost => by
    rw [Bool.false_or]
    exact isPost

/-- A program that meets a fate and a postcondition past its marks. -/
theorem ends_of_unmarked {program : Prog σ α} {fate : Fate}
    {post : α → σ → Prop}
    (holds : program.unmarked.wp fate env post state) :
    program.Ends env (fun _ ending => ending.Meets fate post) state :=
  ⟨Run.ends_of_unmarked holds⟩

end Prog

/-! ## A run that nothing disturbs -/

/-- The ending of a run that finds the state as it left it and crosses no
mark; `spent` for any other. -/
def Run.alone : Run σ α → Ending α σ
  | .done value state => .returned value state
  | .panic message => .panic message
  | .spent => .spent
  | .crossed _ => .spent
  | .asleep ready state resume =>
      if ready state = true then (resume state).alone else .spent

/-- What `next` makes of an ending. -/
def Ending.andThen (next : α → σ → Ending β σ) : Ending α σ → Ending β σ
  | .returned value state => next value state
  | .panic message => .panic message
  | .spent => .spent

theorem Run.alone_bind {run : Run σ α} {next : α → Prog σ β} :
    (run.bind next).alone =
      run.alone.andThen fun value state => (next value state).alone := by
  induction run with
  | done value state => rfl
  | panic message => rfl
  | spent => rfl
  | crossed rest induction => rfl
  | asleep ready state resume induction =>
      show (if ready state = true then ((resume state).bind next).alone
        else .spent) = Ending.andThen _ (if ready state = true then
          (resume state).alone else .spent)
      split
      · exact induction state
      · rfl

/-- It is one of the runs that the environment allows. -/
theorem Run.ends_alone {run : Run σ α} {post : Bool → Ending α σ → Prop}
    (idle : ∀ state, env state state) (holds : run.ends env post)
    (ended : run.alone ≠ .spent) : post false run.alone := by
  induction run with
  | done value state => exact holds
  | panic message => exact holds
  | spent => exact absurd rfl ended
  | crossed rest induction => exact absurd rfl ended
  | asleep ready state resume induction =>
      have isAlone : (Run.asleep ready state resume).alone =
        if ready state = true then (resume state).alone else .spent := rfl
      rw [isAlone] at ended ⊢
      split <;> rename_i isReady
      · rw [if_pos isReady] at ended
        exact induction state (holds state (idle state) isReady) ended
      · rw [if_neg isReady] at ended
        exact absurd rfl ended

namespace Prog

/-- The ending of a program in a state that nothing disturbs. -/
def alone (program : Prog σ α) (state : σ) : Ending α σ :=
  (program state).alone

variable {state : σ}

theorem alone_bind {program : Prog σ α} {next : α → Prog σ β} :
    (program >>= next).alone state =
      (program.alone state).andThen fun value => (next value).alone :=
  Run.alone_bind

@[simp] theorem alone_get : (get : Prog σ σ).alone state = .returned state state :=
  rfl

@[simp] theorem alone_modify {change : σ → σ} :
    (modify change).alone state = .returned () (change state) :=
  rfl

@[simp] theorem alone_sleep :
    (sleep : Prog σ Unit).alone state = .returned () state :=
  rfl

@[simp] theorem andThen_returned {value : α} {next : α → σ → Ending β σ} :
    (Ending.returned value state).andThen next = next value state :=
  rfl

end Prog

end Coop

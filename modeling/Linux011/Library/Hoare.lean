import Linux011.Library.Stretches

/-!
# Triples for a task alone

From every state that satisfies the precondition, the program ends as
`Prog.wp` says, whatever the environment does while it sleeps.  One rule for
each form of program; a precondition that the environment keeps outlives the
sleep.
-/

namespace Coop

variable {σ α β : Type} {fate : Fate} {env : σ → σ → Prop}

namespace Run

/-- A run that crosses no mark ends as it does without its marks. -/
theorem wp_unmarked {post : α → σ → Prop} {run : Run σ α}
    (holds : run.wp { fate with crossed := False } env post) :
    run.unmarked.wp fate env post := by
  induction run with
  | done value state => exact holds
  | panic message => exact holds
  | spent => exact holds
  | crossed rest induction => exact holds.elim
  | asleep ready state resume induction =>
      intro next moved isReady
      exact induction next (holds next moved isReady)

theorem wp_env {post : α → σ → Prop} {run : Run σ α} {wider : σ → σ → Prop}
    (holds : run.wp fate wider post)
    (narrows : ∀ state next, env state next → wider state next) :
    run.wp fate env post := by
  induction run with
  | done value state => exact holds
  | panic message => exact holds
  | spent => exact holds
  | crossed rest induction => exact holds
  | asleep ready state resume induction =>
      intro next moved isReady
      exact induction next (holds next (narrows _ _ moved) isReady)

/-- The run can end with this value and in this state.  `past` says whether it
may cross marks. -/
def MayReturn (past : Prop) (env : σ → σ → Prop) (value : α) (final : σ) :
    Run σ α → Prop
  | .done result state => result = value ∧ state = final
  | .panic _ => False
  | .spent => False
  | .crossed rest => past ∧ rest.MayReturn past env value final
  | .asleep ready state resume =>
      ∃ next, env state next ∧ ready next = true ∧
        (resume next).MayReturn past env value final

section MayReturn

variable {past : Prop} {post : α → σ → Prop} {run : Run σ α} {value : α}
  {final : σ}

theorem MayReturn.meets (returns : run.MayReturn past env value final)
    (holds : run.unmarked.wp fate env post) : post value final := by
  induction run with
  | done result state =>
      obtain ⟨rfl, rfl⟩ := returns
      exact holds
  | panic message => exact returns.elim
  | spent => exact returns.elim
  | crossed rest induction => exact induction returns.2 holds
  | asleep ready state resume induction =>
      obtain ⟨next, moved, isReady, returns⟩ := returns
      exact induction next returns (holds next moved isReady)

/-- Without marks on the way. -/
theorem MayReturn.meets_uncrossed (returns : run.MayReturn False env value final)
    (holds : run.wp fate env post) : post value final := by
  induction run with
  | done result state =>
      obtain ⟨rfl, rfl⟩ := returns
      exact holds
  | panic message => exact returns.elim
  | spent => exact returns.elim
  | crossed rest induction => exact returns.1.elim
  | asleep ready state resume induction =>
      obtain ⟨next, moved, isReady, returns⟩ := returns
      exact induction next returns (holds next moved isReady)

theorem MayReturn.mono {further : Prop}
    (returns : run.MayReturn past env value final)
    (implies : past → further) : run.MayReturn further env value final := by
  induction run with
  | done result state => exact returns
  | panic message => exact returns
  | spent => exact returns
  | crossed rest induction => exact ⟨implies returns.1, induction returns.2⟩
  | asleep ready state resume induction =>
      obtain ⟨next, moved, isReady, returns⟩ := returns
      exact ⟨next, moved, isReady, induction next returns⟩

theorem mayReturn_bind {run : Run σ β} {next : β → Prog σ α}
    (returns : (run.bind next).MayReturn past env value final) :
    ∃ result state, run.MayReturn past env result state ∧
      (next result state).MayReturn past env value final := by
  induction run with
  | done result state => exact ⟨result, state, ⟨rfl, rfl⟩, returns⟩
  | panic message => exact returns.elim
  | spent => exact returns.elim
  | crossed rest induction =>
      obtain ⟨isPast, returns⟩ := returns
      obtain ⟨result, state, first, second⟩ := induction returns
      exact ⟨result, state, ⟨isPast, first⟩, second⟩
  | asleep ready state resume induction =>
      obtain ⟨next, moved, isReady, returns⟩ := returns
      obtain ⟨result, state, first, second⟩ := induction next returns
      exact ⟨result, state, ⟨next, moved, isReady, first⟩, second⟩

theorem MayReturn.bind {run : Run σ β} {next : β → Prog σ α} {result : β}
    {state : σ} (first : run.MayReturn past env result state)
    (second : (next result state).MayReturn past env value final) :
    (run.bind next).MayReturn past env value final := by
  induction run with
  | done other reached =>
      obtain ⟨rfl, rfl⟩ := first
      exact second
  | panic message => exact first.elim
  | spent => exact first.elim
  | crossed rest induction => exact ⟨first.1, induction first.2⟩
  | asleep ready before resume induction =>
      obtain ⟨woken, moved, isReady, first⟩ := first
      exact ⟨woken, moved, isReady, induction woken first⟩

/-- The value and the state the run ends with where the environment does the
same at every sleep. -/
def play (past : Bool) (serve : σ → σ) : Run σ α → Option (α × σ)
  | .done value state => some (value, state)
  | .panic _ => none
  | .spent => none
  | .crossed rest => if past = true then rest.play past serve else none
  | .asleep ready state resume =>
      if ready (serve state) = true then
        (resume (serve state)).play past serve
      else none

theorem mayReturn_play {isPast : Bool} {serve : σ → σ}
    (serves : ∀ state, env state (serve state))
    (played : run.play isPast serve = some (value, final)) :
    run.MayReturn (isPast = true) env value final := by
  induction run with
  | done result state =>
      obtain ⟨rfl, rfl⟩ := Prod.mk.inj (Option.some.inj played)
      exact ⟨rfl, rfl⟩
  | panic message => cases played
  | spent => cases played
  | crossed rest induction =>
      unfold play at played
      split at played <;> rename_i goesOn
      · exact ⟨goesOn, induction played⟩
      · cases played
  | asleep ready state resume induction =>
      unfold play at played
      split at played <;> rename_i isReady
      · exact ⟨serve state, serves state, isReady, induction _ played⟩
      · cases played

end MayReturn

theorem Keeps.stays {relation : σ → σ → Prop} {holds : σ → Prop}
    {post : α → σ → Prop} {run : Run σ α} {start : σ}
    (keeps : run.Keeps True relation post start) (isHeld : holds start)
    (kept : ∀ state next, holds state → relation state next → holds next)
    (lasts : ∀ state next, holds state → env state next → holds next) :
    run.unmarked.wp .any env fun _ => holds := by
  induction run generalizing start with
  | done value final => exact kept _ _ isHeld keeps.1
  | panic message => trivial
  | spent => trivial
  | crossed rest induction => exact induction (keeps trivial) isHeld
  | asleep ready final resume induction =>
      obtain ⟨moved, wakes⟩ := keeps
      intro next acts isReady
      exact induction next (wakes next isReady)
        (lasts _ _ (kept _ _ isHeld moved) acts)

theorem unmarked_bind {run : Run σ β} {next : β → Prog σ α} :
    (run.bind next).unmarked =
      run.unmarked.bind fun value => (next value).unmarked := by
  induction run with
  | done value state => rfl
  | panic message => rfl
  | spent => rfl
  | crossed rest induction => exact induction
  | asleep ready state resume induction =>
      exact congrArg (asleep ready state) (funext induction)

end Run

namespace Prog

theorem wp_unmarked_bind {program : Prog σ β} {next : β → Prog σ α}
    {post : α → σ → Prop} {state : σ} :
    (program >>= next).unmarked.wp fate env post state ↔
      program.unmarked.wp fate env
        (fun value state => (next value).unmarked.wp fate env post state)
        state := by
  show ((program state).bind next).unmarked.wp fate env post ↔ _
  rw [Run.unmarked_bind]
  exact Run.wp_bind

theorem wp_unmarked_get {next : σ → Prog σ α} {post : α → σ → Prop}
    {state : σ} :
    (get >>= next).unmarked.wp fate env post state ↔
      (next state).unmarked.wp fate env post state :=
  Iff.rfl

/-- The judgment `wp`, from every state of a kind. -/
structure Hoare (fate : Fate) (env : σ → σ → Prop) (pre : σ → Prop)
    (program : Prog σ α) (post : α → σ → Prop) : Prop where
  run : ∀ state, pre state → program.wp fate env post state

variable {pre : σ → Prop} {post : α → σ → Prop}

theorem hoare_weaken {program : Prog σ α} {weaker : σ → Prop}
    {stronger : α → σ → Prop} (hoare : Hoare fate env weaker program stronger)
    (needs : ∀ state, pre state → weaker state)
    (gives : ∀ value state, stronger value state → post value state) :
    Hoare fate env pre program post :=
  ⟨fun state isPre => wp_mono (hoare.run state (needs state isPre)) gives⟩

theorem hoare_pre {program : Prog σ α} {weaker : σ → Prop}
    (hoare : Hoare fate env weaker program post)
    (needs : ∀ state, pre state → weaker state) :
    Hoare fate env pre program post :=
  hoare_weaken hoare needs fun _ _ holds => holds

theorem hoare_post {program : Prog σ α} {stronger : α → σ → Prop}
    (hoare : Hoare fate env pre program stronger)
    (gives : ∀ value state, stronger value state → post value state) :
    Hoare fate env pre program post :=
  hoare_weaken hoare (fun _ holds => holds) gives

/-- Under an environment that does less. -/
theorem hoare_env {program : Prog σ α} {wider : σ → σ → Prop}
    (hoare : Hoare fate wider pre program post)
    (narrows : ∀ state next, env state next → wider state next) :
    Hoare fate env pre program post :=
  ⟨fun state isPre => Run.wp_env (hoare.run state isPre) narrows⟩

/-- From one state that satisfies the precondition. -/
theorem hoare_at {program : Prog σ α} {state : σ} (isPre : pre state)
    (hoare : Hoare fate env pre program post) :
    Hoare fate env (fun current => current = state) program post := by
  refine hoare_pre hoare ?_
  rintro current rfl
  exact isPre

/-- A fact that does not depend on the state. -/
theorem hoare_given {program : Prog σ α} {fact : Prop}
    (hoare : fact → Hoare fate env pre program post) :
    Hoare fate env (fun state => fact ∧ pre state) program post :=
  ⟨fun state holds => (hoare holds.1).run state holds.2⟩

theorem hoare_pure {value : α} (holds : ∀ state, pre state → post value state) :
    Hoare fate env pre (pure value : Prog σ α) post :=
  ⟨holds⟩

theorem hoare_bind {program : Prog σ β} {next : β → Prog σ α}
    {between : β → σ → Prop} (first : Hoare fate env pre program between)
    (second : ∀ value, Hoare fate env (between value) (next value) post) :
    Hoare fate env pre (program >>= next) post := by
  constructor
  intro state isPre
  apply wp_bind.mpr
  exact wp_mono (first.run state isPre) fun value => (second value).run

/-- What has been read is the present state. -/
theorem hoare_get {next : σ → Prog σ α}
    (continues : ∀ state, pre state →
      Hoare fate env (fun current => current = state) (next state) post) :
    Hoare fate env pre (get >>= next) post :=
  ⟨fun state isPre => (continues state isPre).run state rfl⟩

/-- What has been read does not matter. -/
theorem hoare_read {next : σ → Prog σ α}
    (continues : ∀ state, Hoare fate env pre (next state) post) :
    Hoare fate env pre (get >>= next) post :=
  ⟨fun state isPre => (continues state).run state isPre⟩

theorem hoare_modify {change : σ → σ} {post : Unit → σ → Prop}
    (changes : ∀ state, pre state → post () (change state)) :
    Hoare fate env pre (modify change) post :=
  ⟨changes⟩

theorem hoare_panic {message : String} (allowed : fate.panic message) :
    Hoare fate env pre (panic message : Prog σ α) post :=
  ⟨fun _ _ => allowed⟩

theorem hoare_spent (allowed : fate.spent) :
    Hoare fate env pre (spent : Prog σ α) post :=
  ⟨fun _ _ => allowed⟩

/-- Nothing is owed behind a mark that may be crossed. -/
theorem hoare_cross {next : Unit → Prog σ α} (allowed : fate.crossed) :
    Hoare fate env pre (cross >>= next) post :=
  ⟨fun _ _ => allowed⟩

theorem hoare_waitUntil {ready : σ → Bool}
    (lasts : ∀ state next, pre state → env state next → pre next) :
    Hoare fate env pre (waitUntil ready)
      fun _ state => pre state ∧ ready state = true := by
  constructor
  intro state isPre
  unfold wp waitUntil
  split <;> rename_i isReady
  · exact ⟨isPre, isReady⟩
  · exact fun next moved nextReady => ⟨lasts state next isPre moved, nextReady⟩

theorem hoare_sleep
    (lasts : ∀ state next, pre state → env state next → pre next) :
    Hoare fate env pre sleep fun _ => pre := by
  constructor
  intro state isPre
  exact wp_sleep.mpr fun next moved => lasts state next isPre moved

theorem hoare_upTo {body : Nat → Prog σ Unit} {count : Nat} {always : σ → Prop}
    (step : ∀ index, Hoare fate env always (body index) fun _ => always) :
    Hoare fate env always (upTo body count) fun _ => always := by
  induction count with
  | zero => exact hoare_pure fun _ holds => holds
  | succ count induction => exact hoare_bind induction fun _ => step count

theorem hoare_unmarked {program : Prog σ α}
    (hoare : Hoare { fate with crossed := False } env pre program post) :
    Hoare fate env pre program.unmarked post :=
  ⟨fun state isPre => Run.wp_unmarked (hoare.run state isPre)⟩

/-! ### Programs without their marks, piece by piece -/

theorem hoare_unmarked_bind {program : Prog σ β} {next : β → Prog σ α}
    {between : β → σ → Prop}
    (first : Hoare fate env pre program.unmarked between)
    (second : ∀ value,
      Hoare fate env (between value) (next value).unmarked post) :
    Hoare fate env pre (program >>= next).unmarked post := by
  constructor
  intro state isPre
  show ((program state).bind next).unmarked.wp fate env post
  rw [Run.unmarked_bind]
  exact Run.wp_bind.mpr
    (Run.wp_mono (first.run state isPre) fun value => (second value).run)

/-- Nothing follows a program that never returns. -/
theorem hoare_unmarked_stuck {program : Prog σ β} {next : β → Prog σ α}
    (stuck : Hoare fate env pre program.unmarked fun _ _ => False) :
    Hoare fate env pre (program >>= next).unmarked post :=
  hoare_unmarked_bind stuck fun _ => ⟨fun _ (never : False) => never.elim⟩

theorem hoare_unmarked_get {next : σ → Prog σ α}
    (continues : ∀ state, pre state →
      Hoare fate env (fun current => current = state) (next state).unmarked
        post) :
    Hoare fate env pre (get >>= next).unmarked post :=
  ⟨fun state isPre => (continues state isPre).run state rfl⟩

theorem hoare_unmarked_read {next : σ → Prog σ α}
    (continues : ∀ state, Hoare fate env pre (next state).unmarked post) :
    Hoare fate env pre (get >>= next).unmarked post :=
  ⟨fun state isPre => (continues state).run state isPre⟩

theorem hoare_unmarked_cross {next : Unit → Prog σ α}
    (continues : Hoare fate env pre (next ()).unmarked post) :
    Hoare fate env pre (cross >>= next).unmarked post :=
  ⟨continues.run⟩

/-- Partial correctness asks nothing of a run alone. -/
theorem hoare_anything {program : Prog σ α} :
    Hoare .any env pre program.unmarked fun _ _ => True := by
  refine ⟨fun state _ => ?_⟩
  show (program state).unmarked.wp .any env fun _ _ => True
  induction program state with
  | done value state => trivial
  | panic message => trivial
  | spent => trivial
  | crossed rest induction => exact induction
  | asleep ready state resume induction => exact fun next _ _ => induction next

/-! ### Assertions that a program keeps -/

/-- The assertion still holds where the program returns, whatever marks it
crosses. -/
def Stays (fate : Fate) (env : σ → σ → Prop) (holds : σ → Prop)
    (program : Prog σ α) : Prop :=
  Hoare fate env holds program.unmarked fun _ => holds

section Stays

variable {holds : σ → Prop}

theorem stays_pure {value : α} : Stays fate env holds (pure value : Prog σ α) :=
  ⟨fun _ isHeld => isHeld⟩

theorem stays_bind {program : Prog σ β} {next : β → Prog σ α}
    (first : Stays fate env holds program)
    (second : ∀ value, Stays fate env holds (next value)) :
    Stays fate env holds (program >>= next) :=
  hoare_unmarked_bind first second

theorem stays_read {next : σ → Prog σ α}
    (continues : ∀ state, Stays fate env holds (next state)) :
    Stays fate env holds (get >>= next) :=
  ⟨fun state isHeld => (continues state).run state isHeld⟩

theorem stays_modify {change : σ → σ}
    (changes : ∀ state, holds state → holds (change state)) :
    Stays fate env holds (modify change) :=
  ⟨changes⟩

theorem stays_panic {message : String} (allowed : fate.panic message) :
    Stays fate env holds (panic message : Prog σ α) :=
  ⟨fun _ _ => allowed⟩

theorem stays_cross : Stays fate env holds cross :=
  ⟨fun _ isHeld => isHeld⟩

theorem stays_spent (allowed : fate.spent) :
    Stays fate env holds (spent : Prog σ α) :=
  ⟨fun _ _ => allowed⟩

theorem stays_waitUntil {ready : σ → Bool}
    (lasts : ∀ state next, holds state → env state next → holds next) :
    Stays fate env holds (waitUntil ready) := by
  constructor
  intro state isHeld
  unfold wp unmarked waitUntil
  split
  · exact isHeld
  · exact fun next moved _ => lasts state next isHeld moved

theorem stays_upTo {body : Nat → Prog σ Unit} {count : Nat}
    (step : ∀ index, Stays fate env holds (body index)) :
    Stays fate env holds (upTo body count) := by
  induction count with
  | zero => exact stays_pure
  | succ count induction => exact stays_bind induction fun _ => step count

/-- What holds at the start of a stretch holds at its end. -/
theorem stays_of_within {relation : σ → σ → Prop} {program : Prog σ α}
    (within : program.Within relation)
    (kept : ∀ state next, holds state → relation state next → holds next)
    (lasts : ∀ state next, holds state → env state next → holds next) :
    Stays .any env holds program := by
  refine ⟨fun state isHeld => ?_⟩
  exact Run.Keeps.stays (within.run state trivial) isHeld kept lasts

theorem stays_sleep
    (lasts : ∀ state next, holds state → env state next → holds next) :
    Stays fate env holds sleep :=
  ⟨fun state isHeld next moved _ => lasts state next isHeld moved⟩

end Stays

end Prog

end Coop

import Linux011.Library.Tasks

/-!
# What single stretches do to the state

A relation that each stretch of each call keeps to, from where the task
starts or wakes to where it sleeps or returns, holds between the initial
state and every state of every interleaving.  Nothing is owned here; this is
the rule for facts that hold however the tasks are mixed.
-/

namespace Coop

variable {σ α β : Type}

/-- A relation that steps may be chained in. -/
class Steady (relation : σ → σ → Prop) : Prop where
  refl : ∀ state, relation state state
  trans : ∀ {first second third}, relation first second →
    relation second third → relation first third

instance Steady.preserves (invariant : σ → Prop) :
    Steady fun first second => invariant first → invariant second where
  refl := fun _ holds => holds
  trans := fun left right holds => right (left holds)

namespace Run

/-- The run without its marks. -/
def unmarked : Run σ α → Run σ α
  | done value state => .done value state
  | panic message => .panic message
  | spent => .spent
  | crossed rest => rest.unmarked
  | asleep ready state resume =>
      .asleep ready state fun state => (resume state).unmarked

/-- Every stretch stays within `relation`, and the value and the state at the
end satisfy `post`.  `past` says whether what follows a mark counts. -/
def Keeps (past : Prop) (relation : σ → σ → Prop) (post : α → σ → Prop)
    (start : σ) : Run σ α → Prop
  | .done value state => relation start state ∧ post value state
  | .panic _ => True
  | .spent => True
  | .crossed rest => past → rest.Keeps past relation post start
  | .asleep ready state resume =>
      relation start state ∧
        ∀ next, ready next = true →
          (resume next).Keeps past relation post next

end Run

/-- The program without its marks. -/
def Prog.unmarked (program : Prog σ α) : Prog σ α := fun state =>
  (program state).unmarked

theorem Run.unmarked_unmarked (run : Run σ α) :
    run.unmarked.unmarked = run.unmarked := by
  induction run with
  | done value state => rfl
  | panic message => rfl
  | spent => rfl
  | crossed rest induction => exact induction
  | asleep ready state resume induction =>
      exact congrArg (asleep ready state) (funext induction)

theorem Prog.unmarked_unmarked (program : Prog σ α) :
    program.unmarked.unmarked = program.unmarked :=
  funext fun state => (program state).unmarked_unmarked

section Relation

variable {past : Prop} {relation : σ → σ → Prop} {post : α → σ → Prop}

namespace Run

theorem Keeps.unmarked {run : Run σ α} {start : σ}
    (keeps : run.Keeps True relation post start) :
    run.unmarked.Keeps past relation post start := by
  induction run generalizing start with
  | done value state => exact keeps
  | panic message => trivial
  | spent => trivial
  | crossed rest induction => exact induction (keeps trivial)
  | asleep ready state resume induction =>
      obtain ⟨moved, wakes⟩ := keeps
      refine ⟨moved, ?_⟩
      intro next isReady
      exact induction next (wakes next isReady)

/-- What holds past the marks holds up to them. -/
theorem Keeps.shorten {run : Run σ α} {start : σ}
    (keeps : run.Keeps True relation post start) :
    run.Keeps past relation post start := by
  induction run generalizing start with
  | done value state => exact keeps
  | panic message => trivial
  | spent => trivial
  | crossed rest induction => exact fun _ => induction (keeps trivial)
  | asleep ready state resume induction =>
      obtain ⟨moved, wakes⟩ := keeps
      refine ⟨moved, ?_⟩
      intro next isReady
      exact induction next (wakes next isReady)

theorem Keeps.mono {run : Run σ α} {start : σ}
    {wider : σ → σ → Prop} {weaker : α → σ → Prop}
    (keeps : run.Keeps past relation post start)
    (widens : ∀ first second, relation first second → wider first second)
    (implies : ∀ value state, post value state → weaker value state) :
    run.Keeps past wider weaker start := by
  induction run generalizing start with
  | done value state =>
      exact ⟨widens _ _ keeps.1, implies _ _ keeps.2⟩
  | panic message => trivial
  | spent => trivial
  | crossed rest induction => exact fun goesOn => induction (keeps goesOn)
  | asleep ready state resume induction =>
      obtain ⟨moved, wakes⟩ := keeps
      refine ⟨widens _ _ moved, ?_⟩
      intro next isReady
      exact induction next (wakes next isReady)

theorem Keeps.earlier [Steady relation] {run : Run σ α} {before start : σ} (moved : relation before start)
    (keeps : run.Keeps past relation post start) :
    run.Keeps past relation post before := by
  induction run with
  | done value state => exact ⟨Steady.trans moved keeps.1, keeps.2⟩
  | panic message => trivial
  | spent => trivial
  | crossed rest induction => exact fun goesOn => induction (keeps goesOn)
  | asleep ready state resume =>
      exact ⟨Steady.trans moved keeps.1, keeps.2⟩

theorem Keeps.bind [Steady relation] {run : Run σ β} {next : β → Prog σ α} {between : β → σ → Prop} {start : σ}
    (keeps : run.Keeps past relation between start)
    (continues : ∀ value state, between value state →
      (next value state).Keeps past relation post state) :
    (run.bind next).Keeps past relation post start := by
  induction run generalizing start with
  | done value state =>
      exact Keeps.earlier keeps.1 (continues value state keeps.2)
  | panic message => trivial
  | spent => trivial
  | crossed rest induction => exact fun goesOn => induction (keeps goesOn)
  | asleep ready state resume induction =>
      obtain ⟨moved, wakes⟩ := keeps
      refine ⟨moved, ?_⟩
      intro next isReady
      exact induction next (wakes next isReady)

end Run

namespace Prog

/-- `Run.Keeps` of the program's runs from the states that satisfy `pre`. -/
structure Keeps (past : Prop) (relation : σ → σ → Prop) (pre : σ → Prop)
    (program : Prog σ α) (post : α → σ → Prop) : Prop where
  run : ∀ state, pre state → (program state).Keeps past relation post state

/-- The program keeps to `relation` from wherever it starts. -/
abbrev Within (relation : σ → σ → Prop) (program : Prog σ α) : Prop :=
  program.Keeps True relation (fun _ => True) fun _ _ => True

theorem Within.unmarked {program : Prog σ α} {pre : σ → Prop}
    (within : program.Within relation) :
    program.unmarked.Keeps past relation pre fun _ _ => True := by
  constructor
  intro state _
  exact (within.run state trivial).unmarked

theorem Within.shorten {program : Prog σ α} {pre : σ → Prop}
    (within : program.Within relation) :
    program.Keeps past relation pre fun _ _ => True := by
  constructor
  intro state _
  exact (within.run state trivial).shorten

theorem Within.widen {program : Prog σ α} {wider : σ → σ → Prop}
    (within : program.Within relation)
    (widens : ∀ first second, relation first second → wider first second) :
    program.Within wider := by
  constructor
  intro state _
  exact (within.run state trivial).mono widens fun _ _ holds => holds

variable {pre : σ → Prop}

theorem keeps_weaken {program : Prog σ α} {weaker : σ → Prop}
    {stronger : α → σ → Prop}
    (keeps : program.Keeps past relation weaker stronger)
    (needs : ∀ state, pre state → weaker state)
    (gives : ∀ value state, stronger value state → post value state) :
    program.Keeps past relation pre post := by
  constructor
  intro state isPre
  exact (keeps.run state (needs state isPre)).mono (fun _ _ moved => moved) gives

theorem keeps_panic {message : String} :
    (panic message : Prog σ α).Keeps past relation pre post :=
  ⟨fun _ _ => trivial⟩

theorem keeps_spent : (spent : Prog σ α).Keeps past relation pre post :=
  ⟨fun _ _ => trivial⟩

/-- Nothing is asked of what follows a mark that does not count. -/
theorem keeps_cross {next : Unit → Prog σ α} :
    (cross >>= next).Keeps False relation pre post :=
  ⟨fun _ _ goesOn => goesOn.elim⟩

theorem keeps_modify {change : σ → σ} {post : Unit → σ → Prop}
    (moves : ∀ state, pre state →
      relation state (change state) ∧ post () (change state)) :
    (modify change).Keeps past relation pre post :=
  ⟨moves⟩

/-- What has been read is the present state. -/
theorem keeps_get {next : σ → Prog σ α}
    (continues : ∀ state, pre state →
      (next state).Keeps past relation (fun current => current = state) post) :
    (get >>= next).Keeps past relation pre post := by
  constructor
  intro state isPre
  exact (continues state isPre).run state rfl

theorem within_get {next : σ → Prog σ α}
    (continues : ∀ state, (next state).Within relation) :
    (get >>= next).Within relation :=
  keeps_get fun state _ =>
    keeps_weaken (continues state) (fun _ _ => trivial) fun _ _ _ => trivial

theorem within_modify {change : σ → σ}
    (moves : ∀ state, relation state (change state)) :
    (modify change).Within relation :=
  ⟨fun state _ => ⟨moves state, trivial⟩⟩

variable [Steady relation]

theorem keeps_pure {value : α} (holds : ∀ state, pre state → post value state) :
    (pure value : Prog σ α).Keeps past relation pre post :=
  ⟨fun state isPre => ⟨Steady.refl state, holds state isPre⟩⟩

theorem keeps_bind {program : Prog σ β} {next : β → Prog σ α}
    {between : β → σ → Prop}
    (first : program.Keeps past relation pre between)
    (second : ∀ value, (next value).Keeps past relation (between value) post) :
    (program >>= next).Keeps past relation pre post := by
  constructor
  intro state isPre
  exact Run.Keeps.bind (first.run state isPre) fun value => (second value).run

theorem keeps_waitUntil {ready : σ → Bool} :
    (waitUntil ready).Keeps past relation pre
      fun _ state => ready state = true := by
  constructor
  intro state _
  unfold waitUntil
  split
  · rename_i isReady
    exact ⟨Steady.refl state, isReady⟩
  · exact ⟨Steady.refl state, fun next isReady => ⟨Steady.refl next, isReady⟩⟩

/-! ### Programs without a condition -/

theorem within_pure (value : α) : (pure value : Prog σ α).Within relation :=
  keeps_pure fun _ _ => trivial

theorem within_bind {program : Prog σ β} {next : β → Prog σ α}
    (first : program.Within relation)
    (second : ∀ value, (next value).Within relation) :
    (program >>= next).Within relation :=
  keeps_bind first second

theorem within_waitUntil (ready : σ → Bool) :
    (waitUntil ready).Within relation :=
  keeps_weaken keeps_waitUntil (fun _ _ => trivial) fun _ _ _ => trivial

theorem within_sleep : (sleep : Prog σ Unit).Within relation :=
  ⟨fun state _ =>
    ⟨Steady.refl state, fun next _ => ⟨Steady.refl next, trivial⟩⟩⟩

theorem within_cross : (cross : Prog σ Unit).Within relation :=
  ⟨fun state _ _ => ⟨Steady.refl state, trivial⟩⟩

theorem within_upTo {body : Nat → Prog σ Unit} {count : Nat}
    (each : ∀ index, (body index).Within relation) :
    (upTo body count).Within relation := by
  induction count with
  | zero => exact within_pure ()
  | succ count induction => exact within_bind induction fun _ => each count

end Prog

/-! ## Whole runs of a system -/

variable {client : Client σ α} {count : Nat} {device : σ → σ → Prop}

/-- Each call of the client keeps to the relation up to its marks, and so
does the device. -/
structure Bounded (client : Client σ α) (device relation : σ → σ → Prop) :
    Prop where
  call : ∀ memory call, client.enabled memory call →
    (client.program call).Keeps False relation (fun _ => True) fun _ _ => True
  device : ∀ state next, device state next → relation state next

/-- What is left of a call keeps to the relation too. -/
def Task.Bounded (relation : σ → σ → Prop) : Task client → Prop
  | .idle _ => True
  | .blocked _ _ ready resume => ∀ next, ready next = true →
      (resume next).Keeps False relation (fun _ _ => True) next

theorem reachable_related [Steady relation]
    (bounded : Bounded client device relation) {initial : σ}
    {memory : client.Memory} {world : World client count}
    (reached : Reachable device initial memory world) :
    relation initial world.state ∧
      ∀ index, (world.tasks index).Bounded relation := by
  induction reached with
  | start => exact ⟨Steady.refl initial, fun _ => trivial⟩
  | @step world next reached step induction =>
      obtain ⟨moved, each⟩ := induction
      cases step with
      | @task index memory call run state task stretch settled =>
          have keeps : run.Keeps False relation (fun _ _ => True)
              world.state := by
            cases stretch with
            | call isIdle enabled =>
                exact (bounded.call _ _ enabled).run _ trivial
            | resume ready resume isBlocked isReady =>
                have mine := each index
                rw [isBlocked] at mine
                exact mine _ isReady
          have left : relation world.state state ∧
              task.Bounded relation := by
            cases run with
            | done value final =>
                obtain ⟨rfl, rfl⟩ := Prod.mk.inj (Option.some.inj settled)
                exact ⟨keeps.1, trivial⟩
            | asleep ready final resume =>
                obtain ⟨rfl, rfl⟩ := Prod.mk.inj (Option.some.inj settled)
                exact keeps
            | panic message => cases settled
            | spent => cases settled
            | crossed rest => cases settled
          refine ⟨Steady.trans moved left.1, ?_⟩
          intro other
          show (Function.update world.tasks index task other).Bounded relation
          by_cases same : other = index
          · subst same
            rw [Function.update_self]
            exact left.2
          · rw [Function.update_of_ne same]
            exact each other
      | device acts =>
          exact ⟨Steady.trans moved (bounded.device _ _ acts), each⟩

end Relation

end Coop

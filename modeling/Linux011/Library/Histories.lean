import Linux011.Library.Hoare

/-!
# The states a run sleeps in

What a program has at a sleep, it may have to answer for where it returns.  A
run is followed with the list of the states it sleeps in; a program answers
for a kind of state if every run that was in such a state, where it started or
where it slept, ends as demanded.
-/

namespace Coop

variable {σ α β : Type} {env : σ → σ → Prop}

namespace Run

/-- The run can sleep in the states of `seen`, one after the other, and end
with this value and in this state, past its marks. -/
def Passes (env : σ → σ → Prop) (seen : List σ) (value : α) (final : σ) :
    Run σ α → Prop
  | .done result state => seen = [] ∧ result = value ∧ state = final
  | .panic _ => False
  | .spent => False
  | .crossed rest => rest.Passes env seen value final
  | .asleep ready state resume =>
      ∃ next rest, seen = state :: rest ∧ env state next ∧
        ready next = true ∧ (resume next).Passes env rest value final

variable {seen : List σ} {value : α} {final : σ}

theorem Passes.mayReturn {run : Run σ α}
    (passes : run.Passes env seen value final) :
    run.MayReturn True env value final := by
  induction run generalizing seen with
  | done result state => exact passes.2
  | panic message => exact passes.elim
  | spent => exact passes.elim
  | crossed rest induction => exact ⟨trivial, induction passes⟩
  | asleep ready state resume induction =>
      obtain ⟨next, rest, _, acts, isReady, passes⟩ := passes
      exact ⟨next, acts, isReady, induction next passes⟩

theorem passes_bind {run : Run σ β} {next : β → Prog σ α}
    (passes : (run.bind next).Passes env seen value final) :
    ∃ result state before after, seen = before ++ after ∧
      run.Passes env before result state ∧
        (next result state).Passes env after value final := by
  induction run generalizing seen with
  | done result state =>
      exact ⟨result, state, [], seen, rfl, ⟨rfl, rfl, rfl⟩, passes⟩
  | panic message => exact passes.elim
  | spent => exact passes.elim
  | crossed rest induction => exact induction passes
  | asleep ready state resume induction =>
      obtain ⟨woken, rest, rfl, acts, isReady, passes⟩ := passes
      obtain ⟨result, last, before, after, rfl, first, second⟩ :=
        induction woken passes
      exact ⟨result, last, state :: before, after, rfl,
        ⟨woken, before, rfl, acts, isReady, first⟩, second⟩

/-- A relation that each stretch and the environment keep to holds from the
start to every state on the way, and from there to the end. -/
theorem Passes.related {relation : σ → σ → Prop} [Steady relation]
    {post : α → σ → Prop} {run : Run σ α} {start : σ}
    (passes : run.Passes env seen value final)
    (keeps : run.Keeps True relation post start)
    (acts : ∀ state next, env state next → relation state next) :
    relation start final ∧
      ∀ state ∈ seen, relation start state ∧ relation state final := by
  induction run generalizing seen start with
  | done result state =>
      obtain ⟨rfl, rfl, rfl⟩ := passes
      exact ⟨keeps.1, fun _ member => absurd member List.not_mem_nil⟩
  | panic message => exact passes.elim
  | spent => exact passes.elim
  | crossed rest induction => exact induction passes (keeps trivial)
  | asleep ready state resume induction =>
      obtain ⟨next, rest, rfl, acted, isReady, passes⟩ := passes
      obtain ⟨moved, wakes⟩ := keeps
      obtain ⟨ended, between⟩ := induction next passes (wakes next isReady)
      have slept : relation start next := Steady.trans moved (acts _ _ acted)
      refine ⟨Steady.trans slept ended, ?_⟩
      intro other member
      rcases List.mem_cons.mp member with rfl | later
      · exact ⟨moved, Steady.trans (acts _ _ acted) ended⟩
      · obtain ⟨since, until_⟩ := between other later
        exact ⟨Steady.trans slept since, until_⟩

end Run

namespace Prog

theorem passes_modify {change : σ → σ} {next : Unit → Prog σ α}
    {state final : σ} {seen : List σ} {value : α} :
    ((modify change >>= next) state).Passes env seen value final ↔
      (next () (change state)).Passes env seen value final :=
  Iff.rfl

/-- Every run past the states of `seen` ends as they demand. -/
def AnswersFor (env : σ → σ → Prop) (program : Prog σ α)
    (owed : σ → α → σ → Prop) (state : σ) : Prop :=
  ∀ seen value final, (program state).Passes env seen value final →
    ∀ earlier ∈ seen, owed earlier value final

/-- Where a run from `pre` started or slept in a watched state, `post` holds
at its end. -/
structure Answers (env : σ → σ → Prop) (pre watched : σ → Prop)
    (program : Prog σ α) (post : α → σ → Prop) : Prop where
  run : ∀ state, pre state → ∀ seen value final,
    (program state).Passes env seen value final →
      ∀ earlier ∈ state :: seen, watched earlier → post value final

variable {pre watched : σ → Prop} {post : α → σ → Prop}

theorem answers_pre {program : Prog σ α} {weaker : σ → Prop}
    (answers : Answers env weaker watched program post)
    (needs : ∀ state, pre state → weaker state) :
    Answers env pre watched program post :=
  ⟨fun state isPre => answers.run state (needs state isPre)⟩

theorem answers_post {program : Prog σ α} {stronger : α → σ → Prop}
    (answers : Answers env pre watched program stronger)
    (gives : ∀ value state, stronger value state → post value state) :
    Answers env pre watched program post := by
  constructor
  intro state isPre seen value final passes earlier member isWatched
  exact gives value final
    (answers.run state isPre seen value final passes earlier member isWatched)

theorem answers_pure {value : α}
    (holds : ∀ state, pre state → watched state → post value state) :
    Answers env pre watched (pure value) post := by
  constructor
  rintro state isPre _ _ _ ⟨rfl, rfl, rfl⟩ earlier member isWatched
  obtain rfl := List.mem_singleton.mp member
  exact holds earlier isPre isWatched

/-- A first part that keeps the watched states watched. -/
theorem answers_bind {program : Prog σ β} {next : β → Prog σ α}
    {between : β → σ → Prop}
    (hoare : Hoare .any env pre program.unmarked between)
    (within : program.Within fun first second =>
      watched first → watched second)
    (acts : ∀ state next, env state next → watched state → watched next)
    (second : ∀ value, Answers env (between value) watched (next value) post) :
    Answers env pre watched (program >>= next) post := by
  constructor
  intro state isPre seen value final passes earlier member isWatched
  obtain ⟨result, middle, before, after, rfl, first, rest⟩ :=
    Run.passes_bind passes
  have isBetween := first.mayReturn.meets (hoare.run state isPre)
  obtain ⟨fromStart, onTheWay⟩ :=
    first.related (within.run state trivial) acts
  have answer := (second result).run middle isBetween _ _ _ rest
  rcases List.mem_cons.mp member with rfl | isSeen
  · exact answer middle List.mem_cons_self (fromStart isWatched)
  · rcases List.mem_append.mp isSeen with early | late
    · exact answer middle List.mem_cons_self
        ((onTheWay earlier early).2 isWatched)
    · exact answer earlier (List.mem_cons_of_mem _ late) isWatched

/-- A last part that keeps the watched states watched. -/
theorem answers_end {program : Prog σ α} {between : α → σ → Prop}
    (hoare : Hoare .any env pre program.unmarked between)
    (within : program.Within fun first second =>
      watched first → watched second)
    (acts : ∀ state next, env state next → watched state → watched next)
    (gives : ∀ value state, between value state → watched state →
      post value state) :
    Answers env pre watched program post := by
  constructor
  intro state isPre seen value final passes earlier member isWatched
  obtain ⟨fromStart, onTheWay⟩ :=
    passes.related (within.run state trivial) acts
  refine gives value final (passes.mayReturn.meets (hoare.run state isPre)) ?_
  rcases List.mem_cons.mp member with rfl | isSeen
  · exact fromStart isWatched
  · exact (onTheWay earlier isSeen).2 isWatched

/-- A last part in which no state becomes watched. -/
theorem answers_hoare {program : Prog σ α}
    (hoare : Hoare .any env (fun state => pre state ∧ watched state)
      program.unmarked post)
    (within : program.Within fun first second =>
      watched second → watched first)
    (acts : ∀ state next, env state next → watched next → watched state) :
    Answers env pre watched program post := by
  have : Steady fun first second : σ => watched second → watched first :=
    ⟨fun _ isWatched => isWatched,
      fun left right isWatched => left (right isWatched)⟩
  constructor
  intro state isPre seen value final passes earlier member isWatched
  obtain ⟨_, onTheWay⟩ := passes.related (within.run state trivial) acts
  have atStart : watched state := by
    rcases List.mem_cons.mp member with rfl | isSeen
    · exact isWatched
    · exact (onTheWay earlier isSeen).1 isWatched
  exact passes.mayReturn.meets (hoare.run state ⟨isPre, atStart⟩)

end Prog

end Coop

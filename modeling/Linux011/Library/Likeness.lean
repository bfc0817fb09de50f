import Linux011.Library.Hoare

/-!
# Programs that run alike

Two programs may be written differently and yet run alike from the states of a
kind: they sleep at the same points and in the same states, and end in the
same way.  What is shown of one of them then holds of the other.  As in
`Hoare`, nothing is asked of what follows a mark.
-/

namespace Coop

variable {σ α β : Type} {env : σ → σ → Prop}

namespace Run

/-- The other run does the same up to its marks, and where they return the
value and the state satisfy `post`. -/
def Like (env : σ → σ → Prop) (post : α → σ → Prop) :
    Run σ α → Run σ α → Prop
  | .done value state, other => other = .done value state ∧ post value state
  | .panic message, other => other = .panic message
  | .spent, other => other = .spent
  | .crossed _, other => ∃ rest, other = .crossed rest
  | .asleep ready state resume, other =>
      ∃ wakes, other = .asleep ready state wakes ∧
        ∀ next, env state next → ready next = true →
          (resume next).Like env post (wakes next)

variable {post : α → σ → Prop} {run other : Run σ α}

theorem Like.mono {weaker : α → σ → Prop} (like : run.Like env post other)
    (implies : ∀ value state, post value state → weaker value state) :
    run.Like env weaker other := by
  induction run generalizing other with
  | done value state => exact ⟨like.1, implies _ _ like.2⟩
  | panic message => exact like
  | spent => exact like
  | crossed rest => exact like
  | asleep ready state resume induction =>
      obtain ⟨wakes, same, each⟩ := like
      exact ⟨wakes, same, fun next moved isReady =>
        induction next (each next moved isReady)⟩

/-- A run is like itself. -/
theorem like_of_wp (holds : run.wp .any env post) : run.Like env post run := by
  induction run with
  | done value state => exact ⟨rfl, holds⟩
  | panic message => rfl
  | spent => rfl
  | crossed rest => exact ⟨rest, rfl⟩
  | asleep ready state resume induction =>
      exact ⟨resume, rfl, fun next moved isReady =>
        induction next (holds next moved isReady)⟩

theorem Like.wp (like : run.Like env post other) : run.wp .any env post := by
  induction run generalizing other with
  | done value state => exact like.2
  | panic message => trivial
  | spent => trivial
  | crossed rest => trivial
  | asleep ready state resume induction =>
      obtain ⟨_, _, each⟩ := like
      exact fun next moved isReady =>
        induction next (each next moved isReady)

theorem Like.bind {next further : α → Prog σ β} {last : β → σ → Prop}
    (like : run.Like env post other)
    (continues : ∀ value state, post value state →
      (next value state).Like env last (further value state)) :
    (run.bind next).Like env last (other.bind further) := by
  induction run generalizing other with
  | done value state =>
      obtain ⟨rfl, isPost⟩ := like
      exact continues value state isPost
  | panic message =>
      obtain rfl := like
      rfl
  | spent =>
      obtain rfl := like
      rfl
  | crossed rest =>
      obtain ⟨rest, rfl⟩ := like
      exact ⟨_, rfl⟩
  | asleep ready state resume induction =>
      obtain ⟨wakes, rfl, each⟩ := like
      exact ⟨_, rfl, fun next moved isReady =>
        induction next (each next moved isReady)⟩

/-- Both of two postconditions. -/
theorem wp_and {fate : Fate} {further : α → σ → Prop}
    (left : run.wp fate env post) (right : run.wp fate env further) :
    run.wp fate env fun value state => post value state ∧ further value state := by
  induction run with
  | done value state => exact ⟨left, right⟩
  | panic message => exact left
  | spent => exact left
  | crossed rest => exact left
  | asleep ready state resume induction =>
      exact fun next moved isReady =>
        induction next (left next moved isReady) (right next moved isReady)

/-- What holds past the marks holds up to them. -/
theorem wp_of_unmarked (holds : run.unmarked.wp .any env post) :
    run.wp .any env post := by
  induction run with
  | done value state => exact holds
  | panic message => exact holds
  | spent => exact holds
  | crossed rest => trivial
  | asleep ready state resume induction =>
      exact fun next moved isReady => induction next (holds next moved isReady)

end Run

namespace Prog

/-- `Run.Like` of the runs from the states that satisfy `pre`. -/
structure Like (env : σ → σ → Prop) (pre : σ → Prop) (program other : Prog σ α)
    (post : α → σ → Prop) : Prop where
  run : ∀ state, pre state → (program state).Like env post (other state)

variable {pre : σ → Prop} {post : α → σ → Prop} {program other : Prog σ α}

theorem like_of_hoare (hoare : Hoare .any env pre program post) :
    Like env pre program program post :=
  ⟨fun state isPre => Run.like_of_wp (hoare.run state isPre)⟩

theorem Like.hoare (like : Like env pre program other post) :
    Hoare .any env pre program post :=
  ⟨fun state isPre => (like.run state isPre).wp⟩

theorem like_pre {weaker : σ → Prop} (like : Like env weaker program other post)
    (needs : ∀ state, pre state → weaker state) :
    Like env pre program other post :=
  ⟨fun state isPre => like.run state (needs state isPre)⟩

theorem like_bind {program other : Prog σ β} {next further : β → Prog σ α}
    {between : β → σ → Prop} (first : Like env pre program other between)
    (second : ∀ value,
      Like env (between value) (next value) (further value) post) :
    Like env pre (program >>= next) (other >>= further) post := by
  constructor
  intro state isPre
  exact Run.Like.bind (first.run state isPre) fun value => (second value).run

/-- Both begin with the same program. -/
theorem like_then {program : Prog σ β} {next further : β → Prog σ α}
    {between : β → σ → Prop} (first : Hoare .any env pre program between)
    (second : ∀ value,
      Like env (between value) (next value) (further value) post) :
    Like env pre (program >>= next) (program >>= further) post :=
  like_bind (like_of_hoare first) second

theorem like_pure {value : α} (holds : ∀ state, pre state → post value state) :
    Like env pre (pure value : Prog σ α) (pure value) post :=
  like_of_hoare (hoare_pure holds)

theorem like_get {next further : σ → Prog σ α}
    (continues : ∀ state, pre state →
      Like env (fun current => current = state) (next state) (further state)
        post) :
    Like env pre (get >>= next) (get >>= further) post :=
  ⟨fun state isPre => (continues state isPre).run state rfl⟩

theorem like_read {next further : σ → Prog σ α}
    (continues : ∀ state, Like env pre (next state) (further state) post) :
    Like env pre (get >>= next) (get >>= further) post :=
  ⟨fun state isPre => (continues state).run state isPre⟩

/-- Only one of them reads the state. -/
theorem like_getLeft {next : σ → Prog σ α}
    (continues : ∀ state, pre state →
      Like env (fun current => current = state) (next state) other post) :
    Like env pre (get >>= next) other post :=
  ⟨fun state isPre => (continues state isPre).run state rfl⟩

/-- From one state that satisfies the precondition. -/
theorem like_at {state : σ} (isPre : pre state)
    (like : Like env pre program other post) :
    Like env (fun current => current = state) program other post := by
  refine like_pre like ?_
  rintro current rfl
  exact isPre

/-- A fact that does not depend on the state. -/
theorem like_given {fact : Prop}
    (like : fact → Like env pre program other post) :
    Like env (fun state => fact ∧ pre state) program other post :=
  ⟨fun state holds => (like holds.1).run state holds.2⟩

theorem hoare_and {fate : Fate} {further : α → σ → Prop}
    (left : Hoare fate env pre program post)
    (right : Hoare fate env pre program further) :
    Hoare fate env pre program fun value state =>
      post value state ∧ further value state :=
  ⟨fun state isPre =>
    Run.wp_and (left.run state isPre) (right.run state isPre)⟩

theorem hoare_of_stays {holds : σ → Prop}
    (stays : Stays .any env holds program) :
    Hoare .any env holds program fun _ => holds :=
  ⟨fun state isHeld => Run.wp_of_unmarked (stays.run state isHeld)⟩

end Prog

end Coop

import Mathlib.Algebra.BigOperators.Fin
import Linux011.Library.Coop

/-!
# Tasks that share a state

Any number of tasks run cooperative programs over one state, and a device
changes the state between their stretches.  Every task owns a resource; a
discipline says which states the sum of all resources allows, and what the
owner of a resource may rely on while it sleeps.  If each call is safe under
the discipline, every state of every interleaving is allowed.
-/

namespace Coop

variable {σ α β R : Type} [AddCommMonoid R]

structure Discipline (σ R : Type) [AddCommMonoid R] where
  allowed : R → σ → Prop
  stable : R → σ → σ → Prop
  refl : ∀ owned state, stable owned state state
  trans : ∀ {owned first second third}, stable owned first second →
    stable owned second third → stable owned first third
  split : ∀ {left right first second},
    stable (left + right) first second → stable left first second

/-- The run keeps the discipline while the other tasks own `others` and were
last given the state `start`; `post` sees the task's and the others'
resources. -/
def Run.Safe (discipline : Discipline σ R) (post : R → R → α → σ → Prop)
    (others : R) (start : σ) : Run σ α → Prop
  | .done value state => ∃ mine,
      discipline.allowed (mine + others) state ∧
        discipline.stable others start state ∧ post mine others value state
  | .panic _ => True
  | .spent => True
  | .crossed _ => True
  | .asleep ready state resume => ∃ mine,
      discipline.allowed (mine + others) state ∧
        discipline.stable others start state ∧
        ∀ others next, discipline.allowed (mine + others) next →
          discipline.stable mine state next → ready next = true →
            (resume next).Safe discipline post others next

variable {discipline : Discipline σ R} {others : R} {start : σ}

namespace Run.Safe

theorem earlier {post : R → R → α → σ → Prop} {run : Run σ α} {before : σ}
    (kept : discipline.stable others before start)
    (safe : run.Safe discipline post others start) :
    run.Safe discipline post others before := by
  cases run with
  | done value state =>
      obtain ⟨mine, allowed, stable, holds⟩ := safe
      exact ⟨mine, allowed, discipline.trans kept stable, holds⟩
  | panic message => exact safe
  | spent => exact safe
  | crossed rest => exact safe
  | asleep ready state resume =>
      obtain ⟨mine, allowed, stable, wakes⟩ := safe
      exact ⟨mine, allowed, discipline.trans kept stable, wakes⟩

theorem weaken {post weaker : R → R → α → σ → Prop} {run : Run σ α}
    (safe : run.Safe discipline post others start)
    (implies : ∀ mine others value state,
      discipline.allowed (mine + others) state →
        post mine others value state → weaker mine others value state) :
    run.Safe discipline weaker others start := by
  induction run generalizing others start with
  | done value state =>
      obtain ⟨mine, allowed, stable, holds⟩ := safe
      exact ⟨mine, allowed, stable, implies _ _ _ _ allowed holds⟩
  | panic message => exact safe
  | spent => exact safe
  | crossed rest induction => exact safe
  | asleep ready state resume induction =>
      obtain ⟨mine, allowed, stable, wakes⟩ := safe
      refine ⟨mine, allowed, stable, ?_⟩
      intro nextOthers next nextAllowed nextStable isReady
      exact induction next (wakes nextOthers next nextAllowed nextStable isReady)

theorem bind {first : R → R → α → σ → Prop} {post : R → R → β → σ → Prop}
    {run : Run σ α} {next : α → Prog σ β}
    (safe : run.Safe discipline first others start)
    (continues : ∀ mine others value state,
      discipline.allowed (mine + others) state →
        first mine others value state →
          (next value state).Safe discipline post others state) :
    (run.bind next).Safe discipline post others start := by
  induction run generalizing others start with
  | done value state =>
      obtain ⟨mine, allowed, stable, holds⟩ := safe
      exact earlier stable (continues mine others value state allowed holds)
  | panic message => exact safe
  | spent => exact safe
  | crossed rest induction => exact safe
  | asleep ready state resume induction =>
      obtain ⟨mine, allowed, stable, wakes⟩ := safe
      refine ⟨mine, allowed, stable, ?_⟩
      intro nextOthers next nextAllowed nextStable isReady
      exact induction next (wakes nextOthers next nextAllowed nextStable isReady)

end Run.Safe

namespace Prog

variable {post : R → R → α → σ → Prop} {state : σ}

def Safe (discipline : Discipline σ R) (post : R → R → α → σ → Prop)
    (others : R) (start : σ) (program : Prog σ α) (state : σ) : Prop :=
  (program state).Safe discipline post others start

theorem safe_pure {value : α} {mine : R}
    (allowed : discipline.allowed (mine + others) state)
    (stable : discipline.stable others start state)
    (holds : post mine others value state) :
    (pure value : Prog σ α).Safe discipline post others start state :=
  ⟨mine, allowed, stable, holds⟩

theorem safe_bind {program : Prog σ α} {next : α → Prog σ β}
    {first : R → R → α → σ → Prop} {post : R → R → β → σ → Prop}
    (safe : program.Safe discipline first others start state)
    (continues : ∀ mine others value state,
      discipline.allowed (mine + others) state →
        first mine others value state →
          (next value).Safe discipline post others state state) :
    (program >>= next).Safe discipline post others start state :=
  Run.Safe.bind safe continues

theorem safe_waitUntil {ready : σ → Bool} {mine : R}
    {post : R → R → Unit → σ → Prop}
    (allowed : discipline.allowed (mine + others) state)
    (stable : discipline.stable others start state)
    (wakes : ∀ others next, discipline.allowed (mine + others) next →
      discipline.stable mine state next → ready next = true →
        post mine others () next) :
    (waitUntil ready).Safe discipline post others start state := by
  unfold Safe waitUntil
  by_cases isReady : ready state = true
  · rw [if_pos isReady]
    exact ⟨mine, allowed, stable, wakes others state allowed
      (discipline.refl mine state) isReady⟩
  · rw [if_neg isReady]
    refine ⟨mine, allowed, stable, ?_⟩
    intro nextOthers next nextAllowed nextStable nextReady
    exact ⟨mine, nextAllowed, discipline.refl nextOthers next,
      wakes nextOthers next nextAllowed nextStable nextReady⟩

theorem safe_sleep {mine : R} {post : R → R → Unit → σ → Prop}
    (allowed : discipline.allowed (mine + others) state)
    (stable : discipline.stable others start state)
    (wakes : ∀ others next, discipline.allowed (mine + others) next →
      discipline.stable mine state next → post mine others () next) :
    sleep.Safe discipline post others start state := by
  refine ⟨mine, allowed, stable, ?_⟩
  intro nextOthers next nextAllowed nextStable _
  exact ⟨mine, nextAllowed, discipline.refl nextOthers next,
    wakes nextOthers next nextAllowed nextStable⟩

/-! ### Triples

A triple gives up one resource for another and leaves the rest of what its
task owns, the frame, alone. -/

structure Triple (discipline : Discipline σ R) (pre : σ → Prop) (before : R)
    (program : Prog σ α) (after : α → R) (post : α → σ → Prop) : Prop where
  run : ∀ frame others state, pre state →
    discipline.allowed (before + frame + others) state →
      program.Safe discipline
        (fun mine _ value next => mine = after value + frame ∧ post value next)
        others state state

section Triples

variable {pre : σ → Prop} {before : R} {after : α → R} {post : α → σ → Prop}

theorem triple_pure {value : α} (holds : ∀ state, pre state → post value state)
    (same : after value = before) :
    Triple discipline pre before (pure value : Prog σ α) after post := by
  constructor
  intro frame others state isPre allowed
  rw [← same] at allowed
  exact safe_pure allowed (discipline.refl _ _) ⟨rfl, holds state isPre⟩

theorem triple_bind {program : Prog σ β} {next : β → Prog σ α}
    {middle : β → R} {between : β → σ → Prop}
    (first : Triple discipline pre before program middle between)
    (second : ∀ value, Triple discipline (between value) (middle value)
      (next value) after post) :
    Triple discipline pre before (program >>= next) after post := by
  constructor
  intro frame others state isPre allowed
  apply safe_bind (first.run frame others state isPre allowed)
  rintro mine nextOthers value nextState nextAllowed ⟨owned, holds⟩
  rw [owned] at nextAllowed
  exact (second value).run frame nextOthers nextState holds nextAllowed

/-- The state that is read is an allowed one. -/
theorem triple_get_allowed {next : σ → Prog σ α}
    (continues : ∀ state rest, pre state →
      discipline.allowed (before + rest) state →
        Triple discipline (fun current => current = state) before (next state)
          after post) :
    Triple discipline pre before (get >>= next) after post := by
  constructor
  intro frame others state isPre allowed
  have total := add_assoc before frame others ▸ allowed
  exact (continues state _ isPre total).run frame others state rfl allowed

theorem triple_get {next : σ → Prog σ α}
    (continues : ∀ state, pre state →
      Triple discipline (fun current => current = state) before (next state)
        after post) :
    Triple discipline pre before (get >>= next) after post :=
  triple_get_allowed fun state _ isPre _ => continues state isPre

/-- A change of the state that hands over resources. -/
theorem triple_modify {change : σ → σ} {after : Unit → R}
    {post : Unit → σ → Prop}
    (changes : ∀ rest state, pre state →
      discipline.allowed (before + rest) state →
        discipline.allowed (after () + rest) (change state) ∧
          discipline.stable rest state (change state) ∧
          post () (change state)) :
    Triple discipline pre before (modify change) after post := by
  constructor
  intro frame others state isPre allowed
  rw [add_assoc] at allowed
  obtain ⟨nextAllowed, stable, holds⟩ :=
    changes (frame + others) state isPre allowed
  refine ⟨after () + frame, ?_, ?_, rfl, holds⟩
  · rw [add_assoc]
    exact nextAllowed
  · rw [add_comm] at stable
    exact discipline.split stable

theorem triple_waitUntil {ready : σ → Bool} {after : Unit → R}
    (same : after () = before) :
    Triple discipline pre before (waitUntil ready) after
      (fun _ next => ready next = true) := by
  constructor
  intro frame others state _ allowed
  refine safe_waitUntil allowed (discipline.refl _ _) ?_
  intro nextOthers next nextAllowed nextStable isReady
  exact ⟨by rw [same], isReady⟩

theorem triple_sleep {after : Unit → R} (same : after () = before) :
    Triple discipline pre before sleep after (fun _ _ => True) := by
  constructor
  intro frame others state _ allowed
  refine safe_sleep allowed (discipline.refl _ _) ?_
  intro nextOthers next nextAllowed nextStable
  exact ⟨by rw [same], trivial⟩

theorem triple_cross {next : Prog σ α} :
    Triple discipline pre before (cross >>= fun _ => next) after post :=
  ⟨fun _ _ _ _ _ => trivial⟩

theorem triple_spent : Triple discipline pre before spent after post :=
  ⟨fun _ _ _ _ _ => trivial⟩

theorem triple_panic {message : String} :
    Triple discipline pre before (panic message) after post :=
  ⟨fun _ _ _ _ _ => trivial⟩

theorem triple_weaken {program : Prog σ α} {stronger : σ → Prop}
    {first : α → σ → Prop}
    (triple : Triple discipline pre before program after first)
    (needs : ∀ state, stronger state → pre state)
    (gives : ∀ value state, first value state → post value state) :
    Triple discipline stronger before program after post := by
  constructor
  intro frame others state isPre allowed
  apply Run.Safe.weaken (triple.run frame others state (needs state isPre) allowed)
  rintro mine nextOthers value next _ ⟨owned, holds⟩
  exact ⟨owned, gives value next holds⟩

/-- What the task owns beside goes along unchanged. -/
theorem triple_frame {program : Prog σ α} (extra : R)
    (triple : Triple discipline pre before program after post) :
    Triple discipline pre (before + extra) program
      (fun value => after value + extra) post := by
  constructor
  intro frame others state isPre allowed
  rw [add_assoc before] at allowed
  apply Run.Safe.weaken (triple.run (extra + frame) others state isPre allowed)
  rintro mine nextOthers value next _ ⟨owned, holds⟩
  exact ⟨by rw [owned, add_assoc], holds⟩

theorem triple_upTo {body : Nat → Prog σ Unit} {count : Nat} {owned : R}
    {always : σ → Prop}
    (step : ∀ index, Triple discipline always owned (body index)
      (fun _ => owned) (fun _ => always)) :
    Triple discipline always owned (upTo body count) (fun _ => owned)
      (fun _ => always) := by
  induction count with
  | zero => exact triple_pure (fun _ holds => holds) rfl
  | succ count induction =>
      exact triple_bind induction fun _ => step count

end Triples

end Prog

/-! ## Systems of tasks -/

/-- What tasks do: the calls they may make, by what they remember, and what
they remember of a finished call. -/
structure Client (σ α : Type) where
  Call : Type
  Memory : Type
  enabled : Memory → Call → Prop
  program : Call → Prog σ α
  finish : Memory → Call → α → Memory

inductive Task (client : Client σ α) where
  | idle (memory : client.Memory)
  | blocked (memory : client.Memory) (call : client.Call)
      (ready : σ → Bool) (resume : σ → Run σ α)

structure World (client : Client σ α) (count : Nat) where
  state : σ
  tasks : Fin count → Task client

variable {client : Client σ α} {count : Nat}

/-- The stretches task `index` can run now, with the call they belong to. -/
inductive Stretch (world : World client count) (index : Fin count) :
    client.Memory → client.Call → Run σ α → Prop where
  | call (memory : client.Memory) (call : client.Call)
      (isIdle : world.tasks index = .idle memory)
      (enabled : client.enabled memory call) :
      Stretch world index memory call (client.program call world.state)
  | resume (memory : client.Memory) (call : client.Call) (ready : σ → Bool)
      (resume : σ → Run σ α)
      (isBlocked : world.tasks index = .blocked memory call ready resume)
      (isReady : ready world.state = true) :
      Stretch world index memory call (resume world.state)

/-- Where a stretch leaves the state and its task; none if the machine stops
or a mark is crossed. -/
def settle (memory : client.Memory) (call : client.Call) :
    Run σ α → Option (σ × Task client)
  | .done value state => some (state, .idle (client.finish memory call value))
  | .asleep ready state resume =>
      some (state, .blocked memory call ready resume)
  | _ => none

inductive Step (device : σ → σ → Prop) :
    World client count → World client count → Prop where
  | task {world : World client count} {index : Fin count}
      {memory : client.Memory} {call : client.Call} {run : Run σ α}
      {state : σ} {task : Task client}
      (stretch : Stretch world index memory call run)
      (settled : settle memory call run = some (state, task)) :
      Step device world ⟨state, Function.update world.tasks index task⟩
  | device {world : World client count} {state : σ}
      (acts : device world.state state) :
      Step device world { world with state }

inductive Reachable (device : σ → σ → Prop) (initial : σ)
    (memory : client.Memory) : World client count → Prop where
  | start : Reachable device initial memory ⟨initial, fun _ => .idle memory⟩
  | step {world next : World client count}
      (reached : Reachable device initial memory world)
      (step : Step device world next) : Reachable device initial memory next

/-! ### Schedules -/

/-- A move of a system: a task makes a call, a task goes on, or the device
acts. -/
inductive Move (client : Client σ α) (count : Nat) where
  | call (index : Fin count) (call : client.Call)
  | wake (index : Fin count)
  | device (act : σ → σ)

/-- The world after a stretch of a task. -/
def World.after (world : World client count) (index : Fin count)
    (memory : client.Memory) (call : client.Call) (run : Run σ α) :
    Option (World client count) :=
  match settle memory call run with
  | none => none
  | some (state, task) => some ⟨state, Function.update world.tasks index task⟩

def World.move (world : World client count) :
    Move client count → Option (World client count)
  | .call index call =>
      match world.tasks index with
      | .idle memory =>
          world.after index memory call (client.program call world.state)
      | .blocked _ _ _ _ => none
  | .wake index =>
      match world.tasks index with
      | .idle _ => none
      | .blocked memory call ready resume =>
          if ready world.state then
            world.after index memory call (resume world.state)
          else none
  | .device act => some { world with state := act world.state }

def World.play (world : World client count) :
    List (Move client count) → Option (World client count)
  | [] => some world
  | move :: rest =>
      match world.move move with
      | none => none
      | some next => next.play rest

/-- What a client and a device allow of a move. -/
def Move.Fair (device : σ → σ → Prop) : Move client count → Prop
  | .call _ made => ∀ memory, client.enabled memory made
  | .wake _ => True
  | .device act => ∀ state, device state (act state)

theorem World.after_step {device : σ → σ → Prop}
    {world next : World client count} {index : Fin count}
    {memory : client.Memory} {call : client.Call} {run : Run σ α}
    (stretch : Stretch world index memory call run)
    (isAfter : world.after index memory call run = some next) :
    Step device world next := by
  unfold World.after at isAfter
  split at isAfter
  · cases isAfter
  · rename_i settled
    cases isAfter
    exact .task stretch settled

theorem World.move_step {device : σ → σ → Prop}
    {world next : World client count} {move : Move client count}
    (fair : move.Fair device) (moves : world.move move = some next) :
    Step device world next := by
  cases move with
  | call index call =>
      dsimp only [World.move] at moves
      split at moves
      · rename_i memory isIdle
        exact after_step (.call memory call isIdle (fair memory)) moves
      · cases moves
  | wake index =>
      dsimp only [World.move] at moves
      split at moves
      · cases moves
      · rename_i memory call ready resume isBlocked
        split at moves
        · rename_i isReady
          exact after_step (.resume memory call ready resume isBlocked isReady)
            moves
        · cases moves
  | device act =>
      cases moves
      exact .device (fair world.state)

/-- What a fair schedule leads to is reachable. -/
theorem reachable_play {device : σ → σ → Prop} {initial : σ}
    {memory : client.Memory} {world next : World client count}
    {moves : List (Move client count)}
    (reached : Reachable device initial memory world)
    (fair : ∀ move ∈ moves, move.Fair device)
    (played : world.play moves = some next) :
    Reachable device initial memory next := by
  induction moves generalizing world with
  | nil =>
      cases played
      exact reached
  | cons move rest induction =>
      unfold World.play at played
      split at played
      · cases played
      · rename_i middle moved
        have step := World.move_step (fair move List.mem_cons_self) moved
        exact induction (reached.step step)
          (fun other member => fair other (List.mem_cons_of_mem move member))
          played

/-- What has to be shown of a client: each call keeps the discipline and
leaves the resource its memory stands for, and so does the device. -/
structure Verified (client : Client σ α) (discipline : Discipline σ R)
    (device : σ → σ → Prop) (owns : client.Memory → R)
    (post : client.Call → α → σ → Prop) : Prop where
  call : ∀ memory call others state, client.enabled memory call →
    discipline.allowed (owns memory + others) state →
      (client.program call).Safe discipline
        (fun mine _ value next =>
          mine = owns (client.finish memory call value) ∧
            post call value next) others state state
  device : ∀ total state next, discipline.allowed total state →
    device state next →
      discipline.allowed total next ∧
        ∀ owned, discipline.stable owned state next

/-- The resource of a task, and why it may go on. -/
def Entitled (discipline : Discipline σ R) (owns : client.Memory → R)
    (post : client.Call → α → σ → Prop) (state : σ) (mine : R) :
    Task client → Prop
  | .idle memory => mine = owns memory
  | .blocked memory call ready resume =>
      ∀ others next, discipline.allowed (mine + others) next →
        discipline.stable mine state next → ready next = true →
          (resume next).Safe discipline
            (fun mine _ value final =>
              mine = owns (client.finish memory call value) ∧
                post call value final) others next

theorem Entitled.later {owns : client.Memory → R}
    {post : client.Call → α → σ → Prop} {state next : σ} {mine : R}
    {task : Task client}
    (entitled : Entitled discipline owns post state mine task)
    (stable : discipline.stable mine state next) :
    Entitled discipline owns post next mine task := by
  cases task with
  | idle memory => exact entitled
  | blocked memory call ready resume =>
      intro others final allowed finalStable isReady
      exact entitled others final allowed
        (discipline.trans stable finalStable) isReady

/-- The invariant of a system of tasks. -/
def Balanced (discipline : Discipline σ R) (owns : client.Memory → R)
    (post : client.Call → α → σ → Prop) (world : World client count) : Prop :=
  ∃ shares : Fin count → R,
    discipline.allowed (∑ index, shares index) world.state ∧
      ∀ index, Entitled discipline owns post world.state (shares index)
        (world.tasks index)

section Runs

variable {device : σ → σ → Prop} {owns : client.Memory → R}
  {post : client.Call → α → σ → Prop} {world next : World client count}

theorem sum_split (shares : Fin count → R) (index : Fin count) :
    ∑ other, shares other =
      shares index + ∑ other ∈ Finset.univ.erase index, shares other :=
  (Finset.add_sum_erase _ shares (Finset.mem_univ index)).symm

/-- A stretch of an entitled task is safe. -/
theorem stretch_safe (verified : Verified client discipline device owns post)
    {index : Fin count} {memory : client.Memory} {call : client.Call}
    {run : Run σ α} {mine others : R}
    (allowed : discipline.allowed (mine + others) world.state)
    (entitled : Entitled discipline owns post world.state mine
      (world.tasks index))
    (stretch : Stretch world index memory call run) :
    run.Safe discipline
      (fun mine _ value final =>
        mine = owns (client.finish memory call value) ∧
          post call value final) others world.state := by
  cases stretch with
  | call isIdle enabled =>
      rw [isIdle] at entitled
      have owned : mine = owns memory := entitled
      subst owned
      exact verified.call memory call others world.state enabled allowed
  | resume ready resume isBlocked isReady =>
      rw [isBlocked] at entitled
      exact entitled others world.state allowed
        (discipline.refl mine world.state) isReady

theorem balanced_step (verified : Verified client discipline device owns post)
    (balanced : Balanced discipline owns post world)
    (step : Step device world next) :
    Balanced discipline owns post next := by
  obtain ⟨shares, allowed, entitled⟩ := balanced
  cases step with
  | @task index memory call run state task stretch settled =>
      rw [sum_split shares index] at allowed
      have safe := stretch_safe verified allowed (entitled index) stretch
      -- what the stretch leaves its task with
      have left : ∃ mine,
          discipline.allowed
            (mine + ∑ other ∈ Finset.univ.erase index, shares other) state ∧
          discipline.stable
            (∑ other ∈ Finset.univ.erase index, shares other)
            world.state state ∧
          Entitled discipline owns post state mine task := by
        cases run with
        | done value final =>
            obtain ⟨rfl, rfl⟩ := Prod.mk.inj (Option.some.inj settled)
            obtain ⟨mine, finalAllowed, stable, owned, _⟩ := safe
            exact ⟨mine, finalAllowed, stable, owned⟩
        | panic message => cases settled
        | spent => cases settled
        | crossed rest => cases settled
        | asleep ready final resume =>
            obtain ⟨rfl, rfl⟩ := Prod.mk.inj (Option.some.inj settled)
            exact safe
      obtain ⟨mine, nextAllowed, stable, owner⟩ := left
      refine ⟨Function.update shares index mine, ?_, ?_⟩
      · rw [sum_split _ index, Function.update_self]
        have rest : ∑ other ∈ Finset.univ.erase index,
              Function.update shares index mine other =
            ∑ other ∈ Finset.univ.erase index, shares other := by
          apply Finset.sum_congr rfl
          intro other member
          exact Function.update_of_ne (Finset.ne_of_mem_erase member) _ _
        rw [rest]
        exact nextAllowed
      · intro other
        show Entitled discipline owns post state
          (Function.update shares index mine other)
          (Function.update world.tasks index task other)
        by_cases same : other = index
        · subst same
          rw [Function.update_self, Function.update_self]
          exact owner
        · rw [Function.update_of_ne same, Function.update_of_ne same]
          apply (entitled other).later
          have member : other ∈ Finset.univ.erase index := by
            simp [same]
          rw [← Finset.add_sum_erase _ shares member] at stable
          exact discipline.split stable
  | device acts =>
      obtain ⟨nextAllowed, stable⟩ := verified.device _ _ _ allowed acts
      exact ⟨shares, nextAllowed, fun index =>
        (entitled index).later (stable (shares index))⟩

/-- Every state of every interleaving is balanced. -/
theorem reachable_balanced
    (verified : Verified client discipline device owns post)
    {initial : σ} {memory : client.Memory} (nothing : owns memory = 0)
    (allowed : discipline.allowed 0 initial)
    (reached : Reachable device initial memory world) :
    Balanced discipline owns post world := by
  induction reached with
  | start =>
      refine ⟨fun _ => 0, ?_, fun _ => nothing.symm⟩
      rw [Finset.sum_const_zero]
      exact allowed
  | step _ step induction => exact balanced_step verified induction step

/-- A call that returns in some interleaving returns as specified, in an
allowed state. -/
theorem reachable_returns
    (verified : Verified client discipline device owns post)
    {initial : σ} {memory : client.Memory} (nothing : owns memory = 0)
    (allowed : discipline.allowed 0 initial)
    (reached : Reachable device initial memory world)
    {index : Fin count} {local_ : client.Memory} {call : client.Call}
    {value : α} {final : σ}
    (stretch : Stretch world index local_ call (.done value final)) :
    post call value final ∧
      ∃ total, discipline.allowed
        (owns (client.finish local_ call value) + total) final := by
  obtain ⟨shares, sum, entitled⟩ :=
    reachable_balanced verified nothing allowed reached
  rw [sum_split shares index] at sum
  obtain ⟨mine, finalAllowed, _, owned, holds⟩ :=
    stretch_safe verified sum (entitled index) stretch
  exact ⟨holds, _, owned ▸ finalAllowed⟩

end Runs

end Coop

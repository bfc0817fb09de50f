import Linux011.Library.Machine
import Mathlib.Data.List.Perm.Subperm

/-!
# Kernel timers

`add_timer` and the timer part of `do_timer` in `sched.c`.  The pending
timers form a list in which each holds its delay after the one before it.  A
timer function runs in the middle of `do_timer` and may add timers itself, so
a tick is several steps.
-/

namespace Linux011.Sched

open Machines

def timeRequests : Nat := 64

structure Timer (φ : Type) where
  jiffies : Int
  fn : φ

/-- Whether `do_timer` is running, and if so whether it is at the test of its
loop or in a timer function. -/
inductive TimerPhase where
  | idle
  | loop
  | inside
  deriving DecidableEq

/-- The list at `next_timer`, with a record of what happened so far:
`registered` holds every function with the tick it was asked for, `called`
every call with its tick. -/
structure Timers (φ : Type) where
  nextTimer : List (Timer φ)
  phase : TimerPhase
  ticks : Int
  registered : List (φ × Int)
  called : List (φ × Int)

inductive TimerAction (φ : Type) where
  | addTimer (jiffies : Int) (fn : Option φ)
  | tick
  | loop
  | return

namespace Timers

variable {φ : Type}

def unused : Timers φ where
  nextTimer := []
  phase := .idle
  ticks := 0
  registered := []
  called := []

/-- The `while` loop of `add_timer`, from the new timer at the front. -/
def sift (p : Timer φ) : List (Timer φ) → List (Timer φ)
  | [] => [p]
  | next :: rest =>
      if next.jiffies < p.jiffies then
        next :: sift { p with jiffies := p.jiffies - next.jiffies } rest
      else p :: next :: rest

/-- `add_timer`; without a result where it panics. -/
def addTimer (timers : Timers φ) (jiffies : Int) :
    Option φ → Option (Timers φ)
  | none => some timers
  | some fn =>
      if jiffies ≤ 0 then
        some { timers with
          registered := (fn, timers.ticks) :: timers.registered
          called := (fn, timers.ticks) :: timers.called }
      else if timers.nextTimer.length < timeRequests then
        some { timers with
          nextTimer := sift ⟨jiffies, fn⟩ timers.nextTimer
          registered := (fn, timers.ticks + jiffies) :: timers.registered }
      else none

/-- `do_timer` up to its loop. -/
def tick (timers : Timers φ) : Timers φ :=
  { timers with
    nextTimer :=
      match timers.nextTimer with
      | [] => []
      | first :: rest => { first with jiffies := first.jiffies - 1 } :: rest
    phase := .loop
    ticks := timers.ticks + 1 }

/-- The test of the loop, and the body up to the call. -/
def loop (timers : Timers φ) : Timers φ :=
  match timers.nextTimer with
  | [] => { timers with phase := .idle }
  | first :: rest =>
      if first.jiffies ≤ 0 then
        { timers with
          nextTimer := rest
          phase := .inside
          called := (first.fn, timers.ticks) :: timers.called }
      else { timers with phase := .idle }

end Timers

/-- Timers are added between the ticks and from timer functions. -/
def timerList (φ : Type) : Machine (Timers φ) (TimerAction φ) where
  step := fun timers action =>
    match action with
    | .addTimer jiffies fn =>
        if timers.phase = .loop then none else timers.addTimer jiffies fn
    | .tick => if timers.phase = .idle then some timers.tick else none
    | .loop => if timers.phase = .loop then some timers.loop else none
    | .return =>
        if timers.phase = .inside then some { timers with phase := .loop }
        else none

namespace Timers

variable {φ : Type}

/-- The ticks until the last pending timer is due. -/
def remaining : List (Timer φ) → Int
  | [] => 0
  | first :: rest => first.jiffies + remaining rest

/-- The pending functions with the ticks at which they will be called. -/
def dues (now : Int) : List (Timer φ) → List (φ × Int)
  | [] => []
  | first :: rest =>
      (first.fn, now + first.jiffies) :: dues (now + first.jiffies) rest

theorem sift_last {p : Timer φ} {pending : List (Timer φ)}
    (positive : ∀ timer ∈ pending, 0 < timer.jiffies)
    (later : remaining pending < p.jiffies) :
    sift p pending =
      pending ++ [{ p with jiffies := p.jiffies - remaining pending }] := by
  have sum {pending : List (Timer φ)}
      (positive : ∀ timer ∈ pending, 0 < timer.jiffies) :
      0 ≤ remaining pending := by
    induction pending with
    | nil => exact Int.le_refl 0
    | cons first rest induction =>
        have firstPositive := positive first (List.mem_cons_self ..)
        have restPositive := induction fun timer isMember =>
          positive timer (List.mem_cons_of_mem first isMember)
        rw [remaining]
        omega
  induction pending generalizing p with
  | nil =>
      rw [sift, remaining, Int.sub_zero]
      rfl
  | cons next rest induction =>
      have restPositive : ∀ timer ∈ rest, 0 < timer.jiffies :=
        fun timer isMember =>
          positive timer (List.mem_cons_of_mem next isMember)
      have atLeast := sum restPositive
      rw [remaining] at later ⊢
      rw [sift, if_pos (by omega), induction restPositive]
      · rw [List.cons_append, Int.sub_sub]
      · dsimp only
        omega

theorem dues_append (now : Int) (pending : List (Timer φ)) (last : Timer φ) :
    dues now (pending ++ [last]) =
      dues now pending ++
        [(last.fn, now + remaining pending + last.jiffies)] := by
  induction pending generalizing now with
  | nil =>
      rw [remaining, Int.add_zero]
      rfl
  | cons first rest induction =>
      rw [List.cons_append, dues, induction, dues, remaining, Int.add_assoc now]
      rfl

theorem lt_of_mem_dues {now : Int} {pending : List (Timer φ)}
    (positive : ∀ timer ∈ pending, 0 < timer.jiffies) :
    ∀ call ∈ dues now pending, now < call.2 := by
  induction pending generalizing now with
  | nil => exact fun _ isMember => nomatch isMember
  | cons first rest induction =>
      have firstPositive := positive first (List.mem_cons_self ..)
      intro call isMember
      rw [dues, List.mem_cons] at isMember
      rcases isMember with rfl | isMember
      · dsimp only
        omega
      · have later := induction (fun timer isMember =>
          positive timer (List.mem_cons_of_mem first isMember)) call isMember
        omega

/-- Nothing is pending that should have been called: at the loop's test the
first timer may be due. -/
def Ahead : TimerPhase → List (Timer φ) → Prop
  | .loop, first :: rest =>
      0 ≤ first.jiffies ∧ ∀ timer ∈ rest, 0 < timer.jiffies
  | _, pending => ∀ timer ∈ pending, 0 < timer.jiffies

/-- What was registered has been called when it was due or will be. -/
structure OnTime (timers : Timers φ) : Prop where
  ahead : Ahead timers.phase timers.nextTimer
  called : ∀ call ∈ timers.called, call.2 ≤ timers.ticks
  accounted : timers.registered.Perm
    (timers.called ++ dues timers.ticks timers.nextTimer)

theorem onTime_unused : (unused : Timers φ).OnTime where
  ahead := fun _ isMember => nomatch isMember
  called := fun _ isMember => nomatch isMember
  accounted := .refl []

/-- The new timer is due after all that are pending. -/
def Behind (timers : Timers φ) : TimerAction φ → Prop
  | .addTimer jiffies _ => jiffies ≤ 0 ∨ remaining timers.nextTimer < jiffies
  | _ => True

instance (timers : Timers φ) (action : TimerAction φ) :
    Decidable (Behind timers action) :=
  match action with
  | .addTimer _ _ => inferInstanceAs (Decidable (_ ∨ _))
  | .tick => .isTrue trivial
  | .loop => .isTrue trivial
  | .return => .isTrue trivial

variable {timers next : Timers φ}

theorem OnTime.addTimer {jiffies : Int} {fn : Option φ}
    (onTime : timers.OnTime) (notTesting : timers.phase ≠ .loop)
    (behind : jiffies ≤ 0 ∨ remaining timers.nextTimer < jiffies)
    (added : timers.addTimer jiffies fn = some next) : next.OnTime := by
  have positive : ∀ timer ∈ timers.nextTimer, 0 < timer.jiffies := by
    have ahead := onTime.ahead
    cases isPhase : timers.phase with
    | loop => exact (notTesting isPhase).elim
    | _ =>
        rw [isPhase] at ahead
        exact ahead
  have stillAhead {pending : List (Timer φ)}
      (positive : ∀ timer ∈ pending, 0 < timer.jiffies) :
      Ahead timers.phase pending := by
    cases isPhase : timers.phase with
    | loop => exact (notTesting isPhase).elim
    | _ => exact positive
  cases fn with
  | none =>
      rw [← Option.some.inj added]
      exact onTime
  | some fn =>
      rw [Timers.addTimer] at added
      split at added <;> rename_i atOnce
      · rw [← Option.some.inj added]
        refine ⟨onTime.ahead, ?_, onTime.accounted.cons _⟩
        intro call isMember
        rw [List.mem_cons] at isMember
        rcases isMember with rfl | isMember
        · exact Int.le_refl _
        · exact onTime.called call isMember
      · split at added
        · rw [← Option.some.inj added]
          have later : remaining timers.nextTimer < jiffies := by omega
          have sifted := @sift_last _ ⟨jiffies, fn⟩ _ positive later
          refine ⟨stillAhead ?_, onTime.called, ?_⟩
          · dsimp only
            rw [sifted]
            intro timer isMember
            rw [List.mem_append, List.mem_singleton] at isMember
            rcases isMember with isMember | rfl
            · exact positive timer isMember
            · dsimp only
              omega
          · dsimp only
            rw [sifted, dues_append, ← List.append_assoc]
            have due : timers.ticks + remaining timers.nextTimer +
                (jiffies - remaining timers.nextTimer) =
                timers.ticks + jiffies := by omega
            dsimp only
            rw [due]
            exact (onTime.accounted.cons _).trans
              (List.perm_append_singleton _ _).symm
        · cases added

theorem OnTime.tick (onTime : timers.OnTime) (isIdle : timers.phase = .idle) :
    timers.tick.OnTime := by
  obtain ⟨ahead, called, accounted⟩ := onTime
  rw [isIdle] at ahead
  have earlier : ∀ call ∈ timers.called, call.2 ≤ timers.ticks + 1 := by
    intro call isMember
    have atMost := called call isMember
    omega
  cases pending : timers.nextTimer with
  | nil =>
      rw [pending] at accounted
      refine ⟨?_, earlier, ?_⟩ <;> unfold Timers.tick <;> rw [pending]
      · exact fun _ isMember => nomatch isMember
      · exact accounted
  | cons first rest =>
      rw [pending] at ahead accounted
      have firstPositive := ahead first (List.mem_cons_self ..)
      refine ⟨?_, earlier, ?_⟩ <;> unfold Timers.tick <;> rw [pending]
      · refine ⟨?_, fun timer isMember =>
          ahead timer (List.mem_cons_of_mem first isMember)⟩
        dsimp only
        omega
      · have due : timers.ticks + 1 + (first.jiffies - 1) =
            timers.ticks + first.jiffies := by omega
        dsimp only
        rw [dues]
        dsimp only
        rw [due]
        exact accounted

theorem OnTime.loop (onTime : timers.OnTime) (isLoop : timers.phase = .loop) :
    timers.loop.OnTime := by
  obtain ⟨ahead, called, accounted⟩ := onTime
  rw [isLoop] at ahead
  unfold Timers.loop
  cases pending : timers.nextTimer with
  | nil =>
      rw [pending] at accounted
      exact ⟨fun _ isMember => (nomatch isMember), called, accounted⟩
  | cons first rest =>
      rw [pending] at ahead accounted
      obtain ⟨firstDue, restPositive⟩ := ahead
      dsimp only
      split <;> rename_i isDue
      · have now : timers.ticks + first.jiffies = timers.ticks := by omega
        rw [dues, now] at accounted
        refine ⟨restPositive, ?_, ?_⟩
        · intro call isMember
          rw [List.mem_cons] at isMember
          rcases isMember with rfl | isMember
          · exact Int.le_refl _
          · exact called call isMember
        · exact accounted.trans List.perm_middle
      · refine ⟨?_, called, accounted⟩
        intro timer isMember
        rw [List.mem_cons] at isMember
        rcases isMember with rfl | isMember
        · omega
        · exact restPositive timer isMember

theorem OnTime.step {action : TimerAction φ} (onTime : timers.OnTime)
    (behind : Behind timers action)
    (steps : (timerList φ).step timers action = some next) : next.OnTime := by
  cases action with
  | addTimer jiffies fn =>
      rw [timerList] at steps
      dsimp only at steps
      split at steps <;> rename_i isPhase
      · cases steps
      · exact onTime.addTimer isPhase behind steps
  | tick =>
      rw [timerList] at steps
      dsimp only at steps
      split at steps <;> rename_i isPhase
      · rw [← Option.some.inj steps]
        exact onTime.tick isPhase
      · cases steps
  | loop =>
      rw [timerList] at steps
      dsimp only at steps
      split at steps <;> rename_i isPhase
      · rw [← Option.some.inj steps]
        exact onTime.loop isPhase
      · cases steps
  | «return» =>
      rw [timerList] at steps
      dsimp only at steps
      split at steps <;> rename_i isPhase
      · rw [← Option.some.inj steps]
        obtain ⟨ahead, called, accounted⟩ := onTime
        rw [isPhase] at ahead
        refine ⟨?_, called, accounted⟩
        dsimp only
        cases pending : timers.nextTimer with
        | nil => exact fun _ isMember => nomatch isMember
        | cons first rest =>
            rw [pending] at ahead
            have firstPositive := ahead first (List.mem_cons_self ..)
            exact ⟨Int.le_of_lt firstPositive, fun timer isMember =>
              ahead timer (List.mem_cons_of_mem first isMember)⟩
      · cases steps

/-- The registered calls that are due. -/
def due (timers : Timers φ) : List (φ × Int) :=
  timers.registered.filter fun call => call.2 ≤ timers.ticks

theorem OnTime.due (onTime : timers.OnTime) :
    timers.due.Perm (timers.called ++
      (dues timers.ticks timers.nextTimer).filter
        fun call => call.2 ≤ timers.ticks) := by
  have filtered := onTime.accounted.filter
    fun call => decide (call.2 ≤ timers.ticks)
  have allCalled : timers.called.filter (fun call => call.2 ≤ timers.ticks) =
      timers.called := by
    rw [List.filter_eq_self]
    intro call isMember
    exact decide_eq_true (onTime.called call isMember)
  rw [List.filter_append, allCalled] at filtered
  exact filtered

end Timers

open Timers

variable {φ : Type}

/-- While every new timer is due after all pending ones, each function is
called exactly once for each time it was registered and at the tick it was
registered for. -/
theorem timers_callOnTime {timers : Timers φ}
    (reached : (timerList φ).Reachable Behind unused timers) :
    timers.called.Subperm timers.due ∧
      (timers.phase = .idle → timers.called.Perm timers.due) := by
  have onTime : timers.OnTime :=
    reached.invariant onTime_unused fun _ _ _ onTime behind steps =>
      onTime.step behind steps
  refine ⟨?_, ?_⟩
  · exact (List.sublist_append_left _ _).subperm.trans onTime.due.symm.subperm
  · intro isIdle
    have none : (dues timers.ticks timers.nextTimer).filter
        (fun call => call.2 ≤ timers.ticks) = [] := by
      rw [List.filter_eq_nil_iff]
      intro call isMember
      have ahead := onTime.ahead
      rw [isIdle] at ahead
      have later := lt_of_mem_dues ahead call isMember
      rw [decide_eq_true_eq]
      omega
    have due := onTime.due
    rw [none, List.append_nil] at due
    exact due.symm

/-- Three timers of increasing delay, the last added by the function of the
first. -/
theorem timers_callOnTime_three :
    ∃ timers : Timers Nat,
      (timerList Nat).run Behind unused
        [.addTimer 1 (some 0), .addTimer 3 (some 1), .tick, .loop,
          .addTimer 5 (some 2), .return, .loop, .tick, .loop, .tick, .loop,
          .return, .loop] = some timers ∧
      timers.called.Perm timers.due := by
  refine ⟨_, rfl, ?_⟩
  have runs : (timerList Nat).run Behind unused
      [.addTimer 1 (some 0), .addTimer 3 (some 1), .tick, .loop,
        .addTimer 5 (some 2), .return, .loop, .tick, .loop, .tick, .loop,
        .return, .loop] = some _ := rfl
  exact (timers_callOnTime (Machine.reachable_of_run .start runs)).2 rfl

/-- Adding a timer that is due first delays the one that was pending. -/
theorem timers_callLate :
    ∃ timers : Timers Nat,
      (timerList Nat).run Machine.anything unused
        [.addTimer 2 (some 0), .addTimer 1 (some 1), .tick, .loop, .return,
          .loop, .tick, .loop] = some timers ∧
      timers.phase = .idle ∧ ¬ timers.called.Perm timers.due := by
  refine ⟨_, rfl, rfl, ?_⟩
  intro perm
  have sameLength := perm.length_eq
  revert sameLength
  decide

end Linux011.Sched

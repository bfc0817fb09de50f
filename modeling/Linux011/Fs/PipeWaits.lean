import Linux011.Fs.Pipe
import Linux011.Sched.WaitQueue

/-!
# A reader and a writer on one wait queue

The pipe of `Pipe` with `i_wait` itself: a task that sleeps is woken by
`wake_up` and by nothing else.  Each `sleep_on` comes right after a `wake_up`,
so the queue it finds is empty.
-/

namespace Linux011.Fs

open Machines
open Sched

/-- The tasks at the two ends of a pipe. -/
inductive PipeEnd where
  | reader
  | writer
  deriving DecidableEq

/-- A pipe and its `i_wait`. -/
structure PipeWaits where
  use : PipeUse PipeEnd
  iWait : Queue PipeEnd

inductive PipeWaitAction where
  | readPipe (count : Int)
  | writePipe (buf : Nat → UInt8) (count : Int)
  | pass (task : PipeEnd)
  | resume (task : PipeEnd)

/-- Nothing to move: no byte for a `read_pipe`, no room for a `write_pipe`. -/
def PipeCall.Blocked (call : PipeCall) (pipe : Pipe) : Prop :=
  match call.source with
  | none => pipe.size = 0
  | some _ => pipe.room = 0

instance (call : PipeCall) (pipe : Pipe) : Decidable (call.Blocked pipe) :=
  match isSource : call.source with
  | none => decidable_of_iff (pipe.size = 0) (by
      unfold PipeCall.Blocked
      rw [isSource])
  | some _ => decidable_of_iff (pipe.room = 0) (by
      unfold PipeCall.Blocked
      rw [isSource])

namespace PipeWaits

/-- A pipe as `sys_pipe` makes it. -/
def fresh (page : Nat → UInt8) : PipeWaits where
  use := .fresh page
  iWait := .unused

/-- What a pass of the loop of `read_pipe` or `write_pipe` does to
`i_wait`. -/
def passWait (waits : PipeWaits) (task : PipeEnd) (call : PipeCall) :
    Queue PipeEnd :=
  if call.count = 0 then waits.iWait.wakeUp
  else if call.Blocked waits.use.pipe then
    if waits.use.iCount ≠ 2 then waits.iWait.wakeUp
    else waits.iWait.wakeUp.fallAsleep task
  else waits.iWait

end PipeWaits

/-- The reader and the writer; a task in `sleep_on` goes on only once its
state has been set back. -/
def pipeWaitMachine : Machine PipeWaits PipeWaitAction where
  step := fun waits action =>
    match action with
    | .readPipe count =>
        match (pipeMachine PipeEnd).step waits.use (.readPipe .reader count) with
        | none => none
        | some use => some { waits with use }
    | .writePipe buf count =>
        match (pipeMachine PipeEnd).step waits.use
          (.writePipe .writer buf count) with
        | none => none
        | some use => some { waits with use }
    | .pass task =>
        match waits.use.call task with
        | none => none
        | some call =>
            if call.asleep then none
            else some ⟨waits.use.pass task call, waits.passWait task call⟩
    | .resume task =>
        match waits.use.call task with
        | none => none
        | some call =>
            if waits.iWait.place task = .woken then
              some ⟨waits.use.setCall task (some { call with asleep := false }),
                waits.iWait.leave task⟩
            else none

/-- A step is one of the pipe that wakes its sleepers at any time. -/
theorem pipeWaitMachine_pipe {waits next : PipeWaits} {action : PipeWaitAction}
    (steps : pipeWaitMachine.step waits action = some next) :
    ∃ action, (pipeMachine PipeEnd).step waits.use action = some next.use := by
  cases action with
  | readPipe count =>
      rw [pipeWaitMachine] at steps
      dsimp only at steps
      split at steps <;> cases steps
      exact ⟨.readPipe .reader count, ‹_›⟩
  | writePipe buf count =>
      rw [pipeWaitMachine] at steps
      dsimp only at steps
      split at steps <;> cases steps
      exact ⟨.writePipe .writer buf count, ‹_›⟩
  | pass task =>
      refine ⟨.pass task, ?_⟩
      rw [pipeWaitMachine] at steps
      rw [pipeMachine]
      dsimp only at steps ⊢
      cases isCall : waits.use.call task with
      | none =>
          rw [isCall] at steps
          cases steps
      | some call =>
          rw [isCall] at steps
          dsimp only at steps
          split at steps <;> rename_i isAsleep <;> cases steps
          exact if_neg isAsleep
  | resume task =>
      refine ⟨.awake task, ?_⟩
      rw [pipeWaitMachine] at steps
      rw [pipeMachine]
      dsimp only at steps ⊢
      cases isCall : waits.use.call task with
      | none =>
          rw [isCall] at steps
          cases steps
      | some call =>
          rw [isCall] at steps
          dsimp only at steps
          split at steps <;> cases steps
          rfl

/-- Pipes stay first in, first out. -/
theorem pipeWaits_reachable {page : Nat → UInt8} {waits : PipeWaits}
    (reached : pipeWaitMachine.Reachable Machine.anything (.fresh page) waits) :
    (pipeMachine PipeEnd).Reachable Machine.anything (.fresh page) waits.use := by
  induction reached with
  | start => exact .start
  | step action _ _ steps induction =>
      obtain ⟨_, pipeSteps⟩ := pipeWaitMachine_pipe steps
      exact .step _ induction trivial pipeSteps

/-! ## The queue of one sleeper -/

section Queue

variable {τ : Type} [DecidableEq τ] {queue : Queue τ} {task other : τ}

/-- Whoever sleeps is the head. -/
def Solitary (queue : Queue τ) : Prop :=
  ∀ task, queue.place task = .asleep → queue.head = some task

theorem makeRunnable_outside :
    (queue.makeRunnable task).place other = .outside ↔
      queue.place other = .outside := by
  unfold Queue.makeRunnable
  split <;> rename_i isPlace
  · exact Iff.rfl
  · rw [Queue.setPlace_place]
    split <;> rename_i same
    · rw [same]
      constructor
      · intro impossible
        cases impossible
      · intro isOutside
        exact (isPlace isOutside).elim
    · exact Iff.rfl

theorem makeRunnable_sleeps
    (isAsleep : (queue.makeRunnable task).place other = .asleep) :
    queue.place other = .asleep ∧
      (queue.place task ≠ .outside → other ≠ task) := by
  unfold Queue.makeRunnable at isAsleep
  split at isAsleep <;> rename_i isPlace
  · exact ⟨isAsleep, fun isInside => (isInside isPlace).elim⟩
  · rw [Queue.setPlace_place] at isAsleep
    split at isAsleep <;> rename_i same
    · cases isAsleep
    · exact ⟨isAsleep, fun _ => same⟩

theorem wakeUp_outside :
    queue.wakeUp.place other = .outside ↔ queue.place other = .outside := by
  unfold Queue.wakeUp
  split
  · exact Iff.rfl
  · exact makeRunnable_outside

/-- A single sleeper is woken, and the queue is empty. -/
theorem Solitary.wakeUp (solitary : Solitary queue) :
    queue.wakeUp.place other ≠ .asleep := by
  intro isAsleep
  unfold Queue.wakeUp at isAsleep
  split at isAsleep <;> rename_i isHead
  · rw [solitary other isAsleep] at isHead
    cases isHead
  · obtain ⟨wasAsleep, different⟩ := makeRunnable_sleeps isAsleep
    rw [solitary other wasAsleep, Option.some.injEq] at isHead
    subst isHead
    apply different
    · rw [wasAsleep]
      exact Place.noConfusion
    · rfl

theorem fallAsleep_place :
    (queue.fallAsleep task).place other =
      if other = task then .asleep else queue.place other :=
  rfl

theorem leave_outside :
    (queue.leave task).place other = .outside ↔
      other = task ∨ queue.place other = .outside := by
  have placed : (queue.setPlace task .outside).place other = .outside ↔
      other = task ∨ queue.place other = .outside := by
    rw [Queue.setPlace_place]
    split <;> rename_i same
    · exact ⟨fun _ => .inl same, fun _ => rfl⟩
    · exact ⟨.inr, fun either => either.resolve_left same⟩
  unfold Queue.leave
  dsimp only
  split
  · exact placed
  · exact makeRunnable_outside.trans placed

theorem leave_sleeps (isAsleep : (queue.leave task).place other = .asleep) :
    queue.place other = .asleep := by
  have placed (stays : (queue.setPlace task .outside).place other = .asleep) :
      queue.place other = .asleep := by
    rw [Queue.setPlace_place] at stays
    split at stays
    · cases stays
    · exact stays
  unfold Queue.leave at isAsleep
  dsimp only at isAsleep
  split at isAsleep
  · exact placed isAsleep
  · exact placed (makeRunnable_sleeps isAsleep).1

end Queue

/-! ## What a step does -/

namespace PipeWaits

variable {waits next : PipeWaits} {task : PipeEnd}

/-- The steps of a task. -/
inductive Moves (waits next : PipeWaits) (task : PipeEnd) : Prop where
  | enters {call : PipeCall} (wasOut : waits.use.call task = none)
      (isCall : next.use.call task = some call) (awake : call.asleep = false)
      (pipe : next.use.pipe = waits.use.pipe)
      (queue : next.iWait = waits.iWait)
  | leaves {call : PipeCall} (wasCall : waits.use.call task = some call)
      (awake : call.asleep = false) (isOut : next.use.call task = none)
      (pipe : next.use.pipe = waits.use.pipe)
      (queue : next.iWait = waits.iWait.wakeUp)
  | sleeps {call : PipeCall} (wasCall : waits.use.call task = some call)
      (awake : call.asleep = false)
      (isCall : next.use.call task = some { call with asleep := true })
      (blocked : call.Blocked waits.use.pipe)
      (pipe : next.use.pipe = waits.use.pipe)
      (queue : next.iWait = waits.iWait.wakeUp.fallAsleep task)
  | copies {call further : PipeCall}
      (wasCall : waits.use.call task = some call) (awake : call.asleep = false)
      (isCall : next.use.call task = some further)
      (stillAwake : further.asleep = false) (queue : next.iWait = waits.iWait)
  | resumes {call : PipeCall} (wasCall : waits.use.call task = some call)
      (woken : waits.iWait.place task = .woken)
      (isCall : next.use.call task = some { call with asleep := false })
      (pipe : next.use.pipe = waits.use.pipe)
      (queue : next.iWait = waits.iWait.leave task)

/-- What a step of a task leaves of the rest. -/
structure Step (waits next : PipeWaits) (task : PipeEnd) : Prop where
  iCount : next.use.iCount = waits.use.iCount
  others : ∀ other, other ≠ task → next.use.call other = waits.use.call other
  moves : Moves waits next task

theorem setCall_same {use : PipeUse PipeEnd} {call : Option PipeCall} :
    (use.setCall task call).call task = call :=
  if_pos rfl

theorem setCall_other {use : PipeUse PipeEnd} {call : Option PipeCall}
    {other : PipeEnd} (different : other ≠ task) :
    (use.setCall task call).call other = use.call other :=
  if_neg different

/-- A pass of either loop; `copied` is what it makes of the pipe when it need
not stop. -/
theorem pass_step {call further : PipeCall} {stops : Prop} [Decidable stops]
    {done stopped : PipeReturn} {copied : PipeUse PipeEnd}
    (wasCall : waits.use.call task = some call) (awake : call.asleep = false)
    (isBlocked : call.Blocked waits.use.pipe ↔ stops)
    (iCount : copied.iCount = waits.use.iCount)
    (others : ∀ other, other ≠ task →
      copied.call other = waits.use.call other)
    (isCall : copied.call task = some further)
    (stillAwake : further.asleep = false) :
    Step waits
      ⟨if call.count = 0 then waits.use.leave task done
        else if stops then
          if waits.use.iCount ≠ 2 then waits.use.leave task stopped
          else waits.use.setCall task (some { call with asleep := true })
        else copied, waits.passWait task call⟩ task := by
  unfold passWait
  by_cases finished : call.count = 0
  · rw [if_pos finished, if_pos finished]
    exact ⟨rfl, fun _ => setCall_other,
      .leaves wasCall awake setCall_same rfl rfl⟩
  rw [if_neg finished, if_neg finished]
  by_cases blocked : call.Blocked waits.use.pipe
  · rw [if_pos (isBlocked.mp blocked), if_pos blocked]
    by_cases alone : waits.use.iCount ≠ 2
    · rw [if_pos alone, if_pos alone]
      exact ⟨rfl, fun _ => setCall_other,
        .leaves wasCall awake setCall_same rfl rfl⟩
    · rw [if_neg alone, if_neg alone]
      exact ⟨rfl, fun _ => setCall_other,
        .sleeps wasCall awake setCall_same blocked rfl rfl⟩
  · rw [if_neg fun stop => blocked (isBlocked.mpr stop), if_neg blocked]
    exact ⟨iCount, others, .copies wasCall awake isCall stillAwake rfl⟩

theorem readPass_step {call : PipeCall}
    (wasCall : waits.use.call task = some call) (awake : call.asleep = false)
    (isSource : call.source = none) :
    Step waits ⟨waits.use.readPass task call, waits.passWait task call⟩
      task := by
  have isBlocked : call.Blocked waits.use.pipe ↔ waits.use.pipe.size = 0 := by
    unfold PipeCall.Blocked
    rw [isSource]
  unfold PipeUse.readPass
  refine pass_step wasCall awake isBlocked ?_ ?_ setCall_same awake
  · rfl
  · exact fun _ => setCall_other

theorem writePass_step {call : PipeCall} {buf : Nat → UInt8}
    (wasCall : waits.use.call task = some call) (awake : call.asleep = false)
    (isSource : call.source = some buf) :
    Step waits ⟨waits.use.writePass task buf call, waits.passWait task call⟩
      task := by
  have isBlocked : call.Blocked waits.use.pipe ↔ waits.use.pipe.room = 0 := by
    unfold PipeCall.Blocked
    rw [isSource]
  unfold PipeUse.writePass
  refine pass_step wasCall awake isBlocked ?_ ?_ setCall_same awake
  · rfl
  · exact fun _ => setCall_other

theorem step_cases {action : PipeWaitAction}
    (steps : pipeWaitMachine.step waits action = some next) :
    ∃ task, Step waits next task := by
  cases action with
  | readPipe count =>
      refine ⟨.reader, ?_⟩
      rw [pipeWaitMachine, pipeMachine] at steps
      dsimp only at steps
      cases wasOut : waits.use.call .reader with
      | some call =>
          rw [wasOut] at steps
          cases steps
      | none =>
          rw [wasOut] at steps
          cases steps
          exact ⟨rfl, fun _ => setCall_other,
            .enters wasOut setCall_same rfl rfl rfl⟩
  | writePipe buf count =>
      refine ⟨.writer, ?_⟩
      rw [pipeWaitMachine, pipeMachine] at steps
      dsimp only at steps
      cases wasOut : waits.use.call .writer with
      | some call =>
          rw [wasOut] at steps
          cases steps
      | none =>
          rw [wasOut] at steps
          cases steps
          exact ⟨rfl, fun _ => setCall_other,
            .enters wasOut setCall_same rfl rfl rfl⟩
  | pass task =>
      refine ⟨task, ?_⟩
      rw [pipeWaitMachine] at steps
      dsimp only at steps
      split at steps
      · cases steps
      · split at steps <;> rename_i awake <;> cases steps
        have isAwake := Bool.eq_false_iff.mpr awake
        unfold PipeUse.pass
        split <;> rename_i isSource
        · exact readPass_step ‹_› isAwake isSource
        · exact writePass_step ‹_› isAwake isSource
  | resume task =>
      refine ⟨task, ?_⟩
      rw [pipeWaitMachine] at steps
      dsimp only at steps
      split at steps
      · cases steps
      · split at steps <;> cases steps
        exact ⟨rfl, fun _ => setCall_other,
          .resumes ‹_› ‹_› setCall_same rfl rfl⟩

/-! ## The invariant -/

/-- A sleeper is the head of the queue, and it waits for something that has
not happened or whose doer is still in its call. -/
structure Attended (waits : PipeWaits) : Prop where
  solitary : Solitary waits.iWait
  outside : ∀ task call, waits.use.call task = some call →
    (waits.iWait.place task = .outside ↔ call.asleep = false)
  absent : ∀ task, waits.use.call task = none →
    waits.iWait.place task = .outside
  pending : ∀ task call, waits.use.call task = some call →
    waits.iWait.place task = .asleep → call.Blocked waits.use.pipe ∨
      ∃ other, other ≠ task ∧ waits.use.call other ≠ none

theorem attended_fresh (page : Nat → UInt8) : (fresh page).Attended where
  solitary := fun _ isAsleep => by cases isAsleep
  outside := fun _ _ isCall => by cases isCall
  absent := fun _ _ => rfl
  pending := fun _ _ isCall => by cases isCall

theorem Attended.step (attended : waits.Attended)
    (step : Step waits next task) : next.Attended := by
  obtain ⟨_, others, moves⟩ := step
  -- the queue decides for the other task, the step for its own
  have gather (solitary : Solitary next.iWait)
      (outside : ∀ other, other ≠ task →
        (next.iWait.place other = .outside ↔
          waits.iWait.place other = .outside))
      (own : match next.use.call task with
        | none => next.iWait.place task = .outside
        | some call => next.iWait.place task = .outside ↔ call.asleep = false)
      (pending : ∀ other call, next.use.call other = some call →
        next.iWait.place other = .asleep → call.Blocked next.use.pipe ∨
          ∃ doer, doer ≠ other ∧ next.use.call doer ≠ none) :
      next.Attended := by
    refine ⟨solitary, ?_, ?_, pending⟩
    · intro other call isCall
      by_cases same : other = task
      · subst same
        rw [isCall] at own
        exact own
      · rw [others other same] at isCall
        rw [outside other same]
        exact attended.outside other call isCall
    · intro other isOut
      by_cases same : other = task
      · subst same
        rw [isOut] at own
        exact own
      · rw [others other same] at isOut
        rw [outside other same]
        exact attended.absent other isOut
  have quiet {call : PipeCall} (wasCall : waits.use.call task = some call)
      (awake : call.asleep = false) : waits.iWait.place task = .outside :=
    (attended.outside task call wasCall).mpr awake
  have nobody {other : PipeEnd} :=
    @Solitary.wakeUp _ _ waits.iWait other attended.solitary
  cases moves with
  | enters wasOut isCall awake pipe queue =>
      have isOutside := attended.absent task wasOut
      refine gather ?_ ?_ ?_ ?_
      · rw [queue]
        exact attended.solitary
      · intro other _
        rw [queue]
      · rw [isCall, queue]
        exact ⟨fun _ => awake, fun _ => isOutside⟩
      · intro other call isOther isAsleep
        rw [queue] at isAsleep
        have different : other ≠ task := by
          rintro rfl
          rw [isOutside] at isAsleep
          cases isAsleep
        refine .inr ⟨task, different.symm, ?_⟩
        rw [isCall]
        exact Option.some_ne_none _
  | leaves wasCall awake isOut pipe queue =>
      have isOutside := quiet wasCall awake
      refine gather ?_ ?_ ?_ ?_
      · intro other isAsleep
        rw [queue] at isAsleep
        exact (nobody isAsleep).elim
      · intro other _
        rw [queue]
        exact wakeUp_outside
      · rw [isOut, queue]
        exact wakeUp_outside.mpr isOutside
      · intro other call _ isAsleep
        rw [queue] at isAsleep
        exact (nobody isAsleep).elim
  | sleeps wasCall awake isCall blocked pipe queue =>
      have only {other : PipeEnd} (isAsleep : next.iWait.place other = .asleep) :
          other = task := by
        rw [queue, fallAsleep_place] at isAsleep
        split at isAsleep <;> rename_i same
        · exact same
        · exact (nobody isAsleep).elim
      refine gather ?_ ?_ ?_ ?_
      · intro other isAsleep
        rw [only isAsleep, queue]
        rfl
      · intro other different
        rw [queue, fallAsleep_place, if_neg different]
        exact wakeUp_outside
      · rw [isCall, queue, fallAsleep_place, if_pos rfl]
        constructor
        · intro impossible
          cases impossible
        · intro impossible
          cases impossible
      · intro other call isOther isAsleep
        rw [only isAsleep, isCall] at isOther
        cases isOther
        rw [pipe]
        exact .inl blocked
  | copies wasCall awake isCall stillAwake queue =>
      have isOutside := quiet wasCall awake
      refine gather ?_ ?_ ?_ ?_
      · rw [queue]
        exact attended.solitary
      · intro other _
        rw [queue]
      · rw [isCall, queue]
        exact ⟨fun _ => stillAwake, fun _ => isOutside⟩
      · intro other call isOther isAsleep
        rw [queue] at isAsleep
        have different : other ≠ task := by
          rintro rfl
          rw [isOutside] at isAsleep
          cases isAsleep
        refine .inr ⟨task, different.symm, ?_⟩
        rw [isCall]
        exact Option.some_ne_none _
  | resumes wasCall woken isCall pipe queue =>
      have isOutside : (waits.iWait.leave task).place task = .outside :=
        leave_outside.mpr (.inl rfl)
      refine gather ?_ ?_ ?_ ?_
      · intro other isAsleep
        rw [queue] at isAsleep ⊢
        rw [leave_head]
        exact attended.solitary other (leave_sleeps isAsleep)
      · intro other different
        rw [queue, leave_outside]
        exact ⟨fun either => either.resolve_left different, .inr⟩
      · rw [isCall, queue]
        exact ⟨fun _ => rfl, fun _ => isOutside⟩
      · intro other call isOther isAsleep
        rw [queue] at isAsleep
        have different : other ≠ task := by
          rintro rfl
          rw [isOutside] at isAsleep
          cases isAsleep
        refine .inr ⟨task, different.symm, ?_⟩
        rw [isCall]
        exact Option.some_ne_none _

theorem attended_reachable {page : Nat → UInt8}
    (reached : pipeWaitMachine.Reachable Machine.anything (.fresh page) waits) :
    waits.Attended := by
  apply reached.invariant (attended_fresh page)
  intro state action next attended _ steps
  obtain ⟨task, step⟩ := step_cases steps
  exact attended.step step

/-- No wake-up is lost: if one task sleeps although it could go on, the other
is in a call and awake, and wakes it before that call ends. -/
theorem sleeper_pending {page : Nat → UInt8} {call : PipeCall}
    (reached : pipeWaitMachine.Reachable Machine.anything (.fresh page) waits)
    (isCall : waits.use.call task = some call)
    (isAsleep : waits.iWait.place task = .asleep)
    (ready : ¬ call.Blocked waits.use.pipe) :
    ∃ other, other ≠ task ∧ waits.use.call other ≠ none ∧
      waits.iWait.place other ≠ .asleep := by
  have attended := attended_reachable reached
  obtain ⟨other, different, inCall⟩ :=
    (attended.pending task call isCall isAsleep).resolve_left ready
  refine ⟨other, different, inCall, ?_⟩
  intro otherAsleep
  have same := (attended.solitary task isAsleep).symm.trans
    (attended.solitary other otherAsleep)
  exact different (Option.some.inj same).symm

/-- The reader sleeps, the pipe is full, and the writer is about to wake it. -/
theorem sleeper_pending_full :
    ∃ waits : PipeWaits,
      pipeWaitMachine.run Machine.anything (.fresh fun _ => 0)
        [.readPipe 1, .pass .reader, .writePipe (fun _ => 7) 4095,
          .pass .writer] = some waits ∧
      waits.iWait.place .reader = .asleep ∧
      ∃ other, other ≠ .reader ∧ waits.use.call other ≠ none ∧
        waits.iWait.place other ≠ .asleep := by
  refine ⟨_, rfl, rfl, ?_⟩
  have runs : pipeWaitMachine.run Machine.anything (.fresh fun _ => 0)
      [.readPipe 1, .pass .reader, .writePipe (fun _ => 7) 4095,
        .pass .writer] = some _ := rfl
  exact sleeper_pending (Machine.reachable_of_run .start runs) rfl rfl
    (by decide)

/-- The reader and the writer are never both in `sleep_on`. -/
theorem pipe_neverDeadlocks {page : Nat → UInt8}
    (reached : pipeWaitMachine.Reachable Machine.anything (.fresh page) waits) :
    ¬ (waits.iWait.place .reader = .asleep ∧
      waits.iWait.place .writer = .asleep) := by
  rintro ⟨readerAsleep, writerAsleep⟩
  have solitary := (attended_reachable reached).solitary
  have same := (solitary .reader readerAsleep).symm.trans
    (solitary .writer writerAsleep)
  cases same

/-- The reader sleeps on an empty pipe, and the writer fills it. -/
theorem pipe_neverDeadlocks_empty :
    ∃ waits : PipeWaits,
      pipeWaitMachine.run Machine.anything (.fresh fun _ => 0)
        [.readPipe 1, .pass .reader, .writePipe (fun _ => 7) 4096,
          .pass .writer] = some waits ∧
      waits.iWait.place .reader = .asleep ∧
      ¬ (waits.iWait.place .reader = .asleep ∧
        waits.iWait.place .writer = .asleep) := by
  refine ⟨_, rfl, rfl, ?_⟩
  have runs : pipeWaitMachine.run Machine.anything (.fresh fun _ => 0)
      [.readPipe 1, .pass .reader, .writePipe (fun _ => 7) 4096,
        .pass .writer] = some _ := rfl
  exact pipe_neverDeadlocks (Machine.reachable_of_run .start runs)

end PipeWaits

end Linux011.Fs

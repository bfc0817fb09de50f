import Linux011.Sched.Signals

/-!
# Scheduling parameters

`sys_nice`, the accounting part of `do_timer`, `schedule` and what
`copy_process` does to `counter` and `priority`.  Both are 32-bit longs, kept
here as integers that wrap.
-/

namespace Linux011.Sched

open Machines

/-- The value of a 32-bit long after an overflow. -/
def long (value : Int) : Int := value.bmod 4294967296

theorem long_of_fits {value : Int} (least : -2147483648 ≤ value)
    (greatest : value ≤ 2147483647) : long value = value := by
  unfold long
  rw [Int.bmod_eq_of_le] <;> omega

theorem long_le (value : Int) : long value ≤ 2147483647 := by
  have below := @Int.bmod_lt value 4294967296 (by decide)
  unfold long
  omega

def nrTasks : Nat := 64

inductive TaskState where
  | running
  | interruptible
  | uninterruptible
  | zombie
  | stopped
  deriving DecidableEq

structure Task where
  state : TaskState
  counter : Int
  priority : Int
  signal : BitVec 32
  blocked : BitVec 32
  alarm : Int

/-- The task table.  `scheduling` says that `schedule()` is in its loop. -/
structure Table where
  task : Nat → Option Task
  current : Nat
  jiffies : Int
  scheduling : Bool

namespace Table

/-- The table that holds `INIT_TASK` alone. -/
def initTable : Table where
  task := fun nr =>
    if nr = 0 then
      some { state := .running
             counter := 15
             priority := 15
             signal := 0
             blocked := 0
             alarm := 0 }
    else none
  current := 0
  jiffies := 0
  scheduling := false

def setTask (table : Table) (nr : Nat) (task : Option Task) : Table :=
  { table with task := fun other =>
      if other = nr then task else table.task other }

/-- Change the current task. -/
def onCurrent (table : Table) (change : Task → Task) : Table :=
  table.setTask table.current ((table.task table.current).map change)

/-- Change every task but `FIRST_TASK`. -/
def onOthers (table : Table) (change : Task → Task) : Table :=
  { table with task := fun nr =>
      if nr = 0 then table.task nr else (table.task nr).map change }

end Table

def sysNice (increment : Int) (task : Task) : Task :=
  if 0 < long (task.priority - increment) then
    { task with priority := long (task.priority - increment) }
  else task

/-- `if ((--current->counter)>0) return; current->counter=0;` -/
def countDown (task : Task) : Task :=
  if 0 < long (task.counter - 1) then
    { task with counter := long (task.counter - 1) }
  else { task with counter := 0 }

/-- The child `copy_process` makes, once it is complete. -/
def child (parent : Task) : Task :=
  { parent with
    state := .running
    counter := parent.priority
    signal := 0
    alarm := 0 }

def blockable : BitVec 32 := ~~~ (signalBit sigkill ||| signalBit sigstop)

/-- `(*p)->alarm && (*p)->alarm < jiffies`, and what follows. -/
def checkAlarm (jiffies : Int) (task : Task) : Task :=
  if task.alarm ≠ 0 ∧ task.alarm < jiffies then
    { task with
      signal := task.signal ||| signalBit sigalrm
      alarm := 0 }
  else task

/-- The first loop of `schedule()`: alarms, and signals for sleepers. -/
def checkSignals (jiffies : Int) (task : Task) : Task :=
  let task := checkAlarm jiffies task
  if task.signal &&& ~~~ (blockable &&& task.blocked) ≠ 0 ∧
      task.state = .interruptible then
    { task with state := .running }
  else task

def recharge (task : Task) : Task :=
  { task with counter := long ((task.counter >>> (1 : Nat)) + task.priority) }

/-- `while (--i)`, with `c` and `next`. -/
def selectFrom (task : Nat → Option Task) : Nat → Int × Nat → Int × Nat
  | 0, best => best
  | i + 1, (c, next) =>
      selectFrom task i (match task (i + 1) with
        | none => (c, next)
        | some p =>
            if p.state = .running ∧ c < p.counter then (p.counter, i + 1)
            else (c, next))

/-- The selection loop of `schedule()`. -/
def select (table : Table) : Int × Nat :=
  selectFrom table.task (nrTasks - 1) (-1, 0)

/-- `others` stands for the rest of the kernel, which writes neither `counter`
nor `priority`; `release` frees the slot of a dead child. -/
inductive TableAction where
  | nice (increment : Int)
  | copyProcess (nr : Nat)
  | doTimer (cpl : Bool)
  | schedule
  | pass
  | others (nr : Nat) (state : TaskState) (signal blocked : BitVec 32)
      (alarm : Int)
  | release (nr : Nat)

/-- One pass of the `while (1)` loop of `schedule()`. -/
def schedulePass (table : Table) : Table :=
  let (c, next) := select table
  if c ≠ 0 then
    { table with
      current := next
      scheduling := false }
  else table.onOthers recharge

/-- `schedule()` up to its loop. -/
def enterSchedule (table : Table) : Table :=
  { table.onOthers (checkSignals table.jiffies) with scheduling := true }

/-- `timer_interrupt` and `do_timer`; `cpl` tells whether user code was
interrupted. -/
def doTimer (table : Table) (cpl : Bool) : Table :=
  let table :=
    { table.onCurrent countDown with jiffies := long (table.jiffies + 1) }
  if cpl && (table.task table.current).any (·.counter = 0) then
    enterSchedule table
  else table

/-- The scheduler; the loop of `schedule()` may be interrupted between two
passes by a timer that finds the kernel running. -/
def scheduler : Machine Table TableAction where
  step := fun table action =>
    match action with
    | .nice increment =>
        if table.scheduling then none
        else some (table.onCurrent (sysNice increment))
    | .copyProcess nr =>
        if table.scheduling ∨ nrTasks ≤ nr ∨ (table.task nr).isSome then none
        else some (table.setTask nr ((table.task table.current).map child))
    | .doTimer cpl =>
        if table.scheduling ∧ cpl then none else some (doTimer table cpl)
    | .schedule =>
        if table.scheduling then none else some (enterSchedule table)
    | .pass => if table.scheduling then some (schedulePass table) else none
    | .others nr state signal blocked alarm =>
        some (table.setTask nr ((table.task nr).map fun task =>
          { task with state, signal, blocked, alarm }))
    | .release nr =>
        if nr = 0 ∨ nr = table.current then none
        else some (table.setTask nr none)

/-- A task whose counter the selection loop can see. -/
structure Task.Sane (task : Task) : Prop where
  priority : 0 < task.priority
  counter : 0 ≤ task.counter
  priorityFits : task.priority ≤ 2147483647
  counterFits : task.counter ≤ 2147483647

def Table.Every (table : Table) (holds : Task → Prop) : Prop :=
  ∀ nr task, table.task nr = some task → holds task

section Frame

variable {table : Table} {holds : Task → Prop}

theorem Table.Every.setTask (every : table.Every holds) (nr : Nat)
    {task : Option Task} (kept : ∀ new, task = some new → holds new) :
    (table.setTask nr task).Every holds := by
  intro other new isTask
  have found : (if other = nr then task else table.task other) = some new :=
    isTask
  split at found
  · exact kept new found
  · exact every other new found

theorem Table.Every.map (every : table.Every holds) {nr : Nat}
    {change : Task → Task} (kept : ∀ task, holds task → holds (change task)) :
    ∀ new, (table.task nr).map change = some new → holds new := by
  intro new changed
  obtain ⟨task, isTask, rfl⟩ := Option.map_eq_some_iff.mp changed
  exact kept task (every nr task isTask)

theorem Table.Every.onCurrent (every : table.Every holds)
    {change : Task → Task}
    (kept : ∀ task, table.task table.current = some task →
      holds (change task)) : (table.onCurrent change).Every holds := by
  apply every.setTask
  intro new changed
  obtain ⟨task, isTask, rfl⟩ := Option.map_eq_some_iff.mp changed
  exact kept task isTask

theorem Table.Every.onOthers (every : table.Every holds)
    {change : Task → Task}
    (kept : ∀ nr task, table.task nr = some task → nr ≠ 0 →
      holds (change task)) : (table.onOthers change).Every holds := by
  intro nr new isTask
  have found : (if nr = 0 then table.task nr
      else (table.task nr).map change) = some new := isTask
  split at found <;> rename_i isFirst
  · exact every nr new found
  · obtain ⟨task, wasTask, rfl⟩ := Option.map_eq_some_iff.mp found
    exact kept nr task wasTask isFirst

end Frame

theorem Task.Sane.nice {task : Task} (sane : task.Sane) (increment : Int) :
    (sysNice increment task).Sane := by
  unfold sysNice
  split <;> rename_i positive
  · exact ⟨positive, sane.counter, long_le _, sane.counterFits⟩
  · exact sane

theorem Task.Sane.countDown {task : Task} (sane : task.Sane) :
    (countDown task).Sane := by
  obtain ⟨priority, counter, priorityFits, counterFits⟩ := sane
  have exact : long (task.counter - 1) = task.counter - 1 := by
    apply long_of_fits <;> omega
  unfold Sched.countDown
  rw [exact]
  split
  · refine ⟨priority, ?_, priorityFits, ?_⟩ <;> dsimp only <;> omega
  · have zeroFits : (0 : Int) ≤ 2147483647 := by decide
    exact ⟨priority, Int.le_refl 0, priorityFits, zeroFits⟩

theorem Task.Sane.child {task : Task} (sane : task.Sane) :
    (child task).Sane :=
  ⟨sane.priority, Int.le_of_lt sane.priority, sane.priorityFits,
    sane.priorityFits⟩

/-- The first loop of `schedule()` leaves the scheduling parameters alone. -/
theorem checkSignals_parameters (jiffies : Int) (task : Task) :
    (checkSignals jiffies task).counter = task.counter ∧
      (checkSignals jiffies task).priority = task.priority := by
  have alarm : (checkAlarm jiffies task).counter = task.counter ∧
      (checkAlarm jiffies task).priority = task.priority := by
    unfold checkAlarm
    split <;> exact ⟨rfl, rfl⟩
  unfold checkSignals
  dsimp only
  split <;> exact alarm

theorem Task.Sane.congr {task other : Task} (sane : task.Sane)
    (same : other.counter = task.counter ∧ other.priority = task.priority) :
    other.Sane := by
  obtain ⟨priority, counter, priorityFits, counterFits⟩ := sane
  constructor <;> omega

/-- What a recharge of the task comes to still is a long. -/
def Task.Fits (task : Task) : Prop :=
  task.counter / 2 + task.priority ≤ 2147483647

theorem Task.Sane.recharge {task : Task} (sane : task.Sane)
    (fits : task.Fits) : (recharge task).Sane := by
  obtain ⟨priority, counter, priorityFits, counterFits⟩ := sane
  unfold Task.Fits at fits
  have sum : long ((task.counter >>> (1 : Nat)) + task.priority) =
      task.counter / 2 + task.priority := by
    rw [Int.shiftRight_eq_div_pow]
    apply long_of_fits <;> omega
  refine ⟨priority, ?_, priorityFits, ?_⟩ <;> unfold Sched.recharge <;>
    dsimp only <;> rw [sum]
  · omega
  · exact fits

/-- No recharge overflows. -/
def Fitting (table : Table) : TableAction → Prop
  | .pass => (select table).1 = 0 →
      ∀ nr task, table.task nr = some task → nr ≠ 0 → task.Fits
  | _ => True

section Steps

variable {table next : Table} {action : TableAction} {holds : Task → Prop}

/-- What each change to a task keeps, a step keeps of all tasks. -/
theorem every_step (every : table.Every holds)
    (congr : ∀ task other : Task, holds task →
      other.counter = task.counter ∧ other.priority = task.priority →
        holds other)
    (nice : ∀ increment task, action = .nice increment →
      table.task table.current = some task → holds (sysNice increment task))
    (copied : ∀ task, holds task → holds (child task))
    (counted : ∀ task, holds task → holds (countDown task))
    (recharged : ∀ nr task, action = .pass → (select table).1 = 0 →
      table.task nr = some task → nr ≠ 0 → holds (recharge task))
    (steps : scheduler.step table action = some next) : next.Every holds := by
  have entered {table : Table} (every : table.Every holds) :
      (enterSchedule table).Every holds := by
    have kept : (table.onOthers (checkSignals table.jiffies)).Every holds :=
      every.onOthers fun nr task isTask _ =>
        congr task _ (every nr task isTask)
          (checkSignals_parameters table.jiffies task)
    exact kept
  cases action with
  | nice increment =>
      rw [scheduler] at steps
      dsimp only at steps
      split at steps
      · cases steps
      · rw [← Option.some.inj steps]
        exact every.onCurrent fun task isTask => nice increment task rfl isTask
  | copyProcess nr =>
      rw [scheduler] at steps
      dsimp only at steps
      split at steps
      · cases steps
      · rw [← Option.some.inj steps]
        exact every.setTask nr (every.map copied)
  | doTimer cpl =>
      rw [scheduler] at steps
      dsimp only at steps
      split at steps
      · cases steps
      · rw [← Option.some.inj steps]
        have afterCount : (table.onCurrent countDown).Every holds :=
          every.onCurrent fun task isTask => counted task (every _ task isTask)
        unfold doTimer
        dsimp only
        split
        · exact entered afterCount
        · exact afterCount
  | schedule =>
      rw [scheduler] at steps
      dsimp only at steps
      split at steps
      · cases steps
      · rw [← Option.some.inj steps]
        exact entered every
  | pass =>
      rw [scheduler] at steps
      dsimp only at steps
      split at steps
      · rw [← Option.some.inj steps]
        unfold schedulePass
        dsimp only
        split <;> rename_i isZero
        · exact every
        · have noneLeft : (select table).1 = 0 := Decidable.not_not.mp isZero
          exact every.onOthers fun nr task isTask notFirst =>
            recharged nr task rfl noneLeft isTask notFirst
      · cases steps
  | others nr state signal blocked alarm =>
      rw [← Option.some.inj steps]
      exact every.setTask nr (every.map fun task kept =>
        congr task _ kept ⟨rfl, rfl⟩)
  | release nr =>
      rw [scheduler] at steps
      dsimp only at steps
      split at steps
      · cases steps
      · rw [← Option.some.inj steps]
        exact every.setTask nr fun new isNew => nomatch isNew

theorem sane_step (sane : table.Every Task.Sane)
    (fitting : Fitting table action)
    (steps : scheduler.step table action = some next) :
    next.Every Task.Sane := by
  apply every_step sane _ _ _ _ _ steps
  · exact fun task other sane same => sane.congr same
  · exact fun increment task _ isTask => (sane _ task isTask).nice increment
  · exact fun task sane => sane.child
  · exact fun task sane => sane.countDown
  · intro nr task isPass noneLeft isTask notFirst
    rw [isPass] at fitting
    exact (sane nr task isTask).recharge (fitting noneLeft nr task isTask notFirst)

theorem sane_initTable : Table.initTable.Every Task.Sane := by
  intro nr task isTask
  unfold Table.initTable at isTask
  dsimp only at isTask
  split at isTask
  · rw [← Option.some.inj isTask]
    constructor <;> decide
  · cases isTask

end Steps

section Selection

variable {task : Nat → Option Task}

theorem selectFrom_ge (i : Nat) (c : Int) (next : Nat) :
    c ≤ (selectFrom task i (c, next)).1 ∧
      ((selectFrom task i (c, next)).2 = 0 →
        selectFrom task i (c, next) = (c, next)) := by
  induction i generalizing c next with
  | zero => exact ⟨Int.le_refl c, fun _ => rfl⟩
  | succ i induction =>
      rw [selectFrom]
      cases task (i + 1) with
      | none => exact induction c next
      | some p =>
          dsimp only
          split <;> rename_i better
          · obtain ⟨atLeast, unchanged⟩ := induction p.counter (i + 1)
            refine ⟨Int.le_trans (Int.le_of_lt better.2) atLeast, ?_⟩
            intro noNext
            rw [unchanged noNext] at noNext
            cases noNext
          · exact induction c next

/-- The selection finds the largest counter of a task that can run. -/
theorem counter_le_selectFrom {i : Nat} {best : Int × Nat} {nr : Nat}
    {p : Task} (isTask : task nr = some p) (runs : p.state = .running)
    (positive : 0 < nr) (inside : nr ≤ i) :
    p.counter ≤ (selectFrom task i best).1 := by
  induction i generalizing best with
  | zero => omega
  | succ i induction =>
      obtain ⟨c, next⟩ := best
      rw [selectFrom]
      by_cases isThis : nr = i + 1
      · rw [← isThis, isTask]
        dsimp only
        split <;> rename_i better
        · exact (selectFrom_ge i p.counter nr).1
        · have atMost : p.counter ≤ c := by
            have notBetter : ¬ c < p.counter := fun less => better ⟨runs, less⟩
            omega
          exact Int.le_trans atMost (selectFrom_ge i c next).1
      · have below : nr ≤ i := by omega
        exact induction below

end Selection

/-- As long as no recharge overflows, the priority of every task is positive,
its counter is not negative, and the selection finds a task whenever one can
run. -/
theorem schedulingParameters_sane {table : Table}
    (reached : scheduler.Reachable Fitting Table.initTable table) :
    (∀ nr task, table.task nr = some task →
      0 < task.priority ∧ 0 ≤ task.counter) ∧
    ∀ nr task, table.task nr = some task → 0 < nr → nr < nrTasks →
      task.state = .running →
        task.counter ≤ (select table).1 ∧ (select table).2 ≠ 0 := by
  have sane : table.Every Task.Sane :=
    reached.invariant sane_initTable fun _ _ _ sane fitting steps =>
      sane_step sane fitting steps
  refine ⟨fun nr task isTask =>
    ⟨(sane nr task isTask).priority, (sane nr task isTask).counter⟩, ?_⟩
  intro nr task isTask positive inside runs
  have seen : task.counter ≤ (select table).1 :=
    counter_le_selectFrom isTask runs positive (Nat.le_pred_of_lt inside)
  refine ⟨seen, ?_⟩
  intro noNext
  have untouched := (selectFrom_ge (nrTasks - 1) (-1) 0).2 noNext
  have counter := (sane nr task isTask).counter
  have nothing : (select table).1 = -1 := by
    unfold select
    rw [untouched]
  omega

/-- No `sys_nice` leaves a priority above half of the largest long. -/
def Modest (table : Table) : TableAction → Prop
  | .nice increment => ∀ task ∈ table.task table.current,
      long (task.priority - increment) ≤ 1073741824
  | _ => True

instance (table : Table) (action : TableAction) :
    Decidable (Modest table action) :=
  match action with
  | .nice increment => inferInstanceAs (Decidable
      (∀ task ∈ table.task table.current,
        long (task.priority - increment) ≤ 1073741824))
  | .copyProcess _ => .isTrue trivial
  | .doTimer _ => .isTrue trivial
  | .schedule => .isTrue trivial
  | .pass => .isTrue trivial
  | .others .. => .isTrue trivial
  | .release _ => .isTrue trivial

/-- With modest priorities a counter stays below twice the largest. -/
def Task.Bounded (task : Task) : Prop :=
  task.Sane ∧ task.priority ≤ 1073741824

theorem Task.Bounded.fits {task : Task} (bounded : task.Bounded) :
    task.Fits := by
  have counterFits := bounded.1.counterFits
  have priorityFits := bounded.2
  unfold Task.Fits
  omega

theorem bounded_step {table next : Table} {action : TableAction}
    (bounded : table.Every Task.Bounded) (modest : Modest table action)
    (steps : scheduler.step table action = some next) :
    next.Every Task.Bounded := by
  apply every_step bounded _ _ _ _ _ steps
  · intro task other taskBounded same
    refine ⟨taskBounded.1.congr same, ?_⟩
    rw [same.2]
    exact taskBounded.2
  · intro increment task isNice isTask
    rw [isNice] at modest
    obtain ⟨sane, low⟩ := bounded _ task isTask
    refine ⟨sane.nice increment, ?_⟩
    unfold sysNice
    split
    · exact modest task isTask
    · exact low
  · exact fun task taskBounded => ⟨taskBounded.1.child, taskBounded.2⟩
  · intro task taskBounded
    refine ⟨taskBounded.1.countDown, ?_⟩
    unfold countDown
    split <;> exact taskBounded.2
  · intro nr task _ _ isTask _
    have taskBounded := bounded nr task isTask
    exact ⟨taskBounded.1.recharge taskBounded.fits, taskBounded.2⟩

/-- With modest priorities no recharge overflows. -/
theorem modest_fitting {table : Table}
    (reached : scheduler.Reachable Modest Table.initTable table) :
    scheduler.Reachable Fitting Table.initTable table ∧
      table.Every Task.Bounded := by
  induction reached with
  | start =>
      refine ⟨.start, ?_⟩
      intro nr task isTask
      refine ⟨sane_initTable nr task isTask, ?_⟩
      unfold Table.initTable at isTask
      dsimp only at isTask
      split at isTask
      · rw [← Option.some.inj isTask]
        decide
      · cases isTask
  | @step table next action _ modest steps induction =>
      obtain ⟨fitting, bounded⟩ := induction
      refine ⟨.step action fitting ?_ steps, bounded_step bounded modest steps⟩
      cases action with
      | pass => exact fun _ nr task isTask _ => (bounded nr task isTask).fits
      | _ => trivial

/-- A child with raised priority sleeps while its parent uses up its time. -/
def raisedPriority (priority : Int) : List TableAction :=
  [.copyProcess 1, .copyProcess 2, .schedule, .pass, .nice (15 - priority),
    .others 2 .interruptible 0 0 0, .schedule, .pass] ++
    List.replicate 15 (.doTimer true) ++ [.pass, .others 2 .running 0 0 0]

theorem schedulingParameters_sane_modest :
    ∃ table task, scheduler.run Modest Table.initTable
        (raisedPriority 1073741824) = some table ∧
      table.task 2 = some task ∧ task.counter = 1073741831 ∧
      0 < task.priority ∧ 0 ≤ task.counter := by
  refine ⟨_, _, rfl, rfl, rfl, ?_⟩
  have runs : scheduler.run Modest Table.initTable
      (raisedPriority 1073741824) = some _ := rfl
  exact (schedulingParameters_sane
    (modest_fitting (Machine.reachable_of_run .start runs)).1).1 2 _ rfl

/-- With the highest priority `sys_nice` accepts, the recharge overflows. -/
theorem schedulingParameters_overflow :
    ∃ table task, scheduler.run Machine.anything Table.initTable
        (raisedPriority 2147483647) = some table ∧
      table.task 2 = some task ∧ task.state = .running ∧
      task.counter = -2147483642 ∧ (select table).2 = 1 := by
  exact ⟨_, _, rfl, rfl, rfl, by decide, by decide⟩

end Linux011.Sched

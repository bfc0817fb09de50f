import Linux011.Sched.Schedule

/-!
# Which task `schedule` picks

The loop of `schedule()` makes one pass or two.  A recharge, if there is one,
leaves every counter positive, so that a second pass finds whatever can run.
-/

namespace Linux011.Sched

/-- The `while (1)` loop of `schedule()`, `passes` times at most. -/
def scheduleLoop : Nat → Table → Option Table
  | 0, _ => none
  | passes + 1, table =>
      if (select table).1 ≠ 0 then some (schedulePass table)
      else scheduleLoop passes (schedulePass table)

/-- `schedule()`, whose loop ends after `passes` passes at most. -/
def schedule (passes : Nat) (table : Table) : Option Table :=
  scheduleLoop passes (enterSchedule table)

/-! ## One pass of the selection -/

section Selection

variable {task : Nat → Option Task}

/-- The task in slot `nr` can run, and of all that can in slots 1 to `last` it
has the largest counter, in the highest slot. -/
structure Best (task : Nat → Option Task) (last nr : Nat) (p : Task) :
    Prop where
  positive : 0 < nr
  inside : nr ≤ last
  isTask : task nr = some p
  runs : p.state = .running
  largest : ∀ other q, 0 < other → other ≤ last → task other = some q →
    q.state = .running → q.counter ≤ p.counter
  highest : ∀ other q, 0 < other → other ≤ last → task other = some q →
    q.state = .running → q.counter = p.counter → other ≤ nr

/-- No task in slots 1 to `last` that can run has a counter above `c`. -/
def NoneAbove (task : Nat → Option Task) (last : Nat) (c : Int) : Prop :=
  ∀ nr q, 0 < nr → nr ≤ last → task nr = some q → q.state = .running →
    q.counter ≤ c

/-- A slot more, whose task is not above. -/
theorem NoneAbove.succ {last : Nat} {c : Int} (none : NoneAbove task last c)
    (notAbove : ∀ q, task (last + 1) = some q → q.state = .running →
      q.counter ≤ c) : NoneAbove task (last + 1) c := by
  intro nr q positive inside isTask runs
  by_cases isNew : nr = last + 1
  · subst isNew
    exact notAbove q isTask runs
  · exact none nr q positive (by omega) isTask runs

/-- A slot more, whose task is not as good. -/
theorem Best.succ {last nr : Nat} {p : Task} (best : Best task last nr p)
    (worse : ∀ q, task (last + 1) = some q → q.state = .running →
      q.counter < p.counter) : Best task (last + 1) nr p where
  positive := best.positive
  inside := Nat.le_succ_of_le best.inside
  isTask := best.isTask
  runs := best.runs
  largest := by
    intro other q positive inside isTask runs
    by_cases isNew : other = last + 1
    · subst isNew
      exact Int.le_of_lt (worse q isTask runs)
    · exact best.largest other q positive (by omega) isTask runs
  highest := by
    intro other q positive inside isTask runs same
    by_cases isNew : other = last + 1
    · subst isNew
      have less := worse q isTask runs
      omega
    · exact best.highest other q positive (by omega) isTask runs same

/-- What the scan from slot `last` down comes to: what it had, or the best
of those that are better. -/
theorem selectFrom_best (last : Nat) (c : Int) (next : Nat) :
    selectFrom task last (c, next) = (c, next) ∧ NoneAbove task last c ∨
      ∃ nr p, selectFrom task last (c, next) = (p.counter, nr) ∧
        c < p.counter ∧ Best task last nr p := by
  induction last generalizing c next with
  | zero =>
      refine .inl ⟨rfl, ?_⟩
      intro nr q positive inside
      omega
  | succ last induction =>
      rw [selectFrom]
      cases isTask : task (last + 1) with
      | none =>
          have absent (q : Task) (isNew : task (last + 1) = some q) :
              False := by
            rw [isTask] at isNew
            cases isNew
          obtain ⟨same, noneAbove⟩ | ⟨nr, p, same, above, best⟩ :=
            induction c next
          · exact .inl ⟨same, noneAbove.succ fun q isNew =>
              (absent q isNew).elim⟩
          · exact .inr ⟨nr, p, same, above, best.succ fun q isNew =>
              (absent q isNew).elim⟩
      | some p =>
          have only (q : Task) (isNew : task (last + 1) = some q) : q = p := by
            rw [isTask, Option.some.injEq] at isNew
            exact isNew.symm
          dsimp only
          split <;> rename_i better
          · obtain ⟨same, noneAbove⟩ | ⟨nr, q, same, above, best⟩ :=
              induction p.counter (last + 1)
            · -- nothing below is better than the task in slot `last + 1`
              refine .inr ⟨last + 1, p, same, better.2, ?_⟩
              have upTo : NoneAbove task (last + 1) p.counter := by
                apply noneAbove.succ
                intro q isNew _
                obtain rfl := only q isNew
                exact Int.le_refl _
              exact
                { positive := Nat.succ_pos last
                  inside := Nat.le_refl _
                  isTask := isTask
                  runs := better.1
                  largest := upTo
                  highest := fun _ _ _ inside _ _ _ => inside }
            · refine .inr ⟨nr, q, same, Int.lt_trans better.2 above, ?_⟩
              apply best.succ
              intro r isNew _
              rw [only r isNew]
              exact above
          · have notAbove (q : Task) (isNew : task (last + 1) = some q)
                (runs : q.state = .running) : q.counter ≤ c := by
              obtain rfl := only q isNew
              exact Int.not_lt.mp fun less => better ⟨runs, less⟩
            obtain ⟨same, noneAbove⟩ | ⟨nr, q, same, above, best⟩ :=
              induction c next
            · exact .inl ⟨same, noneAbove.succ notAbove⟩
            · refine .inr ⟨nr, q, same, above, ?_⟩
              apply best.succ
              intro r isNew runs
              exact Int.lt_of_le_of_lt (notAbove r isNew runs) above

end Selection

/-- The task in slot `nr` can run. -/
def Table.Runs (table : Table) (nr : Nat) : Prop :=
  0 < nr ∧ nr < nrTasks ∧ ∃ p, table.task nr = some p ∧ p.state = .running

/-- Where no counter is negative, the selection finds task 0 or the best. -/
theorem select_best {table : Table}
    (counters : table.Every fun p => 0 ≤ p.counter) :
    select table = (-1, 0) ∧ (∀ nr, ¬ table.Runs nr) ∨
      ∃ nr p, select table = (p.counter, nr) ∧
        Best table.task (nrTasks - 1) nr p := by
  obtain ⟨same, noneAbove⟩ | ⟨nr, p, same, _, best⟩ :=
    @selectFrom_best table.task (nrTasks - 1) (-1) 0
  · refine .inl ⟨same, ?_⟩
    rintro nr ⟨positive, inside, p, isTask, runs⟩
    have atMost := noneAbove nr p positive (Nat.le_pred_of_lt inside) isTask runs
    have atLeast := counters nr p isTask
    omega
  · exact .inr ⟨nr, p, same, best⟩

/-! ## What the passes do to the tasks -/

/-- The alarm of the task has run out. -/
def Task.Expired (jiffies : Int) (p : Task) : Prop :=
  p.alarm ≠ 0 ∧ p.alarm < jiffies

instance (jiffies : Int) (p : Task) : Decidable (p.Expired jiffies) :=
  inferInstanceAs (Decidable (_ ∧ _))

/-- The signals after those of alarms have come. -/
def Task.signals (jiffies : Int) (p : Task) : BitVec 32 :=
  if p.Expired jiffies then p.signal ||| signalBit sigalrm else p.signal

/-- The task sleeps and has a signal that it does not block. -/
def Task.Woken (jiffies : Int) (p : Task) : Prop :=
  p.signals jiffies &&& ~~~ (blockable &&& p.blocked) ≠ 0 ∧
    p.state = .interruptible

instance (jiffies : Int) (p : Task) : Decidable (p.Woken jiffies) :=
  inferInstanceAs (Decidable (_ ∧ _))

/-- The task after `schedule()`, which has made a recharge or not. -/
def Task.scheduled (jiffies : Int) (recharged : Bool) (p : Task) : Task :=
  { p with
    alarm := if p.Expired jiffies then 0 else p.alarm
    signal := p.signals jiffies
    state := if p.Woken jiffies then .running else p.state
    counter := if recharged then p.counter / 2 + p.priority else p.counter }

theorem checkAlarm_signals (jiffies : Int) (p : Task) :
    checkAlarm jiffies p =
      { p with
        alarm := if p.Expired jiffies then 0 else p.alarm
        signal := p.signals jiffies } := by
  unfold checkAlarm Task.signals
  by_cases expired : p.Expired jiffies
  · have both : p.alarm ≠ 0 ∧ p.alarm < jiffies := expired
    simp only [if_pos expired, if_pos both]
  · have notBoth : ¬ (p.alarm ≠ 0 ∧ p.alarm < jiffies) := expired
    simp only [if_neg expired, if_neg notBoth]

theorem checkSignals_scheduled (jiffies : Int) (p : Task) :
    checkSignals jiffies p = p.scheduled jiffies false := by
  unfold checkSignals Task.scheduled
  rw [checkAlarm_signals]
  by_cases woken : p.Woken jiffies
  · have both : p.signals jiffies &&& ~~~ (blockable &&& p.blocked) ≠ 0 ∧
        p.state = .interruptible := woken
    simp only [if_pos woken, if_pos both, Bool.false_eq_true, if_false]
  · have notBoth : ¬ (p.signals jiffies &&&
        ~~~ (blockable &&& p.blocked) ≠ 0 ∧ p.state = .interruptible) := woken
    simp only [if_neg woken, if_neg notBoth, Bool.false_eq_true, if_false]

/-- The parameters a task is to have: no recharge of it overflows. -/
structure Task.Regular (p : Task) : Prop where
  counter : 0 ≤ p.counter
  priority : 1 ≤ p.priority
  fits : p.counter / 2 + p.priority < 2147483648

theorem Task.Regular.recharged {p : Task} (regular : p.Regular)
    (jiffies : Int) :
    recharge (p.scheduled jiffies false) = p.scheduled jiffies true := by
  obtain ⟨counter, priority, fits⟩ := regular
  have sum : long ((p.counter >>> (1 : Nat)) + p.priority) =
      p.counter / 2 + p.priority := by
    rw [Int.shiftRight_eq_div_pow]
    apply long_of_fits <;> omega
  unfold recharge Task.scheduled
  simp [sum]

/-- The tasks of `final` are those of `table` after `schedule()`. -/
def Rescheduled (table : Table) (recharged : Bool) (final : Table) : Prop :=
  ∀ nr, final.task nr =
    if nr = 0 then table.task nr
    else (table.task nr).map (Task.scheduled table.jiffies recharged)

theorem enterSchedule_rescheduled (table : Table) :
    Rescheduled table false (enterSchedule table) := by
  intro nr
  show (if nr = 0 then table.task nr
    else (table.task nr).map (checkSignals table.jiffies)) = _
  rw [funext (checkSignals_scheduled table.jiffies)]

theorem onOthers_rescheduled {table entered : Table}
    (regular : table.Every Task.Regular)
    (rescheduled : Rescheduled table false entered) :
    Rescheduled table true (entered.onOthers recharge) := by
  intro nr
  show (if nr = 0 then entered.task nr
    else (entered.task nr).map recharge) = _
  rw [rescheduled nr]
  split
  · rfl
  · cases isTask : table.task nr with
    | none => rfl
    | some p =>
        exact congrArg some ((regular nr p isTask).recharged table.jiffies)

/-- No counter becomes negative. -/
theorem Rescheduled.counters {table final : Table} {recharged : Bool}
    (regular : table.Every Task.Regular)
    (rescheduled : Rescheduled table recharged final) :
    final.Every fun p => 0 ≤ p.counter := by
  intro nr q isTask
  rw [rescheduled nr] at isTask
  split at isTask
  · exact (regular nr q isTask).counter
  · obtain ⟨p, wasTask, rfl⟩ := Option.map_eq_some_iff.mp isTask
    obtain ⟨counter, priority, fits⟩ := regular nr p wasTask
    unfold Task.scheduled
    dsimp only
    split
    · omega
    · exact counter

/-- A recharge does not change who can run. -/
theorem Rescheduled.runs {table final other : Table} {first second : Bool}
    (rescheduled : Rescheduled table first final)
    (again : Rescheduled table second other) {nr : Nat}
    (isRunning : final.Runs nr) : other.Runs nr := by
  obtain ⟨positive, inside, q, isTask, runs⟩ := isRunning
  have notFirst : nr ≠ 0 := by omega
  rw [rescheduled nr, if_neg notFirst] at isTask
  obtain ⟨p, wasTask, rfl⟩ := Option.map_eq_some_iff.mp isTask
  refine ⟨positive, inside, p.scheduled table.jiffies second, ?_, runs⟩
  rw [again nr, if_neg notFirst, wasTask]
  rfl

/-- What `schedule()` is to do. -/
structure Picks (table : Table) (recharged : Bool) (final : Table) :
    Prop where
  tasks : Rescheduled table recharged final
  jiffies : final.jiffies = table.jiffies
  /-- A recharge is made when all tasks that can run have used up their
  time. -/
  exhausted : recharged = true ↔
    (∃ nr, (enterSchedule table).Runs nr) ∧
      ∀ nr p, 0 < nr → nr < nrTasks → (enterSchedule table).task nr = some p →
        p.state = .running → p.counter = 0
  idle : final.current = 0 ↔ ∀ nr, ¬ (enterSchedule table).Runs nr
  best : final.current ≠ 0 → ∃ p, 0 < p.counter ∧
    Best final.task (nrTasks - 1) final.current p

theorem Best.runs_table {table : Table} {nr : Nat} {p : Task}
    (best : Best table.task (nrTasks - 1) nr p) : table.Runs nr := by
  have inside := best.inside
  have positive := best.positive
  exact ⟨positive, by omega, p, best.isTask, best.runs⟩

/-- The pass that ends the loop. -/
theorem schedulePass_last {table : Table}
    (counters : table.Every fun p => 0 ≤ p.counter)
    (notZero : (select table).1 ≠ 0) :
    ((schedulePass table).current = 0 ↔ ∀ nr, ¬ table.Runs nr) ∧
      ((schedulePass table).current ≠ 0 → ∃ p, 0 < p.counter ∧
        Best table.task (nrTasks - 1) (schedulePass table).current p) ∧
      (schedulePass table).task = table.task ∧
      (schedulePass table).jiffies = table.jiffies := by
  have last : schedulePass table =
      { table with current := (select table).2, scheduling := false } :=
    if_pos notZero
  rw [last]
  refine ⟨?_, ?_, rfl, rfl⟩
  · obtain ⟨same, nobody⟩ | ⟨nr, p, same, best⟩ := select_best counters
    · simp [same, nobody]
    · have positive := best.positive
      simp only [same]
      constructor
      · omega
      · exact fun nobody => absurd best.runs_table (nobody nr)
  · obtain ⟨same, nobody⟩ | ⟨nr, p, same, best⟩ := select_best counters
    · simp [same]
    · intro _
      have notLess := counters nr p best.isTask
      rw [same] at notZero ⊢
      exact ⟨p, by omega, best⟩

/-- After a recharge some counter is positive. -/
theorem Rescheduled.positive {table final : Table}
    (regular : table.Every Task.Regular)
    (rescheduled : Rescheduled table true final) {nr : Nat} {q : Task}
    (notFirst : nr ≠ 0) (isTask : final.task nr = some q) : 0 < q.counter := by
  rw [rescheduled nr, if_neg notFirst] at isTask
  obtain ⟨p, wasTask, rfl⟩ := Option.map_eq_some_iff.mp isTask
  obtain ⟨counter, priority, fits⟩ := regular nr p wasTask
  unfold Task.scheduled
  dsimp only
  rw [if_pos rfl]
  omega

/-- The selection finds 0 when all that can run have used up their time. -/
theorem select_zero_iff {table : Table}
    (counters : table.Every fun p => 0 ≤ p.counter) :
    (select table).1 = 0 ↔ (∃ nr, table.Runs nr) ∧
      ∀ nr p, 0 < nr → nr < nrTasks → table.task nr = some p →
        p.state = .running → p.counter = 0 := by
  obtain ⟨same, nobody⟩ | ⟨nr, p, same, best⟩ := select_best counters
  · rw [same]
    constructor
    · intro impossible
      cases impossible
    · rintro ⟨⟨nr, runs⟩, _⟩
      exact absurd runs (nobody nr)
  · rw [same]
    constructor
    · intro used
      refine ⟨⟨nr, best.runs_table⟩, ?_⟩
      intro other q positive inside isTask isRunning
      have atMost := best.largest other q positive (by omega) isTask isRunning
      have atLeast := counters other q isTask
      dsimp only at used atLeast
      omega
    · rintro ⟨_, usedUp⟩
      obtain ⟨positive, inside, _⟩ := best.runs_table
      exact usedUp nr p positive inside best.isTask best.runs

/-- What the pass that ends the loop makes of the tasks before it. -/
theorem Rescheduled.picks {table before : Table} {recharged : Bool}
    (regular : table.Every Task.Regular)
    (rescheduled : Rescheduled table recharged before)
    (jiffies : before.jiffies = table.jiffies)
    (notZero : (select before).1 ≠ 0)
    (exhausted : recharged = true ↔ (select (enterSchedule table)).1 = 0) :
    Picks table recharged (schedulePass before) := by
  have entered := enterSchedule_rescheduled table
  obtain ⟨idle, isBest, tasks, sameJiffies⟩ :=
    schedulePass_last (rescheduled.counters regular) notZero
  refine
    { tasks := ?_
      jiffies := sameJiffies.trans jiffies
      exhausted := exhausted.trans (select_zero_iff (entered.counters regular))
      idle := ?_
      best := ?_ }
  · intro nr
    rw [tasks]
    exact rescheduled nr
  · rw [idle]
    constructor
    · exact fun nobody nr runs => nobody nr (entered.runs rescheduled runs)
    · exact fun nobody nr runs => nobody nr (rescheduled.runs entered runs)
  · rw [tasks]
    exact isBest

/-- Behind a recharge the selection does not find 0 again. -/
theorem Rescheduled.selects {table entered final : Table}
    (regular : table.Every Task.Regular)
    (rescheduled : Rescheduled table false entered)
    (recharged : Rescheduled table true final)
    (isZero : (select entered).1 = 0) : (select final).1 ≠ 0 := by
  obtain ⟨⟨nr, runs⟩, _⟩ :=
    (select_zero_iff (rescheduled.counters regular)).mp isZero
  have runsAgain := rescheduled.runs recharged runs
  obtain ⟨_, nobody⟩ | ⟨other, q, found, better⟩ :=
    select_best (recharged.counters regular)
  · exact absurd runsAgain (nobody nr)
  · rw [found]
    have otherPositive := better.positive
    have positive := recharged.positive regular (by omega : other ≠ 0)
      better.isTask
    dsimp only
    omega

/-- With regular parameters `schedule()` ends after at most one recharge and
picks the best task. -/
theorem schedule_picks {table : Table} (regular : table.Every Task.Regular) :
    ∃ recharged final, Picks table recharged final ∧
      ∀ passes, 2 ≤ passes → schedule passes table = some final := by
  have entered := enterSchedule_rescheduled table
  by_cases isZero : (select (enterSchedule table)).1 = 0
  · have again : schedulePass (enterSchedule table) =
        (enterSchedule table).onOthers recharge :=
      if_neg (Decidable.not_not.mpr isZero)
    have recharged := onOthers_rescheduled regular entered
    have notZero := entered.selects regular recharged isZero
    refine ⟨true, _, recharged.picks regular rfl notZero
      (iff_of_true rfl isZero), ?_⟩
    intro passes atLeast
    obtain ⟨more, rfl⟩ := Nat.exists_eq_add_of_le' atLeast
    unfold schedule
    rw [scheduleLoop, if_neg (Decidable.not_not.mpr isZero), again,
      scheduleLoop, if_pos notZero]
  · refine ⟨false, _, entered.picks regular rfl isZero
      (iff_of_false Bool.false_ne_true isZero), ?_⟩
    intro passes atLeast
    obtain ⟨more, rfl⟩ := Nat.exists_eq_add_of_le' atLeast
    unfold schedule
    rw [scheduleLoop, if_pos isZero]

section Example

/-- Tasks 1 and 2 have used up their time, and 2 sleeps until its alarm. -/
def usedUp : Table where
  task := fun nr =>
    if nr = 0 then some ⟨.running, 0, 15, 0, 0, 0⟩
    else if nr = 1 then some ⟨.running, 0, 15, 0, 0, 0⟩
    else if nr = 2 then some ⟨.interruptible, 0, 15, 0, 0, 5⟩
    else if nr = 3 then some ⟨.uninterruptible, 9, 4, 0, 0, 0⟩
    else none
  current := 1
  jiffies := 10
  scheduling := false

theorem usedUp_regular : usedUp.Every Task.Regular := by
  intro nr p isTask
  unfold usedUp at isTask
  dsimp only at isTask
  split at isTask
  · cases isTask
    constructor <;> decide
  split at isTask
  · cases isTask
    constructor <;> decide
  split at isTask
  · cases isTask
    constructor <;> decide
  split at isTask
  · cases isTask
    constructor <;> decide
  · cases isTask

theorem schedule_picks_usedUp :
    ∃ final, Picks usedUp true final ∧ final.current = 2 ∧
      schedule 2 usedUp = some final := by
  obtain ⟨recharged, final, picks, ends⟩ := schedule_picks usedUp_regular
  have isFinal := ends 2 (Nat.le_refl 2)
  have current : (schedule 2 usedUp).map Table.current = some 2 := by
    decide
  have counter : ((schedule 2 usedUp).bind fun table =>
      (table.task 3).map Task.counter) = some 8 := by
    decide
  rw [isFinal] at current counter
  refine ⟨final, ?_, Option.some.inj current, isFinal⟩
  cases recharged with
  | true => exact picks
  | false =>
      have unchanged : final.task 3 = some ⟨.uninterruptible, 9, 4, 0, 0, 0⟩ :=
        picks.tasks 3
      rw [Option.bind_some, unchanged] at counter
      cases counter

end Example

end Linux011.Sched

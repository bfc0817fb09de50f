import Linux011.Library.Machine

/-!
# Wait queues

`sleep_on`, `interruptible_sleep_on` and `wake_up` of `sched.c` on one queue.
The list of sleepers is nowhere in memory: each sleeper keeps the head it
found in a local variable and wakes that task when it has been woken itself.
A task runs undisturbed up to `schedule()`, so a call to sleep is two steps,
one before and one after it.
-/

namespace Linux011.Sched

open Machines

/-- Where a task is: not in a call to sleep; in one with its state set to
sleep; in one with its state back at `TASK_RUNNING`. -/
inductive Place where
  | outside
  | asleep
  | woken
  deriving DecidableEq

/-- A wait queue `p` and the calls under way on it.  `tmp` is the local
variable of a task in a call; `stray` records whether some `state=0` has hit
a task that was in no call. -/
structure Queue (τ : Type) where
  head : Option τ
  tmp : τ → Option τ
  place : τ → Place
  stray : Bool

inductive QueueAction (τ : Type) where
  | sleep (task : τ)
  | wakeUp
  | resume (task : τ)

namespace Queue

variable {τ : Type} [DecidableEq τ]

/-- No task has ever slept here. -/
def unused : Queue τ where
  head := none
  tmp := fun _ => none
  place := fun _ => .outside
  stray := false

def setPlace (queue : Queue τ) (task : τ) (place : Place) : Queue τ :=
  { queue with
    place := fun other => if other = task then place else queue.place other }

/-- `task->state = 0`. -/
def makeRunnable (queue : Queue τ) (task : τ) : Queue τ :=
  match queue.place task with
  | .outside => { queue with stray := true }
  | _ => queue.setPlace task .woken

/-- `sleep_on` and `interruptible_sleep_on` up to `schedule()`. -/
def fallAsleep (queue : Queue τ) (task : τ) : Queue τ :=
  { (queue.setPlace task .asleep) with
    head := some task
    tmp := fun other => if other = task then queue.head else queue.tmp other }

/-- `if (tmp) tmp->state=0`, and the return. -/
def leave (queue : Queue τ) (task : τ) : Queue τ :=
  let queue := queue.setPlace task .outside
  match queue.tmp task with
  | none => queue
  | some tmp => queue.makeRunnable tmp

/-- `wake_up`. -/
def wakeUp (queue : Queue τ) : Queue τ :=
  match queue.head with
  | none => queue
  | some head => { queue.makeRunnable head with head := none }

/-- `interruptible_sleep_on` after `schedule()`. -/
def resumeInterruptible (queue : Queue τ) (task : τ) : Queue τ :=
  match queue.head with
  | none => queue.leave task
  | some head =>
      if head = task then { queue with head := none }.leave task
      else (queue.makeRunnable head).setPlace task .asleep

end Queue

section Machines

variable (τ : Type) [DecidableEq τ]

/-- A queue used through `sleep_on`. -/
def sleepOn : Machine (Queue τ) (QueueAction τ) where
  step := fun queue action =>
    match action with
    | .sleep task =>
        if queue.place task = .outside then some (queue.fallAsleep task)
        else none
    | .wakeUp => some queue.wakeUp
    | .resume task =>
        if queue.place task = .woken then some (queue.leave task) else none

/-- A queue used through `interruptible_sleep_on`, by tasks without
signals. -/
def interruptibleSleepOn : Machine (Queue τ) (QueueAction τ) where
  step := fun queue action =>
    match action with
    | .resume task =>
        if queue.place task = .woken then
          some (queue.resumeInterruptible task)
        else none
    | _ => (sleepOn τ).step queue action

end Machines

namespace Queue

variable {τ : Type} [DecidableEq τ]

/-- The tasks that can be found: the head of the queue, those that are about
to return, and whomever one of these keeps in its `tmp`. -/
inductive Reached (queue : Queue τ) : τ → Prop where
  | head {task : τ} (isHead : queue.head = some task) : Reached queue task
  | woken {task : τ} (isWoken : queue.place task = .woken) :
      Reached queue task
  | tmp {task next : τ} (reached : Reached queue task)
      (inside : queue.place task ≠ .outside)
      (saved : queue.tmp task = some next) : Reached queue next

/-- Every sleeper is found, through exactly one pointer. -/
structure Linked (queue : Queue τ) : Prop where
  found : ∀ task, queue.place task = .asleep → queue.Reached task
  head : ∀ task, queue.head = some task → queue.place task = .asleep ∧
    ∀ other, queue.place other ≠ .outside → queue.tmp other ≠ some task
  saved : ∀ task next, queue.place task ≠ .outside →
    queue.tmp task = some next → queue.place next = .asleep
  once : ∀ first second next, queue.place first ≠ .outside →
    queue.place second ≠ .outside → queue.tmp first = some next →
      queue.tmp second = some next → first = second
  straight : queue.stray = false

omit [DecidableEq τ] in
theorem linked_unused : (unused : Queue τ).Linked where
  found := fun _ isAsleep => by cases isAsleep
  head := fun _ isHead => by cases isHead
  saved := fun _ _ _ isSaved => by cases isSaved
  once := fun _ _ _ _ _ isSaved => by cases isSaved
  straight := rfl

section Steps

variable {queue : Queue τ} {task : τ}

theorem setPlace_place (place : Place) (other : τ) :
    (queue.setPlace task place).place other =
      if other = task then place else queue.place other := rfl

/-- Waking a sleeper. -/
theorem makeRunnable_asleep (isAsleep : queue.place task = .asleep) :
    queue.makeRunnable task = queue.setPlace task .woken := by
  unfold makeRunnable
  rw [isAsleep]

theorem Linked.sleep (linked : queue.Linked)
    (isOutside : queue.place task = .outside) :
    (queue.fallAsleep task).Linked := by
  have place (other : τ) : (queue.fallAsleep task).place other =
      if other = task then .asleep else queue.place other := rfl
  have tmp (other : τ) : (queue.fallAsleep task).tmp other =
      if other = task then queue.head else queue.tmp other := rfl
  have newHead : (queue.fallAsleep task).head = some task := rfl
  have inside {other : τ} (different : other ≠ task)
      (isInside : (queue.fallAsleep task).place other ≠ .outside) :
      queue.place other ≠ .outside := by
    rwa [place, if_neg different] at isInside
  -- whoever was found still is, by way of the new head
  have reached {other : τ} (wasReached : queue.Reached other) :
      (queue.fallAsleep task).Reached other := by
    induction wasReached with
    | @head other isHead =>
        apply Reached.tmp (.head newHead)
        · rw [place, if_pos rfl]
          exact Place.noConfusion
        · rw [tmp, if_pos rfl]
          exact isHead
    | @woken other isWoken =>
        apply Reached.woken
        rw [place, if_neg]
        · exact isWoken
        · rintro rfl
          rw [isOutside] at isWoken
          cases isWoken
    | @tmp other next _ isInside saved induction =>
        have different : other ≠ task := by
          rintro rfl
          exact isInside isOutside
        apply Reached.tmp induction
        · rwa [place, if_neg different]
        · rwa [tmp, if_neg different]
  have notTask {other next : τ} (isInside : queue.place other ≠ .outside)
      (saved : queue.tmp other = some next) : next ≠ task := by
    rintro rfl
    have isAsleep := linked.saved other next isInside saved
    rw [isOutside] at isAsleep
    cases isAsleep
  have headNot {head : τ} (isHead : queue.head = some head) : head ≠ task := by
    rintro rfl
    have isAsleep := (linked.head head isHead).1
    rw [isOutside] at isAsleep
    cases isAsleep
  refine ⟨?_, ?_, ?_, ?_, linked.straight⟩
  · intro other isAsleep
    by_cases same : other = task
    · rw [same]
      exact .head newHead
    · rw [place, if_neg same] at isAsleep
      exact reached (linked.found other isAsleep)
  · intro other isHead
    rw [newHead, Option.some.injEq] at isHead
    subst isHead
    refine ⟨if_pos rfl, ?_⟩
    intro other isInside saved
    rw [tmp] at saved
    by_cases same : other = task
    · rw [if_pos same] at saved
      exact headNot saved rfl
    · rw [if_neg same] at saved
      exact notTask (inside same isInside) saved rfl
  · intro other next isInside saved
    rw [tmp] at saved
    by_cases same : other = task
    · rw [if_pos same] at saved
      rw [place, if_neg (headNot saved)]
      exact (linked.head next saved).1
    · rw [if_neg same] at saved
      rw [place, if_neg (notTask (inside same isInside) saved)]
      exact linked.saved other next (inside same isInside) saved
  · intro first second next firstInside secondInside firstSaved secondSaved
    rw [tmp] at firstSaved secondSaved
    by_cases firstTask : first = task <;> by_cases secondTask : second = task
    · exact firstTask.trans secondTask.symm
    · rw [if_pos firstTask] at firstSaved
      rw [if_neg secondTask] at secondSaved
      exact ((linked.head next firstSaved).2 second
        (inside secondTask secondInside) secondSaved).elim
    · rw [if_neg firstTask] at firstSaved
      rw [if_pos secondTask] at secondSaved
      exact ((linked.head next secondSaved).2 first
        (inside firstTask firstInside) firstSaved).elim
    · rw [if_neg firstTask] at firstSaved
      rw [if_neg secondTask] at secondSaved
      exact linked.once first second next (inside firstTask firstInside)
        (inside secondTask secondInside) firstSaved secondSaved

theorem Linked.wake (linked : queue.Linked) : queue.wakeUp.Linked := by
  unfold wakeUp
  cases isHead : queue.head with
  | none => exact linked
  | some head =>
      obtain ⟨isAsleep, notSaved⟩ := linked.head head isHead
      dsimp only
      rw [makeRunnable_asleep isAsleep]
      have inside {other : τ}
          (isInside : (queue.setPlace head .woken).place other ≠ .outside) :
          queue.place other ≠ .outside := by
        rw [setPlace_place] at isInside
        split at isInside <;> rename_i same
        · rw [same, isAsleep]
          exact Place.noConfusion
        · exact isInside
      refine ⟨?_, ?_, ?_, ?_, linked.straight⟩
      · intro other isAsleepNow
        have wasAsleep : queue.place other = .asleep := by
          have place := isAsleepNow
          dsimp only at place
          rw [setPlace_place] at place
          split at place
          · cases place
          · exact place
        have wasReached := linked.found other wasAsleep
        clear isAsleepNow wasAsleep
        induction wasReached with
        | @head other same =>
            rw [isHead, Option.some.injEq] at same
            apply Reached.woken
            exact if_pos same.symm
        | @woken other isWoken =>
            apply Reached.woken
            show (if other = head then _ else _) = _
            rw [isWoken]
            exact ite_self _
        | @tmp other next _ isInside saved induction =>
            apply Reached.tmp induction _ saved
            show (if other = head then _ else _) ≠ _
            split
            · exact Place.noConfusion
            · exact isInside
      · intro other isHeadNow
        cases isHeadNow
      · intro other next isInside saved
        have wasInside := inside isInside
        have wasSaved : queue.tmp other = some next := saved
        have different : next ≠ head := by
          rintro rfl
          exact notSaved other wasInside wasSaved
        show (if next = head then _ else _) = _
        rw [if_neg different]
        exact linked.saved other next wasInside wasSaved
      · intro first second next firstInside secondInside
        exact linked.once first second next (inside firstInside)
          (inside secondInside)

theorem Linked.leave (linked : queue.Linked)
    (isWoken : queue.place task = .woken) : (queue.leave task).Linked := by
  -- what the return leaves of the places, the pointers and the head
  have outcome : ∃ place, queue.leave task =
      { queue with place } ∧ place task = .outside ∧
        (∀ other, other ≠ task → queue.tmp task ≠ some other →
          place other = queue.place other) ∧
        ∀ other, queue.tmp task = some other → place other = .woken := by
    unfold Queue.leave
    cases saved : queue.tmp task with
    | none =>
        have same : (queue.setPlace task .outside).tmp task = none := saved
        dsimp only
        rw [same]
        refine ⟨_, rfl, if_pos rfl, ?_, ?_⟩
        · intro other different _
          exact if_neg different
        · intro other isSaved
          cases isSaved
    | some next =>
        have same : (queue.setPlace task .outside).tmp task = some next := saved
        have isInside : queue.place task ≠ .outside := by
          rw [isWoken]
          exact Place.noConfusion
        have isAsleep := linked.saved task next isInside saved
        have different : next ≠ task := by
          rintro rfl
          rw [isWoken] at isAsleep
          cases isAsleep
        have stillAsleep : (queue.setPlace task .outside).place next =
            .asleep := by
          rw [setPlace_place, if_neg different]
          exact isAsleep
        dsimp only
        rw [same]
        dsimp only
        rw [makeRunnable_asleep stillAsleep]
        refine ⟨_, rfl, ?_, ?_, ?_⟩
        · show (if task = next then _ else _) = _
          rw [if_neg (Ne.symm different)]
          exact if_pos rfl
        · intro other notTask notNext
          show (if other = next then _ else _) = _
          rw [if_neg fun isNext => notNext (congrArg some isNext.symm)]
          exact if_neg notTask
        · intro other isSaved
          rw [Option.some.injEq] at isSaved
          exact if_pos isSaved.symm
  obtain ⟨place, left, taskOutside, others, nextWoken⟩ := outcome
  rw [left]
  have isInside : queue.place task ≠ .outside := by
    rw [isWoken]
    exact Place.noConfusion
  have inside {other : τ} (stays : place other ≠ .outside) :
      other ≠ task ∧ queue.place other ≠ .outside := by
    have different : other ≠ task := by
      rintro rfl
      exact stays taskOutside
    refine ⟨different, ?_⟩
    by_cases isNext : queue.tmp task = some other
    · rw [linked.saved task other isInside isNext]
      exact Place.noConfusion
    · rwa [others other different isNext] at stays
  have notHead {head : τ} (isHead : queue.head = some head) :
      place head = queue.place head := by
    apply others
    · rintro rfl
      have isAsleep := (linked.head head isHead).1
      rw [isWoken] at isAsleep
      cases isAsleep
    · exact (linked.head head isHead).2 task isInside
  refine ⟨?_, ?_, ?_, ?_, linked.straight⟩
  · intro other isAsleep
    have found : queue.place other ≠ .outside → other ≠ task →
        Queue.Reached { queue with place } other := by
      intro isInsideOther notTask
      have wasReached : queue.Reached other := by
        cases isPlace : queue.place other with
        | outside => exact (isInsideOther isPlace).elim
        | asleep => exact linked.found other isPlace
        | woken => exact .woken isPlace
      clear isAsleep isInsideOther
      induction wasReached with
      | @head other isHead => exact .head isHead
      | @woken other isWokenOther =>
          by_cases isNext : queue.tmp task = some other
          · exact .woken (nextWoken other isNext)
          · apply Reached.woken
            exact (others other notTask isNext).trans isWokenOther
      | @tmp other next _ otherInside saved induction =>
          by_cases isTask : other = task
          · rw [isTask] at saved
            exact .woken (nextWoken next saved)
          · refine Reached.tmp (induction isTask) ?_ saved
            show place other ≠ .outside
            by_cases isNext : queue.tmp task = some other
            · rw [nextWoken other isNext]
              exact Place.noConfusion
            · rwa [others other isTask isNext]
    have stays : place other ≠ .outside := by
      rw [show place other = .asleep from isAsleep]
      exact Place.noConfusion
    obtain ⟨notTask, wasInside⟩ := inside stays
    exact found wasInside notTask
  · intro head isHead
    refine ⟨(notHead isHead).trans (linked.head head isHead).1, ?_⟩
    intro other stays saved
    exact (linked.head head isHead).2 other (inside stays).2 saved
  · intro other next stays saved
    obtain ⟨notTask, wasInside⟩ := inside stays
    have wasAsleep := linked.saved other next wasInside saved
    show place next = .asleep
    rw [others next]
    · exact wasAsleep
    · rintro rfl
      rw [isWoken] at wasAsleep
      cases wasAsleep
    · intro isNext
      exact notTask (linked.once other task next wasInside isInside saved isNext)
  · intro first second next firstStays secondStays
    exact linked.once first second next (inside firstStays).2
      (inside secondStays).2

end Steps

end Queue

section Runs

variable {τ : Type} [DecidableEq τ] {queue next : Queue τ}
  {action : QueueAction τ}

theorem linked_sleepOn (linked : queue.Linked)
    (steps : (sleepOn τ).step queue action = some next) : next.Linked := by
  cases action with
  | sleep task =>
      rw [sleepOn] at steps
      dsimp only at steps
      split at steps <;> rename_i isOutside
      · rw [← Option.some.inj steps]
        exact linked.sleep isOutside
      · cases steps
  | wakeUp =>
      rw [← Option.some.inj steps]
      exact linked.wake
  | resume task =>
      rw [sleepOn] at steps
      dsimp only at steps
      split at steps <;> rename_i isWoken
      · rw [← Option.some.inj steps]
        exact linked.leave isWoken
      · cases steps

/-- Nobody has queued behind a woken task before it returns. -/
def Undisturbed (queue : Queue τ) : QueueAction τ → Prop
  | .resume task => queue.head = none ∨ queue.head = some task
  | _ => True

instance : Decidable (Undisturbed queue action) :=
  match action with
  | .resume _ => inferInstanceAs (Decidable (_ ∨ _))
  | .sleep _ => .isTrue trivial
  | .wakeUp => .isTrue trivial

theorem linked_interruptible (linked : queue.Linked)
    (undisturbed : Undisturbed queue action)
    (steps : (interruptibleSleepOn τ).step queue action = some next) :
    next.Linked := by
  cases action with
  | sleep task =>
      have same : (sleepOn τ).step queue (.sleep task) = some next := steps
      exact linked_sleepOn linked same
  | wakeUp =>
      have same : (sleepOn τ).step queue .wakeUp = some next := steps
      exact linked_sleepOn linked same
  | resume task =>
      rw [interruptibleSleepOn] at steps
      dsimp only at steps
      split at steps <;> rename_i isWoken
      · rw [← Option.some.inj steps]
        have noHead : queue.head = none := by
          rcases undisturbed with none | isHead
          · exact none
          · have isAsleep := (linked.head task isHead).1
            rw [isWoken] at isAsleep
            cases isAsleep
        unfold Queue.resumeInterruptible
        rw [noHead]
        exact linked.leave isWoken
      · cases steps

omit [DecidableEq τ] in
/-- With an empty queue and nobody about to return, nobody is in a call. -/
theorem drained (linked : queue.Linked) (empty : queue.head = none)
    (noneWoken : ∀ task, queue.place task ≠ .woken) (task : τ) :
    queue.place task = .outside := by
  have nobody {other : τ} (reached : queue.Reached other) : False := by
    induction reached with
    | head isHead =>
        rw [empty] at isHead
        cases isHead
    | woken isWoken => exact noneWoken _ isWoken
    | tmp _ _ _ induction => exact induction
  cases isPlace : queue.place task with
  | outside => rfl
  | asleep => exact (nobody (linked.found task isPlace)).elim
  | woken => exact (noneWoken task isPlace).elim

theorem leave_head (task : τ) : (queue.leave task).head = queue.head := by
  unfold Queue.leave
  dsimp only
  split
  · rfl
  · unfold Queue.makeRunnable
    split <;> rfl

/-- Steps in which the woken tasks run and nobody queues or wakes. -/
def Returns (_ : Queue τ) : QueueAction τ → Prop
  | .resume _ => True
  | _ => False

/-- `sleep_on` loses no sleeper, and no `state=0` goes astray. -/
theorem sleepOn_keepsSleepers
    (reached : (sleepOn τ).Reachable Machine.anything Queue.unused queue) :
    (∀ task, queue.place task = .asleep → queue.Reached task) ∧
      queue.stray = false := by
  have linked : queue.Linked :=
    reached.invariant Queue.linked_unused fun _ _ _ linked _ steps =>
      linked_sleepOn linked steps
  exact ⟨linked.found, linked.straight⟩

/-- Three sleepers, of whom the second queued behind the first. -/
theorem sleepOn_keepsSleepers_three :
    ∃ queue : Queue Nat,
      (sleepOn Nat).run Machine.anything Queue.unused
        [.sleep 1, .sleep 2, .wakeUp, .sleep 3, .resume 2] = some queue ∧
      (∀ task, queue.place task = .asleep → queue.Reached task) ∧
      queue.stray = false := by
  refine ⟨_, rfl, ?_⟩
  have runs : (sleepOn Nat).run Machine.anything Queue.unused
      [.sleep 1, .sleep 2, .wakeUp, .sleep 3, .resume 2] = some _ := rfl
  exact sleepOn_keepsSleepers (Machine.reachable_of_run .start runs)

/-- `interruptible_sleep_on` loses no sleeper as long as nobody queues between
the waking of a task and its return, and then one `wake_up` frees them all. -/
theorem interruptibleSleepOn_keepsSleepers
    (reached : (interruptibleSleepOn τ).Reachable Undisturbed Queue.unused
      queue) :
    (∀ task, queue.place task = .asleep → queue.Reached task) ∧
      ∀ final, (interruptibleSleepOn τ).Reachable Returns queue.wakeUp final →
        (∀ task, final.place task ≠ .woken) →
          ∀ task, final.place task = .outside := by
  have linked : queue.Linked :=
    reached.invariant Queue.linked_unused fun _ _ _ linked undisturbed steps =>
      linked_interruptible linked undisturbed steps
  refine ⟨linked.found, ?_⟩
  intro final returning
  have start : queue.wakeUp.head = none := by
    unfold Queue.wakeUp
    cases isHead : queue.head with
    | none => exact isHead
    | some head => rfl
  have kept : final.Linked ∧ final.head = none := by
    apply returning.invariant ⟨linked.wake, start⟩
    rintro middle action next ⟨middleLinked, noHead⟩ isReturn steps
    cases action with
    | sleep task => exact isReturn.elim
    | wakeUp => exact isReturn.elim
    | resume task =>
        have undisturbed : Undisturbed middle (.resume task) := Or.inl noHead
        refine ⟨linked_interruptible middleLinked undisturbed steps, ?_⟩
        rw [interruptibleSleepOn] at steps
        dsimp only at steps
        split at steps
        · rw [← Option.some.inj steps]
          unfold Queue.resumeInterruptible
          rw [noHead]
          exact (leave_head task).trans noHead
        · cases steps
  exact drained kept.1 kept.2

theorem interruptibleSleepOn_keepsSleepers_two :
    ∃ queue : Queue Nat,
      (interruptibleSleepOn Nat).run Undisturbed Queue.unused
        [.sleep 1, .sleep 2, .wakeUp, .resume 2] = some queue ∧
      (∀ task, queue.place task = .asleep → queue.Reached task) := by
  refine ⟨_, rfl, ?_⟩
  have runs : (interruptibleSleepOn Nat).run Undisturbed Queue.unused
      [.sleep 1, .sleep 2, .wakeUp, .resume 2] = some _ := rfl
  exact (interruptibleSleepOn_keepsSleepers
    (Machine.reachable_of_run .start runs)).1

omit [DecidableEq τ] in
theorem reached_only {only task : τ}
    (head : ∀ task, queue.head = some task → task = only)
    (woken : ∀ task, queue.place task = .woken → task = only)
    (saved : queue.tmp only = none) (reached : queue.Reached task) :
    task = only := by
  induction reached with
  | head isHead => exact head _ isHead
  | woken isWoken => exact woken _ isWoken
  | tmp _ _ isSaved same =>
      rw [same, saved] at isSaved
      cases isSaved

/-- A third task queues after the first two have been woken: the second goes
back to sleep where no pointer leads to it. -/
theorem interruptibleSleepOn_losesSleeper :
    ∃ queue : Queue Nat,
      (interruptibleSleepOn Nat).Reachable Machine.anything Queue.unused queue ∧
      queue.place 2 = .asleep ∧ ¬ queue.Reached 2 := by
  have runs : (interruptibleSleepOn Nat).run Machine.anything Queue.unused
      [.sleep 1, .sleep 2, .wakeUp, .sleep 3, .resume 2] = some _ := rfl
  refine ⟨_, Machine.reachable_of_run .start runs, rfl, ?_⟩
  intro found
  -- the third task is at the head and has saved nothing
  have isThird : 2 = 3 := by
    apply reached_only _ _ rfl found
    · intro task isHead
      exact (Option.some.inj isHead).symm
    · intro task isWoken
      have place : (if task = 2 then Place.asleep else if task = 3 then .woken
          else if task = 3 then .asleep else if task = 2 then .woken
          else if task = 2 then .asleep else if task = 1 then .asleep
          else .outside) = .woken := isWoken
      grind
  cases isThird

end Runs

end Linux011.Sched

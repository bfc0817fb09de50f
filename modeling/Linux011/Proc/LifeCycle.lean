import Linux011.Proc.Exit

/-!
# The life of processes

Runs of `fork`, `exit` and `waitpid` by any number of tasks.  A task leaves
the processor in `schedule()` only, so an action is a stretch up to the next
`schedule()` or, for `do_exit`, up to where giving back files may sleep.  The
first task runs `main`, which forks once and then pauses.
-/

namespace Linux011.Proc

open Linux011.Mm Linux011.Sched Machines

/-- Where a task is.  A task that is `reaping` has released the child that
was the `child`-th to be made, and will return its pid. -/
inductive Phase where
  | running
  | waiting (pid : Int) (options : BitVec 32)
  | reaping (child : Nat) (pid code : Int)
  | exiting (code : Int)
  | exited

/-- The pid and the exit code of the `child`-th task made. -/
structure Departure where
  child : Nat
  pid : Int
  code : Int

/-- A system of tasks.  `birth` says which task lives in a slot, `exits` and
`returns` record what `do_exit` was given and what `sys_waitpid` returned,
and `orphaned` that `tell_father` found no father. -/
structure Life where
  system : System
  phase : Nat → Phase
  started : Bool
  births : Nat
  birth : Nat → Nat
  exits : List Departure
  returns : List Departure
  orphaned : Bool

namespace Life

def setPhase (life : Life) (nr : Nat) (phase : Phase) : Life :=
  { life with
    phase := fun other => if other = nr then phase else life.phase other }

end Life

/-- What the rest of the kernel, and signals, may do to a task: all but its
identity, and but making or unmaking a zombie. -/
def disturb (change : TaskStruct → TaskStruct) (p : TaskStruct) :
    TaskStruct :=
  { change p with
    page := p.page
    pid := p.pid
    father := p.father
    exitCode := p.exitCode
    state :=
      if p.state = .zombie ∨ (change p).state = .zombie then p.state
      else (change p).state }

inductive LifeAction where
  | fork (nr : Nat) (registers : Registers)
  | exit (nr : Nat) (code : Int)
  /-- `do_exit` goes on after its files and inodes. -/
  | finish (nr : Nat)
  | waitpid (nr : Nat) (pid : Int) (options : BitVec 32)
  /-- `sys_waitpid` goes on after its own `schedule()`. -/
  | resume (nr : Nat)
  /-- `sys_waitpid` goes on after the `schedule()` of `release`. -/
  | handOver (nr : Nat)
  | elsewhere (memory : Mm.State) (fileTable : Fin 64 → File)
      (iCount : Nat → UInt16) (jiffies : Int)
      (change : Nat → TaskStruct → TaskStruct)

/-- The task in a slot, if it can make a system call. -/
def Life.caller (life : Life) (nr : Nat) : Option TaskStruct :=
  match life.phase nr with
  | .running => life.system.task nr
  | _ => none

/-- `sys_fork`. -/
def Life.fork (life : Life) (nr : Nat) (registers : Registers) :
    Option Life := do
  let parent ← life.caller nr
  if nr = 0 ∧ life.started = true then none
  else
    match ← findEmptyProcess life.system with
    | (none, system) => return { life with system, started := true }
    | (some slot, system) =>
        match copyProcess slot parent registers system with
        | .error _ => none
        | .ok (_, system) =>
            if (system.task slot).isSome then
              return { life with
                system
                started := true
                births := life.births + 1
                birth := fun other =>
                  if other = slot then life.births else life.birth other }
            else return { life with system, started := true }

/-- What `sys_waitpid` comes to in a life. -/
def Life.wait (life : Life) (nr : Nat) (pid : Int) (options : BitVec 32) :
    Except Fault (Waited × System) → Option Life
  | .error _ => none
  | .ok (.returns _, system) =>
      some ({ life with system }.setPhase nr .running)
  | .ok (.sleeps, system) =>
      some ({ life with system }.setPhase nr (.waiting pid options))
  | .ok (.released slot childPid code, system) =>
      some (({ life with system }.setPhase slot .running).setPhase nr
        (.reaping (life.birth slot) childPid code))

def lifeCycle : Machine Life LifeAction where
  step life
    | .fork nr registers => life.fork nr registers
    | .exit nr code => do
        let p ← life.caller nr
        if nr = 0 then none
        else
          match doExitBegin p life.system with
          | .error _ => none
          | .ok system =>
              return { life with system }.setPhase nr (.exiting code)
    | .finish nr =>
        match life.phase nr, life.system.task nr with
        | .exiting code, some p =>
            match doExitEnd nr p code life.system with
            | .error _ => none
            | .ok (found, system) =>
                some ({ life with
                  system
                  exits := ⟨life.birth nr, p.pid, code⟩ :: life.exits
                  orphaned := life.orphaned || !found }.setPhase nr .exited)
        | _, _ => none
    | .waitpid nr pid options => do
        let me ← life.caller nr
        life.wait nr pid options (sysWaitpid nr me pid options life.system)
    | .resume nr =>
        match life.phase nr, life.system.task nr with
        | .waiting pid options, some me =>
            life.wait nr pid options
              (resumeWaitpid nr me pid options life.system)
        | _, _ => none
    | .handOver nr =>
        match life.phase nr with
        | .reaping child pid code =>
            some ({ life with
              returns := ⟨child, pid, code⟩ :: life.returns }.setPhase nr
                .running)
        | _ => none
    | .elsewhere memory fileTable iCount jiffies change =>
        some { life with
          system :=
            { life.system with
              memory, fileTable, iCount, jiffies
              task := fun nr =>
                (life.system.task nr).map (disturb (change nr)) } }

/-- Task 1 runs `init`, which does not exit. -/
def InitStays (_ : Life) : LifeAction → Prop
  | .exit nr _ => nr ≠ 1
  | _ => True

instance (life : Life) : DecidablePred (InitStays life)
  | .exit nr _ => inferInstanceAs (Decidable (nr ≠ 1))
  | .fork _ _ | .finish _ | .waitpid _ _ _ | .resume _ | .handOver _
  | .elsewhere _ _ _ _ _ => .isTrue trivial

/-- The first task alone, about to fork. -/
def firstLife (system : System) (page : Nat) : Life where
  system :=
    { system with
      task := fun nr => if nr = 0 then some (initTask page) else none
      lastPid := 0 }
  phase := fun _ => .running
  started := false
  births := 1
  birth := fun _ => 0
  exits := []
  returns := []
  orphaned := false

/-! ## Who is who -/

/-- What makes a task known to others. -/
structure Core where
  pid : Int
  father : Int
  exitCode : Int
  zombie : Bool

def TaskStruct.core (p : TaskStruct) : Core where
  pid := p.pid
  father := p.father
  exitCode := p.exitCode
  zombie := p.state = .zombie

def System.core (system : System) (nr : Nat) : Option Core :=
  (system.task nr).map TaskStruct.core

namespace System

variable {system : System}

theorem core_eq_none {nr : Nat} :
    system.core nr = none ↔ system.task nr = none := by
  simp [core]

theorem core_of_task {nr : Nat} {p : TaskStruct}
    (isTask : system.task nr = some p) : system.core nr = some p.core := by
  simp [core, isTask]

theorem task_of_core {nr : Nat} {c : Core} (isCore : system.core nr = some c) :
    ∃ p, system.task nr = some p ∧ p.core = c := by
  simpa [core] using isCore

theorem core_setTask (system : System) (nr other : Nat)
    (p : Option TaskStruct) :
    (system.setTask nr p).core other =
      if other = nr then p.map TaskStruct.core else system.core other := by
  unfold core setTask
  by_cases same : other = nr <;> simp [same]

/-- A change that keeps the core of the task it is made to. -/
theorem core_onTask {nr : Nat} {change : TaskStruct → TaskStruct}
    (keeps : ∀ p, (change p).core = p.core) :
    (system.onTask nr change).core = system.core := by
  funext other
  unfold onTask
  rw [core_setTask]
  split <;> rename_i same
  · subst same
    unfold core
    cases system.task other with
    | none => rfl
    | some p => simp [keeps]
  · rfl

theorem core_map {next : System} {change : Nat → TaskStruct → TaskStruct}
    (mapped : ∀ nr, next.task nr = (system.task nr).map (change nr))
    (keeps : ∀ nr p, (change nr p).core = p.core) :
    next.core = system.core := by
  funext nr
  unfold core
  rw [mapped]
  cases system.task nr with
  | none => rfl
  | some p => simp [keeps]

end System

theorem raise_core (sig : Nat) (p : TaskStruct) : (raise sig p).core = p.core :=
  rfl

theorem disturb_core (change : TaskStruct → TaskStruct) (p : TaskStruct) :
    (disturb change p).core = p.core := by
  unfold disturb TaskStruct.core
  congr 1
  dsimp only
  split <;> rename_i either
  · rfl
  · have notZombie : p.state ≠ .zombie := fun same => either (.inl same)
    have notMade : (change p).state ≠ .zombie := fun same =>
      either (.inr same)
    simp [notZombie, notMade]

/-! ## What each function does to the cores -/

section Functions

variable {system next : System} {nr : Nat} {pid : Int}

/-- The cores without the one in a slot. -/
def without (cores : Nat → Option Core) (nr : Nat) : Nat → Option Core :=
  fun other => if other = nr then none else cores other

theorem release_core (ran : release nr system = .ok next) :
    next.core = without system.core nr ∧ next.lastPid = system.lastPid := by
  unfold release at ran
  split at ran
  · rename_i absent
    rw [Except.ok.injEq] at ran
    subst ran
    refine ⟨?_, rfl⟩
    funext other
    unfold without
    split <;> rename_i same
    · rw [same, System.core_eq_none]
      exact absent
    · rfl
  · split at ran
    · cases ran
    · obtain ⟨memory, _, last⟩ := of_bind_ok ran
      simp only [pure, Except.pure, Except.ok.injEq] at last
      subst last
      exact ⟨funext fun other => System.core_setTask system nr other none, rfl⟩

theorem findPid_isSome {task : Nat → Option TaskStruct} {p : TaskStruct}
    (inTable : nr < nrTasks) (isTask : task nr = some p) (named : p.pid = pid) :
    (findPid task pid).isSome := by
  unfold findPid
  rw [List.find?_isSome]
  exact ⟨nr, List.mem_range.mpr inTable, by simp [isTask, named]⟩

theorem tellFather_core {current : Nat} {found : Bool}
    (isPid : pid ≠ 0) (inTable : nr < nrTasks) {c : Core}
    (father : system.core nr = some c) (named : c.pid = pid)
    (ran : tellFather current pid system = .ok (found, next)) :
    found = true ∧ next.core = system.core ∧
      next.lastPid = system.lastPid := by
  obtain ⟨p, isTask, rfl⟩ := System.task_of_core father
  have isSome := findPid_isSome inTable isTask named
  unfold tellFather at ran
  rw [if_neg isPid] at ran
  cases search : findPid system.task pid with
  | none =>
      rw [search] at isSome
      cases isSome
  | some slot =>
      rw [search] at ran
      simp only [Except.ok.injEq, Prod.mk.injEq] at ran
      obtain ⟨rfl, rfl⟩ := ran
      exact ⟨rfl, System.core_onTask (raise_core sigchld), rfl⟩

theorem killSession_core (session : Int) (system : System) :
    (killSession session system).core = system.core := by
  refine System.core_map (fun _ => rfl) ?_
  intro nr p
  split <;> rfl

/-- A child of `pid` after it has been given a new father. -/
def Core.adopted (pid : Int) (c : Core) : Core :=
  if c.father = pid then { c with father := 1 } else c

theorem adopt_core (pid : Int) (system : System) (nr other : Nat) :
    (adopt pid system nr).core other =
      if other = nr then (system.core other).map (Core.adopted pid)
      else system.core other := by
  unfold adopt
  cases isTask : system.task nr with
  | none =>
      dsimp only
      split <;> rename_i same
      · rw [same, System.core_eq_none.mpr isTask]
        rfl
      · rfl
  | some p =>
      dsimp only
      have isCore := System.core_of_task isTask
      by_cases isChild : p.father = pid
      · rw [if_pos isChild]
        have stored : (system.setTask nr (some { p with father := 1 })).core
            other = if other = nr then
              (system.core other).map (Core.adopted pid)
              else system.core other := by
          rw [System.core_setTask]
          split <;> rename_i same
          · rw [same, isCore]
            have named : p.core.father = pid := isChild
            simp only [Option.map_some, Core.adopted, named, if_true]
            rfl
          · rfl
        split
        · rw [System.core_onTask (raise_core sigchld)]
          exact stored
        · exact stored
      · rw [if_neg isChild]
        split <;> rename_i same
        · rw [same, isCore]
          have named : p.core.father ≠ pid := isChild
          simp [Core.adopted, named]
        · rfl

theorem adopt_lastPid (pid : Int) (system : System) (nr : Nat) :
    (adopt pid system nr).lastPid = system.lastPid := by
  unfold adopt
  split
  · rfl
  · split
    · dsimp only
      split <;> rfl
    · rfl

theorem adopted_adopted (pid : Int) (c : Core) :
    (c.adopted pid).adopted pid = c.adopted pid := by
  unfold Core.adopted
  by_cases isChild : c.father = pid
  · rw [if_pos isChild]
    split <;> rfl
  · rw [if_neg isChild, if_neg isChild]

theorem adoptAll_core (pid : Int) (slots : List Nat) (system : System) :
    (∀ other, (slots.foldl (adopt pid) system).core other =
      if other ∈ slots then (system.core other).map (Core.adopted pid)
      else system.core other) ∧
      (slots.foldl (adopt pid) system).lastPid = system.lastPid := by
  induction slots generalizing system with
  | nil => simp
  | cons nr slots induction =>
      obtain ⟨cores, last⟩ := induction (adopt pid system nr)
      refine ⟨?_, last.trans (adopt_lastPid pid system nr)⟩
      intro other
      rw [List.foldl_cons, cores, adopt_core]
      by_cases later : other ∈ slots
      · rw [if_pos later, if_pos (List.mem_cons_of_mem nr later)]
        split
        · rw [Option.map_map]
          congr 1
          funext c
          exact adopted_adopted pid c
        · rfl
      · rw [if_neg later]
        simp [later]

theorem doExitBegin_core {p : TaskStruct}
    (bounded : ∀ other, nrTasks ≤ other → system.core other = none)
    (ran : doExitBegin p system = .ok next) :
    (∀ other, next.core other =
      (system.core other).map (Core.adopted p.pid)) ∧
      next.lastPid = system.lastPid := by
  unfold doExitBegin at ran
  obtain ⟨code, _, rest⟩ := of_bind_ok ran
  obtain ⟨data, _, last⟩ := of_bind_ok rest
  simp only [pure, Except.pure, Except.ok.injEq] at last
  subst last
  obtain ⟨cores, lastPid⟩ := adoptAll_core p.pid (List.range nrTasks)
    { system with memory := data }
  refine ⟨?_, lastPid⟩
  intro other
  rw [cores]
  have same : ({ system with memory := data } : System).core other =
      system.core other := rfl
  rw [same]
  split <;> rename_i inTable
  · rfl
  · rw [bounded other (by simpa using inTable)]
    rfl

/-- The core of a task that has become a zombie. -/
def Core.dead (code : Int) (c : Core) : Core :=
  { c with exitCode := code, zombie := true }

theorem doExitEnd_core {p : TaskStruct} {code : Int} {found : Bool}
    {father : Nat} {c : Core} (isTask : system.task nr = some p)
    (isPid : p.father ≠ 0) (inTable : father < nrTasks)
    (isFather : system.core father = some c) (named : c.pid = p.father)
    (different : father ≠ nr)
    (ran : doExitEnd nr p code system = .ok (found, next)) :
    found = true ∧ next.lastPid = system.lastPid ∧
      ∀ other, next.core other =
        if other = nr then some (p.core.dead code)
        else system.core other := by
  unfold doExitEnd at ran
  dsimp only at ran
  have sessionCore : (if p.leader = true then killSession p.session system
      else system).core = system.core := by
    split
    · exact killSession_core p.session system
    · rfl
  have sessionLast : (if p.leader = true then killSession p.session system
      else system).lastPid = system.lastPid := by
    split <;> rfl
  generalize (if p.leader = true then killSession p.session system
    else system) = signalled at ran sessionCore sessionLast
  have deadCore (other : Nat) : (signalled.onTask nr fun p =>
      { p with state := .zombie, exitCode := code }).core other =
        if other = nr then some (p.core.dead code)
        else system.core other := by
    unfold System.onTask
    rw [System.core_setTask]
    split <;> rename_i same
    · obtain ⟨q, isSignalled, sameCore⟩ := System.task_of_core
        ((congrFun sessionCore nr).trans (System.core_of_task isTask))
      rw [isSignalled, ← sameCore]
      rfl
    · rw [sessionCore]
  obtain ⟨isFound, told, lastPid⟩ := tellFather_core isPid inTable
    ((deadCore father).trans ((if_neg different).trans isFather)) named ran
  refine ⟨isFound, lastPid.trans sessionLast, ?_⟩
  intro other
  rw [told]
  exact deadCore other

theorem scanChildren_zombie {task : Nat → Option TaskStruct}
    {current count : Nat} {me p : TaskStruct} {options : BitVec 32}
    {flag : Bool}
    (found : scanChildren task current me pid options count flag =
      .zombie nr p) :
    nr ≠ 0 ∧ nr ≠ current ∧ task nr = some p ∧ p.state = .zombie ∧
      p.father = me.pid := by
  induction count generalizing flag with
  | zero => cases found
  | succ slot induction =>
      unfold scanChildren at found
      split at found
      · exact induction found
      · rename_i q isTask
        split at found
        · exact induction found
        · rename_i concerned
          rw [not_or, Bool.not_eq_false] at concerned
          split at found
          · split at found
            · exact induction found
            · cases found
          · rename_i isZombie
            cases found
            have isChild := concerned.2
            unfold concerns at isChild
            rw [Bool.and_eq_true, beq_iff_eq] at isChild
            exact ⟨by omega, concerned.1, isTask, isZombie, isChild.1⟩
          · exact induction found

/-- What `sys_waitpid` may have come to. -/
def WaitOutcome (system : System) (current : Nat) (me : TaskStruct) :
    Waited → System → Prop
  | .returns _, next => next.core = system.core
  | .sleeps, next => next.core = system.core
  | .released nr pid code, next =>
      nr ≠ 0 ∧ nr ≠ current ∧
        ∃ c, system.core nr = some c ∧ c.zombie = true ∧
          c.father = me.pid ∧ c.pid = pid ∧ c.exitCode = code ∧
            next.core = without system.core nr

theorem sysWaitpid_core {current : Nat} {me : TaskStruct}
    {options : BitVec 32} {outcome : Waited}
    (alive : ∀ p, system.task current = some p → p.state ≠ .zombie)
    (ran : sysWaitpid current me pid options system = .ok (outcome, next)) :
    WaitOutcome system current me outcome next ∧
      next.lastPid = system.lastPid := by
  unfold sysWaitpid at ran
  split at ran
  · simp only [Except.ok.injEq, Prod.mk.injEq] at ran
    obtain ⟨rfl, rfl⟩ := ran
    exact ⟨rfl, rfl⟩
  · rename_i nr p found
    obtain ⟨notFirst, notSelf, isTask, isZombie, isChild⟩ :=
      scanChildren_zombie found
    obtain ⟨middle, released, last⟩ := of_bind_ok ran
    simp only [pure, Except.pure, Except.ok.injEq, Prod.mk.injEq] at last
    obtain ⟨rfl, rfl⟩ := last
    obtain ⟨cores, lastPid⟩ := release_core released
    refine ⟨⟨notFirst, notSelf, p.core, System.core_of_task isTask, ?_,
      isChild, rfl, rfl, ?_⟩, lastPid⟩
    · exact decide_eq_true isZombie
    · rw [cores, System.core_onTask]
      intro q
      rfl
  · split at ran
    · simp only [Except.ok.injEq, Prod.mk.injEq] at ran
      obtain ⟨rfl, rfl⟩ := ran
      exact ⟨rfl, rfl⟩
    · simp only [Except.ok.injEq, Prod.mk.injEq] at ran
      obtain ⟨rfl, rfl⟩ := ran
      refine ⟨?_, rfl⟩
      show (system.onTask current fun me =>
        { me with state := .interruptible }).core = system.core
      funext other
      unfold System.onTask
      rw [System.core_setTask]
      split <;> rename_i same
      · rw [same]
        unfold System.core
        cases isTask : system.task current with
        | none => rfl
        | some p => simp [TaskStruct.core, alive p isTask]
      · rfl
  · simp only [Except.ok.injEq, Prod.mk.injEq] at ran
    obtain ⟨rfl, rfl⟩ := ran
    exact ⟨rfl, rfl⟩

theorem resumeWaitpid_core {current : Nat} {me : TaskStruct}
    {options : BitVec 32} {outcome : Waited}
    (isMe : system.task current = some me) (alive : me.state ≠ .zombie)
    (ran : resumeWaitpid current me pid options system =
      .ok (outcome, next)) :
    WaitOutcome system current me outcome next ∧
      next.lastPid = system.lastPid := by
  unfold resumeWaitpid at ran
  dsimp only at ran
  have sameCore : (system.setTask current (some { me with
      signal := me.signal &&& ~~~ signalBit sigchld })).core =
        system.core := by
    funext other
    rw [System.core_setTask]
    split <;> rename_i same
    · rw [same, System.core_of_task isMe]
      rfl
    · rfl
  split at ran
  · obtain ⟨outcomes, lastPid⟩ := sysWaitpid_core
      (by
        intro p isTask
        rw [System.setTask_same, Option.some.injEq] at isTask
        rw [← isTask]
        exact alive) ran
    refine ⟨?_, lastPid⟩
    cases outcome with
    | returns value => exact Eq.trans outcomes sameCore
    | sleeps => exact Eq.trans outcomes sameCore
    | released nr pid code =>
        obtain ⟨notFirst, notSelf, c, isChild, rest⟩ := outcomes
        rw [sameCore] at isChild rest
        exact ⟨notFirst, notSelf, c, isChild, rest⟩
  · simp only [Except.ok.injEq, Prod.mk.injEq] at ran
    obtain ⟨rfl, rfl⟩ := ran
    exact ⟨sameCore, rfl⟩

theorem pidInUse_false {task : Nat → Option TaskStruct}
    (free : pidInUse task pid = false) {p : TaskStruct}
    (inTable : nr < nrTasks) (isTask : task nr = some p) : p.pid ≠ pid := by
  intro same
  unfold pidInUse at free
  rw [List.any_eq_false] at free
  apply free nr (List.mem_range.mpr inTable)
  simp [isTask, same]

theorem nextPid_free {task : Nat → Option TaskStruct} {rounds : Nat}
    {last : Int} (found : nextPid task rounds last = some pid) :
    pidInUse task pid = false := by
  induction rounds generalizing last with
  | zero => cases found
  | succ rounds induction =>
      unfold nextPid at found
      split at found <;> rename_i inUse
      · exact induction found
      · rw [Option.some.injEq] at found
        rw [← found]
        simpa using inUse

/-- What `find_empty_process` finds. -/
theorem findEmptyProcess_spec {slot : Option Nat}
    (found : findEmptyProcess system = some (slot, next)) :
    next = { system with lastPid := next.lastPid } ∧
      pidInUse system.task next.lastPid = false ∧
      ∀ nr, slot = some nr →
        nr ≠ 0 ∧ nr < nrTasks ∧ system.task nr = none := by
  unfold findEmptyProcess at found
  split at found
  · cases found
  · rename_i pid isNext
    simp only [Option.some.injEq, Prod.mk.injEq] at found
    obtain ⟨rfl, rfl⟩ := found
    refine ⟨rfl, nextPid_free isNext, ?_⟩
    intro nr isSlot
    have inTable := List.mem_of_find?_eq_some isSlot
    have holds := List.find?_some isSlot
    simp only [ne_eq, Option.isNone_iff_eq_none, decide_eq_true_eq] at holds
    exact ⟨holds.1, List.mem_range.mp inTable, holds.2⟩

/-- A child, or nothing. -/
theorem copyProcess_core {parent : TaskStruct} {registers : Registers}
    {value : Int} (free : system.task nr = none)
    (ran : copyProcess nr parent registers system = .ok (value, next)) :
    next.lastPid = system.lastPid ∧
      (next.task nr = none ∧ next.core = system.core ∨
        (next.task nr).isSome = true ∧
          ∃ code, ∀ other, next.core other =
            if other = nr then some ⟨system.lastPid, parent.pid, code, false⟩
            else system.core other) := by
  unfold copyProcess at ran
  split at ran
  · simp only [Except.ok.injEq, Prod.mk.injEq] at ran
    obtain ⟨rfl, rfl⟩ := ran
    exact ⟨rfl, .inl ⟨free, rfl⟩⟩
  · rename_i page memory found
    obtain ⟨⟨copied, made, final⟩, copy, rest⟩ := of_bind_ok ran
    have madeCore : made.pid = system.lastPid ∧ made.father = parent.pid := by
      unfold copyMem at copy
      dsimp only at copy
      split at copy
      · cases copy
      split at copy
      · cases copy
      obtain ⟨⟨done, middle⟩, _, last⟩ := of_bind_ok copy
      cases done with
      | true =>
          simp only [if_true, pure, Except.pure, Except.ok.injEq,
            Prod.mk.injEq] at last
          rw [← last.2.1]
          exact ⟨rfl, rfl⟩
      | false =>
          obtain ⟨freed, _, back⟩ := of_bind_ok last
          simp only [pure, Except.pure, Except.ok.injEq, Prod.mk.injEq]
            at back
          rw [← back.2.1]
          exact ⟨rfl, rfl⟩
    cases copied with
    | true =>
        simp only [if_true, pure, Except.pure, Except.ok.injEq,
          Prod.mk.injEq] at rest
        obtain ⟨_, rfl⟩ := rest
        refine ⟨rfl, .inr ⟨by simp, made.exitCode, ?_⟩⟩
        intro other
        rw [System.core_setTask]
        split <;> rename_i same
        · simp [TaskStruct.core, madeCore]
        · show (System.setTask _ nr _).core other = _
          rw [System.core_setTask, if_neg same]
          rfl
    | false =>
        obtain ⟨freed, _, last⟩ := of_bind_ok rest
        simp only [pure, Except.pure, Except.ok.injEq, Prod.mk.injEq] at last
        obtain ⟨_, rfl⟩ := last
        refine ⟨rfl, .inl ⟨System.setTask_same _ nr none, ?_⟩⟩
        funext other
        show ((System.setTask _ nr _).setTask nr none).core other = _
        rw [System.core_setTask, System.core_setTask]
        split <;> rename_i same
        · rw [same]
          exact (System.core_eq_none.mpr free).symm
        · rfl

end Functions

end Linux011.Proc

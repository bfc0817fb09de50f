import Linux011.Proc.LifeCycle

/-!
# Every child has a father who can wait for it

The invariant of the life cycle.  Between `do_exit` giving its children to
task 1 and becoming a zombie a task may sleep for long, but it makes no new
children, so the father of a task is always one that can still wait; and a
slot that becomes free does so in the `sys_waitpid` of that father.
-/

namespace Linux011.Proc

open Linux011.Mm Linux011.Sched Machines

/-- The task is in `do_exit`. -/
def Phase.leaving : Phase → Prop
  | .exiting _ => True
  | .exited => True
  | _ => False

namespace Life

variable {life : Life}

def core (life : Life) (nr : Nat) : Option Core := life.system.core nr

/-- The task in slot `nr` can wait for children whose father is `pid`. -/
def Reaper (life : Life) (pid : Int) (nr : Nat) : Prop :=
  nr ≠ 0 ∧ (∃ c, life.core nr = some c ∧ c.pid = pid) ∧
    ¬ (life.phase nr).leaving

/-- Who is related to whom. -/
structure Related (life : Life) : Prop where
  bounded : ∀ nr, nrTasks ≤ nr → life.core nr = none
  pids : ∀ i j c d, life.core i = some c → life.core j = some d →
    c.pid = d.pid → i = j
  first : ∃ c, life.core 0 = some c ∧ c.pid = 0
  /-- Whoever is there besides the first task, task 1 is there to adopt. -/
  init : ∀ nr, nr ≠ 0 → life.core nr ≠ none → life.Reaper 1 1
  fathers : ∀ nr c, nr ≠ 0 → nr ≠ 1 → life.core nr = some c →
    ∃ father, life.Reaper c.father father
  zombies : ∀ nr c, life.core nr = some c →
    (c.zombie = true ↔ life.phase nr = .exited)
  firstStays : ¬ (life.phase 0).leaving
  vacant : ∀ nr, life.core nr = none → life.phase nr = .running
  fresh : life.started = false →
    (∀ nr, nr ≠ 0 → life.core nr = none) ∧ life.system.lastPid = 0
  cared : life.orphaned = false

/-- The child has been released in a `sys_waitpid`. -/
def Collected (life : Life) (child : Nat) : Prop :=
  child ∈ life.returns.map Departure.child ∨
    ∃ nr pid code, life.phase nr = .reaping child pid code

/-- What the records say. -/
structure Recorded (life : Life) : Prop where
  born : ∀ nr c, life.core nr = some c → life.birth nr < life.births
  births : ∀ i j, life.core i ≠ none → life.core j ≠ none →
    life.birth i = life.birth j → i = j
  exits : ∀ nr c, life.core nr = some c → c.zombie = true →
    ⟨life.birth nr, c.pid, c.exitCode⟩ ∈ life.exits
  exited : ∀ departure ∈ life.exits, departure.child < life.births ∧
    ∀ nr c, life.core nr = some c → life.birth nr = departure.child →
      c.zombie = true
  exitedOnce : (life.exits.map Departure.child).Nodup
  collected : ∀ child, life.Collected child → child < life.births ∧
    ∀ nr, life.core nr ≠ none → life.birth nr ≠ child
  pending : ∀ nr child pid code, life.phase nr = .reaping child pid code →
    child ∉ life.returns.map Departure.child ∧
      ⟨child, pid, code⟩ ∈ life.exits ∧
      ∀ other otherPid otherCode,
        life.phase other = .reaping child otherPid otherCode → other = nr
  returned : (life.returns.map Departure.child).Nodup
  own : ∀ departure ∈ life.returns, departure ∈ life.exits

end Life

open Life

variable {life next : Life}

theorem firstLife_related (system : System) (page : Nat) :
    (firstLife system page).Related where
  bounded := by
    intro nr beyond
    have notFirst : nr ≠ 0 := by
      unfold nrTasks at beyond
      omega
    simp [Life.core, System.core, firstLife, notFirst]
  pids := by
    intro i j c d isFirst isSecond _
    have only (nr : Nat) (e : Core)
        (isCore : (firstLife system page).core nr = some e) : nr = 0 := by
      by_contra notFirst
      simp [Life.core, System.core, firstLife, notFirst] at isCore
    rw [only i c isFirst, only j d isSecond]
  first := ⟨_, rfl, rfl⟩
  init := by
    intro nr notFirst isTask
    simp [Life.core, System.core, firstLife, notFirst] at isTask
  fathers := by
    intro nr c notFirst _ isTask
    simp [Life.core, System.core, firstLife, notFirst] at isTask
  zombies := by
    intro nr c isTask
    by_cases isFirst : nr = 0
    · subst isFirst
      simp only [Life.core, System.core, firstLife, if_true, Option.map_some,
        Option.some.injEq] at isTask
      subst isTask
      simp [TaskStruct.core, initTask, firstLife]
    · simp [Life.core, System.core, firstLife, isFirst] at isTask
  firstStays := id
  vacant := fun _ _ => rfl
  fresh := by
    intro _
    refine ⟨?_, rfl⟩
    intro nr notFirst
    simp [Life.core, System.core, firstLife, notFirst]
  cared := rfl

theorem firstLife_recorded (system : System) (page : Nat) :
    (firstLife system page).Recorded where
  born := by
    intro nr c _
    show 0 < 1
    omega
  births := by
    intro i j isFirst isSecond _
    have only (nr : Nat)
        (isCore : (firstLife system page).core nr ≠ none) : nr = 0 := by
      by_contra notFirst
      simp [Life.core, System.core, firstLife, notFirst] at isCore
    rw [only i isFirst, only j isSecond]
  exits := by
    intro nr c isTask isZombie
    rw [((firstLife_related system page).zombies nr c isTask)] at isZombie
    cases isZombie
  exited := by simp [firstLife]
  exitedOnce := List.nodup_nil
  collected := by
    rintro child (inNone | ⟨nr, pid, code, isReaping⟩)
    · cases inNone
    · cases isReaping
  pending := by
    intro nr child pid code isReaping
    cases isReaping
  returned := List.nodup_nil
  own := by simp [firstLife]

/-! ## Steps that keep everybody's core -/

/-- The life has changed in no respect the invariant is about, but for the
phases. -/
structure SameFamily (life next : Life) : Prop where
  core : next.core = life.core
  started : next.started = false →
    life.started = false ∧ next.system.lastPid = life.system.lastPid
  births : next.births = life.births
  birth : next.birth = life.birth
  exits : next.exits = life.exits
  orphaned : next.orphaned = life.orphaned

/-- The phase of one running or waiting task becomes another such. -/
theorem Life.Related.rephase (related : life.Related) (same : SameFamily life next)
    (leaving : ∀ nr, (next.phase nr).leaving ↔ (life.phase nr).leaving)
    (exited : ∀ nr, next.phase nr = .exited ↔ life.phase nr = .exited)
    (vacant : ∀ nr, life.core nr = none → next.phase nr = .running) :
    next.Related := by
  have reaper {pid : Int} {nr : Nat} (isReaper : life.Reaper pid nr) :
      next.Reaper pid nr := by
    obtain ⟨notFirst, named, stays⟩ := isReaper
    refine ⟨notFirst, ?_, ?_⟩
    · rw [same.core]
      exact named
    · rw [leaving]
      exact stays
  refine
    { bounded := ?_, pids := ?_, first := ?_, init := ?_, fathers := ?_
      zombies := ?_, firstStays := ?_, vacant := ?_, fresh := ?_, cared := ?_ }
  · rw [same.core]
    exact related.bounded
  · rw [same.core]
    exact related.pids
  · rw [same.core]
    exact related.first
  · rw [same.core]
    exact fun nr notFirst isTask => reaper (related.init nr notFirst isTask)
  · rw [same.core]
    intro nr c notFirst notInit isTask
    obtain ⟨father, isReaper⟩ :=
      related.fathers nr c notFirst notInit isTask
    exact ⟨father, reaper isReaper⟩
  · rw [same.core]
    intro nr c isTask
    rw [exited]
    exact related.zombies nr c isTask
  · rw [leaving]
    exact related.firstStays
  · rw [same.core]
    exact vacant
  · intro notStarted
    obtain ⟨before, last⟩ := same.started notStarted
    rw [same.core, last]
    exact related.fresh before
  · rw [same.orphaned]
    exact related.cared

/-- What has been collected depends on the calls of `sys_waitpid` only. -/
theorem Life.collected_congr (returns : next.returns = life.returns)
    (reaping : ∀ nr child pid code, next.phase nr = .reaping child pid code ↔
      life.phase nr = .reaping child pid code) (child : Nat) :
    next.Collected child ↔ life.Collected child := by
  unfold Life.Collected
  rw [returns]
  simp only [reaping]

/-- The family stays, and so does what the records say of it. -/
theorem Life.Recorded.sameFamily (recorded : life.Recorded)
    (same : SameFamily life next)
    (collected : ∀ child, next.Collected child → life.Collected child)
    (pending : ∀ nr child pid code, next.phase nr = .reaping child pid code →
      child ∉ next.returns.map Departure.child ∧
        ⟨child, pid, code⟩ ∈ next.exits ∧
          ∀ other otherPid otherCode,
            next.phase other = .reaping child otherPid otherCode → other = nr)
    (returned : (next.returns.map Departure.child).Nodup)
    (own : ∀ departure ∈ next.returns, departure ∈ next.exits) :
    next.Recorded := by
  refine
    { born := ?_, births := ?_, exits := ?_, exited := ?_
      exitedOnce := ?_, collected := ?_, pending, returned, own }
  · rw [same.core, same.births, same.birth]
    exact recorded.born
  · rw [same.core, same.birth]
    exact recorded.births
  · rw [same.core, same.birth, same.exits]
    exact recorded.exits
  · rw [same.core, same.births, same.birth, same.exits]
    exact recorded.exited
  · rw [same.exits]
    exact recorded.exitedOnce
  · rw [same.core, same.births, same.birth]
    exact fun child isCollected =>
      recorded.collected child (collected child isCollected)

theorem Life.Recorded.rephase (recorded : life.Recorded)
    (same : SameFamily life next) (returns : next.returns = life.returns)
    (reaping : ∀ nr child pid code, next.phase nr = .reaping child pid code ↔
      life.phase nr = .reaping child pid code) : next.Recorded := by
  have collected := Life.collected_congr returns reaping
  refine recorded.sameFamily same (fun child => (collected child).mp) ?_ ?_ ?_
  · rw [returns, same.exits]
    simp only [reaping]
    exact recorded.pending
  · rw [returns]
    exact recorded.returned
  · rw [returns, same.exits]
    exact recorded.own

/-- A task is not a zombie while it runs or waits. -/
theorem Life.Related.alive (related : life.Related) {nr : Nat}
    (notExited : life.phase nr ≠ .exited) {p : TaskStruct}
    (isTask : life.system.task nr = some p) : p.state ≠ .zombie := by
  intro isZombie
  apply notExited
  exact (related.zombies nr p.core (System.core_of_task isTask)).mp
    (decide_eq_true isZombie)

/-! ## Births -/

/-- Slot `slot` has got a task with pid `pid`, made by the one in slot
`nr`. -/
structure Born (life : Life) (nr slot : Nat) (pid : Int) (next : Life) :
    Prop where
  parent : ∃ c, life.core nr = some c ∧ ∃ code, ∀ other, next.core other =
    if other = slot then some ⟨pid, c.pid, code, false⟩ else life.core other
  running : life.phase nr = .running
  inTable : slot < nrTasks
  free : life.core slot = none
  notFirst : slot ≠ 0
  unused : ∀ other c, life.core other = some c → c.pid ≠ pid
  /-- The first task makes task 1. -/
  byFirst : nr = 0 → slot = 1 ∧ pid = 1
  phase : next.phase = life.phase
  started : next.started = true
  births : next.births = life.births + 1
  birth : next.birth = fun other =>
    if other = slot then life.births else life.birth other
  exits : next.exits = life.exits
  returns : next.returns = life.returns
  orphaned : next.orphaned = life.orphaned

theorem Life.Related.afterBirth {nr slot : Nat} {pid : Int} (related : life.Related)
    (born : Born life nr slot pid next) : next.Related := by
  obtain ⟨parent, isParent, code, cores⟩ := born.parent
  have kept {other : Nat} {c : Core} (isTask : life.core other = some c) :
      other ≠ slot ∧ next.core other = some c := by
    have different : other ≠ slot := by
      rintro rfl
      rw [born.free] at isTask
      cases isTask
    rw [cores, if_neg different]
    exact ⟨different, isTask⟩
  have reaper {pid : Int} {nr : Nat} (isReaper : life.Reaper pid nr) :
      next.Reaper pid nr := by
    obtain ⟨notFirst, ⟨c, isTask, named⟩, stays⟩ := isReaper
    refine ⟨notFirst, ⟨c, (kept isTask).2, named⟩, ?_⟩
    rw [born.phase]
    exact stays
  have stays : ¬ (life.phase nr).leaving := by
    rw [born.running]
    exact id
  have slotRuns : life.phase slot = .running := related.vacant slot born.free
  have init : next.Reaper 1 1 := by
    by_cases byFirst : nr = 0
    · obtain ⟨isSlot, isPid⟩ := born.byFirst byFirst
      refine ⟨Nat.one_ne_zero, ⟨⟨pid, parent.pid, code, false⟩, ?_, isPid⟩,
        ?_⟩
      · rw [cores, if_pos isSlot.symm]
      · rw [born.phase, ← isSlot, slotRuns]
        exact id
    · exact reaper (related.init nr byFirst (by simp [isParent]))
  refine
    { bounded := ?_, pids := ?_, first := ?_, init := fun _ _ _ => init
      fathers := ?_, zombies := ?_, firstStays := ?_, vacant := ?_
      fresh := ?_, cared := ?_ }
  · intro other beyond
    have inTable := born.inTable
    rw [cores, if_neg (by omega)]
    exact related.bounded other beyond
  · intro i j c d isFirst isSecond same
    rw [cores] at isFirst isSecond
    split at isFirst <;> rename_i atFirst <;>
      split at isSecond <;> rename_i atSecond
    · rw [atFirst, atSecond]
    · cases isFirst
      exact (born.unused j d isSecond same.symm).elim
    · cases isSecond
      exact (born.unused i c isFirst same).elim
    · exact related.pids i j c d isFirst isSecond same
  · obtain ⟨c, isTask, isZero⟩ := related.first
    exact ⟨c, (kept isTask).2, isZero⟩
  · intro other c notFirst notInit isTask
    rw [cores] at isTask
    split at isTask <;> rename_i here
    · cases isTask
      have notByFirst : nr ≠ 0 := by
        intro byFirst
        exact notInit (here.trans (born.byFirst byFirst).1)
      exact ⟨nr, reaper ⟨notByFirst, ⟨parent, isParent, rfl⟩, stays⟩⟩
    · obtain ⟨father, isReaper⟩ :=
        related.fathers other c notFirst notInit isTask
      exact ⟨father, reaper isReaper⟩
  · intro other c isTask
    rw [born.phase]
    rw [cores] at isTask
    split at isTask <;> rename_i here
    · cases isTask
      rw [here, slotRuns]
      simp
    · exact related.zombies other c isTask
  · rw [born.phase]
    exact related.firstStays
  · intro other isVacant
    rw [born.phase]
    rw [cores] at isVacant
    split at isVacant
    · cases isVacant
    · exact related.vacant other isVacant
  · intro notStarted
    rw [born.started] at notStarted
    cases notStarted
  · rw [born.orphaned]
    exact related.cared

theorem Life.Recorded.afterBirth {nr slot : Nat} {pid : Int} (recorded : life.Recorded)
    (born : Born life nr slot pid next) : next.Recorded := by
  obtain ⟨parent, isParent, code, cores⟩ := born.parent
  have older {other : Nat} (isTask : life.core other ≠ none) :
      life.birth other < life.births := by
    obtain ⟨c, isCore⟩ := Option.ne_none_iff_exists'.mp isTask
    exact recorded.born other c isCore
  have collected := Life.collected_congr born.returns
    fun _ _ _ _ => by rw [born.phase]
  refine
    { born := ?_, births := ?_, exits := ?_, exited := ?_
      exitedOnce := ?_, collected := ?_, pending := ?_, returned := ?_
      own := ?_ }
  · intro other c isTask
    rw [born.births, born.birth]
    rw [cores] at isTask
    dsimp only
    split at isTask <;> rename_i here
    · rw [if_pos here]
      exact Nat.lt_succ_self _
    · rw [if_neg here]
      exact Nat.lt_succ_of_lt (recorded.born other c isTask)
  · intro i j isFirst isSecond same
    rw [born.birth] at same
    rw [cores] at isFirst isSecond
    dsimp only at same
    split at isFirst <;> rename_i atFirst <;>
      split at isSecond <;> rename_i atSecond
    · rw [atFirst, atSecond]
    · rw [if_pos atFirst, if_neg atSecond] at same
      have := older isSecond
      omega
    · rw [if_neg atFirst, if_pos atSecond] at same
      have := older isFirst
      omega
    · rw [if_neg atFirst, if_neg atSecond] at same
      exact recorded.births i j isFirst isSecond same
  · intro other c isTask isZombie
    rw [born.exits, born.birth]
    rw [cores] at isTask
    dsimp only
    split at isTask <;> rename_i here
    · cases isTask
      cases isZombie
    · rw [if_neg here]
      exact recorded.exits other c isTask isZombie
  · intro departure inExits
    rw [born.exits] at inExits
    obtain ⟨old, zombie⟩ := recorded.exited departure inExits
    refine ⟨?_, ?_⟩
    · rw [born.births]
      omega
    · intro other c isTask same
      rw [cores] at isTask
      rw [born.birth] at same
      dsimp only at same
      split at isTask <;> rename_i here
      · rw [if_pos here] at same
        omega
      · rw [if_neg here] at same
        exact zombie other c isTask same
  · rw [born.exits]
    exact recorded.exitedOnce
  · intro child isCollected
    obtain ⟨old, notLiving⟩ :=
      recorded.collected child ((collected child).mp isCollected)
    refine ⟨?_, ?_⟩
    · rw [born.births]
      omega
    · intro other isTask
      rw [born.birth]
      rw [cores] at isTask
      dsimp only
      split at isTask <;> rename_i here
      · rw [if_pos here]
        omega
      · rw [if_neg here]
        exact notLiving other isTask
  · rw [born.returns, born.phase, born.exits]
    exact recorded.pending
  · rw [born.returns]
    exact recorded.returned
  · rw [born.returns, born.exits]
    exact recorded.own

/-! ## Exits -/

/-- The task in slot `nr` has begun to exit: its children are those of task
1. -/
structure Leaving (life : Life) (nr : Nat) (next : Life) : Prop where
  leaver : ∃ c, life.core nr = some c ∧ ∀ other,
    next.core other = (life.core other).map (Core.adopted c.pid)
  running : life.phase nr = .running
  notFirst : nr ≠ 0
  notInit : nr ≠ 1
  phase : ∃ code, next.phase = fun other =>
    if other = nr then .exiting code else life.phase other
  started : next.started = life.started
  lastPid : next.system.lastPid = life.system.lastPid
  births : next.births = life.births
  birth : next.birth = life.birth
  exits : next.exits = life.exits
  returns : next.returns = life.returns
  orphaned : next.orphaned = life.orphaned

namespace Leaving

variable {nr : Nat}

theorem core_some (leaving : Leaving life nr next) {other : Nat} {c : Core}
    (isTask : next.core other = some c) : ∃ before,
      life.core other = some before ∧ c.pid = before.pid ∧
        c.exitCode = before.exitCode ∧ c.zombie = before.zombie ∧
        ∀ leaver, life.core nr = some leaver →
          c.father = if before.father = leaver.pid then 1
            else before.father := by
  obtain ⟨leaver, isLeaver, cores⟩ := leaving.leaver
  rw [cores] at isTask
  obtain ⟨before, isBefore, rfl⟩ := Option.map_eq_some_iff.mp isTask
  refine ⟨before, isBefore, ?_, ?_, ?_, ?_⟩
  · unfold Core.adopted
    split <;> rfl
  · unfold Core.adopted
    split <;> rfl
  · unfold Core.adopted
    split <;> rfl
  · intro other isOther
    rw [isLeaver, Option.some.injEq] at isOther
    subst isOther
    unfold Core.adopted
    split <;> rfl

theorem core_none (leaving : Leaving life nr next) (other : Nat) :
    next.core other = none ↔ life.core other = none := by
  obtain ⟨leaver, _, cores⟩ := leaving.leaver
  rw [cores, Option.map_eq_none_iff]

theorem reaper (leaving : Leaving life nr next) {pid : Int} {other : Nat}
    (isReaper : life.Reaper pid other) (different : other ≠ nr) :
    next.Reaper pid other := by
  obtain ⟨leaver, _, cores⟩ := leaving.leaver
  obtain ⟨notFirst, ⟨c, isTask, named⟩, stays⟩ := isReaper
  refine ⟨notFirst, ⟨c.adopted leaver.pid, ?_, ?_⟩, ?_⟩
  · rw [cores, isTask]
    rfl
  · unfold Core.adopted
    split <;> exact named
  · obtain ⟨code, phases⟩ := leaving.phase
    rw [phases]
    dsimp only
    rw [if_neg different]
    exact stays

end Leaving

theorem Life.Related.afterLeaving {nr : Nat} (related : life.Related)
    (leaving : Leaving life nr next) : next.Related := by
  obtain ⟨leaver, isLeaver, cores⟩ := leaving.leaver
  obtain ⟨code, phases⟩ := leaving.phase
  have phase (other : Nat) : next.phase other =
      if other = nr then .exiting code else life.phase other :=
    congrFun phases other
  have init : next.Reaper 1 1 :=
    leaving.reaper (related.init nr leaving.notFirst (by simp [isLeaver]))
      (Ne.symm leaving.notInit)
  refine
    { bounded := ?_, pids := ?_, first := ?_, init := fun _ _ _ => init
      fathers := ?_, zombies := ?_, firstStays := ?_, vacant := ?_
      fresh := ?_, cared := ?_ }
  · intro other beyond
    exact (leaving.core_none other).mpr (related.bounded other beyond)
  · intro i j c d isFirst isSecond same
    obtain ⟨first, wasFirst, firstPid, _⟩ := leaving.core_some isFirst
    obtain ⟨second, wasSecond, secondPid, _⟩ := leaving.core_some isSecond
    exact related.pids i j first second wasFirst wasSecond (by omega)
  · obtain ⟨c, isTask, isZero⟩ := related.first
    refine ⟨c.adopted leaver.pid, ?_, ?_⟩
    · rw [cores, isTask]
      rfl
    · unfold Core.adopted
      split <;> exact isZero
  · intro other c notFirst notInit isTask
    obtain ⟨before, wasTask, _, _, _, fathers⟩ := leaving.core_some isTask
    have father := fathers leaver isLeaver
    split at father <;> rename_i isChild
    · exact ⟨1, father ▸ init⟩
    · obtain ⟨m, isReaper⟩ :=
        related.fathers other before notFirst notInit wasTask
      have different : m ≠ nr := by
        rintro rfl
        obtain ⟨_, ⟨d, isFather, named⟩, _⟩ := isReaper
        rw [isLeaver, Option.some.injEq] at isFather
        exact isChild (by rw [isFather, named])
      rw [father]
      exact ⟨m, leaving.reaper isReaper different⟩
  · intro other c isTask
    obtain ⟨before, wasTask, _, _, isZombie, _⟩ := leaving.core_some isTask
    rw [isZombie, related.zombies other before wasTask, phase]
    split <;> rename_i here
    · rw [here, leaving.running]
      simp
    · rfl
  · rw [phase, if_neg (Ne.symm leaving.notFirst)]
    exact related.firstStays
  · intro other isVacant
    have wasVacant := (leaving.core_none other).mp isVacant
    have different : other ≠ nr := by
      rintro rfl
      rw [isLeaver] at wasVacant
      cases wasVacant
    rw [phase, if_neg different]
    exact related.vacant other wasVacant
  · intro notStarted
    rw [leaving.started] at notStarted
    obtain ⟨alone, _⟩ := related.fresh notStarted
    rw [alone nr leaving.notFirst] at isLeaver
    cases isLeaver
  · rw [leaving.orphaned]
    exact related.cared

theorem Life.Recorded.afterLeaving {nr : Nat} (recorded : life.Recorded)
    (leaving : Leaving life nr next) : next.Recorded := by
  obtain ⟨code, phases⟩ := leaving.phase
  have reaping (other child : Nat) (pid exitCode : Int) :
      next.phase other = .reaping child pid exitCode ↔
        life.phase other = .reaping child pid exitCode := by
    rw [phases]
    dsimp only
    split <;> rename_i here
    · rw [here, leaving.running]
      simp
    · rfl
  have collected := Life.collected_congr leaving.returns reaping
  have present (other : Nat) :
      next.core other ≠ none ↔ life.core other ≠ none :=
    not_congr (leaving.core_none other)
  refine
    { born := ?_, births := ?_, exits := ?_, exited := ?_
      exitedOnce := ?_, collected := ?_, pending := ?_, returned := ?_
      own := ?_ }
  · intro other c isTask
    obtain ⟨before, wasTask, _⟩ := leaving.core_some isTask
    rw [leaving.births, leaving.birth]
    exact recorded.born other before wasTask
  · simp only [present, leaving.birth]
    exact recorded.births
  · intro other c isTask isZombie
    obtain ⟨before, wasTask, samePid, sameCode, sameZombie, _⟩ :=
      leaving.core_some isTask
    rw [leaving.exits, leaving.birth, samePid, sameCode]
    exact recorded.exits other before wasTask (sameZombie ▸ isZombie)
  · intro departure inExits
    rw [leaving.exits] at inExits
    rw [leaving.births, leaving.birth]
    obtain ⟨old, zombie⟩ := recorded.exited departure inExits
    refine ⟨old, ?_⟩
    intro other c isTask same
    obtain ⟨before, wasTask, _, _, sameZombie, _⟩ := leaving.core_some isTask
    rw [sameZombie]
    exact zombie other before wasTask same
  · rw [leaving.exits]
    exact recorded.exitedOnce
  · intro child isCollected
    simp only [present, leaving.births, leaving.birth]
    exact recorded.collected child ((collected child).mp isCollected)
  · simp only [reaping, leaving.returns, leaving.exits]
    exact recorded.pending
  · rw [leaving.returns]
    exact recorded.returned
  · rw [leaving.returns, leaving.exits]
    exact recorded.own

end Linux011.Proc

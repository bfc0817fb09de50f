import Linux011.Proc.OwnFields
import Linux011.Proc.Reaping

/-!
# Fresh pids

`find_empty_process` always ends, with a pid that no task has.  Of all that
processes do, only `fork` gives out a pid, so that no two tasks ever have the
same.
-/

namespace Linux011.Proc

open Linux011.Mm Linux011.Sched Machines

/-! ## The search for a pid and for a slot -/

section Search

variable {task : Nat → Option TaskStruct} {lastPid pid : Int}

theorem bumpPid_pos (least : 0 ≤ lastPid) (greatest : lastPid ≤ 2147483647) :
    0 < bumpPid lastPid := by
  rw [bumpPid_of_range least greatest]
  split <;> omega

theorem nextPid_range {rounds : Nat} (least : 0 ≤ lastPid)
    (greatest : lastPid ≤ 2147483647)
    (found : nextPid task rounds lastPid = some pid) :
    0 < pid ∧ pid ≤ 2147483647 := by
  induction rounds generalizing lastPid with
  | zero => cases found
  | succ rounds induction =>
      have positive := bumpPid_pos least greatest
      have inRange := bumpPid_range lastPid
      unfold nextPid at found
      split at found
      · exact induction inRange.1 inRange.2 found
      · rw [← Option.some.inj found]
        exact ⟨positive, inRange.2⟩

/-- More rounds change nothing. -/
theorem nextPid_more {rounds more : Nat} (isMore : rounds ≤ more)
    (found : nextPid task rounds lastPid = some pid) :
    nextPid task more lastPid = some pid := by
  induction rounds generalizing lastPid more with
  | zero => cases found
  | succ rounds induction =>
      cases more with
      | zero => omega
      | succ more =>
          unfold nextPid at found ⊢
          split at found <;> rename_i inUse
          · rw [if_pos inUse]
            exact induction (by omega) found
          · rw [if_neg inUse]
            exact found

theorem emptySlot_some {nr : Nat} (found : emptySlot task = some nr) :
    1 ≤ nr ∧ nr < nrTasks ∧ task nr = none ∧
      ∀ below, 1 ≤ below → below < nr → task below ≠ none := by
  unfold emptySlot at found
  rw [List.find?_range_eq_some] at found
  simp only [ne_eq, Option.isNone_iff_eq_none, decide_eq_true_eq, List.mem_range,
    Bool.not_eq_true', decide_eq_false_iff_not, not_and] at found
  obtain ⟨⟨notFirst, isEmpty⟩, inTable, lowest⟩ := found
  refine ⟨by omega, inTable, isEmpty, ?_⟩
  intro below atLeast isBelow
  exact lowest below isBelow (by omega)

theorem emptySlot_none :
    emptySlot task = none ↔
      ∀ nr, 1 ≤ nr → nr < nrTasks → task nr ≠ none := by
  unfold emptySlot
  rw [List.find?_eq_none]
  simp only [List.mem_range, ne_eq, Option.isNone_iff_eq_none,
    decide_eq_true_eq, not_and]
  constructor
  · exact fun full nr atLeast inTable => full nr inTable (by omega)
  · exact fun full nr inTable notFirst => full nr (by omega) inTable

end Search

/-- What `find_empty_process` is to do. -/
structure FindsEmpty (system : System) (slot : Option Nat) (next : System) :
    Prop where
  onlyPid : next = { system with lastPid := next.lastPid }
  positive : 0 < next.lastPid
  fits : next.lastPid ≤ 2147483647
  fresh : ∀ nr p, nr < nrTasks → system.task nr = some p → p.pid ≠ next.lastPid
  lowest : ∀ nr, slot = some nr → 1 ≤ nr ∧ nr < nrTasks ∧
    system.task nr = none ∧
      ∀ below, 1 ≤ below → below < nr → system.task below ≠ none
  full : slot = none ↔
    ∀ nr, 1 ≤ nr → nr < nrTasks → system.task nr ≠ none

theorem findEmptyProcess_finds {system : System} (least : 0 ≤ system.lastPid)
    (greatest : system.lastPid ≤ 2147483647) :
    ∃ slot next, findEmptyProcess system = some (slot, next) ∧
      FindsEmpty system slot next ∧
        ∀ rounds, nrTasks < rounds →
          nextPid system.task rounds system.lastPid = some next.lastPid := by
  have ends := findEmptyProcess_isSome system
  unfold findEmptyProcess at ends ⊢
  cases isNext : nextPid system.task (nrTasks + 1) system.lastPid with
  | none =>
      rw [isNext] at ends
      cases ends
  | some pid =>
      have inRange := nextPid_range least greatest isNext
      have finds : FindsEmpty system (emptySlot system.task)
          { system with lastPid := pid } :=
        { onlyPid := rfl
          positive := inRange.1
          fits := inRange.2
          fresh := fun nr p inTable isTask =>
            pidInUse_false (nextPid_free isNext) inTable isTask
          lowest := fun nr isSlot => emptySlot_some isSlot
          full := emptySlot_none }
      exact ⟨_, _, rfl, finds, fun rounds isMore => nextPid_more isMore isNext⟩

/-! ## Only `fork` gives out pids -/

/-- Each task was there before, with the same pid. -/
structure KeepsPids (system next : System) : Prop where
  tasks : ∀ nr p, next.task nr = some p →
    ∃ q, system.task nr = some q ∧ q.pid = p.pid
  lastPid : next.lastPid = system.lastPid

theorem KeepsField.pids {system next : System}
    (kept : KeepsField TaskStruct.pid system next) : KeepsPids system next where
  tasks := kept.tasks
  lastPid := kept.lastPid

/-! ## No two tasks have the same pid -/

/-- No two tasks have the same pid, and `last_pid` is one that was given
out. -/
structure DistinctPids (system : System) : Prop where
  least : 0 ≤ system.lastPid
  greatest : system.lastPid ≤ 2147483647
  inTable : ∀ nr p, system.task nr = some p → nr < nrTasks
  pids : ∀ i j p q, system.task i = some p → system.task j = some q →
    p.pid = q.pid → i = j

namespace DistinctPids

variable {system next : System}

theorem keeps (distinct : DistinctPids system) (kept : KeepsPids system next) :
    DistinctPids next where
  least := by
    rw [kept.lastPid]
    exact distinct.least
  greatest := by
    rw [kept.lastPid]
    exact distinct.greatest
  inTable := by
    intro nr p isTask
    obtain ⟨q, isOld, _⟩ := kept.tasks nr p isTask
    exact distinct.inTable nr q isOld
  pids := by
    intro i j p q isFirst isSecond same
    obtain ⟨r, isOld, first⟩ := kept.tasks i p isFirst
    obtain ⟨s, isOther, second⟩ := kept.tasks j q isSecond
    exact distinct.pids i j r s isOld isOther
      (first.trans (same.trans second.symm))

theorem found (distinct : DistinctPids system) {slot : Option Nat}
    (finds : FindsEmpty system slot next) : DistinctPids next := by
  rw [finds.onlyPid]
  exact
    { least := Int.le_of_lt finds.positive
      greatest := finds.fits
      inTable := distinct.inTable
      pids := distinct.pids }

/-- The new task has the pid that `find_empty_process` has found. -/
theorem copied (distinct : DistinctPids system) {slot : Nat}
    {parent : TaskStruct} {registers : Registers} {value : Int}
    (fresh : ∀ nr p, nr < nrTasks → system.task nr = some p →
      p.pid ≠ system.lastPid) (inTable : slot < nrTasks)
    (free : system.task slot = none)
    (ran : copyProcess slot parent registers system = .ok (value, next)) :
    DistinctPids next := by
  obtain ⟨lastPid, ⟨_, core⟩ | ⟨_, code, core⟩⟩ := copyProcess_core free ran
  · refine distinct.keeps ⟨?_, lastPid⟩
    intro nr p isTask
    have isCore := System.core_of_task isTask
    rw [core] at isCore
    obtain ⟨q, isOld, same⟩ := System.task_of_core isCore
    exact ⟨q, isOld, congrArg Core.pid same⟩
  · have cases (nr : Nat) (p : TaskStruct) (isTask : next.task nr = some p) :
        nr = slot ∧ p.pid = system.lastPid ∨ nr ≠ slot ∧
          ∃ q, system.task nr = some q ∧ q.pid = p.pid := by
      have isCore := System.core_of_task isTask
      rw [core] at isCore
      split at isCore <;> rename_i isSlot
      · exact .inl ⟨isSlot, (congrArg Core.pid (Option.some.inj isCore)).symm⟩
      · obtain ⟨q, isOld, same⟩ := System.task_of_core isCore
        exact .inr ⟨isSlot, q, isOld, congrArg Core.pid same⟩
    have isFresh (nr : Nat) (q : TaskStruct) (isOld : system.task nr = some q) :
        q.pid ≠ system.lastPid := fresh nr q (distinct.inTable nr q isOld) isOld
    refine
      { least := ?_, greatest := ?_, inTable := ?_, pids := ?_ }
    · rw [lastPid]
      exact distinct.least
    · rw [lastPid]
      exact distinct.greatest
    · intro nr p isTask
      obtain ⟨rfl, _⟩ | ⟨_, q, isOld, _⟩ := cases nr p isTask
      · exact inTable
      · exact distinct.inTable nr q isOld
    · intro i j p q isFirst isSecond same
      obtain ⟨isNew, new⟩ | ⟨_, r, isOld, first⟩ := cases i p isFirst <;>
        obtain ⟨isOther, other⟩ | ⟨_, s, wasOther, second⟩ := cases j q isSecond
      · exact isNew.trans isOther.symm
      · exact absurd (second.trans (same.symm.trans new))
          (isFresh j s wasOther)
      · exact absurd (first.trans (same.trans other)) (isFresh i r isOld)
      · exact distinct.pids i j r s isOld wasOther
          (first.trans (same.trans second.symm))

end DistinctPids

namespace Life

variable {life next : Life}

theorem fork_distinct {nr : Nat} {registers : Registers}
    (distinct : DistinctPids life.system)
    (steps : life.fork nr registers = some next) : DistinctPids next.system := by
  obtain ⟨slot, found, isFound, finds, _⟩ :=
    findEmptyProcess_finds distinct.least distinct.greatest
  unfold Life.fork at steps
  simp only [Option.bind_eq_bind, Option.bind_eq_some_iff] at steps
  obtain ⟨parent, _, steps⟩ := steps
  split at steps
  · cases steps
  · rw [isFound] at steps
    simp only [Option.bind_some] at steps
    cases slot with
    | none =>
        rw [← Option.some.inj steps]
        exact distinct.found finds
    | some slot =>
        dsimp only at steps
        obtain ⟨_, inTable, free, _⟩ := finds.lowest slot rfl
        split at steps
        · cases steps
        · rename_i value made ran
          have copied : DistinctPids made := by
            refine (distinct.found finds).copied ?_ inTable ?_ ran
            · intro other p isIn isTask
              rw [finds.onlyPid] at isTask
              exact finds.fresh other p isIn isTask
            · rw [finds.onlyPid]
              exact free
          split at steps <;> cases steps <;> exact copied

theorem wait_keepsPids {nr : Nat} {pid : Int} {options : BitVec 32}
    {result : Except Fault (Waited × System)}
    (keeps : ∀ outcome system, result = .ok (outcome, system) →
      KeepsField TaskStruct.pid life.system system)
    (steps : life.wait nr pid options result = some next) :
    KeepsField TaskStruct.pid life.system next.system := by
  unfold Life.wait at steps
  split at steps <;> cases steps
  all_goals exact keeps _ _ rfl

theorem step_distinct {action : LifeAction}
    (distinct : DistinctPids life.system)
    (steps : lifeCycle.step life action = some next) :
    DistinctPids next.system := by
  cases action with
  | fork nr registers => exact fork_distinct distinct steps
  | exit nr code =>
      simp only [lifeCycle, Option.bind_eq_bind, Option.bind_eq_some_iff]
        at steps
      obtain ⟨p, _, steps⟩ := steps
      split at steps
      · cases steps
      · split at steps
        · cases steps
        · rename_i ran
          cases steps
          exact distinct.keeps (own_pid.doExitBegin ran).pids
  | finish nr =>
      simp only [lifeCycle] at steps
      split at steps
      · split at steps
        · cases steps
        · rename_i ran
          cases steps
          exact distinct.keeps (own_pid.doExitEnd ran).pids
      · cases steps
  | waitpid nr pid options =>
      simp only [lifeCycle, Option.bind_eq_bind, Option.bind_eq_some_iff]
        at steps
      obtain ⟨me, _, steps⟩ := steps
      exact distinct.keeps
        (wait_keepsPids (fun _ _ ran => own_pid.sysWaitpid ran) steps).pids
  | resume nr =>
      simp only [lifeCycle] at steps
      split at steps
      · rename_i isMe
        exact distinct.keeps
          (wait_keepsPids (fun _ _ ran => own_pid.resumeWaitpid isMe ran)
            steps).pids
      · cases steps
  | handOver nr =>
      simp only [lifeCycle] at steps
      split at steps
      · cases steps
        exact distinct
      · cases steps
  | elsewhere memory fileTable iCount jiffies change =>
      cases steps
      have disturbed (nr : Nat) (p : TaskStruct) :
          (disturb (change nr) p).pid = p.pid := rfl
      exact distinct.keeps
        (KeepsField.pids (.of_map disturbed (fun _ => rfl) rfl))

end Life

theorem firstLife_distinct (system : System) (page : Nat) :
    DistinctPids (firstLife system page).system where
  least := Int.le_refl 0
  greatest := by
    show (0 : Int) ≤ 2147483647
    omega
  inTable := by
    intro nr p isTask
    unfold nrTasks
    by_cases isFirst : nr = 0
    · omega
    · simp [firstLife, isFirst] at isTask
  pids := by
    intro i j p q isFirst isSecond _
    have only (nr : Nat) (r : TaskStruct)
        (isTask : (firstLife system page).system.task nr = some r) : nr = 0 := by
      by_contra notFirst
      simp [firstLife, notFirst] at isTask
    rw [only i p isFirst, only j q isSecond]

theorem reachable_distinct {booted : System} {page : Nat} {life : Life}
    (reached : lifeCycle.Reachable Machine.anything (firstLife booted page)
      life) : DistinctPids life.system := by
  induction reached with
  | start => exact firstLife_distinct booted page
  | step action _ _ steps induction =>
      exact Life.step_distinct induction steps

/-- `find_empty_process` ends, in at most 65 rounds, with a fresh pid and the
lowest free slot; and in no run do two tasks have the same pid. -/
theorem forks_fresh {system : System} (least : 0 ≤ system.lastPid)
    (greatest : system.lastPid ≤ 2147483647) :
    (∃ slot next, findEmptyProcess system = some (slot, next) ∧
      FindsEmpty system slot next ∧
        ∀ rounds, nrTasks < rounds →
          nextPid system.task rounds system.lastPid = some next.lastPid) ∧
      ∀ booted page life,
        lifeCycle.Reachable Machine.anything (firstLife booted page) life →
          ∀ i j p q, life.system.task i = some p →
            life.system.task j = some q → p.pid = q.pid → i = j := by
  refine ⟨findEmptyProcess_finds least greatest, ?_⟩
  intro booted page life reached
  exact (reachable_distinct reached).pids

section Example

/-- Tasks 0 and 1, the last pid given out being the greatest there is. -/
def lastPidOut : System :=
  { quietSystem with
    task := fun nr =>
      if nr = 0 then some (initTask 5)
      else if nr = 1 then some { initTask 6 with pid := 1, father := 0 }
      else none
    lastPid := 2147483647 }

theorem forks_fresh_wrapping :
    (∃ next, findEmptyProcess lastPidOut = some (some 2, next) ∧
      next.lastPid = 2 ∧ FindsEmpty lastPidOut (some 2) next) ∧
      ∃ life, lifeCycle.run Machine.anything (firstLife quietSystem 5)
        forkExitWait = some life ∧
          ∀ i j p q, life.system.task i = some p →
            life.system.task j = some q → p.pid = q.pid → i = j := by
  obtain ⟨⟨slot, next, isFound, finds, _⟩, distinct⟩ :=
    @forks_fresh lastPidOut (by decide) (by decide)
  have found : (findEmptyProcess lastPidOut).map
      (fun result => (result.1, result.2.lastPid)) = some (some 2, 2) := by
    decide
  rw [isFound] at found
  simp only [Option.map_some, Option.some.injEq, Prod.mk.injEq] at found
  obtain ⟨rfl, pid⟩ := found
  have ran : (lifeCycle.run Machine.anything (firstLife quietSystem 5)
      forkExitWait).isSome = true := by
    decide +kernel
  obtain ⟨life, runs⟩ := Option.isSome_iff_exists.mp ran
  exact ⟨⟨next, isFound, pid, finds⟩, life, runs,
    distinct quietSystem 5 life (Machine.reachable_of_run .start runs)⟩

end Example

end Linux011.Proc

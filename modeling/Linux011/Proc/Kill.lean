import Mathlib.Order.Nat
import Linux011.Proc.Exit

/-!
# Kill

`send_sig` and `sys_kill`.  The four loops of `sys_kill` differ in the tasks
they choose and in whether permission is asked for; each goes down from the
last slot, and the error met last is the one returned.
-/

namespace Linux011.Proc

open Linux011.Mm Linux011.Sched

/-- `-EPERM`. -/
def eperm : Int := -1

/-- `-EINVAL`. -/
def einval : Int := -22

/-- `priv || (current->euid==p->euid) || suser()`. -/
def maySend (me : TaskStruct) (priv : Bool) (p : TaskStruct) : Bool :=
  priv || me.euid == p.euid || me.euid == 0

/-- `send_sig` by the task `me` to what a slot of `task` holds. -/
def sendSig (me : TaskStruct) (sig : Int) (nr : Nat) (priv : Bool)
    (system : System) : Int × System :=
  match system.task nr with
  | none => (einval, system)
  | some p =>
      if sig < 1 ∨ 32 < sig then (einval, system)
      else if maySend me priv p then
        (0, system.onTask nr (raise sig.toNat))
      else (eperm, system)

/-- `while (--p > &FIRST_TASK)`, from slot `count` down. -/
def killLoop (me : TaskStruct) (sig : Int) (chosen : Option TaskStruct → Bool)
    (priv : Bool) : Nat → Int × System → Int × System
  | 0, result => result
  | count + 1, (retval, system) =>
      killLoop me sig chosen priv count
        (if chosen (system.task (count + 1)) then
          let (err, system) := sendSig me sig (count + 1) priv system
          (if err = 0 then retval else err, system)
        else (retval, system))

/-- `sys_kill` by the task `me`. -/
def sysKill (me : TaskStruct) (pid sig : Int) (system : System) :
    Int × System :=
  let loop (chosen : Option TaskStruct → Bool) (priv : Bool) :=
    killLoop me sig chosen priv (nrTasks - 1) (0, system)
  if pid = 0 then loop (fun p => p.any fun p => p.pgrp == me.pid) true
  else if 0 < pid then loop (fun p => p.any fun p => p.pid == pid) false
  else if pid = -1 then loop (fun _ => true) false
  else loop (fun p => p.any fun p => p.pgrp == long (-pid)) false

/-! ## One loop -/

/-- What `send_sig` returns for a slot that is chosen. -/
def sendError (me : TaskStruct) (chosen : Option TaskStruct → Bool)
    (priv : Bool) (slot : Option TaskStruct) : Int :=
  if chosen slot then
    match slot with
    | none => einval
    | some p => if maySend me priv p then 0 else eperm
  else 0

/-- A slot after the loop. -/
def signalled (me : TaskStruct) (sig : Int) (chosen : Option TaskStruct → Bool)
    (priv : Bool) (slot : Option TaskStruct) : Option TaskStruct :=
  slot.map fun p =>
    if chosen (some p) && maySend me priv p then raise sig.toNat p else p

section Loop

variable {me : TaskStruct} {sig : Int} {chosen : Option TaskStruct → Bool}
  {priv : Bool}

/-- One pass of the loop, for a signal that exists. -/
theorem killPass (isSig : 1 ≤ sig ∧ sig ≤ 32) (nr : Nat) (retval : Int)
    (system : System) :
    (if chosen (system.task nr) then
        let (err, system) := sendSig me sig nr priv system
        (if err = 0 then retval else err, system)
      else (retval, system)) =
      (if sendError me chosen priv (system.task nr) = 0 then retval
        else sendError me chosen priv (system.task nr),
        system.setTask nr (signalled me sig chosen priv (system.task nr))) := by
  have unchanged : system.setTask nr (system.task nr) = system := by
    unfold System.setTask
    have same : (fun other => if other = nr then system.task nr
        else system.task other) = system.task := by
      funext other
      split <;> rename_i here
      · rw [here]
      · rfl
    rw [same]
  unfold sendError sendSig
  cases isTask : system.task nr with
  | none =>
      rw [isTask] at unchanged
      by_cases isChosen : chosen none = true <;>
        simp [isChosen, signalled, unchanged]
  | some p =>
      rw [isTask] at unchanged
      have inRange : ¬(sig < 1 ∨ 32 < sig) := by omega
      by_cases isChosen : chosen (some p) = true
      · by_cases may : maySend me priv p = true
        · simp [isChosen, may, inRange, signalled, System.onTask, isTask]
        · simp [isChosen, may, inRange, signalled, unchanged, eperm]
      · simp [isChosen, signalled, unchanged]

/-- The error that is met last, from slot `count` down. -/
def lastError (errorAt : Nat → Int) : Nat → Int → Int
  | 0, retval => retval
  | count + 1, retval =>
      lastError errorAt count
        (if errorAt (count + 1) = 0 then retval else errorAt (count + 1))

theorem lastError_congr {errorAt others : Nat → Int} {count : Nat}
    (same : ∀ nr, 1 ≤ nr → nr ≤ count → errorAt nr = others nr)
    (retval : Int) :
    lastError errorAt count retval = lastError others count retval := by
  induction count generalizing retval with
  | zero => rfl
  | succ count induction =>
      rw [lastError, lastError, same (count + 1) (by omega) (by omega)]
      exact induction (fun nr inTable below => same nr inTable (by omega)) _

theorem lastError_none {errorAt : Nat → Int} {count : Nat}
    (none : ∀ nr, 1 ≤ nr → nr ≤ count → errorAt nr = 0) (retval : Int) :
    lastError errorAt count retval = retval := by
  induction count generalizing retval with
  | zero => rfl
  | succ count induction =>
      rw [lastError, none (count + 1) (by omega) (by omega), if_pos rfl]
      exact induction (fun nr inTable below => none nr inTable (by omega)) _

/-- The error of the lowest slot that has one. -/
theorem lastError_lowest {errorAt : Nat → Int} {count nr : Nat}
    (inTable : 1 ≤ nr) (inside : nr ≤ count) (isError : errorAt nr ≠ 0)
    (lowest : ∀ below, 1 ≤ below → below < nr → errorAt below = 0)
    (retval : Int) : lastError errorAt count retval = errorAt nr := by
  induction count generalizing retval with
  | zero => omega
  | succ count induction =>
      rw [lastError]
      by_cases here : nr = count + 1
      · subst here
        rw [if_neg isError]
        exact lastError_none (fun below atLeast inside =>
          lowest below atLeast (by omega)) _
      · exact induction (by omega) _

/-- The slots above `count` have been dealt with. -/
theorem killLoop_eq (isSig : 1 ≤ sig ∧ sig ≤ 32) (count : Nat) (retval : Int)
    (system : System) :
    killLoop me sig chosen priv count (retval, system) =
      (lastError (fun nr => sendError me chosen priv (system.task nr)) count
        retval,
        { system with
          task := fun nr =>
            if 1 ≤ nr ∧ nr ≤ count then
              signalled me sig chosen priv (system.task nr)
            else system.task nr }) := by
  induction count generalizing retval system with
  | zero =>
      have nowhere (nr : Nat) : ¬(1 ≤ nr ∧ nr ≤ 0) := by omega
      simp only [killLoop, lastError, nowhere, if_false]
  | succ count induction =>
      have others (nr : Nat) (below : nr ≤ count) :
          (system.setTask (count + 1) (signalled me sig chosen priv
            (system.task (count + 1)))).task nr = system.task nr :=
        System.setTask_other (by omega)
      rw [killLoop, killPass isSig, induction]
      refine Prod.ext ?_ ?_
      · show lastError _ count _ = lastError _ count _
        apply lastError_congr
        intro nr _ below
        rw [others nr below]
      · show System.mk _ _ _ _ _ _ = System.mk _ _ _ _ _ _
        congr 1
        funext nr
        by_cases below : nr ≤ count
        · by_cases inTable : 1 ≤ nr
          · rw [if_pos ⟨inTable, below⟩, if_pos ⟨inTable, by omega⟩,
              others nr below]
          · rw [if_neg (fun both => inTable both.1),
              if_neg (fun both => inTable both.1), others nr below]
        · rw [if_neg (fun both => below both.2)]
          by_cases here : nr = count + 1
          · rw [here, System.setTask_same, if_pos (by omega)]
          · rw [System.setTask_other here, if_neg (by omega)]

/-- Either nothing goes wrong, or the lowest slot with an error decides. -/
theorem lastError_cases (errorAt : Nat → Int) (count : Nat) :
    (lastError errorAt count 0 = 0 ∧
      ∀ nr, 1 ≤ nr → nr ≤ count → errorAt nr = 0) ∨
    ∃ nr, 1 ≤ nr ∧ nr ≤ count ∧ errorAt nr ≠ 0 ∧
      (∀ below, 1 ≤ below → below < nr → errorAt below = 0) ∧
        lastError errorAt count 0 = errorAt nr := by
  by_cases anyError : ∃ nr, 1 ≤ nr ∧ nr ≤ count ∧ errorAt nr ≠ 0
  · right
    obtain ⟨inTable, inside, isError⟩ := Nat.find_spec anyError
    have lowest (below : Nat) (atLeast : 1 ≤ below)
        (isBelow : below < Nat.find anyError) : errorAt below = 0 := by
      by_contra other
      exact Nat.find_min anyError isBelow ⟨atLeast, by omega, other⟩
    exact ⟨_, inTable, inside, isError, lowest,
      lastError_lowest inTable inside isError lowest 0⟩
  · left
    have none (nr : Nat) (inTable : 1 ≤ nr) (inside : nr ≤ count) :
        errorAt nr = 0 := by
      by_contra other
      exact anyError ⟨nr, inTable, inside, other⟩
    exact ⟨lastError_none none 0, none⟩

end Loop

/-! ## What `kill` is for -/

/-- The tasks that a pid selects for the task `me`. -/
def selects (me : TaskStruct) (pid : Int) (p : TaskStruct) : Bool :=
  if 0 < pid then p.pid == pid
  else if pid = 0 then p.pgrp == me.pgrp
  else if pid = -1 then true
  else p.pgrp == long (-pid)

/-- A task in one of the slots 1 to 63. -/
structure InSlot (system : System) (nr : Nat) (p : TaskStruct) : Prop where
  inTable : 1 ≤ nr ∧ nr ≤ nrTasks - 1
  isTask : system.task nr = some p

/-- Every task that is selected may be sent a signal. -/
def AllAllowed (me : TaskStruct) (pid : Int) (system : System) : Prop :=
  ∀ nr p, InSlot system nr p → selects me pid p = true →
    maySend me (pid == 0) p = true

/-- The signal reaches the selected tasks that the caller may send it to and
no others, and the result tells whether there are any it may not. -/
structure KillsTargets (me : TaskStruct) (pid sig : Int) (system : System)
    (outcome : Int × System) : Prop where
  tasks : outcome.2 =
    { system with
      task := fun nr =>
        if 1 ≤ nr ∧ nr ≤ nrTasks - 1 then
          (system.task nr).map fun p =>
            if selects me pid p && maySend me (pid == 0) p then
              raise sig.toNat p
            else p
        else system.task nr }
  granted : AllAllowed me pid system → outcome.1 = 0
  denied : ¬AllAllowed me pid system → outcome.1 = eperm

/-- What a loop that skips empty slots does. -/
theorem killLoop_targets {me : TaskStruct} {pid sig : Int} {system : System}
    (isSig : 1 ≤ sig ∧ sig ≤ 32) {chosen : Option TaskStruct → Bool}
    (skips : chosen none = false)
    (isChosen : ∀ nr p, InSlot system nr p →
      chosen (some p) = selects me pid p) :
    KillsTargets me pid sig system
      (killLoop me sig chosen (pid == 0) (nrTasks - 1) (0, system)) := by
  rw [killLoop_eq isSig]
  have noError (nr : Nat) (inTable : 1 ≤ nr ∧ nr ≤ nrTasks - 1)
      (allowed : AllAllowed me pid system) :
      sendError me chosen (pid == 0) (system.task nr) = 0 := by
    unfold sendError
    cases isTask : system.task nr with
    | none => rw [skips]; rfl
    | some p =>
        split <;> rename_i picked
        · have inSlot : InSlot system nr p := ⟨inTable, isTask⟩
          rw [isChosen nr p inSlot] at picked
          exact if_pos (allowed nr p inSlot picked)
        · rfl
  refine ⟨?_, ?_, ?_⟩
  · show System.mk _ _ _ _ _ _ = System.mk _ _ _ _ _ _
    congr 1
    funext nr
    split <;> rename_i inTable
    · unfold signalled
      cases isTask : system.task nr with
      | none => rfl
      | some p =>
          simp only [Option.map_some, isChosen nr p ⟨inTable, isTask⟩]
    · rfl
  · intro allowed
    exact lastError_none (fun nr atLeast inside =>
      noError nr ⟨atLeast, inside⟩ allowed) 0
  · intro notAllowed
    obtain ⟨_, none⟩ | ⟨nr, atLeast, inside, isError, _, result⟩ :=
      lastError_cases (fun nr => sendError me chosen (pid == 0) (system.task nr))
        (nrTasks - 1)
    · refine absurd ?_ notAllowed
      intro nr p inSlot selected
      have noError := none nr inSlot.inTable.1 inSlot.inTable.2
      by_contra denied
      simp only [inSlot.isTask, sendError, isChosen nr p inSlot, selected,
        denied] at noError
      cases noError
    · rw [result]
      unfold sendError at isError ⊢
      cases isTask : system.task nr with
      | none =>
          simp only [isTask, skips] at isError
          exact absurd rfl isError
      | some p =>
          simp only [isTask] at isError ⊢
          split at isError
          · split at isError
            · exact absurd rfl isError
            · rename_i picked denied
              rw [if_pos picked, if_neg denied]
          · exact absurd rfl isError

/-- Where a pid of 0 and one of -1 are taken as they should be: the group of
the caller is the one named after it, as far as that matters, and no empty
slot comes before the first task that may not be sent the signal. -/
structure TakenRight (me : TaskStruct) (pid sig : Int) (system : System) :
    Prop where
  group : pid = 0 → ∀ nr p, InSlot system nr p →
    (p.pgrp = me.pid ↔ p.pgrp = me.pgrp) ∨ raise sig.toNat p = p
  everybody : pid = -1 →
    (∀ nr, 1 ≤ nr → nr ≤ nrTasks - 1 → system.task nr ≠ none) ∨
      ∃ nr p, InSlot system nr p ∧ maySend me false p = false ∧
        ∀ below, 1 ≤ below → below < nr → system.task below ≠ none

section Exact

variable {me : TaskStruct} {pid sig : Int} {system : System}

theorem selects_zero (p : TaskStruct) :
    selects me 0 p = (p.pgrp == me.pgrp) := by
  simp [selects]

theorem selects_all (p : TaskStruct) : selects me (-1) p = true := by
  simp [selects]

theorem sysKill_zero (isSig : 1 ≤ sig ∧ sig ≤ 32) :
    sysKill me 0 sig system =
      (0,
        { system with
          task := fun nr =>
            if 1 ≤ nr ∧ nr ≤ nrTasks - 1 then
              (system.task nr).map fun p =>
                if p.pgrp = me.pid then raise sig.toNat p else p
            else system.task nr }) := by
  unfold sysKill
  dsimp only
  rw [if_pos rfl, killLoop_eq isSig, lastError_none]
  · refine Prod.ext rfl ?_
    show System.mk _ _ _ _ _ _ = System.mk _ _ _ _ _ _
    congr 1
    funext nr
    split
    · unfold signalled
      cases system.task nr with
      | none => rfl
      | some p => simp [maySend]
    · rfl
  · intro nr _ _
    unfold sendError
    cases system.task nr with
    | none => rfl
    | some p => simp [maySend]

theorem sysKill_zero_exact (isSig : 1 ≤ sig ∧ sig ≤ 32) :
    KillsTargets me 0 sig system (sysKill me 0 sig system) ↔
      TakenRight me 0 sig system := by
  have allowed : AllAllowed me 0 system := fun _ _ _ _ => rfl
  rw [sysKill_zero isSig]
  constructor
  · intro targets
    refine ⟨fun _ nr p inSlot => ?_, nofun⟩
    have same := congrFun (congrArg System.task targets.tasks) nr
    simp only [if_pos inSlot.inTable, inSlot.isTask, Option.map_some,
      selects_zero, maySend, beq_self_eq_true, Bool.true_or, Bool.and_true,
      beq_iff_eq, Option.some.injEq] at same
    by_cases named : p.pgrp = me.pid <;> by_cases isGroup : p.pgrp = me.pgrp
    · exact .inl ⟨fun _ => isGroup, fun _ => named⟩
    · right
      rw [if_pos named, if_neg isGroup] at same
      exact same
    · right
      rw [if_neg named, if_pos isGroup] at same
      exact same.symm
    · exact .inl ⟨fun isNamed => absurd isNamed named,
        fun inGroup => absurd inGroup isGroup⟩
  · intro right
    refine ⟨?_, fun _ => rfl, fun denied => absurd allowed denied⟩
    show System.mk _ _ _ _ _ _ = System.mk _ _ _ _ _ _
    congr 1
    funext nr
    split <;> rename_i inTable
    · cases isTask : system.task nr with
      | none => rfl
      | some p =>
          have either := right.group rfl nr p ⟨inTable, isTask⟩
          simp only [Option.map_some, selects_zero, maySend, beq_self_eq_true,
            Bool.true_or, Bool.and_true, beq_iff_eq, Option.some.injEq]
          rcases either with same | already
          · simp [same]
          · simp [already]
    · rfl

theorem sysKill_all (isSig : 1 ≤ sig ∧ sig ≤ 32) :
    sysKill me (-1) sig system =
      (lastError (fun nr =>
        sendError me (fun _ => true) false (system.task nr)) (nrTasks - 1) 0,
        { system with
          task := fun nr =>
            if 1 ≤ nr ∧ nr ≤ nrTasks - 1 then
              (system.task nr).map fun p =>
                if maySend me false p then raise sig.toNat p else p
            else system.task nr }) := by
  unfold sysKill
  dsimp only
  rw [if_neg (by decide), if_neg (by decide), if_pos rfl, killLoop_eq isSig]
  refine Prod.ext rfl ?_
  show System.mk _ _ _ _ _ _ = System.mk _ _ _ _ _ _
  congr 1

/-- Where everybody is chosen, an empty slot is an error. -/
theorem sendError_empty :
    sendError me (fun _ => true) false none = einval := rfl

theorem sendError_task (p : TaskStruct) :
    sendError me (fun _ => true) false (some p) =
      if maySend me false p then 0 else eperm := rfl

theorem sysKill_all_exact (isSig : 1 ≤ sig ∧ sig ≤ 32) :
    KillsTargets me (-1) sig system (sysKill me (-1) sig system) ↔
      TakenRight me (-1) sig system := by
  have allAllowed : AllAllowed me (-1) system ↔
      ∀ nr p, InSlot system nr p → maySend me false p = true := by
    constructor
    · exact fun allowed nr p inSlot => allowed nr p inSlot (selects_all p)
    · exact fun allowed nr p inSlot _ => allowed nr p inSlot
  rw [sysKill_all isSig]
  constructor
  · intro targets
    refine ⟨nofun, fun _ => ?_⟩
    by_cases allowed : AllAllowed me (-1) system
    · left
      intro nr atLeast inside isEmpty
      have result := targets.granted allowed
      obtain ⟨_, none⟩ | ⟨other, otherLeast, otherInside, isError, _, same⟩ :=
        lastError_cases (fun nr =>
          sendError me (fun _ => true) false (system.task nr)) (nrTasks - 1)
      · have noError := none nr atLeast inside
        simp only [isEmpty, sendError_empty] at noError
        cases noError
      · exact isError (same.symm.trans result)
    · right
      have result := targets.denied allowed
      obtain ⟨same, _⟩ | ⟨nr, atLeast, inside, _, lowest, same⟩ :=
        lastError_cases (fun nr =>
          sendError me (fun _ => true) false (system.task nr)) (nrTasks - 1)
      · cases result.symm.trans same
      · have isDenied := same.symm.trans result
        cases isTask : system.task nr with
        | none =>
            simp only [isTask, sendError_empty] at isDenied
            cases isDenied
        | some p =>
            simp only [isTask, sendError_task] at isDenied
            refine ⟨nr, p, ⟨⟨atLeast, inside⟩, isTask⟩, ?_, ?_⟩
            · by_contra may
              simp only [Bool.not_eq_false] at may
              simp only [may, if_true] at isDenied
              cases isDenied
            · intro below isLeast isBelow isEmpty
              have noError := lowest below isLeast isBelow
              simp only [isEmpty, sendError_empty] at noError
              cases noError
  · intro right
    refine ⟨?_, ?_, ?_⟩
    · show System.mk _ _ _ _ _ _ = System.mk _ _ _ _ _ _
      congr 1
    · intro allowed
      apply lastError_none
      intro nr atLeast inside
      cases isTask : system.task nr with
      | none =>
          exfalso
          obtain noneEmpty | ⟨other, p, inSlot, denied, _⟩ := right.everybody rfl
          · exact noneEmpty nr atLeast inside isTask
          · rw [allAllowed.mp allowed other p inSlot] at denied
            cases denied
      | some p =>
          exact if_pos (allAllowed.mp allowed nr p ⟨⟨atLeast, inside⟩, isTask⟩)
    · intro notAllowed
      obtain ⟨_, none⟩ | ⟨nr, atLeast, inside, isError, lowest, same⟩ :=
        lastError_cases (fun nr =>
          sendError me (fun _ => true) false (system.task nr)) (nrTasks - 1)
      · refine absurd (allAllowed.mpr ?_) notAllowed
        intro nr p inSlot
        have noError := none nr inSlot.inTable.1 inSlot.inTable.2
        simp only [inSlot.isTask, sendError_task] at noError
        by_contra may
        rw [if_neg may] at noError
        cases noError
      · show lastError _ _ _ = eperm
        rw [same]
        cases isTask : system.task nr with
        | some p =>
            simp only [isTask, sendError_task] at isError ⊢
            split at isError
            · exact absurd rfl isError
            · rename_i denied
              exact if_neg denied
        | none =>
            -- the empty slot would have to come after one that is denied
            exfalso
            obtain noneEmpty | ⟨other, p, inSlot, denied, before⟩ :=
              right.everybody rfl
            · exact noneEmpty nr atLeast inside isTask
            · rcases Nat.lt_trichotomy nr other with isBelow | here | above
              · exact before nr atLeast isBelow isTask
              · rw [here, inSlot.isTask] at isTask
                cases isTask
              · have noError := lowest other inSlot.inTable.1 above
                simp only [inSlot.isTask, sendError_task, denied,
                  Bool.false_eq_true, if_false] at noError
                cases noError

/-- When `sys_kill` reaches its targets and reports truthfully. -/
theorem sysKill_exact (isSig : 1 ≤ sig ∧ sig ≤ 32) :
    KillsTargets me pid sig system (sysKill me pid sig system) ↔
      TakenRight me pid sig system := by
  by_cases isZero : pid = 0
  · subst isZero
    exact sysKill_zero_exact isSig
  by_cases isAll : pid = -1
  · subst isAll
    exact sysKill_all_exact isSig
  · have right : TakenRight me pid sig system :=
      ⟨fun same => absurd same isZero, fun same => absurd same isAll⟩
    have noPriv : (pid == 0) = false := beq_false_of_ne isZero
    refine ⟨fun _ => right, fun _ => ?_⟩
    unfold sysKill
    dsimp only
    rw [if_neg isZero]
    split <;> rename_i isPid
    · rw [← noPriv]
      apply killLoop_targets isSig rfl
      intro nr p _
      simp [selects, isPid]
    · rw [← noPriv]
      apply killLoop_targets isSig rfl
      intro nr p _
      simp [selects, isPid, isZero, isAll]

end Exact

/-- Process 5 of user `euid`, in the group of process 3. -/
def member (euid : UInt16) : TaskStruct :=
  { initTask 6 with
    pid := 5
    pgrp := 3
    euid := euid }

/-- A table with that process in slot 2, and its group leader in slot 1. -/
def groupOfThree (euid : UInt16) : System where
  memory := ⟨fun _ => 0, 0, fun _ _ => 0⟩
  task := fun nr =>
    if nr = 1 then some { member 0 with pid := 3 }
    else if nr = 2 then some (member euid)
    else none
  lastPid := 5
  jiffies := 0
  fileTable := fun _ => ⟨0, 0, 0, none, 0⟩
  iCount := fun _ => 0

/-- A signal to the group of the caller does not reach the leader, and one to
everybody returns `-EINVAL` although nobody is denied. -/
theorem sysKill_untruthful :
    ¬KillsTargets (member 0) 0 15 (groupOfThree 0)
        (sysKill (member 0) 0 15 (groupOfThree 0)) ∧
      ¬KillsTargets (member 0) (-1) 15 (groupOfThree 0)
        (sysKill (member 0) (-1) 15 (groupOfThree 0)) := by
  have leader : InSlot (groupOfThree 0) 1 { member 0 with pid := 3 } :=
    ⟨by decide, rfl⟩
  constructor
  · rw [sysKill_zero_exact (by decide)]
    intro right
    obtain same | already := right.group rfl 1 _ leader
    · exact absurd (same.mpr rfl) (by decide)
    · exact absurd (congrArg TaskStruct.signal already) (by decide)
  · rw [sysKill_all_exact (by decide)]
    intro right
    obtain noneEmpty | ⟨nr, p, inSlot, denied, _⟩ := right.everybody rfl
    · exact noneEmpty 3 (by decide) (by decide) rfl
    · have may : maySend (member 0) false p = true := by
        unfold maySend
        exact Bool.or_eq_true_iff.mpr (.inr rfl)
      rw [may] at denied
      cases denied

/-- User 7 sends a signal to everybody: process 5 gets it, the leader of its
group, which belongs to the superuser, does not. -/
theorem sysKill_exact_denied :
    (sysKill (member 7) (-1) 15 (groupOfThree 7)).1 = eperm ∧
      KillsTargets (member 7) (-1) 15 (groupOfThree 7)
        (sysKill (member 7) (-1) 15 (groupOfThree 7)) := by
  have right : TakenRight (member 7) (-1) 15 (groupOfThree 7) := by
    refine ⟨nofun, fun _ => .inr ⟨1, { member 0 with pid := 3 }, ⟨by decide, rfl⟩,
      rfl, ?_⟩⟩
    intro below atLeast isBelow
    omega
  have targets := (sysKill_exact (by decide)).mpr right
  refine ⟨targets.denied fun allowed => ?_, targets⟩
  have may := allowed 1 { member 0 with pid := 3 } ⟨by decide, rfl⟩ rfl
  cases may

end Linux011.Proc

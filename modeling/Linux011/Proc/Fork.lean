import Mathlib.Data.Finset.Card
import Linux011.Proc.TaskStruct

/-!
# Fork

`find_empty_process`, `copy_mem` and `copy_process`.  None of them sleeps, so
the states in between are seen by nobody.
-/

namespace Linux011.Proc

open Linux011.Mm Linux011.Sched

/-- `if ((++last_pid) < 0) last_pid = 1;` -/
def bumpPid (lastPid : Int) : Int :=
  if long (lastPid + 1) < 0 then 1 else long (lastPid + 1)

/-- The first loop of `find_empty_process` meets the pid. -/
def pidInUse (task : Nat → Option TaskStruct) (pid : Int) : Bool :=
  (List.range nrTasks).any fun nr =>
    match task nr with
    | none => false
    | some p => p.pid == pid

/-- `repeat:` of `find_empty_process`, at most `rounds` times. -/
def nextPid (task : Nat → Option TaskStruct) : Nat → Int → Option Int
  | 0, _ => none
  | rounds + 1, lastPid =>
      if pidInUse task (bumpPid lastPid) then
        nextPid task rounds (bumpPid lastPid)
      else some (bumpPid lastPid)

/-- The second loop of `find_empty_process`: the first free slot from 1 on. -/
def emptySlot (task : Nat → Option TaskStruct) : Option Nat :=
  (List.range nrTasks).find? fun nr => nr ≠ 0 ∧ (task nr).isNone

/-- `find_empty_process`; `none` is its `-EAGAIN`.  Among 65 consecutive pids
one is free. -/
def findEmptyProcess (system : System) : Option (Option Nat × System) :=
  match nextPid system.task (nrTasks + 1) system.lastPid with
  | none => none
  | some pid => some (emptySlot system.task, { system with lastPid := pid })

/-! ## A pid is always found -/

/-- The pids that `find_empty_process` tries. -/
def triedPid (lastPid : Int) : Nat → Int
  | 0 => bumpPid lastPid
  | rounds + 1 => bumpPid (triedPid lastPid rounds)

theorem bumpPid_range (lastPid : Int) :
    0 ≤ bumpPid lastPid ∧ bumpPid lastPid ≤ 2147483647 := by
  have below : long (lastPid + 1) < 2147483648 :=
    Int.bmod_lt (m := 4294967296) (by decide)
  unfold bumpPid
  split <;> omega

theorem bumpPid_of_range {pid : Int} (least : 0 ≤ pid)
    (greatest : pid ≤ 2147483647) :
    bumpPid pid = if pid = 2147483647 then 1 else pid + 1 := by
  by_cases isLast : pid = 2147483647
  · subst isLast
    rfl
  · unfold bumpPid
    rw [long_of_fits (by omega) (by omega), if_neg (by omega), if_neg isLast]

theorem triedPid_succ (lastPid : Int) (rounds : Nat) :
    triedPid lastPid (rounds + 1) =
      (bumpPid lastPid + rounds) % 2147483647 + 1 := by
  obtain ⟨least, greatest⟩ := bumpPid_range lastPid
  induction rounds with
  | zero =>
      show bumpPid (bumpPid lastPid) = _
      rw [bumpPid_of_range least greatest]
      split <;> omega
  | succ rounds induction =>
      show bumpPid (triedPid lastPid (rounds + 1)) = _
      rw [induction, bumpPid_of_range (by omega) (by omega)]
      split <;> omega

theorem triedPid_injective {lastPid : Int} {i j : Nat} (first : i < 65)
    (second : j < 65) (same : triedPid lastPid i = triedPid lastPid j) :
    i = j := by
  obtain ⟨least, greatest⟩ := bumpPid_range lastPid
  have atFirst : triedPid lastPid 0 = bumpPid lastPid := rfl
  cases i with
  | zero =>
      cases j with
      | zero => rfl
      | succ j =>
          rw [atFirst, triedPid_succ] at same
          omega
  | succ i =>
      cases j with
      | zero =>
          rw [atFirst, triedPid_succ] at same
          omega
      | succ j =>
          rw [triedPid_succ, triedPid_succ] at same
          omega

theorem nextPid_none {task : Nat → Option TaskStruct} {rounds : Nat}
    {lastPid : Int} (none : nextPid task rounds lastPid = none) {tried : Nat}
    (below : tried < rounds) :
    pidInUse task (triedPid lastPid tried) = true := by
  induction rounds generalizing lastPid tried with
  | zero => omega
  | succ rounds induction =>
      unfold nextPid at none
      split at none <;> rename_i inUse
      · cases tried with
        | zero => exact inUse
        | succ tried =>
            have later (count : Nat) : triedPid lastPid (count + 1) =
                triedPid (bumpPid lastPid) count := by
              induction count with
              | zero => rfl
              | succ count step =>
                  show bumpPid (triedPid lastPid (count + 1)) = _
                  rw [step]
                  rfl
            rw [later]
            exact induction none (by omega)
      · cases none

/-- There are more pids to try than tasks that can have them. -/
theorem findEmptyProcess_isSome (system : System) :
    (findEmptyProcess system).isSome = true := by
  unfold findEmptyProcess
  cases isNext : nextPid system.task (nrTasks + 1) system.lastPid with
  | some pid => rfl
  | none =>
      have owner (tried : Nat) : ∃ nr, tried < 65 →
          nr < 64 ∧ ∃ p, system.task nr = some p ∧
            p.pid = triedPid system.lastPid tried := by
        by_cases below : tried < 65
        · have inUse : pidInUse system.task
              (triedPid system.lastPid tried) = true :=
            nextPid_none isNext below
          obtain ⟨nr, inTable, has⟩ := List.any_eq_true.mp inUse
          refine ⟨nr, fun _ => ⟨List.mem_range.mp inTable, ?_⟩⟩
          cases isTask : system.task nr with
          | none =>
              rw [isTask] at has
              cases has
          | some p =>
              rw [isTask] at has
              exact ⟨p, rfl, eq_of_beq has⟩
        · exact ⟨0, fun inRange => absurd inRange below⟩
      obtain ⟨slot, has⟩ := Classical.axiomOfChoice owner
      obtain ⟨i, isFirst, j, isSecond, different, same⟩ :=
        Finset.exists_ne_map_eq_of_card_lt_of_maps_to
          (s := Finset.range 65) (t := Finset.range 64) (f := slot)
          (by rw [Finset.card_range, Finset.card_range]; decide)
          (fun tried inRange => Finset.mem_range.mpr
            (has tried (Finset.mem_range.mp inRange)).1)
      obtain ⟨_, p, isTask, pid⟩ := has i (Finset.mem_range.mp isFirst)
      obtain ⟨_, q, isOther, otherPid⟩ := has j (Finset.mem_range.mp isSecond)
      rw [same, isOther, Option.some.injEq] at isTask
      subst isTask
      exact absurd (triedPid_injective (Finset.mem_range.mp isFirst)
        (Finset.mem_range.mp isSecond) (pid.symm.trans otherPid)) different

/-- What `copy_mem` stores in the new structure. -/
def setBase (newBase : Nat) (p : TaskStruct) : TaskStruct :=
  { p with
    startCode := newBase
    codeSegment := { p.codeSegment with base := newBase }
    dataSegment := { p.dataSegment with base := newBase } }

/-- `copy_mem`, `parent` being `current`; the flag is false for `-ENOMEM`. -/
def copyMem (nr : Nat) (parent p : TaskStruct) (memory : Mm.State) :
    Except Fault (Bool × TaskStruct × Mm.State) :=
  let codeLimit := parent.codeSegment.limit
  let dataLimit := parent.dataSegment.limit
  let oldCodeBase := parent.codeSegment.base
  let oldDataBase := parent.dataSegment.base
  if oldDataBase ≠ oldCodeBase then
    .error (.panic "We don't support separate I&D")
  else if dataLimit < codeLimit then .error (.panic "Bad data_limit")
  else do
    let newBase := windowBase nr
    let p := setBase newBase p
    let (copied, memory) ← copyPageTables oldDataBase newBase dataLimit memory
    if copied then return (true, p, memory)
    else
      let memory ← freePageTables newBase dataLimit memory
      return (false, p, memory)

/-- `x & 0xffff`. -/
def low16 (value : Word) : Word := value &&& 0xffff#32

/-- The structure `copy_process` fills in before `copy_mem`. -/
def newTask (nr page : Nat) (parent : TaskStruct) (registers : Registers)
    (system : System) : TaskStruct :=
  { parent with
    page := page
    state := .uninterruptible
    pid := system.lastPid
    father := parent.pid
    counter := parent.priority
    signal := 0
    alarm := 0
    leader := false
    utime := 0
    stime := 0
    cutime := 0
    cstime := 0
    startTime := system.jiffies
    tss :=
      { parent.tss with
        backLink := 0
        esp0 := BitVec.ofNat 32 (4096 + page * 4096)
        ss0 := 0x10
        eax := 0
        ldt := ldtSelector nr
        traceBitmap := 0x80000000#32
        registers :=
          { registers with
            es := low16 registers.es
            cs := low16 registers.cs
            ss := low16 registers.ss
            ds := low16 registers.ds
            fs := low16 registers.fs
            gs := low16 registers.gs } } }

/-- `f->f_count++` for a slot of `filp`. -/
def holdFile (slot : Option (Fin 64)) (fileTable : Fin 64 → File) :
    Fin 64 → File :=
  match slot with
  | none => fileTable
  | some f => fun other =>
      if other = f then { fileTable f with fCount := (fileTable f).fCount + 1 }
      else fileTable other

/-- The loop over the `filp` of the new task. -/
def holdFiles (filp : Fin 20 → Option (Fin 64)) (fileTable : Fin 64 → File) :
    Fin 64 → File :=
  (List.finRange 20).foldl (fun table fd => holdFile (filp fd) table) fileTable

/-- `if (inode) inode->i_count++;` -/
def holdInode (inode : Option Nat) (iCount : Nat → UInt16) : Nat → UInt16 :=
  match inode with
  | none => iCount
  | some index => fun other =>
      if other = index then iCount index + 1 else iCount other

/-- `copy_process`, `parent` being `current`. -/
def copyProcess (nr : Nat) (parent : TaskStruct) (registers : Registers)
    (system : System) : Except Fault (Int × System) :=
  match getFreePage system.memory with
  | (none, memory) => .ok (-11, { system with memory })
  | (some page, memory) => do
      let p := newTask nr page parent registers system
      let system := { system with memory }.setTask nr (some p)
      let (copied, p, memory) ← copyMem nr parent p memory
      if copied then
        let system :=
          { system with
            memory
            fileTable := holdFiles p.filp system.fileTable
            iCount := holdInode parent.executable
              (holdInode parent.root (holdInode parent.pwd system.iCount)) }
        return (system.lastPid,
          system.setTask nr (some { p with state := .running }))
      else
        let system := system.setTask nr none
        let memory ← freePage page memory
        return (-11, { system with memory })

end Linux011.Proc

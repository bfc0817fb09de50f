import Linux011.Fs.Kernel
import Linux011.Fs.OpenFiles
import Linux011.Proc.OwnFields
import Linux011.Proc.Reaping

/-!
# Accesses to `tty_table`

The terminal of a task, from the device number of an inode to its uses:
`sys_open`, `sys_setsid`, `fork`, `do_exit`, `sys_read`, `sys_write` and
`sys_ioctl`, by any number of tasks.  `sys_open` may sleep in `open_namei`, and
`do_exit` where it gives back files; the others are one stretch.  `tty_read` and
`tty_write` read their channel once, before they sleep.
-/

namespace Linux011.Chr

open Linux011.Fs Linux011.Proc Machines

/-- Where a task is; `opening` while it is in `open_namei`. -/
inductive Stage where
  | running
  | opening (fd : Fin 20) (slot : Fin 64) (flag : BitVec 32)
  | exiting (code : Int)
  | exited

/-- `pgrp` is that of the entries of `tty_table`, `result` what the last call of
a task returned, and `accesses` are the indices that `tty_table` was accessed
at. -/
structure Terminals where
  system : System
  inode : Nat → FileInode
  stage : Nat → Stage
  result : Nat → Int
  pgrp : Int → Int
  accesses : List Int

namespace Terminals

def setTask (nr : Nat) (p : TaskStruct) (state : Terminals) : Terminals :=
  { state with system := state.system.setTask nr (some p) }

def setFile (slot : Fin 64) (change : Proc.File → Proc.File)
    (state : Terminals) : Terminals :=
  { state with
    system :=
      { state.system with
        fileTable := fun other =>
          if other = slot then change (state.system.fileTable slot)
          else state.system.fileTable other } }

def setStage (nr : Nat) (stage : Stage) (state : Terminals) : Terminals :=
  { state with
    stage := fun other => if other = nr then stage else state.stage other }

/-- The call of a task returns. -/
def returns (nr : Nat) (value : Int) (state : Terminals) : Terminals :=
  { state.setStage nr .running with
    result := fun other => if other = nr then value else state.result other }

def access (index : Int) (state : Terminals) : Terminals :=
  { state with accesses := index :: state.accesses }

/-- `tty_table[index].pgrp = value`. -/
def setPgrp (index value : Int) (state : Terminals) : Terminals :=
  { state.access index with
    pgrp := fun other => if other = index then value else state.pgrp other }

end Terminals

/-! ## The calls -/

/-- `sys_open` up to `open_namei`. -/
def sysOpen (nr : Nat) (flag : BitVec 32) (p : TaskStruct)
    (state : Terminals) : Terminals :=
  match (List.finRange 20).find? fun fd => (p.filp fd).isNone with
  | none => state.returns nr (-22)
  | some fd =>
      let p := { p with closeOnExec := p.closeOnExec &&& ~~~ (1#32 <<< fd.val) }
      match (List.finRange 64).find? fun slot =>
          (state.system.fileTable slot).fCount = 0 with
      | none => (state.setTask nr p).returns nr (-22)
      | some slot =>
          let p :=
            { p with
              filp := fun other =>
                if other = fd then some slot else p.filp other }
          ((state.setTask nr p).setFile slot fun f =>
            { f with fCount := f.fCount + 1 }).setStage nr
              (.opening fd slot flag)

/-- The descriptor and the file are free again. -/
def openFails (nr : Nat) (fd : Fin 20) (slot : Fin 64) (errno : Int)
    (p : TaskStruct) (state : Terminals) : Terminals :=
  let p :=
    { p with filp := fun other => if other = fd then none else p.filp other }
  ((state.setTask nr p).setFile slot fun f => { f with fCount := 0 }).returns
    nr (-errno)

/-- A leader without a terminal gets the one it opens. -/
def takesTty (p : TaskStruct) (inode : FileInode) : Bool :=
  inode.isChr && major inode.iZone0.toNat == 4 && p.leader && p.tty < 0

/-- `sys_open` after `open_namei`, which has found an inode or fails.  The
counts of inodes and the check for another floppy are left to the rest of the
kernel. -/
def sysOpened (nr : Nat) (fd : Fin 20) (slot : Fin 64) (flag : BitVec 32)
    (found : Except Int Nat) (p : TaskStruct) (state : Terminals) :
    Terminals :=
  match found with
  | .error errno => openFails nr fd slot errno p state
  | .ok index =>
      let inode := state.inode index
      if inode.isChr ∧ major inode.iZone0.toNat = 5 ∧ p.tty < 0 then
        openFails nr fd slot 1 p state
      else
        let state :=
          if takesTty p inode then
            (state.setTask nr
              { p with tty := minor inode.iZone0.toNat }).setPgrp
                (minor inode.iZone0.toNat) p.pgrp
          else state
        (state.setFile slot fun _ =>
          { fMode := inode.iMode
            fFlags := flag.setWidth 16
            fCount := 1
            fInode := some index
            fPos := 0 }).returns nr fd.val

def sysSetsid (nr : Nat) (p : TaskStruct) (state : Terminals) : Terminals :=
  if p.leader ∧ p.euid ≠ 0 then state.returns nr (-1)
  else
    (state.setTask nr
      { p with
        leader := true
        session := p.pid
        pgrp := p.pid
        tty := -1 }).returns nr p.pid

/-- `sys_fork`. -/
def sysFork (nr : Nat) (registers : Registers) (p : TaskStruct)
    (state : Terminals) : Option Terminals :=
  match findEmptyProcess state.system with
  | none => none
  | some (none, system) => some ({ state with system }.returns nr (-11))
  | some (some slot, system) =>
      match copyProcess slot p registers system with
      | .error _ => none
      | .ok (value, system) =>
          some (({ state with system }.setStage slot .running).returns nr
            value)

/-- `do_exit` once the files have been given back. -/
def exitEnds (nr : Nat) (code : Int) (p : TaskStruct) (state : Terminals) :
    Option Terminals :=
  let state :=
    if p.leader ∧ p.tty ≥ 0 then state.setPgrp p.tty 0 else state
  match doExitEnd nr p code state.system with
  | .error _ => none
  | .ok (_, system) => some ({ state with system }.setStage nr .exited)

/-- How far a call gets by itself: it returns, goes on with an entry of
`tty_table`, or goes on without. -/
inductive Reached where
  | returns (value : Int)
  | terminal (index : Int)
  | elsewhere

/-- The check of `tty_read` and of `tty_write`. -/
def rwTtyx (channel : Nat) (nr : Int) : Reached :=
  if channel > 2 ∨ nr < 0 then .returns (-1) else .terminal channel

def rwTty (tty count : Int) : Reached :=
  if tty < 0 then .returns (-1) else rwTtyx tty.toNat count

/-- `rw_char` through `crw_table`. -/
def rwChar (tty : Int) (dev : Nat) (count : Int) : Reached :=
  if major dev ≥ 8 then .returns (-19)
  else if major dev = 1 then .elsewhere
  else if major dev = 4 then rwTtyx (minor dev) count
  else if major dev = 5 then rwTty tty count
  else .returns (-19)

/-- The file of a descriptor and its inode; every open file has one. -/
def Terminals.fileOf (fd : Nat) (p : TaskStruct) (state : Terminals) :
    Option (Proc.File × FileInode) := do
  let fd ← Descriptors.slotOf fd
  let slot ← p.filp fd
  let file := state.system.fileTable slot
  let index ← file.fInode
  return (file, state.inode index)

/-- `sys_read` and `sys_write`; `bit` is that of the file's mode, and `stored`
says which inodes have bytes of their own. -/
def rwFile (bit : BitVec 16) (stored : FileInode → Bool) (fd : Nat)
    (count : Int) (p : TaskStruct) (state : Terminals) : Reached :=
  if count < 0 then .returns (-22)
  else
    match state.fileOf fd p with
    | none => .returns (-22)
    | some (file, inode) =>
        if count = 0 then .returns 0
        else if inode.iPipe then
          if file.fMode &&& bit ≠ 0 then .elsewhere else .returns (-5)
        else if inode.isChr then rwChar p.tty inode.iZone0.toNat count
        else if stored inode then .elsewhere
        else .returns (-22)

def sysRead (fd : Nat) (count : Int) (p : TaskStruct) (state : Terminals) :
    Reached :=
  rwFile 1 (fun inode => inode.isBlk || inode.isDir || inode.isReg) fd count p
    state

def sysWrite (fd : Nat) (count : Int) (p : TaskStruct) (state : Terminals) :
    Reached :=
  rwFile 2 (fun inode => inode.isBlk || inode.isReg) fd count p state

/-- The commands of `tty_ioctl` that use the entry: `TCGETS` to `TCSETAF`,
`TCFLSH`, `TIOCGPGRP`, `TIOCSPGRP`, `TIOCOUTQ` and `TIOCINQ`.  `TCSBRK` only
hands it on to functions that do nothing. -/
def usesTty (cmd arg : BitVec 32) : Bool :=
  (0x5401 ≤ cmd && cmd ≤ 0x5408) || (cmd == 0x540B && arg ≤ 2) ||
    cmd == 0x540F || cmd == 0x5410 || cmd == 0x5411 || cmd == 0x541B

def tiocspgrp : BitVec 32 := 0x5410

/-- `tty_ioctl`; `none` is its panic. -/
def ttyIoctl (tty : Int) (dev : Nat) (cmd arg : BitVec 32) : Option Reached :=
  if major dev = 5 ∧ tty < 0 then none
  else
    let index : Int := if major dev = 5 then tty else minor dev
    if usesTty cmd arg then some (.terminal index)
    else if cmd = 0x5409 then some (.returns 0)
    else some (.returns (-22))

/-- `sys_ioctl` through `ioctl_table`. -/
def sysIoctl (fd : Nat) (cmd arg : BitVec 32) (p : TaskStruct)
    (state : Terminals) : Option Reached :=
  match state.fileOf fd p with
  | none => some (.returns (-9))
  | some (_, inode) =>
      let dev := inode.iZone0.toNat
      if !inode.isChr && !inode.isBlk then some (.returns (-22))
      else if major dev ≥ 8 then some (.returns (-19))
      else if major dev = 4 ∨ major dev = 5 then ttyIoctl p.tty dev cmd arg
      else some (.returns (-25))

/-! ## Runs -/

/-- A task that can make a call. -/
def Terminals.caller (nr : Nat) (state : Terminals) : Option TaskStruct :=
  match state.stage nr with
  | .running => state.system.task nr
  | _ => none

/-- The rest of a call, which returns `value` where it does not return by
itself. -/
def Terminals.reach (nr : Nat) (value : Int) (reached : Reached)
    (state : Terminals) : Terminals :=
  match reached with
  | .returns value => state.returns nr value
  | .terminal index => (state.access index).returns nr value
  | .elsewhere => state.returns nr value

/-- What the rest of the kernel may do to a task: take it out of the table, or
anything but to its terminal. -/
def keepTty (change : TaskStruct → Option TaskStruct) (p : TaskStruct) :
    Option TaskStruct :=
  (change p).map fun q => { q with tty := p.tty }

inductive TerminalCall where
  | openBegins (nr : Nat) (flag : BitVec 32)
  /-- `sys_open` goes on after `open_namei`. -/
  | openEnds (nr : Nat) (found : Except Int Nat)
  | setsid (nr : Nat)
  | fork (nr : Nat) (registers : Registers)
  | exitBegins (nr : Nat) (code : Int)
  /-- `do_exit` goes on after its files. -/
  | exitEnds (nr : Nat)
  | read (nr fd : Nat) (count value : Int)
  | write (nr fd : Nat) (count value : Int)
  /-- `given` is the long at `arg`. -/
  | ioctl (nr fd : Nat) (cmd arg : BitVec 32) (given value : Int)
  | elsewhere (memory : Mm.State) (fileTable : Fin 64 → Proc.File)
      (iCount : Nat → UInt16) (jiffies : Int) (inode : Nat → FileInode)
      (change : Nat → TaskStruct → Option TaskStruct)

def terminals : Machine Terminals TerminalCall where
  step state
    | .openBegins nr flag => do
        let p ← state.caller nr
        return sysOpen nr flag p state
    | .openEnds nr found =>
        match state.stage nr, state.system.task nr with
        | .opening fd slot flag, some p =>
            some (sysOpened nr fd slot flag found p state)
        | _, _ => none
    | .setsid nr => do
        let p ← state.caller nr
        return sysSetsid nr p state
    | .fork nr registers => do
        let p ← state.caller nr
        sysFork nr registers p state
    | .exitBegins nr code => do
        let p ← state.caller nr
        match doExitBegin p state.system with
        | .error _ => none
        | .ok system =>
            return { state with system }.setStage nr (.exiting code)
    | .exitEnds nr =>
        match state.stage nr, state.system.task nr with
        | .exiting code, some p => exitEnds nr code p state
        | _, _ => none
    | .read nr fd count value => do
        let p ← state.caller nr
        return state.reach nr value (sysRead fd count p state)
    | .write nr fd count value => do
        let p ← state.caller nr
        return state.reach nr value (sysWrite fd count p state)
    | .ioctl nr fd cmd arg given value => do
        let p ← state.caller nr
        match ← sysIoctl fd cmd arg p state with
        | .terminal index =>
            if cmd = tiocspgrp then
              return (state.setPgrp index given).returns nr 0
            else return state.reach nr value (.terminal index)
        | reached => return state.reach nr value reached
    | .elsewhere memory fileTable iCount jiffies inode change =>
        some { state with
          inode
          system :=
            { state.system with
              memory, fileTable, iCount, jiffies
              task := fun nr =>
                (state.system.task nr).bind (keepTty (change nr)) } }

/-- The first task alone; nothing has been accessed. -/
def firstTerminals (system : System) (page : Nat) (inode : Nat → FileInode) :
    Terminals where
  system :=
    { system with
      task := fun nr => if nr = 0 then some (initTask page) else none
      lastPid := 0 }
  inode := inode
  stage := fun _ => .running
  result := fun _ => 0
  pgrp := fun _ => 0
  accesses := []

/-! ## What is in range -/

/-- No terminal, or one that `tty_table` has. -/
def Listed (tty : Int) : Prop := tty = -1 ∨ 0 ≤ tty ∧ tty ≤ 2

/-- Every access was to one of the three entries, and every task has one of
them or none. -/
structure InTable (accesses : List Int) (task : Nat → Option TaskStruct) :
    Prop where
  accesses : ∀ index ∈ accesses, 0 ≤ index ∧ index ≤ 2
  ttys : ∀ nr p, task nr = some p → Listed p.tty

/-- The device number that `sys_ioctl` takes an entry from. -/
def Terminals.ioctlMinor (fd : Nat) (cmd arg : BitVec 32) (p : TaskStruct)
    (state : Terminals) : Option Nat :=
  match state.fileOf fd p with
  | none => none
  | some (_, inode) =>
      if (inode.isChr || inode.isBlk) && major inode.iZone0.toNat == 4 &&
          usesTty cmd arg then some (minor inode.iZone0.toNat)
      else none

/-- Where `sys_open` or `sys_ioctl` takes an entry from a device number, there
is such an entry. -/
def addressed (state : Terminals) : TerminalCall → Bool
  | .openEnds nr (.ok index) =>
      match state.system.task nr with
      | some p =>
          !takesTty p (state.inode index) ||
            minor (state.inode index).iZone0.toNat ≤ 2
      | none => true
  | .ioctl nr fd cmd arg _ _ =>
      match (state.caller nr).bind fun p => state.ioctlMinor fd cmd arg p with
      | some index => index ≤ 2
      | none => true
  | _ => true

section Invariant

variable {accesses : List Int} {system next : System} {nr : Nat}

theorem InTable.keeps (inTable : InTable accesses system.task)
    (kept : KeepsField TaskStruct.tty system next) :
    InTable accesses next.task where
  accesses := inTable.accesses
  ttys := by
    intro nr p isTask
    obtain ⟨q, isOld, same⟩ := kept.tasks nr p isTask
    rw [← same]
    exact inTable.ttys nr q isOld

theorem InTable.setTask (inTable : InTable accesses system.task)
    {p : TaskStruct} (listed : Listed p.tty) :
    InTable accesses (system.setTask nr (some p)).task where
  accesses := inTable.accesses
  ttys := by
    intro other q isTask
    by_cases same : other = nr
    · rw [same, System.setTask_same, Option.some.injEq] at isTask
      rw [← isTask]
      exact listed
    · rw [System.setTask_other same] at isTask
      exact inTable.ttys other q isTask

theorem InTable.access {task : Nat → Option TaskStruct} {index : Int}
    (inTable : InTable accesses task) (least : 0 ≤ index)
    (greatest : index ≤ 2) : InTable (index :: accesses) task where
  accesses := List.forall_mem_cons.mpr ⟨⟨least, greatest⟩, inTable.accesses⟩
  ttys := inTable.ttys

theorem InTable.of_access {task : Nat → Option TaskStruct} {index : Int}
    (inTable : InTable (index :: accesses) task) : index ≤ 2 :=
  (inTable.accesses index List.mem_cons_self).2

/-- `copy_process` gives a task the terminal of its parent. -/
theorem copyProcess_tasks {parent : TaskStruct} {registers : Registers}
    {value : Int}
    (ran : copyProcess nr parent registers system = .ok (value, next))
    {other : Nat} {p : TaskStruct} (isTask : next.task other = some p) :
    system.task other = some p ∨ p.tty = parent.tty := by
  unfold copyProcess at ran
  split at ran
  · cases ran
    exact .inl isTask
  · rename_i page memory found
    obtain ⟨⟨copied, made, final⟩, copy, rest⟩ := of_bind_ok ran
    have madeTty : made.tty = parent.tty := by
      unfold copyMem at copy
      dsimp only at copy
      split at copy
      · cases copy
      split at copy
      · cases copy
      obtain ⟨⟨done, middle⟩, _, last⟩ := of_bind_ok copy
      cases done with
      | true =>
          cases last
          rfl
      | false =>
          obtain ⟨freed, _, back⟩ := of_bind_ok last
          cases back
          rfl
    cases copied with
    | true =>
        cases rest
        by_cases isNew : other = nr
        · rw [isNew, System.setTask_same, Option.some.injEq] at isTask
          rw [← isTask]
          exact .inr madeTty
        · rw [System.setTask_other isNew] at isTask
          exact .inl ((System.setTask_other isNew).symm.trans isTask)
    | false =>
        obtain ⟨freed, _, last⟩ := of_bind_ok rest
        cases last
        by_cases isNew : other = nr
        · rw [isNew] at isTask
          cases (System.setTask_same _ nr none).symm.trans isTask
        · have isOld := (System.setTask_other isNew).symm.trans isTask
          exact .inl ((System.setTask_other isNew).symm.trans isOld)

end Invariant

section Calls

variable {state next : Terminals} {nr : Nat} {p : TaskStruct}

theorem sysOpen_inTable (inTable : InTable state.accesses state.system.task)
    (isTask : state.system.task nr = some p) (flag : BitVec 32) :
    InTable (sysOpen nr flag p state).accesses
      (sysOpen nr flag p state).system.task := by
  have listed := inTable.ttys nr p isTask
  unfold sysOpen
  split
  · exact inTable
  · dsimp only
    split
    · exact inTable.setTask listed
    · exact inTable.setTask listed

/-- The condition on `sys_open` is exact. -/
theorem sysOpened_inTable (inTable : InTable state.accesses state.system.task)
    (isTask : state.system.task nr = some p) (fd : Fin 20) (slot : Fin 64)
    (flag : BitVec 32) (found : Except Int Nat) :
    InTable (sysOpened nr fd slot flag found p state).accesses
        (sysOpened nr fd slot flag found p state).system.task ↔
      addressed state (.openEnds nr found) = true := by
  have listed := inTable.ttys nr p isTask
  cases found with
  | error errno => exact iff_of_true (inTable.setTask listed) rfl
  | ok index =>
      have condition : addressed state (.openEnds nr (.ok index)) =
          (!takesTty p (state.inode index) ||
            decide (minor (state.inode index).iZone0.toNat ≤ 2)) := by
        dsimp only [addressed]
        rw [isTask]
      rw [condition]
      unfold sysOpened
      dsimp only
      cases takes : takesTty p (state.inode index) with
      | false =>
          refine iff_of_true ?_ rfl
          split
          · exact inTable.setTask listed
          · exact inTable
      | true =>
          have isTtyx : major (state.inode index).iZone0.toNat = 4 := by
            simp only [takesTty, Bool.and_eq_true, beq_iff_eq] at takes
            exact takes.1.1.2
          rw [if_neg (by omega), if_pos rfl]
          constructor
          · intro kept
            have small := kept.of_access
            simpa using Int.ofNat_le.mp small
          · intro small
            have small : minor (state.inode index).iZone0.toNat ≤ 2 := by
              simpa using small
            have given : Listed (minor (state.inode index).iZone0.toNat) :=
              .inr ⟨Int.natCast_nonneg _, Int.ofNat_le.mpr small⟩
            have stored : InTable state.accesses (state.setTask nr
                { p with tty := minor (state.inode index).iZone0.toNat
                  }).system.task := inTable.setTask given
            exact stored.access (Int.natCast_nonneg _)
              (Int.ofNat_le.mpr small)

theorem sysSetsid_inTable
    (inTable : InTable state.accesses state.system.task) :
    InTable (sysSetsid nr p state).accesses
      (sysSetsid nr p state).system.task := by
  unfold sysSetsid
  split
  · exact inTable
  · exact inTable.setTask (.inl rfl)

theorem sysFork_inTable (inTable : InTable state.accesses state.system.task)
    (isTask : state.system.task nr = some p) {registers : Registers}
    (ran : sysFork nr registers p state = some next) :
    InTable next.accesses next.system.task := by
  unfold sysFork at ran
  split at ran
  · cases ran
  · rename_i system found
    have same := (findEmptyProcess_spec found).1
    have task : system.task = state.system.task := by rw [same]
    cases ran
    show InTable state.accesses system.task
    rw [task]
    exact inTable
  · rename_i slot system found
    have same := (findEmptyProcess_spec found).1
    split at ran
    · cases ran
    · rename_i value made copied
      cases ran
      refine ⟨inTable.accesses, ?_⟩
      intro other q isNew
      rcases copyProcess_tasks copied isNew with isOld | inherited
      · rw [same] at isOld
        exact inTable.ttys other q isOld
      · rw [inherited]
        exact inTable.ttys nr p isTask

theorem exitEnds_inTable (inTable : InTable state.accesses state.system.task)
    (isTask : state.system.task nr = some p) {code : Int}
    (ran : exitEnds nr code p state = some next) :
    InTable next.accesses next.system.task := by
  have cleared : InTable
      (if p.leader = true ∧ p.tty ≥ 0 then state.setPgrp p.tty 0
        else state).accesses
      (if p.leader = true ∧ p.tty ≥ 0 then state.setPgrp p.tty 0
        else state).system.task := by
    split
    · rename_i isLeader
      rcases inTable.ttys nr p isTask with none | ⟨least, greatest⟩
      · omega
      · exact inTable.access least greatest
    · exact inTable
  unfold exitEnds at ran
  dsimp only at ran
  split at ran
  · cases ran
  · rename_i found system ended
    cases ran
    exact cleared.keeps (own_tty.doExitEnd ended)

/-! `tty_read` and `tty_write` check their channel. -/

theorem rwTtyx_terminal {channel : Nat} {count index : Int}
    (reached : rwTtyx channel count = .terminal index) :
    0 ≤ index ∧ index ≤ 2 := by
  unfold rwTtyx at reached
  split at reached
  · cases reached
  · cases reached
    omega

theorem rwChar_terminal {tty count index : Int} {dev : Nat}
    (reached : rwChar tty dev count = .terminal index) :
    0 ≤ index ∧ index ≤ 2 := by
  unfold rwChar at reached
  split at reached
  · cases reached
  split at reached
  · cases reached
  split at reached
  · exact rwTtyx_terminal reached
  split at reached
  · unfold rwTty at reached
    split at reached
    · cases reached
    · exact rwTtyx_terminal reached
  · cases reached

theorem rwFile_terminal {bit : BitVec 16} {stored : FileInode → Bool}
    {fd : Nat} {count index : Int}
    (reached : rwFile bit stored fd count p state = .terminal index) :
    0 ≤ index ∧ index ≤ 2 := by
  unfold rwFile at reached
  split at reached
  · cases reached
  split at reached
  · cases reached
  split at reached
  · cases reached
  split at reached
  · split at reached <;> cases reached
  split at reached
  · exact rwChar_terminal reached
  · split at reached <;> cases reached

theorem reach_inTable (inTable : InTable state.accesses state.system.task)
    {reached : Reached} (value : Int)
    (ranges : ∀ index, reached = .terminal index → 0 ≤ index ∧ index ≤ 2) :
    InTable (state.reach nr value reached).accesses
      (state.reach nr value reached).system.task := by
  cases reached with
  | returns value => exact inTable
  | elsewhere => exact inTable
  | terminal index =>
      obtain ⟨least, greatest⟩ := ranges index rfl
      exact inTable.access least greatest

theorem ttyIoctl_cases {tty : Int} {dev : Nat} {cmd arg : BitVec 32}
    {reached : Reached} (ran : ttyIoctl tty dev cmd arg = some reached) :
    usesTty cmd arg = true ∧
        (major dev = 5 ∧ 0 ≤ tty ∧ reached = .terminal tty ∨
          major dev ≠ 5 ∧ reached = .terminal (minor dev)) ∨
      usesTty cmd arg = false ∧ ∃ value, reached = .returns value := by
  unfold ttyIoctl at ran
  split at ran
  · cases ran
  · rename_i has
    dsimp only at ran
    cases uses : usesTty cmd arg with
    | true =>
        rw [uses, if_pos rfl] at ran
        cases ran
        refine .inl ⟨rfl, ?_⟩
        by_cases isTty : major dev = 5
        · rw [if_pos isTty]
          exact .inl ⟨isTty, by omega, rfl⟩
        · rw [if_neg isTty]
          exact .inr ⟨isTty, rfl⟩
    | false =>
        rw [uses, if_neg Bool.false_ne_true] at ran
        refine .inr ⟨rfl, ?_⟩
        split at ran
        · cases ran
          exact ⟨0, rfl⟩
        · cases ran
          exact ⟨-22, rfl⟩

/-- `sys_ioctl` goes on with the entry of a device number, or with that of the
task itself. -/
theorem sysIoctl_cases {fd : Nat} {cmd arg : BitVec 32} {reached : Reached}
    (ran : sysIoctl fd cmd arg p state = some reached) :
    (∃ index : Nat, state.ioctlMinor fd cmd arg p = some index ∧
        reached = .terminal index) ∨
      state.ioctlMinor fd cmd arg p = none ∧
        ((∃ value, reached = .returns value) ∨
          reached = .terminal p.tty ∧ 0 ≤ p.tty) := by
  unfold sysIoctl at ran
  unfold Terminals.ioctlMinor
  cases isFile : state.fileOf fd p with
  | none =>
      rw [isFile] at ran
      cases ran
      exact .inr ⟨rfl, .inl ⟨-9, rfl⟩⟩
  | some found =>
      obtain ⟨file, inode⟩ := found
      rw [isFile] at ran
      dsimp only at ran ⊢
      rw [← Bool.not_or] at ran
      cases isSpecial : inode.isChr || inode.isBlk with
      | false =>
          rw [isSpecial] at ran
          cases ran
          exact .inr ⟨rfl, .inl ⟨-22, rfl⟩⟩
      | true =>
          rw [isSpecial, if_neg (by decide)] at ran
          split at ran
          · rename_i large
            have notTtyx : (major inode.iZone0.toNat == 4) = false :=
              beq_false_of_ne (by omega)
            cases ran
            rw [notTtyx]
            exact .inr ⟨rfl, .inl ⟨-19, rfl⟩⟩
          split at ran
          · rcases ttyIoctl_cases ran with
              ⟨uses, ⟨isTty, has, rfl⟩ | ⟨notTty, rfl⟩⟩ | ⟨uses, returned⟩
            · have notTtyx : (major inode.iZone0.toNat == 4) = false :=
                beq_false_of_ne (by omega)
              rw [notTtyx]
              exact .inr ⟨rfl, .inr ⟨rfl, has⟩⟩
            · have isTtyx : major inode.iZone0.toNat = 4 := by omega
              rw [isTtyx, uses]
              exact .inl ⟨_, rfl, rfl⟩
            · rw [uses, Bool.and_false]
              exact .inr ⟨rfl, .inl returned⟩
          · rename_i notTty
            have notTtyx : (major inode.iZone0.toNat == 4) = false :=
              beq_false_of_ne (by omega)
            cases ran
            rw [notTtyx]
            exact .inr ⟨rfl, .inl ⟨-25, rfl⟩⟩

theorem task_of_caller (isCaller : state.caller nr = some p) :
    state.system.task nr = some p := by
  unfold Terminals.caller at isCaller
  split at isCaller
  · exact isCaller
  · cases isCaller

/-- The condition on `sys_ioctl` is exact. -/
theorem ioctl_inTable (inTable : InTable state.accesses state.system.task)
    {fd : Nat} {cmd arg : BitVec 32} {given value : Int}
    (steps : terminals.step state (.ioctl nr fd cmd arg given value) =
      some next) :
    InTable next.accesses next.system.task ↔
      addressed state (.ioctl nr fd cmd arg given value) = true := by
  simp only [terminals, Option.bind_eq_bind, Option.bind_eq_some_iff] at steps
  obtain ⟨p, isCaller, reached, ran, steps⟩ := steps
  have listed := inTable.ttys nr p (task_of_caller isCaller)
  have after (index : Int) (isTerminal : reached = .terminal index) :
      next.accesses = index :: state.accesses ∧
        next.system = state.system := by
    subst isTerminal
    dsimp only at steps
    split at steps <;> cases steps <;> exact ⟨rfl, rfl⟩
  unfold addressed
  dsimp only
  rw [isCaller, Option.bind_some]
  rcases sysIoctl_cases ran with
    ⟨index, isMinor, isTerminal⟩ | ⟨noMinor, ⟨value, rfl⟩ | ⟨isTerminal, has⟩⟩
  · obtain ⟨accesses, system⟩ := after index isTerminal
    rw [isMinor, accesses, system]
    dsimp only
    rw [decide_eq_true_eq]
    constructor
    · exact fun kept => Int.ofNat_le.mp kept.of_access
    · exact fun small =>
        inTable.access (Int.natCast_nonneg _) (Int.ofNat_le.mpr small)
  · rw [noMinor]
    cases steps
    exact iff_of_true inTable rfl
  · obtain ⟨accesses, system⟩ := after p.tty isTerminal
    rw [noMinor, accesses, system]
    refine iff_of_true ?_ rfl
    rcases listed with none | ⟨least, greatest⟩
    · omega
    · exact inTable.access least greatest

/-- One step keeps to the table exactly if it meets the condition. -/
theorem step_inTable {call : TerminalCall}
    (inTable : InTable state.accesses state.system.task)
    (steps : terminals.step state call = some next) :
    InTable next.accesses next.system.task ↔ addressed state call = true := by
  cases call with
  | openBegins nr flag =>
      obtain ⟨p, isCaller, ran⟩ := Option.bind_eq_some_iff.mp steps
      cases ran
      exact iff_of_true
        (sysOpen_inTable inTable (task_of_caller isCaller) flag) rfl
  | openEnds nr found =>
      simp only [terminals] at steps
      split at steps
      · rename_i fd slot flag p _ isTask
        cases steps
        exact sysOpened_inTable inTable isTask fd slot flag found
      · cases steps
  | setsid nr =>
      obtain ⟨p, isCaller, ran⟩ := Option.bind_eq_some_iff.mp steps
      cases ran
      exact iff_of_true (sysSetsid_inTable inTable) rfl
  | fork nr registers =>
      obtain ⟨p, isCaller, ran⟩ := Option.bind_eq_some_iff.mp steps
      exact iff_of_true
        (sysFork_inTable inTable (task_of_caller isCaller) ran) rfl
  | exitBegins nr code =>
      obtain ⟨p, isCaller, ran⟩ := Option.bind_eq_some_iff.mp steps
      split at ran
      · cases ran
      · rename_i system begun
        cases ran
        exact iff_of_true (inTable.keeps (own_tty.doExitBegin begun)) rfl
  | exitEnds nr =>
      simp only [terminals] at steps
      split at steps
      · rename_i code p _ isTask
        exact iff_of_true (exitEnds_inTable inTable isTask steps) rfl
      · cases steps
  | read nr fd count value =>
      obtain ⟨p, isCaller, ran⟩ := Option.bind_eq_some_iff.mp steps
      cases ran
      exact iff_of_true
        (reach_inTable inTable value fun _ => rwFile_terminal) rfl
  | write nr fd count value =>
      obtain ⟨p, isCaller, ran⟩ := Option.bind_eq_some_iff.mp steps
      cases ran
      exact iff_of_true
        (reach_inTable inTable value fun _ => rwFile_terminal) rfl
  | ioctl nr fd cmd arg given value => exact ioctl_inTable inTable steps
  | elsewhere memory fileTable iCount jiffies inode change =>
      cases steps
      refine iff_of_true ⟨inTable.accesses, ?_⟩ rfl
      intro nr p isTask
      obtain ⟨q, isOld, kept⟩ := Option.bind_eq_some_iff.mp isTask
      obtain ⟨r, _, rfl⟩ := Option.map_eq_some_iff.mp kept
      exact inTable.ttys nr q isOld

end Calls

theorem firstTerminals_inTable (system : System) (page : Nat)
    (inode : Nat → FileInode) :
    InTable (firstTerminals system page inode).accesses
      (firstTerminals system page inode).system.task where
  accesses := List.forall_mem_nil _
  ttys := by
    intro nr p isTask
    by_cases isFirst : nr = 0
    · have only : some (initTask page) = some p :=
        (if_pos isFirst).symm.trans isTask
      cases only
      exact .inl rfl
    · have nobody : none = some p := (if_neg isFirst).symm.trans isTask
      cases nobody

/-- In every run whose steps meet the condition. -/
theorem terminals_inTable {system : System} {page : Nat}
    {inode : Nat → FileInode} {state : Terminals}
    (reached : terminals.Reachable
      (fun state call => addressed state call = true)
      (firstTerminals system page inode) state) :
    InTable state.accesses state.system.task :=
  reached.invariant (firstTerminals_inTable system page inode)
    fun _ _ _ inTable allowed steps =>
      (step_inTable inTable steps).mpr allowed

section Example

/-- A character device for every number, as an inode. -/
def deviceInode (dev : Nat) : FileInode where
  iMode := 0o20666
  iUid := 0
  iGid := 0
  iDev := 0x301
  iNlinks := 1
  iPipe := false
  iZone0 := BitVec.ofNat 16 dev
  iSize := 0
  bytes := fun _ => 0

/-- A child becomes a leader, opens a terminal and asks for its settings. -/
def leaderOpens (dev : Nat) : List TerminalCall :=
  [.fork 0 (initTask 5).tss.registers, .setsid 1, .openBegins 1 2,
    .openEnds 1 (.ok dev), .ioctl 1 0 0x5401 0 0 0]

/-- `/dev/tty3` makes `tty_table[3]` a terminal. -/
theorem terminals_leave :
    ∃ state, terminals.Reachable Machine.anything
        (firstTerminals quietSystem 5 deviceInode) state ∧
      state.accesses = [3, 3] ∧
        ¬ InTable state.accesses state.system.task := by
  have ran : ((terminals.run Machine.anything
      (firstTerminals quietSystem 5 deviceInode) (leaderOpens 0x403)).map
        fun state => state.accesses) = some [3, 3] := by
    decide +kernel
  obtain ⟨state, runs, accesses⟩ := Option.map_eq_some_iff.mp ran
  refine ⟨state, Machine.reachable_of_run .start runs, accesses, ?_⟩
  rw [accesses]
  intro inTable
  exact absurd (inTable.accesses 3 List.mem_cons_self).2 (by decide)

/-- `/dev/tty1`. -/
theorem terminals_inTable_serial :
    ∃ state, terminals.run (fun state call => addressed state call = true)
        (firstTerminals quietSystem 5 deviceInode) (leaderOpens 0x401) =
          some state ∧
      state.accesses = [1, 1] ∧
        InTable state.accesses state.system.task := by
  have ran : ((terminals.run (fun state call => addressed state call = true)
      (firstTerminals quietSystem 5 deviceInode) (leaderOpens 0x401)).map
        fun state => state.accesses) = some [1, 1] := by
    decide +kernel
  obtain ⟨state, runs, accesses⟩ := Option.map_eq_some_iff.mp ran
  exact ⟨state, runs, accesses,
    terminals_inTable (Machine.reachable_of_run .start runs)⟩

end Example

end Linux011.Chr

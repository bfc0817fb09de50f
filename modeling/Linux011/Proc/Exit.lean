import Linux011.Proc.Fork

/-!
# Exit and wait

`exit.c`.  `do_exit` is cut where it may sleep: before the files and the
inodes of the task are given back, and after.  `release` and `sys_waitpid`
end here at their `schedule()`.
-/

namespace Linux011.Proc

open Linux011.Mm Linux011.Sched

/-- `SIGHUP`. -/
def sighup : Nat := 1

/-- `WNOHANG`. -/
def wnohang : BitVec 32 := 1

/-- `WUNTRACED`. -/
def wuntraced : BitVec 32 := 2

namespace System

/-- Change the structure in a slot, if there is one. -/
def onTask (system : System) (nr : Nat) (change : TaskStruct → TaskStruct) :
    System :=
  system.setTask nr ((system.task nr).map change)

end System

/-- `p->signal |= (1<<(sig-1))`. -/
def raise (sig : Nat) (p : TaskStruct) : TaskStruct :=
  { p with signal := p.signal ||| signalBit sig }

/-- `release` of the structure in slot `nr`, up to `schedule()`. -/
def release (nr : Nat) (system : System) : Except Fault System :=
  match system.task nr with
  | none => .ok system
  | some p =>
      if nr = 0 ∨ nrTasks ≤ nr then
        .error (.panic "trying to release non-existent task")
      else do
        let system := system.setTask nr none
        let memory ← freePage p.page system.memory
        return { system with memory }

/-- `kill_session`, for every slot but the first. -/
def killSession (session : Int) (system : System) : System :=
  { system with
    task := fun nr => (system.task nr).map fun p =>
      if nr ≠ 0 ∧ p.session = session then raise sighup p else p }

/-- The first slot whose task has the pid. -/
def findPid (task : Nat → Option TaskStruct) (pid : Int) : Option Nat :=
  (List.range nrTasks).find? fun nr =>
    match task nr with
    | none => false
    | some p => p.pid == pid

/-- `tell_father` called by the task in slot `current`.  The flag is false
where no father is found and the task releases itself. -/
def tellFather (current : Nat) (pid : Int) (system : System) :
    Except Fault (Bool × System) :=
  match if pid = 0 then none else findPid system.task pid with
  | some nr => .ok (true, system.onTask nr (raise sigchld))
  | none => do
      let system ← release current system
      return (false, system)

/-- The body of the loop of `do_exit` over the task slots, where a child
gets task 1 as its father. -/
def adopt (pid : Int) (system : System) (nr : Nat) : System :=
  match system.task nr with
  | none => system
  | some p =>
      if p.father = pid then
        let system := system.setTask nr (some { p with father := 1 })
        if p.state = .zombie then system.onTask 1 (raise sigchld)
        else system
      else system

/-- `do_exit` of the task `p` up to the files. -/
def doExitBegin (p : TaskStruct) (system : System) : Except Fault System := do
  let memory ← freePageTables p.codeSegment.base p.codeSegment.limit
    system.memory
  let memory ← freePageTables p.dataSegment.base p.dataSegment.limit memory
  return (List.range nrTasks).foldl (adopt p.pid) { system with memory }

/-- `do_exit` of the task in slot `nr` once its files and inodes have been
given back, up to `schedule()`; the flag is that of `tell_father`. -/
def doExitEnd (nr : Nat) (p : TaskStruct) (code : Int) (system : System) :
    Except Fault (Bool × System) :=
  let system := if p.leader then killSession p.session system else system
  let system := system.onTask nr fun p =>
    { p with state := .zombie, exitCode := code }
  tellFather nr p.father system

/-- Whether `sys_waitpid(pid, ...)` of the task `me` is about the task `p`. -/
def concerns (me : TaskStruct) (pid : Int) (p : TaskStruct) : Bool :=
  p.father == me.pid &&
    if 0 < pid then p.pid == pid
    else if pid = 0 then p.pgrp == me.pgrp
    else if pid ≠ -1 then p.pgrp == -pid
    else true

/-- How the loop of `sys_waitpid` over the task slots ends. -/
inductive Scan where
  | stopped (value : Int)
  | zombie (nr : Nat) (p : TaskStruct)
  | nobody (flag : Bool)

/-- The loop of `sys_waitpid`, from slot `count` down. -/
def scanChildren (task : Nat → Option TaskStruct) (current : Nat)
    (me : TaskStruct) (pid : Int) (options : BitVec 32) :
    Nat → Bool → Scan
  | 0, flag => .nobody flag
  | nr + 1, flag =>
      match task (nr + 1) with
      | none => scanChildren task current me pid options nr flag
      | some p =>
          if nr + 1 = current ∨ concerns me pid p = false then
            scanChildren task current me pid options nr flag
          else
            match p.state with
            | .stopped =>
                if options &&& wuntraced = 0 then
                  scanChildren task current me pid options nr flag
                else .stopped p.pid
            | .zombie => .zombie (nr + 1) p
            | _ => scanChildren task current me pid options nr true

/-- How far `sys_waitpid` gets: it returns a value, sleeps, or has released
a child whose pid and exit code it will return. -/
inductive Waited where
  | returns (value : Int)
  | sleeps
  | released (nr : Nat) (pid code : Int)

/-- `sys_waitpid` of the task `me` in slot `current` from `repeat` on. -/
def sysWaitpid (current : Nat) (me : TaskStruct) (pid : Int)
    (options : BitVec 32) (system : System) :
    Except Fault (Waited × System) :=
  match scanChildren system.task current me pid options (nrTasks - 1)
      false with
  | .stopped value => .ok (.returns value, system)
  | .zombie nr p => do
      let system := system.onTask current fun me =>
        { me with
          cutime := long (me.cutime + p.utime)
          cstime := long (me.cstime + p.stime) }
      let system ← release nr system
      return (.released nr p.pid p.exitCode, system)
  | .nobody true =>
      if options &&& wnohang ≠ 0 then .ok (.returns 0, system)
      else
        .ok (.sleeps, system.onTask current fun me =>
          { me with state := .interruptible })
  | .nobody false => .ok (.returns (-10), system)

/-- `sys_waitpid` after its own `schedule()`. -/
def resumeWaitpid (current : Nat) (me : TaskStruct) (pid : Int)
    (options : BitVec 32) (system : System) :
    Except Fault (Waited × System) :=
  let me := { me with signal := me.signal &&& ~~~ signalBit sigchld }
  let system := system.setTask current (some me)
  if me.signal = 0 then sysWaitpid current me pid options system
  else .ok (.returns (-4), system)

end Linux011.Proc

import Linux011.Mm.Teardown
import Linux011.Sched.Schedule

/-!
# Task structures

The fields of `struct task_struct` that `fork.c`, `exit.c`, `open.c` and
`exec.c` use, and the tables these functions share.  A pointer to a task
structure is the number of the page it lives in; a pointer to an entry of
`file_table` is its index and a pointer to an in-core inode a number.  The
floating-point state is left out.
-/

namespace Linux011.Proc

open Linux011.Mm Linux011.Sched

/-- A descriptor of the LDT: `get_base` and `get_limit`, in bytes. -/
structure Segment where
  base : Nat
  limit : Nat

/-- The general registers, as they lie on the kernel stack of a system
call. -/
structure Registers where
  ebp : Word
  edi : Word
  esi : Word
  gs : Word
  ebx : Word
  ecx : Word
  edx : Word
  fs : Word
  es : Word
  ds : Word
  eip : Word
  cs : Word
  eflags : Word
  esp : Word
  ss : Word

/-- `struct tss_struct`. -/
structure Tss where
  backLink : Word
  esp0 : Word
  ss0 : Word
  eax : Word
  ldt : Word
  traceBitmap : Word
  registers : Registers

structure TaskStruct where
  /-- The page the structure lives in. -/
  page : Nat
  state : TaskState
  counter : Int
  priority : Int
  signal : BitVec 32
  exitCode : Int
  startCode : Nat
  endCode : Nat
  endData : Nat
  brk : Nat
  startStack : Nat
  pid : Int
  father : Int
  pgrp : Int
  session : Int
  leader : Bool
  alarm : Int
  utime : Int
  stime : Int
  cutime : Int
  cstime : Int
  startTime : Int
  tty : Int
  pwd : Option Nat
  root : Option Nat
  executable : Option Nat
  euid : UInt16
  egid : UInt16
  /-- `sa_handler` of the entries of `sigaction`. -/
  saHandler : Fin 32 → Word
  closeOnExec : BitVec 32
  filp : Fin 20 → Option (Fin 64)
  codeSegment : Segment
  dataSegment : Segment
  tss : Tss

/-- `_LDT(nr)`. -/
def ldtSelector (nr : Nat) : Word := BitVec.ofNat 32 (nr * 16 + 5 * 8)

/-- `INIT_TASK`, in the static page `init_task`. -/
def initTask (page : Nat) : TaskStruct where
  page := page
  state := .running
  counter := 15
  priority := 15
  signal := 0
  exitCode := 0
  startCode := 0
  endCode := 0
  endData := 0
  brk := 0
  startStack := 0
  pid := 0
  father := -1
  pgrp := 0
  session := 0
  leader := false
  alarm := 0
  utime := 0
  stime := 0
  cutime := 0
  cstime := 0
  startTime := 0
  tty := -1
  pwd := none
  root := none
  executable := none
  euid := 0
  egid := 0
  saHandler := fun _ => 0
  closeOnExec := 0
  filp := fun _ => none
  codeSegment := ⟨0, 0xA0000⟩
  dataSegment := ⟨0, 0xA0000⟩
  tss :=
    { backLink := 0
      esp0 := BitVec.ofNat 32 (4096 + page * 4096)
      ss0 := 0x10
      eax := 0
      ldt := ldtSelector 0
      traceBitmap := 0x80000000#32
      registers :=
        { ebp := 0, edi := 0, esi := 0, gs := 0x17, ebx := 0, ecx := 0
          edx := 0, fs := 0x17, es := 0x17, ds := 0x17, eip := 0, cs := 0x17
          eflags := 0, esp := 0, ss := 0x17 } }

/-- `struct file`. -/
structure File where
  fMode : BitVec 16
  fFlags : BitVec 16
  fCount : UInt16
  fInode : Option Nat
  fPos : Int

structure System where
  memory : Mm.State
  task : Nat → Option TaskStruct
  lastPid : Int
  jiffies : Int
  fileTable : Fin 64 → File
  iCount : Nat → UInt16

namespace System

/-- `task[nr] = p`. -/
def setTask (system : System) (nr : Nat) (p : Option TaskStruct) : System :=
  { system with
    task := fun other => if other = nr then p else system.task other }

@[simp] theorem setTask_same (system : System) (nr : Nat)
    (p : Option TaskStruct) : (system.setTask nr p).task nr = p := by
  simp [setTask]

theorem setTask_other {system : System} {nr other : Nat}
    {p : Option TaskStruct} (different : other ≠ nr) :
    (system.setTask nr p).task other = system.task other := by
  simp [setTask, different]

end System

theorem of_bind_ok {ε α β : Type} {first : Except ε α}
    {rest : α → Except ε β} {result : β}
    (run : (first >>= rest) = .ok result) :
    ∃ value, first = .ok value ∧ rest value = .ok result := by
  cases first with
  | error fault => cases run
  | ok value => exact ⟨value, rfl, run⟩

theorem bind_ok {ε α β : Type} {first : Except ε α} {rest : α → Except ε β}
    {value : α} {result : β} (run : first = .ok value)
    (last : rest value = .ok result) : (first >>= rest) = .ok result := by
  rw [run]
  exact last

end Linux011.Proc

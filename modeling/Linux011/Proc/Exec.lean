import Linux011.Library.Coop
import Linux011.Mm.KernelStores
import Linux011.Proc.Exit

/-!
# Execve

`do_execve` of `exec.c` with its helpers.  It sleeps where it reads the old
image of its caller, which may have to be loaded, and where it waits for
inodes and blocks; a failing `get_free_page` is a mark the run crosses.
-/

namespace Linux011.Proc

open Linux011.Mm Bytes Coop

/-- `MAX_ARG_PAGES`. -/
def maxArgPages : Nat := 32

/-- An `unsigned long`. -/
def unsigned (value : Int) : Nat := (value % 4294967296).toNat

/-- What demand loading looks at. -/
def TaskStruct.paging (p : TaskStruct) : Mm.Task where
  startCode := p.startCode
  endData := p.endData
  executable := p.executable

/-- An in-core inode, and what `bread` makes of its first block. -/
structure Program where
  index : Nat
  mode : BitVec 16
  uid : UInt16
  gid : UInt8
  size : Word
  block : Option (Nat → Byte)

/-- What the call finds: the bytes of its caller's segment, the names of the
file system and the pages of the new program. -/
structure Surroundings where
  old : Nat → Byte
  namei : List Byte → Option Program
  load : Nat → Nat → Word

/-- The system and the array `page` of `do_execve`. -/
structure Exec where
  system : System
  page : Nat → Option Nat

abbrev ExecProg := Prog Exec

namespace Exec

def setMemory (exec : Exec) (memory : Mm.State) : Exec :=
  { exec with system := { exec.system with memory } }

def setPage (exec : Exec) (i : Nat) (pag : Option Nat) : Exec :=
  { exec with page := fun other => if other = i then pag else exec.page other }

/-- `i_count` of the program of a task. -/
def programCount (exec : Exec) (p : TaskStruct) : Nat :=
  match p.executable with
  | none => 0
  | some index => (exec.system.iCount index).toNat

def onTask (exec : Exec) (nr : Nat) (change : TaskStruct → TaskStruct) :
    Exec :=
  { exec with system := exec.system.onTask nr change }

end Exec

/-! ## Memory -/

/-- The memory after a call that may run out of pages. -/
def settle : Except Fault Mm.State → ExecProg Unit
  | .ok memory => Prog.modify fun exec => exec.setMemory memory
  | .error (.panic message) => Prog.panic message
  | .error (.oom _) => do
      Prog.cross
      Prog.panic "out of memory"

/-- The structure of the running task. -/
def myself (nr : Nat) : ExecProg TaskStruct := do
  let exec ← Prog.get
  match exec.system.task nr with
  | some p => return p
  | none => Prog.panic "no current task"

/-- `do_no_page` where the address has no page. -/
def loadPage (around : Surroundings) (nr address : Nat) : ExecProg Unit := do
  let exec ← Prog.get
  if (exec.system.memory.entryAt address).present then return
  else
    Prog.sleep
    -- a wait may also load pages, as those of the old image do
    let exec ← Prog.get
    if (exec.system.memory.entryAt address).present then return
    else
      let p ← myself nr
      settle (doNoPage
        (fun other => (exec.system.task other).map TaskStruct.paging) nr
        p.paging (exec.programCount p) address (around.load (address / 4096))
        exec.system.memory)

/-- `get_fs_byte`, `fs` being the data segment.  Beyond its limit the
processor stops the task. -/
def getFsByte (around : Surroundings) (nr offset : Nat) : ExecProg Byte := do
  let p ← myself nr
  let address := p.dataSegment.base + offset
  if offset < p.dataSegment.limit then
    loadPage around nr address
    let exec ← Prog.get
    return (exec.system.memory.userByte address).getD 0
  else Prog.panic "general protection"

/-- `put_fs_byte`. -/
def putFsByte (around : Surroundings) (nr : Nat) (value : Byte)
    (offset : Nat) : ExecProg Unit := do
  let p ← myself nr
  let address := p.dataSegment.base + offset
  if offset < p.dataSegment.limit then
    loadPage around nr address
    Prog.modify fun exec =>
      exec.setMemory (kernelStore address value exec.system.memory)
  else Prog.panic "general protection"

def putFsBytes (around : Surroundings) (nr : Nat) :
    List Byte → Nat → ExecProg Unit
  | [], _ => return
  | byte :: rest, offset => do
      putFsByte around nr byte offset
      putFsBytes around nr rest (offset + 1)

/-- `put_fs_long`. -/
def putFsLong (around : Surroundings) (nr : Nat) (value : Nat)
    (offset : Nat) : ExecProg Unit :=
  putFsBytes around nr (longBytes (BitVec.ofNat 32 value)) offset

/-! ## The tables of pointers -/

/-- `while (get_fs_byte(p++)) ;`, at most `rounds` times. -/
def skipString (around : Surroundings) (nr : Nat) : Nat → Nat → ExecProg Nat
  | 0, _ => Prog.panic "ran past the segment"
  | rounds + 1, p => do
      let byte ← getFsByte around nr p
      if byte = 0 then return unsigned (p + 1)
      else skipString around nr rounds (unsigned (p + 1))

/-- The addresses of `count` strings from `p` on, and a zero. -/
def fillTable (around : Surroundings) (nr : Nat) :
    Nat → Nat → Nat → ExecProg Nat
  | 0, p, table => do
      putFsLong around nr 0 table
      return p
  | count + 1, p, table => do
      putFsLong around nr p table
      let p ← skipString around nr 4294967296 p
      fillTable around nr count p (unsigned (table + 4))

def createTables (around : Surroundings) (nr p : Nat) (argc envc : Int) :
    ExecProg Nat := do
  let sp := p / 4 * 4
  let envp := unsigned (sp - 4 * (envc + 1))
  let argv := unsigned (envp - 4 * (argc + 1))
  putFsLong around nr envp (unsigned (argv - 4))
  putFsLong around nr argv (unsigned (argv - 8))
  putFsLong around nr (unsigned argc) (unsigned (argv - 12))
  let p ← fillTable around nr argc.toNat p argv
  let _ ← fillTable around nr envc.toNat p envp
  return unsigned (argv - 12)

/-! ## The strings -/

/-- The first number from `i` on at which `stop` holds. -/
def scan (stop : Nat → Bool) : Nat → Nat → Option Nat
  | 0, _ => none
  | rounds + 1, i => if stop i then some i else scan stop rounds (i + 1)

/-- `get_fs_byte` of the old image. -/
def oldByte (around : Surroundings) (address : Nat) : Byte :=
  around.old (unsigned address)

/-- `get_fs_long` of the old image. -/
def oldLong (around : Surroundings) (address : Nat) : Nat :=
  (ofBytes (oldByte around address) (oldByte around (address + 1))
    (oldByte around (address + 2)) (oldByte around (address + 3))).toNat

/-- `count`. -/
def count (around : Surroundings) (argv : Nat) : ExecProg Int :=
  if argv = 0 then return 0
  else do
    Prog.sleep
    match scan (fun i => oldLong around (argv + 4 * i) == 0) 1073741824 0 with
    | some i => return i
    | none => Prog.panic "ran past the segment"

/-- The bytes up to the NUL at an address of the old image. -/
def oldString (around : Surroundings) (address : Nat) :
    ExecProg (List Byte) := do
  Prog.sleep
  match scan (fun i => oldByte around (address + i) == 0) 4294967296 0 with
  | some length =>
      return (List.range length).map fun i => oldByte around (address + i)
  | none => Prog.panic "ran past the segment"

/-- The string a pointer of an array names. -/
def pointedString (around : Surroundings) (pointer : Nat) :
    ExecProg (List Byte) :=
  if pointer = 0 then Prog.panic "argc is wrong"
  else oldString around pointer

/-- The local variables of `copy_strings`. -/
structure Copier where
  p : Nat
  offset : Int
  pag : Option Nat

/-- `get_free_page`. -/
def takePage : ExecProg (Option Nat) := do
  let exec ← Prog.get
  let (pag, memory) := getFreePage exec.system.memory
  Prog.modify fun exec => exec.setMemory memory
  if pag = none then Prog.cross
  return pag

/-- The page for the byte at `p`, `none` where there is none to be had. -/
def argPage (p : Nat) : ExecProg (Option Nat) := do
  let exec ← Prog.get
  if p / 4096 < maxArgPages then
    match exec.page (p / 4096) with
    | some pag => return some pag
    | none => do
        let pag ← takePage
        Prog.modify fun exec => exec.setPage (p / 4096) pag
        return pag
  else Prog.panic "past the argument pages"

/-- `*(pag + offset) = byte`, where `byte` is read from the old image. -/
def storeByte (byte : Byte) (copier : Copier) : ExecProg (Option Copier) :=
  match copier.pag with
  | none => return none
  | some pag => do
      Prog.sleep
      Prog.modify fun exec => exec.setMemory
        (exec.system.memory.setByte pag copier.offset.toNat byte)
      return some copier

/-- The body of the innermost loop of `copy_strings`. -/
def copyByte (byte : Byte) (copier : Copier) :
    ExecProg (Option Copier) :=
  let p := unsigned (copier.p - 1)
  if copier.offset - 1 < 0 then do
    let pag ← argPage p
    storeByte byte ⟨p, (p % 4096 : Nat), pag⟩
  else storeByte byte ⟨p, copier.offset - 1, copier.pag⟩

/-- The bytes of one string, the last first. -/
def copyBytes : List Byte → Copier → ExecProg (Option Copier)
  | [], copier => return some copier
  | byte :: rest, copier => do
      match ← copyByte byte copier with
      | none => return none
      | some copier => copyBytes rest copier

/-- The strings `argc - 1`, …, `0`.  The test `p-len < 0` is one of unsigned
values, so it never holds. -/
def copyAll (string : Nat → ExecProg (List Byte)) :
    Nat → Copier → ExecProg (Option Copier)
  | 0, copier => return some copier
  | argc + 1, copier => do
      let bytes ← string argc
      match ← copyBytes (bytes ++ [0]).reverse copier with
      | none => return none
      | some copier => copyAll string argc copier

/-- `copy_strings`; `string` reads the strings from where `from_kmem` says
they are. -/
def copyStrings (string : Nat → ExecProg (List Byte)) (argc : Int) (p : Nat) :
    ExecProg Nat :=
  if p = 0 then return 0
  else do
    match ← copyAll string argc.toNat ⟨p, 0, none⟩ with
    | none => return 0
    | some copier => return copier.p

/-- The strings of an array of the old image. -/
def argument (around : Surroundings) (argv i : Nat) : ExecProg (List Byte) := do
  Prog.sleep
  pointedString around (oldLong around (argv + 4 * i))

/-! ## The new image -/

/-- The loop of `change_ldt` over the first pages of the array; `top` is the
end of the data segment. -/
def putArgPages (top : Nat) : Nat → ExecProg Unit
  | 0 => return
  | i + 1 => do
      let exec ← Prog.get
      match exec.page i with
      | none => pure ()
      | some page => do
          let (put, memory) := putPage page (top - (maxArgPages - i) * 4096)
            exec.system.memory
          Prog.modify fun exec => (exec.setMemory memory).setPage i none
          if put = false then Prog.cross
      putArgPages top i

/-- The two descriptors. -/
def setSegments (base codeLimit dataLimit : Nat) (task : TaskStruct) :
    TaskStruct :=
  { task with
    codeSegment := ⟨base, codeLimit⟩
    dataSegment := ⟨base, dataLimit⟩ }

/-- `change_ldt`.  A page that has been put belongs to the task. -/
def changeLdt (nr textSize : Nat) : ExecProg Nat := do
  let p ← myself nr
  let codeLimit := unsigned (textSize + 4095) / 4096 * 4096
  let dataLimit := 0x4000000
  let codeBase := p.codeSegment.base
  Prog.modify fun exec =>
    exec.onTask nr (setSegments codeBase codeLimit dataLimit)
  putArgPages (codeBase + dataLimit) maxArgPages
  return dataLimit

/-- `struct exec`. -/
structure Header where
  magic : Word
  text : Word
  data : Word
  bss : Word
  syms : Word
  entry : Word
  trsize : Word
  drsize : Word

def blockLong (block : Nat → Byte) (address : Nat) : Word :=
  ofBytes (block address) (block (address + 1)) (block (address + 2))
    (block (address + 3))

def readHeader (block : Nat → Byte) : Header where
  magic := blockLong block 0
  text := blockLong block 4
  data := blockLong block 8
  bss := blockLong block 12
  syms := blockLong block 16
  entry := blockLong block 20
  trsize := blockLong block 24
  drsize := blockLong block 28

/-- `ZMAGIC`. -/
def zmagic : Word := 0o413

/-- The tests on the header; for `ZMAGIC`, `N_TXTOFF` is `BLOCK_SIZE`. -/
def Header.refused (ex : Header) (size : Word) : Bool :=
  ex.magic ≠ zmagic || ex.trsize ≠ 0 || ex.drsize ≠ 0 ||
    0x3000000#32 < ex.text + ex.data + ex.bss ||
    size < ex.text + ex.data + ex.syms + 1024#32

/-- `while (i&0xfff) put_fs_byte(0,(char *) (i++));`, at most `rounds`
times. -/
def clearTail (around : Surroundings) (nr : Nat) : Nat → Nat → ExecProg Unit
  | 0, _ => return
  | rounds + 1, i =>
      if i % 4096 = 0 then return
      else do
        putFsByte around nr 0 i
        clearTail around nr rounds (unsigned (i + 1))

/-- `free_page` of the first pages of the array. -/
def freeArgPages : Nat → ExecProg Unit
  | 0 => return
  | i + 1 => do
      freeArgPages i
      let exec ← Prog.get
      match exec.page i with
      | none => return
      | some page => settle (freePage page exec.system.memory)

/-! ## do_execve -/

/-- What the tests on the inode come to. -/
inductive Examined where
  | refused (errno : Int)
  | readable (euid egid : UInt16) (block : Nat → Byte)

/-- The permission bits for the caller. -/
def executable (p : TaskStruct) (inode : Program) : Bool :=
  let i :=
    if p.euid = inode.uid then inode.mode >>> 6
    else if p.egid = inode.gid.toUInt16 then inode.mode >>> 3
    else inode.mode
  i &&& 1 ≠ 0 || (inode.mode &&& 0o111 ≠ 0 && p.euid = 0)

def examine (p : TaskStruct) (inode : Program) : Examined :=
  if inode.mode &&& 0o170000 ≠ 0o100000 then .refused (-13)
  else if executable p inode = false then .refused (-8)
  else
    match inode.block with
    | none => .refused (-13)
    | some block =>
        .readable (if inode.mode &&& 0o4000 ≠ 0 then inode.uid else p.euid)
          (if inode.mode &&& 0o2000 ≠ 0 then inode.gid.toUInt16 else p.egid)
          block

/-- From `exec_error1` on. -/
def giveUp (errno : Int) (registers : Registers) :
    ExecProg (Int × Registers) := do
  freeArgPages maxArgPages
  return (errno, registers)

/-- From `exec_error2` on. -/
def giveUpInode (errno : Int) (registers : Registers) :
    ExecProg (Int × Registers) := do
  Prog.sleep
  giveUp errno registers

/-- `current->executable = inode;`, with no handlers for signals. -/
def setExecutable (inode : Program) (task : TaskStruct) : TaskStruct :=
  { task with executable := some inode.index, saHandler := fun _ => 0 }

/-- The descriptors that `close_on_exec` marks are closed. -/
def closeMarked (task : TaskStruct) : TaskStruct :=
  { task with
    filp := fun fd =>
      if task.closeOnExec.getLsbD fd then none else task.filp fd
    closeOnExec := 0 }

/-- The numbers of the new image, `p` being its stack pointer. -/
def setImage (ex : Header) (euid egid : UInt16) (p : Nat)
    (task : TaskStruct) : TaskStruct :=
  { task with
    endCode := ex.text.toNat
    endData := (ex.text + ex.data).toNat
    brk := (ex.text + ex.data + ex.bss).toNat
    startStack := p / 4096 * 4096
    euid := euid
    egid := egid }

/-- From the point of no return on. -/
def launch (around : Surroundings) (nr : Nat) (registers : Registers)
    (inode : Program) (ex : Header) (euid egid : UInt16) (argc envc : Int)
    (p : Nat) : ExecProg (Int × Registers) := do
  -- `iput` of the old executable
  Prog.sleep
  Prog.modify fun exec => exec.onTask nr (setExecutable inode)
  -- `sys_close` of the descriptors to be closed
  Prog.sleep
  Prog.modify fun exec => exec.onTask nr closeMarked
  let task ← myself nr
  let exec ← Prog.get
  settle (freePageTables task.codeSegment.base task.codeSegment.limit
    exec.system.memory)
  let exec ← Prog.get
  settle (freePageTables task.dataSegment.base task.dataSegment.limit
    exec.system.memory)
  let dataLimit ← changeLdt nr ex.text.toNat
  let p := unsigned (p + dataLimit - maxArgPages * 4096)
  let p ← createTables around nr p argc envc
  Prog.modify fun exec => exec.onTask nr (setImage ex euid egid p)
  clearTail around nr 4096 (ex.text + ex.data).toNat
  return (0, { registers with eip := ex.entry, esp := BitVec.ofNat 32 p })

/-- The first line of a script. -/
structure ScriptLine where
  interpreter : List Byte
  name : List Byte
  argument : Option (List Byte)

/-- A space or a tab. -/
def isBlank (byte : Byte) : Bool := byte = 32 || byte = 9

/-- The part of a path behind its last slash. -/
def baseName (path : List Byte) : List Byte :=
  (path.reverse.takeWhile fun byte => byte ≠ 47).reverse

def scriptLine (block : Nat → Byte) : Option ScriptLine :=
  let buf := ((List.range 1022).map fun i => block (i + 2)).takeWhile (· ≠ 0)
  let line := (buf.takeWhile (· ≠ 10)).dropWhile isBlank
  if 10 ∉ buf ∨ line = [] then none
  else
    let interpreter := line.takeWhile fun byte => !isBlank byte
    some
      { interpreter
        name := baseName interpreter
        argument :=
          match line.dropWhile fun byte => !isBlank byte with
          | [] => none
          | _ :: rest => some rest }

/-- A script: its interpreter is started in its place. -/
def interpret (around : Surroundings) (nr : Nat) (registers : Registers)
    (filename argv envp : Nat) (argc envc : Int) (p : Nat)
    (line : ScriptLine) : ExecProg (Int × Registers) := do
  let p ← copyStrings (argument around envp) envc p
  let p ← copyStrings (argument around (argv + 4)) (argc - 1) p
  let p ← copyStrings (fun _ => pointedString around filename) 1 p
  let p ← match line.argument with
    | none => pure p
    | some rest => copyStrings (fun _ => pure rest) 1 p
  let p ← copyStrings (fun _ => pure line.name) 1 p
  let argc := argc - 1 + 1 + (if line.argument.isSome then 1 else 0) + 1
  if p = 0 then giveUp (-12) registers
  else do
    Prog.sleep
    match around.namei line.interpreter with
    | none => giveUp (-2) registers
    | some inode => do
        let task ← myself nr
        match examine task inode with
        | .refused errno => giveUpInode errno registers
        | .readable euid egid block => do
            Prog.sleep
            let ex := readHeader block
            if ex.refused inode.size then giveUpInode (-8) registers
            else
              launch around nr registers inode ex euid egid argc envc p

/-- A program in the a.out format. -/
def start (around : Surroundings) (nr : Nat) (registers : Registers)
    (argv envp : Nat) (argc envc : Int) (p : Nat) (inode : Program)
    (ex : Header) (euid egid : UInt16) : ExecProg (Int × Registers) :=
  if ex.refused inode.size then giveUpInode (-8) registers
  else do
    let p ← copyStrings (argument around envp) envc p
    let p ← copyStrings (argument around argv) argc p
    if p = 0 then giveUpInode (-12) registers
    else launch around nr registers inode ex euid egid argc envc p

/-- `do_execve` of the task in slot `nr`, `registers` being those on its
kernel stack. -/
def doExecve (around : Surroundings) (nr : Nat) (registers : Registers)
    (filename argv envp : Nat) : ExecProg (Int × Registers) :=
  if registers.cs &&& 0xffff ≠ 0xf then
    Prog.panic "execve called from supervisor mode"
  else do
    Prog.modify fun exec => { exec with page := fun _ => none }
    let name ← oldString around filename
    Prog.sleep
    match around.namei name with
    | none => return (-2, registers)
    | some inode => do
        let argc ← count around argv
        let envc ← count around envp
        let task ← myself nr
        match examine task inode with
        | .refused errno => giveUpInode errno registers
        | .readable euid egid block => do
            Prog.sleep
            let p := 4096 * maxArgPages - 4
            if block 0 = 35 ∧ block 1 = 33 then
              match scriptLine block with
              | none => giveUp (-8) registers
              | some line =>
                  interpret around nr registers filename argv envp argc envc
                    p line
            else
              start around nr registers argv envp argc envc p inode
                (readHeader block) euid egid

end Linux011.Proc

import Linux011.Library.Machine
import Linux011.Mm.KernelStores

/-!
# System calls that store to user memory

A store of the kernel ignores the write bit of a page-table entry.  A call is
what it does to the memory of its caller, in order: it reads its arguments,
`verify_area` un-shares an area, and it stores.  The machine interleaves the
calls of any number of tasks, switching where they sleep, with forks and with
the stores and faults of the programs.
-/

namespace Linux011.Mm

open Bytes Machines

/-! ## verify_area -/

/-- The loop of `verify_area` over the pages from `start` on. -/
def verifyPages : Nat → Nat → State → Except Fault State
  | _, 0, state => .ok state
  | start, pages + 1, state => do
      let state ← writeVerify start state
      verifyPages ((start + 4096) % 2 ^ 32) pages state

/-- The rounds of that loop.  The size is an `int`, so adding the offset in
the page may overflow, and then there are none. -/
def verifiedPages (address size : Nat) : Nat :=
  if address % 4096 + size < 2 ^ 31 then
    (address % 4096 + size + 4095) / 4096
  else 0

def verifyArea (base address size : Nat) (state : State) :
    Except Fault State :=
  verifyPages ((address / 4096 * 4096 + base) % 2 ^ 32)
    (verifiedPages address size) state

/-! ## The calls -/

inductive Look where
  | sleep
  /-- `get_fs_byte`. -/
  | load (offset : Nat)

inductive Put where
  | sleep
  /-- A byte of `put_fs_byte` or `put_fs_long`. -/
  | store (offset : Nat) (value : Byte)

/-- What a call does to the memory of its caller.  All stores behind a
`verify_area` are to its area. -/
structure Script where
  looks : List Look
  area : Option (Nat × Nat)
  puts : List Put
  covered : ∀ address size, area = some (address, size) →
    ∀ offset value, .store offset value ∈ puts →
      address ≤ offset ∧ offset < address + size

def putBytes : Nat → List Byte → List Put
  | _, [] => []
  | offset, byte :: rest => .store offset byte :: putBytes (offset + 1) rest

/-- The same with a wait before every byte. -/
def putSlowly : Nat → List Byte → List Put
  | _, [] => []
  | offset, byte :: rest =>
      .sleep :: .store offset byte :: putSlowly (offset + 1) rest

theorem mem_putBytes {offset other : Nat} {value : Byte} {bytes : List Byte}
    (member : .store other value ∈ putBytes offset bytes) :
    offset ≤ other ∧ other < offset + bytes.length := by
  induction bytes generalizing offset with
  | nil => cases member
  | cons byte rest induction =>
      rw [List.length_cons]
      rcases List.mem_cons.mp member with same | later
      · cases same
        omega
      · have inside := induction later
        omega

theorem mem_putSlowly {offset other : Nat} {value : Byte} {bytes : List Byte}
    (member : .store other value ∈ putSlowly offset bytes) :
    offset ≤ other ∧ other < offset + bytes.length := by
  induction bytes generalizing offset with
  | nil => cases member
  | cons byte rest induction =>
      rw [List.length_cons]
      rcases List.mem_cons.mp member with same | later
      · cases same
      · rcases List.mem_cons.mp later with same | further
        · cases same
          omega
        · have inside := induction further
          omega

namespace Script

/-- A task in no call. -/
def idle : Script where
  looks := []
  area := none
  puts := []
  covered := fun _ _ impossible => nomatch impossible

def Idle (script : Script) : Prop :=
  script.looks = [] ∧ script.area = none ∧ script.puts = []

/-- Stores to an area just verified. -/
def verified (looks : List Look) (address size : Nat) (puts : List Put)
    (covered : ∀ offset value, .store offset value ∈ puts →
      address ≤ offset ∧ offset < address + size) : Script where
  looks := looks
  area := some (address, size)
  puts := puts
  covered := by
    intro other otherSize same
    cases same
    exact covered

/-- Stores without `verify_area`. -/
def unverified (looks : List Look) (puts : List Put) : Script where
  looks := looks
  area := none
  puts := puts
  covered := fun _ _ impossible => nomatch impossible

def withLooks (script : Script) (looks : List Look) : Script :=
  { script with looks }

def withoutArea (script : Script) : Script where
  looks := script.looks
  area := none
  puts := script.puts
  covered := fun _ _ impossible => nomatch impossible

/-- The rest of a call that has come to its stores. -/
def withPuts (puts : List Put) : Script := unverified [] puts

end Script

/-- `sys_pipe`, with the descriptors it has made, if any.  It may wait for an
inode. -/
def sysPipe (fildes : Nat) (fd : Option (Word × Word)) : Script :=
  match fd with
  | none => .unverified [.sleep] []
  | some fd => .unverified [.sleep]
      (putBytes fildes (longBytes fd.1 ++ longBytes fd.2))

/-- `sys_read`; `chars` is what the file, the pipe or the device delivers. -/
def sysRead (buf count : Nat) (chars : List Byte)
    (few : chars.length ≤ count) : Script :=
  if count = 0 then .idle
  else .verified [] buf count (putSlowly buf chars) (by
    intro offset value member
    have inside := mem_putSlowly member
    omega)

/-- `sys_waitpid`, with the status of the child it finds, if any. -/
def sysWaitpid (statAddr : Nat) (code : Option Word) : Script :=
  .verified [] statAddr 4
    (.sleep :: match code with
      | none => []
      | some code => putBytes statAddr (longBytes code)) (by
    intro offset value member
    rcases List.mem_cons.mp member with same | later
    · cases same
    · cases code with
      | none => cases later
      | some code => exact mem_putBytes later)

/-- `sys_times`. -/
def sysTimes (tbuf : Nat) (utime stime cutime cstime : Word) : Script :=
  if tbuf = 0 then .idle
  else .verified [] tbuf 16
    (putBytes tbuf (longBytes utime ++ longBytes stime ++ longBytes cutime ++
      longBytes cstime)) fun _ _ member => mem_putBytes member

/-- `sys_time`. -/
def sysTime (tloc : Nat) (now : Word) : Script :=
  if tloc = 0 then .idle
  else .verified [] tloc 4 (putBytes tloc (longBytes now))
    fun _ _ member => mem_putBytes member

/-- The bytes from `offset` on are read, with waits before each. -/
def lookSlowly : Nat → Nat → List Look
  | _, 0 => []
  | offset, count + 1 =>
      .sleep :: .load offset :: lookSlowly (offset + 1) count

/-- `sys_stat`: the name of `length` bytes is looked up, and `cp_stat` copies
the 32 bytes of `struct stat`. -/
def sysStat (filename length statbuf : Nat) (tmp : Option (Fin 32 → Byte)) :
    Script :=
  match tmp with
  | none => .unverified (lookSlowly filename length ++ [.sleep]) []
  | some tmp => .verified (lookSlowly filename length ++ [.sleep]) statbuf 32
      (putBytes statbuf (List.ofFn tmp)) fun _ _ member => by
        have inside := mem_putBytes member
        rwa [List.length_ofFn] at inside

/-- `sys_sigaction`: `get_new` reads the 16 bytes of a `struct sigaction` and
`save_old` stores them. -/
def sysSigaction (action oldaction : Nat) (tmp : Fin 16 → Byte) : Script :=
  let looks := (List.range 16).map fun i => .load (action + i)
  if oldaction = 0 then .unverified looks []
  else .verified looks oldaction 16 (putBytes oldaction (List.ofFn tmp))
    fun _ _ member => by
      have inside := mem_putBytes member
      rwa [List.length_ofFn] at inside

/-- The calls of a program; a reference of its own to a page that is not
there is one too. -/
inductive Call where
  | pipe (fildes : Nat) (fd : Option (Word × Word))
  | read (buf count : Nat) (chars : List Byte) (few : chars.length ≤ count)
  | waitpid (statAddr : Nat) (code : Option Word)
  | times (tbuf : Nat) (utime stime cutime cstime : Word)
  | time (tloc : Nat) (now : Word)
  | stat (filename length statbuf : Nat) (tmp : Option (Fin 32 → Byte))
  | sigaction (action oldaction : Nat) (tmp : Fin 16 → Byte)
  | refer (offset : Nat)

def Call.script : Call → Script
  | pipe fildes fd => sysPipe fildes fd
  | read buf count chars few => sysRead buf count chars few
  | waitpid statAddr code => sysWaitpid statAddr code
  | times tbuf utime stime cutime cstime =>
      sysTimes tbuf utime stime cutime cstime
  | time tloc now => sysTime tloc now
  | stat filename length statbuf tmp => sysStat filename length statbuf tmp
  | sigaction action oldaction tmp => sysSigaction action oldaction tmp
  | refer offset => .unverified [.load offset] []

/-! ## The machine -/

/-- What a task has besides its pages. -/
structure Space where
  paging : Task
  limit : Nat

/-- The system: `script` is what remains of the call of each task, `loading`
the page that is being read in for it and the address the page is for, and
`current` the task that is in a call and has the processor. -/
structure Kernel where
  memory : State
  holds : Nat → Nat
  space : Nat → Option Space
  script : Nat → Script
  loading : Nat → Option (Nat × Nat)
  current : Option Nat

namespace Kernel

def setScript (kernel : Kernel) (nr : Nat) (script : Script) : Kernel :=
  { kernel with
    script := fun other => if other = nr then script else kernel.script other }

def setLoading (kernel : Kernel) (nr : Nat) (page : Option (Nat × Nat)) :
    Kernel :=
  { kernel with
    loading := fun other => if other = nr then page else kernel.loading other }

def setSpace (kernel : Kernel) (nr : Nat) (space : Option Space) : Kernel :=
  { kernel with
    space := fun other => if other = nr then space else kernel.space other }

/-- The tasks as demand loading sees them. -/
def tasks (kernel : Kernel) (nr : Nat) : Option Task :=
  (kernel.space nr).map Space.paging

/-- `do_exit`, as far as pages go. -/
def exit (nr : Nat) (kernel : Kernel) : Option Kernel :=
  match kernel.space nr with
  | none => none
  | some space =>
      match freePageTables space.paging.startCode space.limit
        kernel.memory with
      | .error _ => none
      | .ok memory =>
          some
            { ((kernel.setSpace nr none).setScript nr .idle).setLoading nr
                none with
              memory, current := none }

/-- The state after an operation on memory; `oom` ends the task. -/
def settle (nr : Nat) (kernel : Kernel) : Except Fault State → Option Kernel
  | .ok memory => some { kernel with memory }
  | .error (.oom memory) => exit nr { kernel with memory }
  | .error (.panic _) => none

/-- `do_no_page`.  The task sleeps while a page is read in. -/
def pageIn (nr iCount : Nat) (load : Nat → Word) (space : Space)
    (address : Nat) (kernel : Kernel) : Option Kernel :=
  let address := address / 4096 * 4096
  let tmp := address - space.paging.startCode
  if space.paging.executable = none ∨ space.paging.endData ≤ tmp then
    settle nr kernel (getEmptyPage address kernel.memory)
  else
    match sharePage kernel.tasks nr space.paging iCount tmp
      kernel.memory with
    | .error fault => settle nr kernel (.error fault)
    | .ok (true, memory) => some { kernel with memory }
    | .ok (false, memory) =>
        match getFreePage memory with
        | (none, memory) => exit nr { kernel with memory }
        | (some page, memory) =>
            some
              { kernel.setLoading nr (some (page, address)) with
                memory := memory.fillPage page load
                holds := take kernel.holds page
                current := none }

/-- The end of `do_no_page`, once the page is read. -/
def pageRead (nr page address : Nat) (kernel : Kernel) : Option Kernel :=
  let kernel := { kernel.setLoading nr none with
    holds := give kernel.holds page }
  match putPage page address kernel.memory with
  | (true, memory) => some { kernel with memory }
  | (false, memory) =>
      match freePage page memory with
      | .error _ => none
      | .ok memory => exit nr { kernel with memory }

/-- A reference of the kernel to the memory of a task, `next` being the state
behind it.  Outside the segment there is a general protection fault. -/
def reference (nr iCount : Nat) (load : Nat → Word) (space : Space)
    (offset : Nat) (next kernel : Kernel) : Option Kernel :=
  if space.limit ≤ offset then exit nr kernel
  else if (kernel.memory.entryAt
      (space.paging.startCode + offset)).present then
    some next
  else pageIn nr iCount load space (space.paging.startCode + offset) kernel

/-- One step of the call of the task that has the processor. -/
def proceed (iCount : Nat) (load : Nat → Word) (kernel : Kernel) :
    Option Kernel :=
  match kernel.current with
  | none => none
  | some nr =>
      match kernel.space nr, kernel.loading nr with
      | none, _ => none
      | some _, some (page, address) => pageRead nr page address kernel
      | some space, none =>
          let script := kernel.script nr
          match script.looks, script.area, script.puts with
          | .sleep :: rest, _, _ =>
              some
                { kernel.setScript nr (script.withLooks rest) with
                  current := none }
          | .load offset :: rest, _, _ =>
              reference nr iCount load space offset
                (kernel.setScript nr (script.withLooks rest)) kernel
          | [], some (address, size), _ =>
              settle nr (kernel.setScript nr script.withoutArea)
                (verifyArea space.paging.startCode address size
                  kernel.memory)
          | [], none, .sleep :: rest =>
              some
                { kernel.setScript nr (.withPuts rest) with current := none }
          | [], none, .store offset value :: rest =>
              reference nr iCount load space offset
                { kernel.setScript nr (.withPuts rest) with
                  memory := kernelStore (space.paging.startCode + offset)
                    value kernel.memory } kernel
          | [], none, [] => some { kernel with current := none }

/-- The task runs its program. -/
def InUser (kernel : Kernel) (nr : Nat) : Prop :=
  kernel.current = none ∧ (kernel.script nr).Idle ∧ kernel.loading nr = none

/-- A store of a program to a page that is there. -/
def programStore (address : Nat) (value : Byte) (state : State) :
    Except Fault State := do
  let state ←
    if (state.entryAt address).writable then .ok state
    else doWpPage address state
  return kernelStore address value state

/-- `copy_mem` of a fork: the child gets the space of its parent. -/
def copyMem (parent child : Nat) (kernel : Kernel) : Option Kernel :=
  match kernel.space parent with
  | none => none
  | some space =>
      match copyPageTables space.paging.startCode (windowBase child)
        space.limit kernel.memory with
      | .error _ => none
      | .ok (true, memory) =>
          some
            { kernel.setSpace child
                (some { space with
                  paging := { space.paging with
                    startCode := windowBase child } }) with
              memory }
      | .ok (false, memory) =>
          match freePageTables (windowBase child) space.limit memory with
          | .error _ => none
          | .ok memory => some { kernel with memory }

end Kernel

inductive Action where
  /-- The kernel takes a page for itself, as for a task structure. -/
  | take
  | release (page : Nat)
  | fork (parent child : Nat)
  | store (nr offset : Nat) (value : Byte)
  | call (nr : Nat) (call : Call)
  | proceed (iCount : Nat) (load : Nat → Word)
  | resume (nr : Nat)

instance (script : Script) : Decidable script.Idle :=
  match script with
  | ⟨[], none, [], _⟩ => .isTrue ⟨rfl, rfl, rfl⟩
  | ⟨_ :: _, _, _, _⟩ => .isFalse fun all => nomatch all.1
  | ⟨[], some _, _, _⟩ => .isFalse fun all => nomatch all.2.1
  | ⟨[], none, _ :: _, _⟩ => .isFalse fun all => nomatch all.2.2

instance (kernel : Kernel) (nr : Nat) : Decidable (kernel.InUser nr) :=
  inferInstanceAs (Decidable (_ ∧ _ ∧ _))

/-- Nobody waits for the page. -/
def Kernel.NotLoading (kernel : Kernel) (page : Nat) : Prop :=
  ∀ nr < 64, (kernel.loading nr).map Prod.fst ≠ some page

instance (kernel : Kernel) (page : Nat) : Decidable (kernel.NotLoading page) :=
  inferInstanceAs (Decidable (∀ nr < 64, _))

/-- Task 0 makes none of these calls. -/
def kernelCalls : Machine Kernel Action where
  step kernel
    | .take =>
        match getFreePage kernel.memory with
        | (none, _) => some kernel
        | (some page, memory) =>
            some { kernel with memory, holds := Mm.take kernel.holds page }
    | .release page =>
        if 0 < kernel.holds page ∧ kernel.NotLoading page then
          match freePage page kernel.memory with
          | .error _ => none
          | .ok memory =>
              some { kernel with memory, holds := give kernel.holds page }
        else none
    | .fork parent child =>
        if kernel.InUser parent ∧ 1 ≤ child ∧ child < 64 ∧
            (kernel.space child).isNone then
          kernel.copyMem parent child
        else none
    | .store nr offset value =>
        match kernel.space nr with
        | none => none
        | some space =>
            if kernel.InUser nr ∧ 1 ≤ nr then
              if space.limit ≤ offset then kernel.exit nr
              else if (kernel.memory.entryAt
                  (space.paging.startCode + offset)).present then
                kernel.settle nr (Kernel.programStore
                  (space.paging.startCode + offset) value kernel.memory)
              else none
            else none
    | .call nr call =>
        if kernel.InUser nr ∧ 1 ≤ nr ∧ (kernel.space nr).isSome then
          some { kernel.setScript nr call.script with current := some nr }
        else none
    | .proceed iCount load => kernel.proceed iCount load
    | .resume nr =>
        if kernel.current = none ∧ (kernel.space nr).isSome ∧
            ¬ kernel.InUser nr then
          some { kernel with current := some nr }
        else none

end Linux011.Mm

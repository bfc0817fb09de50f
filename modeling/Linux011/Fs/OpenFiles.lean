import Linux011.Library.RefCount
import Linux011.Library.RingBuffer
import Linux011.Sched.Schedule
import Mathlib.Data.Fintype.Basic

/-!
# Open files

The calls of a process on its descriptors: `sys_open` with `open_namei`,
`dupfd`, `sys_fcntl`, `sys_close`, `sys_lseek`, `sys_read` and `sys_write`.
What a lookup finds in the directories, which blocks can be had and what
devices and pipes do are parameters of the calls.
-/

namespace Linux011.Fs

open Machines RefCount RingBuffers Sched

def oAccmode : BitVec 32 := 0o3

def oWronly : BitVec 32 := 0o1

def oRdwr : BitVec 32 := 0o2

def oCreat : BitVec 32 := 0o100

def oExcl : BitVec 32 := 0o200

def oTrunc : BitVec 32 := 0o1000

def oAppend : BitVec 16 := 0o2000

def oNonblock : BitVec 16 := 0o4000

def mayWrite : BitVec 32 := 2

/-- The fields of an in-core inode these calls use, and the bytes of the
file. -/
structure FileInode where
  iMode : BitVec 16
  iUid : Nat
  iGid : Nat
  iDev : BitVec 16
  iNlinks : Nat
  iPipe : Bool
  iZone0 : BitVec 16
  iSize : Nat
  bytes : Nat → UInt8

/-- The file type in `i_mode`. -/
def FileInode.type (inode : FileInode) : BitVec 16 :=
  inode.iMode &&& 0o170000

def FileInode.isReg (inode : FileInode) : Bool := inode.type = 0o100000

def FileInode.isBlk (inode : FileInode) : Bool := inode.type = 0o60000

def FileInode.isDir (inode : FileInode) : Bool := inode.type = 0o40000

def FileInode.isChr (inode : FileInode) : Bool := inode.type = 0o20000

/-- `permission`. -/
def permission (euid egid : Nat) (inode : FileInode) (mask : BitVec 32) :
    Bool :=
  let mode := inode.iMode.setWidth 32
  if inode.iDev ≠ 0 ∧ inode.iNlinks = 0 then false
  else
    let mode :=
      if euid = inode.iUid then mode >>> 6
      else if egid = inode.iGid then mode >>> 3
      else mode
    mode &&& mask &&& 7 = mask || euid = 0

/-- `ACC_MODE`, where the last entry is the character `'\377'`. -/
def accMode (flag : BitVec 32) : BitVec 32 :=
  if flag &&& oAccmode = 0 then 4
  else if flag &&& oAccmode = oWronly then 2
  else if flag &&& oAccmode = oRdwr then 6
  else -1

structure File where
  fMode : BitVec 16
  fFlags : BitVec 16
  fCount : Nat
  fInode : Nat
  fPos : Nat

/-- What `open_namei` decided on: the flag, the process, the inode as it was
then, and whether it was created. -/
structure Opening where
  flag : BitVec 32
  euid : Nat
  egid : Nat
  inode : FileInode
  created : Bool

/-- A process and the system's tables of files and inodes.  `opening` records
how each descriptor came about. -/
structure Descriptors where
  euid : Nat
  egid : Nat
  umask : BitVec 32
  leader : Bool
  tty : Int
  closeOnExec : BitVec 32
  filp : Fin 20 → Option (Fin 64)
  file : Fin 64 → File
  inode : Nat → FileInode
  opening : Fin 20 → Option Opening

/-- What `dir_namei`, `find_entry` and `iget`, or `new_inode` and `add_entry`,
come to. -/
inductive Walk where
  | noDirectory
  | directory (inode : Nat)
  | absent (directory : Nat) (made : Option Nat)
  | found (inode : Option Nat)

/-- What a call of a device or a pipe comes to: its result, the position it
leaves, and the bytes of all files, which may lie on the device. -/
structure Elsewhere where
  result : Int
  pos : Nat
  bytes : Nat → Nat → UInt8

namespace Descriptors

def setFilp (state : Descriptors) (fd : Fin 20) (slot : Option (Fin 64)) :
    Descriptors :=
  { state with
    filp := fun other => if other = fd then slot else state.filp other }

def setFile (state : Descriptors) (slot : Fin 64) (file : File) :
    Descriptors :=
  { state with
    file := fun other => if other = slot then file else state.file other }

def setInode (state : Descriptors) (nr : Nat) (inode : FileInode) :
    Descriptors :=
  { state with
    inode := fun other => if other = nr then inode else state.inode other }

def setOpening (state : Descriptors) (fd : Fin 20)
    (opening : Option Opening) : Descriptors :=
  { state with
    opening := fun other => if other = fd then opening else state.opening other }

/-- `current->close_on_exec &= ~(1<<fd)`. -/
def keepOnExec (state : Descriptors) (fd : Fin 20) : Descriptors :=
  { state with closeOnExec := state.closeOnExec &&& ~~~ (1#32 <<< fd.val) }

/-- The descriptor of an unsigned argument, if it is in range. -/
def slotOf (fd : Nat) : Option (Fin 20) :=
  if inside : fd < 20 then some ⟨fd, inside⟩ else none

/-- `truncate`, as far as the contents go. -/
def truncated (inode : FileInode) : FileInode :=
  if inode.isReg || inode.isDir then
    { inode with
      iSize := 0
      bytes := fun _ => 0 }
  else inode

/-- The inode `new_inode` and `open_namei` make. -/
def created (state : Descriptors) (dev : BitVec 16) (mode : BitVec 32) :
    FileInode where
  iMode := mode.setWidth 16
  iUid := state.euid
  iGid := state.egid
  iDev := dev
  iNlinks := 1
  iPipe := false
  iZone0 := 0
  iSize := 0
  bytes := fun _ => 0

/-- `O_TRUNC` asks for writing. -/
def truncFlag (flag : BitVec 32) : BitVec 32 :=
  if flag &&& oTrunc ≠ 0 ∧ flag &&& oAccmode = 0 then flag ||| oWronly
  else flag

/-- `open_namei`: an error, or the inode, the way it was opened, and the
inodes afterwards. -/
def openNamei (state : Descriptors) (flag mode : BitVec 32) (walk : Walk) :
    Except Int (Nat × Opening × Descriptors) :=
  let asked := flag
  let flag := truncFlag flag
  let mode := (mode &&& 0o777 &&& ~~~ state.umask) ||| 0o100000
  let opening (nr : Nat) (created : Bool) : Opening :=
    ⟨asked, state.euid, state.egid, state.inode nr, created⟩
  match walk with
  | .noDirectory => .error (-2)
  | .directory nr =>
      if flag &&& (oAccmode ||| oCreat ||| oTrunc) = 0 then
        .ok (nr, opening nr false, state)
      else .error (-21)
  | .absent directory made =>
      if flag &&& oCreat = 0 then .error (-2)
      else if !permission state.euid state.egid (state.inode directory)
          mayWrite then .error (-13)
      else
        match made with
        | none => .error (-28)
        | some nr =>
            .ok (nr, opening nr true, state.setInode nr
              (state.created (state.inode directory).iDev mode))
  | .found none => if flag &&& oExcl ≠ 0 then .error (-17) else .error (-13)
  | .found (some nr) =>
      if flag &&& oExcl ≠ 0 then .error (-17)
      else if ((state.inode nr).isDir && flag &&& oAccmode ≠ 0) ||
          !permission state.euid state.egid (state.inode nr)
            (accMode flag) then .error (-1)
      else if flag &&& oTrunc ≠ 0 then
        .ok (nr, opening nr false,
          state.setInode nr (truncated (state.inode nr)))
      else .ok (nr, opening nr false, state)

/-- The terminal a process without one gets by opening it; an error for
`/dev/tty` in such a process. -/
def openTty (state : Descriptors) (inode : FileInode) : Option Descriptors :=
  if inode.isChr then
    if inode.iZone0 >>> 8 = 4 then
      if state.leader ∧ state.tty < 0 then
        some { state with tty := (inode.iZone0 &&& 0xff).toNat }
      else some state
    else if inode.iZone0 >>> 8 = 5 then
      if state.tty < 0 then none else some state
    else some state
  else some state

/-- `sys_open`.  While `open_namei` runs the descriptor and the file are
taken; where it fails they are free again. -/
def sysOpen (state : Descriptors) (flag mode : BitVec 32) (walk : Walk) :
    Int × Descriptors :=
  let mode := mode &&& 0o777 &&& ~~~ state.umask
  match (List.finRange 20).find? fun fd => (state.filp fd).isNone with
  | none => (-22, state)
  | some fd =>
      let state := state.keepOnExec fd
      match (List.finRange 64).find? fun slot => (state.file slot).fCount = 0 with
      | none => (-22, state)
      | some slot =>
          match state.openNamei flag mode walk with
          | .error error => (error, state)
          | .ok (nr, opening, state) =>
              match state.openTty (state.inode nr) with
              | none => (-1, state)
              | some state =>
                  (fd.val, ((state.setFilp fd (some slot)).setFile slot
                    { fMode := (state.inode nr).iMode
                      fFlags := flag.setWidth 16
                      fCount := 1
                      fInode := nr
                      fPos := 0 }).setOpening fd (some opening))

/-- `dupfd`. -/
def dupfd (state : Descriptors) (fd arg : Nat) : Int × Descriptors :=
  match (slotOf fd).bind fun fd => (state.filp fd).map fun slot => (fd, slot) with
  | none => (-9, state)
  | some (fd, slot) =>
      if 20 ≤ arg then (-22, state)
      else
        match (List.finRange 20).find? fun free =>
            arg ≤ free.val && (state.filp free).isNone with
        | none => (-24, state)
        | some free =>
            let file := state.file slot
            (free.val, (((state.keepOnExec free).setFilp free
              (some slot)).setFile slot
                { file with fCount := file.fCount + 1 }).setOpening free
                  (state.opening fd))

/-- `sys_close`; without a result where it panics. -/
def sysClose (state : Descriptors) (fd : Nat) : Option (Int × Descriptors) :=
  match slotOf fd with
  | none => some (-22, state)
  | some fd =>
      let state := state.keepOnExec fd
      match state.filp fd with
      | none => some (-22, state)
      | some slot =>
          let file := state.file slot
          if file.fCount = 0 then none
          else
            some (0, (state.setFilp fd none).setFile slot
              { file with fCount := file.fCount - 1 })

def sysDup2 (state : Descriptors) (oldfd newfd : Nat) :
    Option (Int × Descriptors) :=
  (state.sysClose newfd).map fun closed => closed.2.dupfd oldfd newfd

/-- `sys_fcntl`. -/
def sysFcntl (state : Descriptors) (fd : Nat) (cmd : Nat) (arg : BitVec 32) :
    Int × Descriptors :=
  match (slotOf fd).bind fun fd => (state.filp fd).map fun slot => (fd, slot) with
  | none => (-9, state)
  | some (fd, slot) =>
      let file := state.file slot
      match cmd with
      | 0 => state.dupfd fd arg.toNat
      | 1 => (((state.closeOnExec >>> fd.val) &&& 1).toNat, state)
      | 2 =>
          if arg &&& 1 ≠ 0 then
            (0, { state with
              closeOnExec := state.closeOnExec ||| (1#32 <<< fd.val) })
          else (0, state.keepOnExec fd)
      | 3 => (file.fFlags.toNat, state)
      | 4 =>
          (0, state.setFile slot { file with
            fFlags := (file.fFlags &&& ~~~ (oAppend ||| oNonblock)) |||
              (arg.setWidth 16 &&& (oAppend ||| oNonblock)) })
      | _ => (-1, state)

/-- `sys_lseek`. -/
def sysLseek (state : Descriptors) (fd : Nat) (offset : Int) (origin : Nat) :
    Int × Descriptors :=
  match (slotOf fd).bind state.filp with
  | none => (-9, state)
  | some slot =>
      let file := state.file slot
      let inode := state.inode file.fInode
      if ¬ (1 ≤ inode.iDev >>> 8 ∧ inode.iDev >>> 8 ≤ 3) then (-9, state)
      else if inode.iPipe then (-29, state)
      else
        let seek (pos : Int) : Int × Descriptors :=
          if pos < 0 then (-22, state)
          else (pos, state.setFile slot { file with fPos := pos.toNat })
        match origin with
        | 0 => seek offset
        | 1 => seek (long (file.fPos + offset))
        | 2 => seek (long (inode.iSize + offset))
        | _ => (-22, state)

/-- The loop of `file_read`, for at most `passes` passes: what is left and the
position.  A pass reads at least one byte. -/
def readLoop (readable : Nat → Bool) : Nat → Nat → Nat → Nat × Nat
  | 0, left, pos => (left, pos)
  | passes + 1, left, pos =>
      if left ≠ 0 ∧ readable (pos / 1024) then
        let chars := min (1024 - pos % 1024) left
        readLoop readable passes (left - chars) (pos + chars)
      else (left, pos)

/-- `file_read`: the result, the bytes and the file. -/
def fileRead (inode : FileInode) (file : File) (count : Nat)
    (readable : Nat → Bool) : Int × List UInt8 × File :=
  let (left, pos) := readLoop readable count count file.fPos
  (if count - left ≠ 0 then (count - left : Nat) else -99,
    (List.range (count - left)).map fun index => inode.bytes (file.fPos + index),
    { file with fPos := pos })

/-- `sys_read`. -/
def sysRead (state : Descriptors) (fd : Nat) (count : Int)
    (readable : Nat → Bool) (elsewhere : Elsewhere) :
    Int × List UInt8 × Descriptors :=
  match (slotOf fd).bind state.filp with
  | none => (-22, [], state)
  | some slot =>
      let file := state.file slot
      let inode := state.inode file.fInode
      let moved : Int × List UInt8 × Descriptors :=
        (elsewhere.result, [], state.setFile slot
          { file with fPos := elsewhere.pos })
      if count < 0 then (-22, [], state)
      else if count = 0 then (0, [], state)
      else if inode.iPipe then
        (if file.fMode &&& 1 ≠ 0 then elsewhere.result else -5, [], state)
      else if inode.isChr then moved
      else if inode.isBlk then moved
      else if inode.isDir || inode.isReg then
        let count :=
          if inode.iSize < count + file.fPos then
            (inode.iSize - file.fPos : Int)
          else count
        if count ≤ 0 then (0, [], state)
        else
          let (result, bytes, file) :=
            fileRead inode file count.toNat readable
          (result, bytes, state.setFile slot file)
      else (-22, [], state)

/-- The loop of `file_write`, for at most `passes` passes: `i`, `pos` and the
inode.  A pass stores at least one byte. -/
def writeLoop (available : Nat → Bool) (buf : Nat → UInt8) (count : Nat) :
    Nat → Nat → Nat → FileInode → Nat × Nat × FileInode
  | 0, i, pos, inode => (i, pos, inode)
  | passes + 1, i, pos, inode =>
      if i < count ∧ available (pos / 1024) then
        let c := min (1024 - pos % 1024) (count - i)
        writeLoop available buf count passes (i + c) (pos + c)
          { inode with
            iSize := max inode.iSize (pos + c)
            bytes := store inode.bytes pos c fun index => buf (i + index) }
      else (i, pos, inode)

/-- `file_write`; `available` tells for which blocks of the file `create_block`
and `bread` succeed. -/
def fileWrite (inode : FileInode) (file : File) (buf : Nat → UInt8)
    (count : Nat) (available : Nat → Bool) : Int × FileInode × File :=
  let append := file.fFlags &&& oAppend ≠ 0
  let (i, pos, inode) := writeLoop available buf count count 0
    (if append then inode.iSize else file.fPos) inode
  (if i ≠ 0 then i else -1, inode,
    if append then file else { file with fPos := pos })

/-- `sys_write`. -/
def sysWrite (state : Descriptors) (fd : Nat) (buf : Nat → UInt8)
    (count : Int) (available : Nat → Bool) (elsewhere : Elsewhere) :
    Int × Descriptors :=
  match (slotOf fd).bind state.filp with
  | none => (-22, state)
  | some slot =>
      let file := state.file slot
      let inode := state.inode file.fInode
      let moved := state.setFile slot { file with fPos := elsewhere.pos }
      if count < 0 then (-22, state)
      else if count = 0 then (0, state)
      else if inode.iPipe then
        (if file.fMode &&& 2 ≠ 0 then elsewhere.result else -5, state)
      else if inode.isChr then (elsewhere.result, moved)
      else if inode.isBlk then
        (elsewhere.result, { moved with
          inode := fun nr =>
            { state.inode nr with bytes := elsewhere.bytes nr } })
      else if inode.isReg then
        let (result, inode, written) :=
          fileWrite inode file buf count.toNat available
        (result, (state.setFile slot written).setInode file.fInode inode)
      else (-22, state)

end Descriptors

/-- `others` stands for what other processes do: to inodes, and to files this
process has no descriptor of. -/
inductive FileAction where
  | open (flag mode : BitVec 32) (walk : Walk)
  | dup (fildes : Nat)
  | dup2 (oldfd newfd : Nat)
  | close (fd : Nat)
  | fcntl (fd cmd : Nat) (arg : BitVec 32)
  | lseek (fd : Nat) (offset : Int) (origin : Nat)
  | read (fd : Nat) (count : Int) (readable : Nat → Bool)
      (elsewhere : Elsewhere)
  | write (fd : Nat) (buf : Nat → UInt8) (count : Int)
      (available : Nat → Bool) (elsewhere : Elsewhere)
  | others (inode : Nat → FileInode) (file : Fin 64 → File)

/-- The calls of one process on its descriptors. -/
def descriptors : Machine Descriptors FileAction where
  step := fun state action =>
    match action with
    | .open flag mode walk => some (state.sysOpen flag mode walk).2
    | .dup fildes => some (state.dupfd fildes 0).2
    | .dup2 oldfd newfd => (state.sysDup2 oldfd newfd).map (·.2)
    | .close fd => (state.sysClose fd).map (·.2)
    | .fcntl fd cmd arg => some (state.sysFcntl fd cmd arg).2
    | .lseek fd offset origin => some (state.sysLseek fd offset origin).2
    | .read fd count readable elsewhere =>
        some (state.sysRead fd count readable elsewhere).2.2
    | .write fd buf count available elsewhere =>
        some (state.sysWrite fd buf count available elsewhere).2
    | .others inode file =>
        some { state with
          inode
          file := fun slot =>
            if ∃ fd, state.filp fd = some slot then state.file slot
            else file slot }

namespace Opening

/-- Whether the flag asks for writing. -/
def Writable (opening : Opening) : Prop :=
  opening.flag &&& oAccmode ≠ 0 ∨ opening.flag &&& oTrunc ≠ 0

/-- Whether write permission was checked and granted, or the file was
created. -/
def Checked (opening : Opening) : Prop :=
  opening.created = true ∨
    ((opening.flag &&& oAccmode = oWronly ∨ opening.flag &&& oAccmode = oRdwr ∨
        opening.flag &&& oTrunc ≠ 0) ∧
      ∃ mask, mask &&& mayWrite ≠ 0 ∧
        permission opening.euid opening.egid opening.inode mask = true)

/-- The flags of a file have the access mode and `O_TRUNC` of its opening. -/
structure Kept (opening : Opening) (flags : BitVec 16) : Prop where
  accmode : flags &&& 0o3 = opening.flag.setWidth 16 &&& 0o3
  trunc : flags &&& 0o1000 = opening.flag.setWidth 16 &&& 0o1000

end Opening

/-- Nobody but root gets every permission there is. -/
theorem permission_all {euid egid : Nat} (notRoot : euid ≠ 0)
    (inode : FileInode) : permission euid egid inode (-1) = false := by
  have small (mode : BitVec 32) : mode &&& -1 &&& 7 ≠ -1 := by
    intro all
    have bit := congrArg (fun word => word.getLsbD 3) all
    simp only [BitVec.getLsbD_and] at bit
    have clear : (7 : BitVec 32).getLsbD 3 = false := by decide
    rw [clear, Bool.and_false] at bit
    revert bit
    decide
  unfold permission
  dsimp only
  split
  · rfl
  · rw [decide_eq_false (small _), decide_eq_false notRoot]
    rfl

theorem accmode_cases (flag : BitVec 32) :
    flag &&& oAccmode = 0 ∨ flag &&& oAccmode = oWronly ∨
      flag &&& oAccmode = oRdwr ∨ accMode flag = -1 := by
  by_cases none : flag &&& oAccmode = 0
  · exact .inl none
  · by_cases wronly : flag &&& oAccmode = oWronly
    · exact .inr (.inl wronly)
    · by_cases rdwr : flag &&& oAccmode = oRdwr
      · exact .inr (.inr (.inl rdwr))
      · refine .inr (.inr (.inr ?_))
        rw [accMode, if_neg none, if_neg wronly, if_neg rdwr]

theorem and_or_left (word first second : BitVec 32) :
    word &&& (first ||| second) = (word &&& first) ||| (word &&& second) := by
  ext index inside
  simp only [BitVec.getElem_and, BitVec.getElem_or]
  cases word[index] <;> rfl

theorem or_eq_zero {first second : BitVec 32} (zero : first ||| second = 0) :
    first = 0 ∧ second = 0 := by
  constructor <;> ext index inside <;>
    have bit := congrArg (fun word => word[index]) zero <;>
    simp only [BitVec.getElem_or] at bit <;>
    simp_all

/-- A flag that asks for writing makes `open_namei` check write permission. -/
theorem checked_of_permission {state : Descriptors} {flag : BitVec 32}
    {inode : FileInode} (notRoot : state.euid ≠ 0)
    (granted : permission state.euid state.egid inode
      (accMode (Descriptors.truncFlag flag)) = true)
    (writable : flag &&& oAccmode ≠ 0 ∨ flag &&& oTrunc ≠ 0) :
    Opening.Checked ⟨flag, state.euid, state.egid, inode, false⟩ := by
  refine .inr ?_
  dsimp only
  unfold Descriptors.truncFlag at granted
  split at granted <;> rename_i isTrunc
  · have bit : (flag ||| oWronly) &&& oAccmode = oWronly := by
      rw [BitVec.and_comm, and_or_left, BitVec.and_comm oAccmode flag, isTrunc.2]
      decide
    have mask : accMode (flag ||| oWronly) = 2 := by
      rw [accMode, bit]
      decide
    rw [mask] at granted
    exact ⟨.inr (.inr isTrunc.1), 2, by decide, granted⟩
  · rcases accmode_cases flag with none | wronly | rdwr | all
    · have notTrunc : ¬ flag &&& oTrunc ≠ 0 := fun trunc => isTrunc ⟨trunc, none⟩
      rcases writable with some | trunc
      · exact (some none).elim
      · exact (notTrunc trunc).elim
    · have mask : accMode flag = 2 := by
        rw [accMode, wronly]
        decide
      rw [mask] at granted
      exact ⟨.inl wronly, 2, by decide, granted⟩
    · have mask : accMode flag = 6 := by
        rw [accMode, rdwr]
        decide
      rw [mask] at granted
      exact ⟨.inr (.inl rdwr), 6, by decide, granted⟩
    · rw [all, permission_all notRoot] at granted
      cases granted

namespace Descriptors

/-- What `open_namei` leaves alone, and that it checked what was asked. -/
structure Opened (state : Descriptors) (flag : BitVec 32) (opening : Opening)
    (next : Descriptors) : Prop where
  flag : opening.flag = flag
  checked : opening.Writable → opening.Checked
  filp : next.filp = state.filp
  file : next.file = state.file
  opening : next.opening = state.opening
  euid : next.euid = state.euid

theorem truncFlag_keeps {flag : BitVec 32}
    (writable : flag &&& oAccmode ≠ 0 ∨ flag &&& oTrunc ≠ 0) :
    truncFlag flag &&& oAccmode ≠ 0 ∨ truncFlag flag &&& oTrunc ≠ 0 := by
  unfold truncFlag
  split <;> rename_i isTrunc
  · refine .inr ?_
    rw [BitVec.and_comm, and_or_left, BitVec.and_comm oTrunc flag]
    intro zero
    exact isTrunc.1 (or_eq_zero zero).1
  · exact writable

theorem openNamei_opened {state next : Descriptors} {flag mode : BitVec 32}
    {walk : Walk} {nr : Nat} {opening : Opening} (notRoot : state.euid ≠ 0)
    (opens : state.openNamei flag mode walk = .ok (nr, opening, next)) :
    Opened state flag opening next := by
  unfold openNamei at opens
  dsimp only at opens
  cases walk with
  | noDirectory => cases opens
  | directory nr =>
      dsimp only at opens
      split at opens <;> rename_i plain
      · cases opens
        refine ⟨rfl, ?_, rfl, rfl, rfl, rfl⟩
        intro writable
        obtain ⟨both, trunc⟩ := or_eq_zero ((and_or_left _ _ _).symm.trans plain)
        have accmode := (or_eq_zero ((and_or_left _ _ _).symm.trans both)).1
        rcases truncFlag_keeps writable with some | some
        · exact (some accmode).elim
        · exact (some trunc).elim
      · cases opens
  | absent directory made =>
      dsimp only at opens
      split at opens
      · cases opens
      · split at opens
        · cases opens
        · cases made with
          | none => cases opens
          | some nr =>
              cases opens
              exact ⟨rfl, fun _ => .inl rfl, rfl, rfl, rfl, rfl⟩
  | found inode =>
      cases inode with
      | none =>
          dsimp only at opens
          split at opens <;> cases opens
      | some nr =>
          dsimp only at opens
          split at opens
          · cases opens
          · split at opens <;> rename_i refused
            · cases opens
            · rw [Bool.or_eq_true, not_or, Bool.not_eq_true',
                Bool.not_eq_false] at refused
              have granted := refused.2
              split at opens
              · cases opens
                exact ⟨rfl, checked_of_permission notRoot granted, rfl, rfl,
                  rfl, rfl⟩
              · cases opens
                exact ⟨rfl, checked_of_permission notRoot granted, rfl, rfl,
                  rfl, rfl⟩

/-- Every file of the process counts its descriptors, and has the flags of an
opening that was checked if it asked for writing. -/
structure Consistent (state : Descriptors) : Prop where
  notRoot : state.euid ≠ 0
  counted : ∀ fd slot, state.filp fd = some slot →
    (state.file slot).fCount = refs Finset.univ state.filp slot
  opened : ∀ fd slot, state.filp fd = some slot →
    ∃ opening, state.opening fd = some opening ∧
      opening.Kept (state.file slot).fFlags ∧
      (opening.Writable → opening.Checked)

variable {state next : Descriptors}

theorem Consistent.congr (consistent : state.Consistent)
    (euid : next.euid = state.euid) (filp : next.filp = state.filp)
    (file : next.file = state.file) (opening : next.opening = state.opening) :
    next.Consistent := by
  obtain ⟨notRoot, counted, opened⟩ := consistent
  constructor
  · rwa [euid]
  · rwa [filp, file]
  · rwa [filp, file, opening]

/-- A change of a file that keeps its count and its access mode. -/
theorem Consistent.setFile (consistent : state.Consistent) {slot : Fin 64}
    {file : File} (count : file.fCount = (state.file slot).fCount)
    (kept : ∀ opening : Opening, opening.Kept (state.file slot).fFlags →
      opening.Kept file.fFlags) : (state.setFile slot file).Consistent := by
  obtain ⟨notRoot, counted, opened⟩ := consistent
  refine ⟨notRoot, ?_, ?_⟩
  · intro fd other names
    show (if other = slot then file else state.file other).fCount = _
    split <;> rename_i same
    · rw [count, ← same]
      exact counted fd other names
    · exact counted fd other names
  · intro fd other names
    obtain ⟨opening, isOpening, flags, checked⟩ := opened fd other names
    refine ⟨opening, isOpening, ?_, checked⟩
    show opening.Kept (if other = slot then file else state.file other).fFlags
    split <;> rename_i same
    · rw [same] at flags
      exact kept opening flags
    · exact flags

theorem Consistent.seek (consistent : state.Consistent) (slot : Fin 64)
    (pos : Nat) :
    (state.setFile slot { state.file slot with fPos := pos }).Consistent :=
  consistent.setFile rfl fun _ kept => kept

/-- A new descriptor `fd` of a file. -/
theorem Consistent.install (consistent : state.Consistent) {fd : Fin 20}
    {slot : Fin 64} {file : File} {opening : Opening}
    (free : state.filp fd = none) (euid : next.euid = state.euid)
    (filp : ∀ other, next.filp other =
      if other = fd then some slot else state.filp other)
    (files : ∀ other, next.file other =
      if other = slot then file else state.file other)
    (openings : ∀ other, next.opening other =
      if other = fd then some opening else state.opening other)
    (count : file.fCount = refs Finset.univ state.filp slot + 1)
    (kept : opening.Kept file.fFlags)
    (checked : opening.Writable → opening.Checked)
    (same : ∀ other, state.filp other = some slot →
      file.fFlags = (state.file slot).fFlags) : next.Consistent := by
  obtain ⟨notRoot, counted, opened⟩ := consistent
  have moved (target : Fin 64) :
      refs Finset.univ next.filp target =
        refs Finset.univ state.filp target + weight (some slot) target := by
    have redirected := refs_redirect state.filp next.filp
      (Finset.mem_univ fd) (fun other _ different => by
        rw [filp, if_neg different]) target
    rw [free, filp, if_pos rfl] at redirected
    exact redirected
  refine ⟨by rwa [euid], ?_, ?_⟩
  · intro other target names
    rw [filp] at names
    rw [files, moved]
    by_cases isSlot : target = slot
    · rw [if_pos isSlot, isSlot, weight_self]
      exact count
    · have wasNamed : state.filp other = some target := by
        split at names
        · exact (isSlot (Option.some.inj names).symm).elim
        · exact names
      rw [if_neg isSlot, weight_of_ne (Ne.symm isSlot)]
      exact counted other target wasNamed
  · intro other target names
    rw [filp] at names
    rw [openings, files]
    by_cases isNew : other = fd
    · rw [if_pos isNew, Option.some.injEq] at names
      rw [if_pos isNew, if_pos names.symm]
      exact ⟨opening, rfl, kept, checked⟩
    · rw [if_neg isNew] at names
      rw [if_neg isNew]
      obtain ⟨old, isOpening, flags, oldChecked⟩ := opened other target names
      refine ⟨old, isOpening, ?_, oldChecked⟩
      split <;> rename_i isSlot
      · rw [isSlot] at names flags
        rw [same other names]
        exact flags
      · exact flags

/-- A descriptor `fd` given up. -/
theorem Consistent.release (consistent : state.Consistent) {fd : Fin 20}
    {slot : Fin 64} (named : state.filp fd = some slot) :
    ((state.setFilp fd none).setFile slot
      { state.file slot with
        fCount := (state.file slot).fCount - 1 }).Consistent := by
  obtain ⟨notRoot, counted, opened⟩ := consistent
  have moved (target : Fin 64) :
      refs Finset.univ (state.setFilp fd none).filp target +
        weight (some slot) target = refs Finset.univ state.filp target := by
    have redirected := refs_redirect state.filp (state.setFilp fd none).filp
      (Finset.mem_univ fd) (fun other _ different => if_neg different) target
    have gone : (state.setFilp fd none).filp fd = none := if_pos rfl
    rw [named, gone] at redirected
    exact redirected
  have stays {other : Fin 20} {target : Fin 64}
      (names : (state.setFilp fd none).filp other = some target) :
      state.filp other = some target := by
    have found : (if other = fd then none else state.filp other) =
        some target := names
    split at found
    · cases found
    · exact found
  refine ⟨notRoot, ?_, ?_⟩
  · intro other target names
    have before := moved target
    have wasCounted := counted other target (stays names)
    show (if target = slot then _ else state.file target : File).fCount = _
    by_cases isSlot : target = slot
    · rw [isSlot, weight_self] at before
      rw [isSlot] at wasCounted
      rw [if_pos isSlot, isSlot]
      show (state.file slot).fCount - 1 = refs Finset.univ
        (state.setFilp fd none).filp slot
      omega
    · rw [weight_of_ne (Ne.symm isSlot)] at before
      rw [if_neg isSlot]
      show (state.file target).fCount = refs Finset.univ
        (state.setFilp fd none).filp target
      omega
  · intro other target names
    obtain ⟨opening, isOpening, flags, checked⟩ :=
      opened other target (stays names)
    refine ⟨opening, isOpening, ?_, checked⟩
    show opening.Kept (if target = slot then _
      else state.file target : File).fFlags
    split <;> rename_i isSlot
    · rw [← isSlot]
      exact flags
    · exact flags

theorem openTty_frame {inode : FileInode}
    (opens : state.openTty inode = some next) :
    next.euid = state.euid ∧ next.filp = state.filp ∧
      next.file = state.file ∧ next.opening = state.opening := by
  unfold openTty at opens
  split at opens
  · split at opens
    · split at opens <;> rw [← Option.some.inj opens] <;>
        exact ⟨rfl, rfl, rfl, rfl⟩
    · split at opens
      · split at opens
        · cases opens
        · rw [← Option.some.inj opens]
          exact ⟨rfl, rfl, rfl, rfl⟩
      · rw [← Option.some.inj opens]
        exact ⟨rfl, rfl, rfl, rfl⟩
  · rw [← Option.some.inj opens]
    exact ⟨rfl, rfl, rfl, rfl⟩

theorem Consistent.open (consistent : state.Consistent)
    (flag mode : BitVec 32) (walk : Walk) :
    (state.sysOpen flag mode walk).2.Consistent := by
  unfold sysOpen
  dsimp only
  split
  · exact consistent
  · rename_i fd isFree
    have kept : (state.keepOnExec fd).Consistent :=
      consistent.congr rfl rfl rfl rfl
    have free : (state.keepOnExec fd).filp fd = none := by
      have isNone := List.find?_some isFree
      exact Option.isNone_iff_eq_none.mp isNone
    generalize state.keepOnExec fd = start at *
    split
    · exact kept
    · rename_i slot isUnused
      have test := List.find?_some isUnused
      have unused : (start.file slot).fCount = 0 := of_decide_eq_true test
      split
      · exact kept
      · rename_i nr opening middle opens
        have openedAs := openNamei_opened kept.notRoot opens
        have middleKept : middle.Consistent :=
          kept.congr openedAs.euid openedAs.filp openedAs.file openedAs.opening
        split
        · exact middleKept
        · rename_i final isTty
          obtain ⟨sameEuid, sameFilp, sameFile, sameOpening⟩ := openTty_frame isTty
          have finalKept : final.Consistent :=
            middleKept.congr sameEuid sameFilp sameFile sameOpening
          have finalFree : final.filp fd = none := by
            rw [sameFilp, openedAs.filp]
            exact free
          have unheld : ∀ other, final.filp other ≠ some slot := by
            intro other names
            have positive : 0 < refs Finset.univ final.filp slot :=
              refs_pos_iff.mpr ⟨other, Finset.mem_univ other, names⟩
            rw [← finalKept.counted other slot names, sameFile, openedAs.file,
              unused] at positive
            exact Nat.lt_irrefl 0 positive
          refine finalKept.install finalFree rfl (fun _ => rfl) (fun _ => rfl)
            (fun _ => rfl) ?_ ?_ openedAs.checked
              (fun other names => (unheld other names).elim)
          · have none : refs Finset.univ final.filp slot = 0 :=
              refs_eq_zero_iff.mpr fun other _ => unheld other
            rw [none]
          · rw [← openedAs.flag]
            exact ⟨rfl, rfl⟩

/-- What a successful look at a descriptor tells. -/
theorem named_of_lookup {fd : Nat} {found : Fin 20} {slot : Fin 64}
    (lookup : ((slotOf fd).bind fun fd =>
      (state.filp fd).map fun slot => (fd, slot)) = some (found, slot)) :
    state.filp found = some slot := by
  obtain ⟨index, _, named⟩ := Option.bind_eq_some_iff.mp lookup
  obtain ⟨held, isHeld, same⟩ := Option.map_eq_some_iff.mp named
  cases same
  exact isHeld

theorem Consistent.dupfd (consistent : state.Consistent) (fd arg : Nat) :
    (state.dupfd fd arg).2.Consistent := by
  unfold Descriptors.dupfd
  split
  · exact consistent
  · rename_i fd slot lookup
    have named := named_of_lookup lookup
    split
    · exact consistent
    · split
      · exact consistent
      · rename_i free isFree
        have test := List.find?_some isFree
        rw [Bool.and_eq_true] at test
        have isNone := Option.isNone_iff_eq_none.mp test.2
        obtain ⟨opening, isOpening, kept, checked⟩ :=
          consistent.opened fd slot named
        dsimp only
        rw [isOpening]
        refine consistent.install isNone rfl (fun _ => rfl) (fun _ => rfl)
          (fun _ => rfl) ?_ kept checked (fun _ _ => rfl)
        rw [← consistent.counted fd slot named]

theorem Consistent.close (consistent : state.Consistent) {fd : Nat}
    {closed : Int × Descriptors} (closes : state.sysClose fd = some closed) :
    closed.2.Consistent := by
  unfold sysClose at closes
  split at closes
  · rw [← Option.some.inj closes]
    exact consistent
  · rename_i fd _
    have kept : (state.keepOnExec fd).Consistent :=
      consistent.congr rfl rfl rfl rfl
    dsimp only at closes
    split at closes
    · rw [← Option.some.inj closes]
      exact kept
    · rename_i slot named
      split at closes
      · cases closes
      · rw [← Option.some.inj closes]
        exact kept.release named

/-- Setting and clearing flags outside a mask leaves what the mask shows. -/
theorem and_setFlags (flags arg keep mask : BitVec 16)
    (apart : keep &&& mask = 0) :
    ((flags &&& ~~~ keep) ||| (arg &&& keep)) &&& mask = flags &&& mask := by
  ext index inside
  have bit : (keep &&& mask)[index] = false := by
    rw [apart]
    exact BitVec.getElem_zero inside
  simp only [BitVec.getElem_and, BitVec.getElem_or, BitVec.getElem_not] at bit ⊢
  revert bit
  cases flags[index] <;> cases arg[index] <;> cases keep[index] <;>
    cases mask[index] <;> decide

theorem Consistent.fcntl (consistent : state.Consistent) (fd cmd : Nat)
    (arg : BitVec 32) : (state.sysFcntl fd cmd arg).2.Consistent := by
  unfold sysFcntl
  split
  · exact consistent
  · dsimp only
    split
    · exact consistent.dupfd _ _
    · exact consistent
    · split
      · exact consistent.congr rfl rfl rfl rfl
      · exact consistent.congr rfl rfl rfl rfl
    · exact consistent
    · refine consistent.setFile ?_ ?_
      · rfl
      rintro opening ⟨accmode, trunc⟩
      refine ⟨?_, ?_⟩
      · rw [← accmode]
        exact and_setFlags _ _ _ _ (by decide)
      · rw [← trunc]
        exact and_setFlags _ _ _ _ (by decide)
    · exact consistent

theorem Consistent.lseek (consistent : state.Consistent) (fd : Nat)
    (offset : Int) (origin : Nat) :
    (state.sysLseek fd offset origin).2.Consistent := by
  unfold sysLseek
  split
  · exact consistent
  · rename_i slot _
    dsimp only
    split
    · exact consistent
    · split
      · exact consistent
      · split
        · split
          · exact consistent
          · exact consistent.seek slot _
        · split
          · exact consistent
          · exact consistent.seek slot _
        · split
          · exact consistent
          · exact consistent.seek slot _
        · exact consistent

theorem Consistent.read (consistent : state.Consistent) (fd : Nat)
    (count : Int) (readable : Nat → Bool) (elsewhere : Elsewhere) :
    (state.sysRead fd count readable elsewhere).2.2.Consistent := by
  unfold sysRead
  split
  · exact consistent
  · rename_i slot _
    dsimp only
    repeat' split
    all_goals first
      | exact consistent
      | exact consistent.seek slot _

theorem Consistent.write (consistent : state.Consistent) (fd : Nat)
    (buf : Nat → UInt8) (count : Int) (available : Nat → Bool)
    (elsewhere : Elsewhere) :
    (state.sysWrite fd buf count available elsewhere).2.Consistent := by
  unfold sysWrite
  split
  · exact consistent
  · rename_i slot _
    have moved := consistent.seek slot elsewhere.pos
    dsimp only
    split
    · exact consistent
    · split
      · exact consistent
      · split
        · exact consistent
        · split
          · exact moved
          · split
            · exact moved.congr rfl rfl rfl rfl
            · split
              · have written : (state.setFile slot
                    (fileWrite (state.inode (state.file slot).fInode)
                      (state.file slot) buf count.toNat
                      available).2.2).Consistent := by
                  unfold fileWrite
                  dsimp only
                  apply consistent.setFile
                  · split <;> rfl
                  · intro opening kept
                    split <;> exact kept
                exact written.congr rfl rfl rfl rfl
              · exact consistent

theorem Consistent.step {action : FileAction} (consistent : state.Consistent)
    (steps : descriptors.step state action = some next) : next.Consistent := by
  cases action with
  | «open» flag mode walk =>
      rw [← Option.some.inj steps]
      exact consistent.open flag mode walk
  | dup fildes =>
      rw [← Option.some.inj steps]
      exact consistent.dupfd fildes 0
  | dup2 oldfd newfd =>
      obtain ⟨result, dup, rfl⟩ := Option.map_eq_some_iff.mp steps
      obtain ⟨closed, closes, rfl⟩ := Option.map_eq_some_iff.mp dup
      exact (consistent.close closes).dupfd oldfd newfd
  | close fd =>
      obtain ⟨closed, closes, rfl⟩ := Option.map_eq_some_iff.mp steps
      exact consistent.close closes
  | fcntl fd cmd arg =>
      rw [← Option.some.inj steps]
      exact consistent.fcntl fd cmd arg
  | lseek fd offset origin =>
      rw [← Option.some.inj steps]
      exact consistent.lseek fd offset origin
  | read fd count readable elsewhere =>
      rw [← Option.some.inj steps]
      exact consistent.read fd count readable elsewhere
  | write fd buf count available elsewhere =>
      rw [← Option.some.inj steps]
      exact consistent.write fd buf count available elsewhere
  | others inode file =>
      rw [← Option.some.inj steps]
      have held {fd : Fin 20} {slot : Fin 64}
          (named : state.filp fd = some slot) :
          ∃ fd, state.filp fd = some slot := ⟨fd, named⟩
      refine ⟨consistent.notRoot, ?_, ?_⟩
      · intro fd slot named
        dsimp only
        rw [if_pos (held named)]
        exact consistent.counted fd slot named
      · intro fd slot named
        dsimp only
        rw [if_pos (held named)]
        exact consistent.opened fd slot named

/-- A write to a regular file or a block device goes through a descriptor that
was opened for writing or with `O_TRUNC`, or whose opening created the file. -/
def WrittenAsOpened (state : Descriptors) : FileAction → Prop
  | .write fd _ count _ _ => 0 < count → ∀ index : Fin 20, index.val = fd →
      ∀ slot ∈ state.filp index,
        let inode := state.inode (state.file slot).fInode
        inode.isReg = true ∨ inode.isBlk = true →
          (state.file slot).fFlags &&& 0o3 ≠ 0 ∨
            (state.file slot).fFlags &&& 0o1000 ≠ 0 ∨
            (state.opening index).any (·.created) = true
  | _ => True

instance (state : Descriptors) (action : FileAction) :
    Decidable (state.WrittenAsOpened action) := by
  unfold WrittenAsOpened
  cases action <;> dsimp only <;> infer_instance

/-- Only writes to regular files and block devices reach any file. -/
theorem sysWrite_inode {fd : Nat} {buf : Nat → UInt8} {count : Int}
    {available : Nat → Bool} {elsewhere : Elsewhere} {slot : Fin 64}
    (lookup : (slotOf fd).bind state.filp = some slot)
    (elsewhereOnly : count ≤ 0 ∨
      ¬ ((state.inode (state.file slot).fInode).isReg = true ∨
        (state.inode (state.file slot).fInode).isBlk = true)) :
    (state.sysWrite fd buf count available elsewhere).2.inode =
      state.inode := by
  unfold sysWrite
  rw [lookup]
  dsimp only
  split <;> rename_i negative
  · rfl
  · split <;> rename_i zero
    · rfl
    · have other : ¬ ((state.inode (state.file slot).fInode).isReg = true ∨
          (state.inode (state.file slot).fInode).isBlk = true) := by
        rcases elsewhereOnly with nothing | other
        · omega
        · exact other
      split
      · rfl
      · split
        · rfl
        · split <;> rename_i isBlk
          · exact (other (.inr isBlk)).elim
          · split <;> rename_i isReg
            · exact (other (.inl isReg)).elim
            · rfl

theorem writable_of_kept {opening : Opening} {flags : BitVec 16}
    (kept : opening.Kept flags)
    (writes : flags &&& 0o3 ≠ 0 ∨ flags &&& 0o1000 ≠ 0) :
    opening.Writable := by
  rcases writes with accmode | trunc
  · refine .inl fun none => accmode ?_
    have narrow := congrArg (BitVec.setWidth 16) none
    rw [BitVec.setWidth_and] at narrow
    exact kept.accmode.trans narrow
  · refine .inr fun none => trunc ?_
    have narrow := congrArg (BitVec.setWidth 16) none
    rw [BitVec.setWidth_and] at narrow
    exact kept.trunc.trans narrow

end Descriptors

open Descriptors

/-- If every write goes through a descriptor that was opened for writing, a
write that changes the contents or the size of any file goes through one whose
opening checked write permission or created the file. -/
theorem sysWrite_checked {start state next : Descriptors} {fd : Nat}
    {buf : Nat → UInt8} {count : Int} {available : Nat → Bool}
    {elsewhere : Elsewhere} (notRoot : start.euid ≠ 0)
    (noneOpen : ∀ fd, start.filp fd = none)
    (reached : descriptors.Reachable WrittenAsOpened start state)
    (asOpened : WrittenAsOpened state
      (.write fd buf count available elsewhere))
    (steps : descriptors.step state
      (.write fd buf count available elsewhere) = some next)
    (changes : ∃ nr, (next.inode nr).bytes ≠ (state.inode nr).bytes ∨
      (next.inode nr).iSize ≠ (state.inode nr).iSize) :
    ∃ (index : Fin 20) (opening : Opening), index.val = fd ∧
      state.opening index = some opening ∧ opening.Checked := by
  have consistent : state.Consistent := by
    apply reached.invariant
    · refine ⟨notRoot, ?_, ?_⟩
      · intro fd slot named
        rw [noneOpen fd] at named
        cases named
      · intro fd slot named
        rw [noneOpen fd] at named
        cases named
    · exact fun _ _ _ consistent _ steps => consistent.step steps
  cases lookup : (slotOf fd).bind state.filp with
  | none =>
      obtain ⟨nr, changed⟩ := changes
      rw [← Option.some.inj steps] at changed
      unfold sysWrite at changed
      rw [lookup] at changed
      rcases changed with bytes | size
      · exact (bytes rfl).elim
      · exact (size rfl).elim
  | some slot =>
      obtain ⟨index, inRange, named⟩ := Option.bind_eq_some_iff.mp lookup
      have isFd : index.val = fd := by
        unfold slotOf at inRange
        split at inRange
        · rw [← Option.some.inj inRange]
        · cases inRange
      obtain ⟨opening, isOpening, kept, checked⟩ :=
        consistent.opened index slot named
      refine ⟨index, opening, isFd, isOpening, ?_⟩
      have reaches : 0 < count ∧
          ((state.inode (state.file slot).fInode).isReg = true ∨
            (state.inode (state.file slot).fInode).isBlk = true) := by
        by_contra both
        have elsewhereOnly : count ≤ 0 ∨
            ¬ ((state.inode (state.file slot).fInode).isReg = true ∨
              (state.inode (state.file slot).fInode).isBlk = true) := by
          by_cases positive : 0 < count
          · exact .inr fun reached => both ⟨positive, reached⟩
          · exact .inl (Int.not_lt.mp positive)
        have same : next.inode = state.inode := by
          rw [← Option.some.inj steps]
          exact sysWrite_inode lookup elsewhereOnly
        obtain ⟨nr, bytes | size⟩ := changes
        · exact bytes (by rw [same])
        · exact size (by rw [same])
      rcases asOpened reaches.1 index isFd slot named reaches.2 with
        accmode | trunc | made
      · exact checked (writable_of_kept kept (.inl accmode))
      · exact checked (writable_of_kept kept (.inr trunc))
      · rw [isOpening] at made
        exact .inl made

/-- An ordinary user's process, in a system whose files all belong to root and
have one mode. -/
def ordinaryUser (iMode : BitVec 16) : Descriptors where
  euid := 1000
  egid := 100
  umask := 0o22
  leader := false
  tty := 0
  closeOnExec := 0
  filp := fun _ => none
  file := fun _ => ⟨0, 0, 0, 0, 0⟩
  inode := fun _ =>
    { iMode
      iUid := 0
      iGid := 0
      iDev := 0x301
      iNlinks := 1
      iPipe := false
      iZone0 := 0
      iSize := 0
      bytes := fun _ => 0 }
  opening := fun _ => none

/-- A write of one byte to the first descriptor. -/
def writeOne : FileAction :=
  .write 0 (fun _ => 7) 1 (fun _ => true) ⟨0, 0, fun _ _ => 0⟩

theorem sysWrite_checked_shared :
    ∃ state next, descriptors.run WrittenAsOpened (ordinaryUser 0o100666)
        [.open oRdwr 0 (.found (some 5))] = some state ∧
      descriptors.step state writeOne = some next ∧
      (next.inode 5).iSize = 1 ∧
      ∃ (index : Fin 20) (opening : Opening), index.val = 0 ∧
        state.opening index = some opening ∧ opening.Checked := by
  refine ⟨_, _, rfl, rfl, rfl, ?_⟩
  have notRoot : (ordinaryUser 0o100666).euid ≠ 0 := by decide
  have runs : descriptors.run WrittenAsOpened (ordinaryUser 0o100666)
      [.open oRdwr 0 (.found (some 5))] = some _ := rfl
  have steps : descriptors.step
      ((ordinaryUser 0o100666).sysOpen oRdwr 0 (.found (some 5))).2
      (.write 0 (fun _ => 7) 1 (fun _ => true) ⟨0, 0, fun _ _ => 0⟩) =
        some _ := rfl
  refine sysWrite_checked notRoot (fun _ => rfl)
    (Machine.reachable_of_run .start runs) ?_ steps ⟨5, .inr ?_⟩
  · decide
  · decide

/-- A file only root may write, opened for reading and written. -/
theorem sysWrite_unchecked :
    ∃ state next, descriptors.run Machine.anything (ordinaryUser 0o100444)
        [.open 0 0 (.found (some 5))] = some state ∧
      descriptors.step state writeOne = some next ∧
      (next.inode 5).bytes ≠ (state.inode 5).bytes ∧
      ∀ (index : Fin 20) (opening : Opening), index.val = 0 →
        state.opening index = some opening → ¬ opening.Checked := by
  refine ⟨_, _, rfl, rfl, ?_, ?_⟩
  · intro same
    have byte := congrFun same 0
    revert byte
    decide
  · intro index opening isFirst isOpening
    have isZero : index = 0 := Fin.ext isFirst
    subst isZero
    cases isOpening
    rintro (made | ⟨asked, _⟩)
    · cases made
    · revert asked
      decide

end Linux011.Fs

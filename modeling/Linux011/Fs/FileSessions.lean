import Linux011.Fs.FileBytes
import Linux011.Fs.Truncate
import Linux011.Library.Traces

/-!
# What processes see of their files

A machine of open files and sequences of bytes knows nothing of zones, maps and
buffers.  Whatever calls of `sys_read`, `sys_write` and `sys_lseek` return, in
any order, on any descriptors and with files truncated between them, it can
return too; and at the end the files of the volume hold what its files hold.
On the way no zone is lost, and none comes to belong to two files.
-/

namespace Linux011.Fs

open Coop Prog ByteFiles Machines Sched

/-! ## The machine of bytes -/

/-- A call on an open file, or on the inode of a file. -/
inductive ByteCall where
  | lseek (fd : Nat) (offset : BitVec 32) (origin : Nat)
  | read (fd : Nat) (count : BitVec 32)
  | write (fd : Nat) (buf : Nat → UInt8) (count : BitVec 32)
  /-- As `open_namei` does it with `O_TRUNC`. -/
  | truncate (nr : Nat)

/-- What a call returns, and the bytes that it puts into the buffer of the
caller. -/
structure Reply where
  result : Int
  bytes : List UInt8

/-- Open files, and the bytes of the files. -/
structure ByteStore where
  files : FileTable
  holds : Nat → ByteFile

namespace ByteStore

variable (store : ByteStore)

/-- One of the files is changed. -/
def change (nr : Nat) (change : ByteFile → ByteFile) : ByteStore :=
  { store with
    holds := fun other => onFile nr change other (store.holds other) }

/-- A position that is set, if it is one. -/
def seek (slot : Fin 64) (pos : Int) : Reply × ByteStore :=
  if pos < 0 then (⟨-22, []⟩, store)
  else (⟨pos, []⟩, { store with files := store.files.setPos slot pos })

/-- Of the files of a disk of `dev`. -/
def lseek (dev fd : Nat) (offset : BitVec 32) (origin : Nat) :
    Reply × ByteStore :=
  match store.files.slotAt fd with
  | none => (⟨-9, []⟩, store)
  | some slot =>
      let file := store.files.file slot
      if ¬(1 ≤ major dev ∧ major dev ≤ 3) then (⟨-9, []⟩, store)
      else
        match origin with
        | 0 => store.seek slot offset.toInt
        | 1 => store.seek slot (long (file.fPos + offset.toInt))
        | 2 => store.seek slot
            (long ((store.holds file.fInode).size + offset.toInt))
        | _ => (⟨-22, []⟩, store)

/-- The bytes from the position on, as many as there are. -/
def read (fd : Nat) (count : BitVec 32) : Reply × ByteStore :=
  match store.files.slotAt fd with
  | none => (⟨-22, []⟩, store)
  | some slot =>
      let file := store.files.file slot
      if count.toInt < 0 then (⟨-22, []⟩, store)
      else
        let bytes := (store.holds file.fInode).read file.fPos.toNat
          count.toInt.toNat
        (⟨bytes.length, bytes⟩,
          { store with
            files := store.files.setPos slot (file.fPos + bytes.length) })

/-- A first part of the buffer is written, of `stored` bytes: at the end of the
file if it is open for appending, where the position stays, and at the position
otherwise. -/
def write (fd : Nat) (buf : Nat → UInt8) (count : BitVec 32) (stored : Nat) :
    Reply × ByteStore :=
  match store.files.slotAt fd with
  | none => (⟨-22, []⟩, store)
  | some slot =>
      let file := store.files.file slot
      let nr := file.fInode
      if count.toInt < 0 then (⟨-22, []⟩, store)
      else if count.toInt = 0 then (⟨0, []⟩, store)
      else
        let append := file.fFlags &&& oAppend ≠ 0
        let place := if append then (store.holds nr).size else file.fPos.toNat
        (⟨if stored ≠ 0 then stored else -1, []⟩,
          { store.change nr (fun file => file.write place stored buf) with
            files := store.files.setPos slot
              (if append then file.fPos else file.fPos + stored) })

/-- The file loses its bytes. -/
def truncate (nr : Nat) : Reply × ByteStore :=
  (⟨0, []⟩, store.change nr fun _ => .empty)

/-- A call, what it returns, and the store after it. -/
def Step (dev : Nat) (before : ByteStore) (event : ByteCall × Reply)
    (after : ByteStore) : Prop :=
  match event.1 with
  | .lseek fd offset origin =>
      before.lseek dev fd offset origin = (event.2, after)
  | .read fd count => before.read fd count = (event.2, after)
  | .write fd buf count => ∃ stored : Nat, (stored : Int) ≤ max 0 count.toInt ∧
      before.write fd buf count stored = (event.2, after)
  | .truncate nr => before.truncate nr = (event.2, after)

end ByteStore

/-! ## The calls of the kernel -/

namespace ByteCall

/-- The call, and the open files after it. -/
def program (fuel : Nat) (files : FileTable) (device : DeviceCall) :
    ByteCall → Sys (Reply × FileTable)
  | .lseek fd offset origin => do
      let (result, files) ← sysLseek files fd offset origin
      return (⟨result, []⟩, files)
  | .read fd count => do
      let (result, bytes, files) ← sysRead fuel files fd count device
      return (⟨result, bytes⟩, files)
  | .write fd buf count => do
      let (result, files) ← sysWrite fuel files fd buf count device
      return (⟨result, []⟩, files)
  | .truncate nr => do
      Fs.truncate fuel nr
      return (⟨0, []⟩, files)

/-- The call is about one of these files, or none.  No write goes past the last
block that can be mapped. -/
def Allowed (held : Set Nat) (files : FileTable) (kernel : Kernel) :
    ByteCall → Prop
  | .lseek fd _ _ | .read fd _ => ∀ slot, files.slotAt fd = some slot →
      (files.file slot).fInode ∈ held
  | .write fd _ count => ∀ slot, files.slotAt fd = some slot →
      (files.file slot).fInode ∈ held ∧
        (files.file slot).start (kernel.inodes (files.file slot).fInode) +
          count.toInt ≤ mappedBytes
  | .truncate nr => nr ∈ held

instance (held : Set Nat) [DecidablePred (· ∈ held)] (files : FileTable)
    (kernel : Kernel) (call : ByteCall) :
    Decidable (call.Allowed held files kernel) :=
  match call with
  | .lseek fd _ _ | .read fd _ =>
      inferInstanceAs (Decidable (∀ slot, files.slotAt fd = some slot → _ ∈ held))
  | .write fd _ count =>
      inferInstanceAs (Decidable (∀ slot, files.slotAt fd = some slot →
        (files.file slot).fInode ∈ held ∧
          (files.file slot).start (kernel.inodes (files.file slot).fInode) +
            count.toInt ≤ mappedBytes))
  | .truncate nr => inferInstanceAs (Decidable (nr ∈ held))

end ByteCall

/-- Requests are served, and then a call begins and returns. -/
def CallStep (fuel : Nat) (held : Set Nat) (before : FileTable × Kernel)
    (event : ByteCall × Reply) (after : FileTable × Kernel) : Prop :=
  ∃ state device, Io before.2 state ∧
    event.1.Allowed held before.1 state ∧
    (event.1.program fuel before.1 device state).MayReturn False Io
      (event.2, after.1) after.2

/-- The files of a volume, none too large to be mapped, and the positions of
a 32-bit machine.  Nobody works with a data zone, and no two blocks of the zone
map share a buffer. -/
structure BytesHeld (dev sb limit : Nat) (held : Set Nat) (files : FileTable)
    (kernel : Kernel) : Prop extends FilesHeld dev sb limit held kernel where
  rest : AtRest dev sb kernel
  apart : (kernel.supers sb).MapsApart
  size : ∀ index ∈ held, (kernel.inodes index).size ≤ mappedBytes
  lower : ∀ slot, (files.file slot).fInode ∈ held →
    0 ≤ (files.file slot).fPos
  upper : ∀ slot, (files.file slot).fInode ∈ held →
    (files.file slot).fPos < 2147483648

/-- The store that the kernel implements, with the zones in use that are not of
these files. -/
structure Implements (dev sb limit : Nat) (held others : Set Nat)
    (state : FileTable × Kernel) (store : ByteStore) : Prop
    extends BytesHeld dev sb limit held state.1 state.2 where
  sameFiles : store.files = state.1
  sameBytes : ∀ index ∈ held, store.holds index = state.2.fileAt index
  ledger : Ledger sb held others state.2

section Calls

variable {dev sb limit index fuel : Nat} {kernel next : Kernel}
  {held others : Set Nat} {files after : FileTable} {store : ByteStore}
  {slot : Fin 64}

theorem setPos_same : files.setPos slot (files.file slot).fPos = files := by
  unfold FileTable.setPos FileTable.setFile
  congr 1
  funext other
  split <;> rename_i here
  · rw [here]
  · rfl

theorem regular_plain {inode : Inode} (isRegular : inode.isRegular = true) :
    (inode.isChrDevice || inode.isBlockDevice) = false := by
  unfold Inode.isRegular at isRegular
  unfold Inode.isChrDevice Inode.isBlockDevice
  rw [eq_of_beq isRegular]
  rfl

/-- What is left of a file behind the position. -/
theorem readCount_eq {file : OpenFile} {inode : Inode} {pos count : Nat}
    (isPos : file.fPos = pos) (small : pos < 2147483648)
    (few : count < 2147483648) (size : inode.size ≤ mappedBytes) :
    (file.readCount inode count).toNat = min count (inode.size - pos) := by
  have limit : mappedBytes = 268966912 := rfl
  unfold OpenFile.readCount unsignedLong
  rw [isPos]
  split <;> rename_i past
  · rw [long_of_fits (by omega) (by omega)]
    omega
  · omega

section Holds

variable (holds : Implements dev sb limit held others (files, kernel) store)

include holds

/-- What the files hold was changed, and none became too large. -/
theorem Implements.changed {change : Nat → ByteFile → ByteFile}
    (changed : FilesChanged dev sb limit held change kernel next)
    (small : ∀ index ∈ held,
      (change index (kernel.fileAt index)).size ≤ mappedBytes) :
    Implements dev sb limit held others (files, next)
      { store with holds := fun other => change other (store.holds other) } where
  toFilesHeld := changed.files
  size := by
    intro index isHeld
    have same := congrArg ByteFile.size (changed.same index isHeld)
    exact (show (next.inodes index).size = _ from same) ▸ small index isHeld
  rest := holds.rest.carried changed.carried
  apart := by
    rw [changed.carried.supers]
    exact holds.apart
  lower := holds.lower
  upper := holds.upper
  sameFiles := holds.sameFiles
  sameBytes := by
    intro index isHeld
    rw [changed.same index isHeld, ← holds.sameBytes index isHeld]
  ledger := changed.ledger holds.apart others holds.ledger

theorem Implements.kept (kept : FilesKept dev sb limit held kernel next) :
    Implements dev sb limit held others (files, next) store :=
  holds.changed kept holds.size

/-- A position is set. -/
theorem Implements.moved
    (slot : Fin 64) {pos : Int} (lower : 0 ≤ pos) (upper : pos < 2147483648) :
    Implements dev sb limit held others (files.setPos slot pos, kernel)
      { store with files := files.setPos slot pos } where
  toFilesHeld := holds.toFilesHeld
  rest := holds.rest
  apart := holds.apart
  size := holds.size
  lower := by
    intro other
    show (if other = slot then _ else files.file other : OpenFile).fInode ∈ _ →
      0 ≤ (if other = slot then _ else files.file other : OpenFile).fPos
    split
    · exact fun _ => lower
    · exact holds.lower other
  upper := by
    intro other
    show (if other = slot then _ else files.file other : OpenFile).fInode ∈ _ →
      (if other = slot then _ else files.file other : OpenFile).fPos < _
    split
    · exact fun _ => upper
    · exact holds.upper other
  sameFiles := rfl
  sameBytes := holds.sameBytes
  ledger := holds.ledger

theorem Implements.seek_wp {pos : Int} (upper : pos < 2147483648) :
    (if pos < 0 then pure (-22, files) else pure (pos, files.setPos slot pos)
      : Sys (Int × FileTable)).wp .uncrossed Io
      (fun result next => ∃ after,
        store.seek slot pos = (⟨result.1, []⟩, after) ∧
          Implements dev sb limit held others (result.2, next) after) kernel := by
  unfold ByteStore.seek
  rw [holds.sameFiles]
  split <;> rename_i sign
  · exact ⟨_, rfl, holds⟩
  · exact ⟨_, rfl, holds.moved slot (Int.not_lt.mp sign) upper⟩

theorem Implements.lseek_wp {fd : Nat}
    (isHeld : ∀ slot, files.slotAt fd = some slot →
      (files.file slot).fInode ∈ held) (offset : BitVec 32) (origin : Nat) :
    (sysLseek files fd offset origin).wp .uncrossed Io
      (fun result next => ∃ after,
        store.lseek dev fd offset origin = (⟨result.1, []⟩, after) ∧
          Implements dev sb limit held others (result.2, next) after) kernel := by
  unfold sysLseek ByteStore.lseek
  rw [wp_bind, wp_get, holds.sameFiles]
  cases isOpen : files.slotAt fd with
  | none => exact ⟨_, rfl, holds⟩
  | some slot =>
      have isFile := isHeld slot isOpen
      dsimp only
      rw [holds.isDev _ isFile, (holds.isFile _ isFile).2,
        holds.sameBytes _ isFile]
      by_cases seeks : 1 ≤ major dev ∧ major dev ≤ 3
      · rw [if_neg (not_not_intro seeks), if_neg (not_not_intro seeks),
          if_neg Bool.false_ne_true]
        match origin with
        | 0 => exact holds.seek_wp (by have := offset.toInt_lt; omega)
        | 1 => exact holds.seek_wp (long_upper _)
        | 2 => exact holds.seek_wp (long_upper _)
        | _ + 3 => exact ⟨_, rfl, holds⟩
      · rw [if_pos seeks, if_pos seeks]
        exact ⟨_, rfl, holds⟩

/-! ### Reading -/

/-- Nothing is read, and the position stays. -/
theorem Implements.readNothing {pos : Nat}
    (isPos : (files.file slot).fPos = pos) :
    Implements dev sb limit held others (files, kernel)
      { store with files := files.setPos slot (pos + (0 : Nat)) } := by
  rw [Int.natCast_zero, Int.add_zero, ← isPos, setPos_same]
  exact { holds with sameFiles := rfl }

/-- What is left of a file is read, up to a count. -/
theorem Implements.readFile_wp (fuel : Nat)
    (room : limit < 255) (isFile : (files.file slot).fInode ∈ held)
    {pos : Nat} (isPos : (files.file slot).fPos = pos) (left : Int)
    (inRange : 0 < left → pos + left.toNat ≤ mappedBytes) :
    (if left ≤ 0 then pure (0, [], files)
      else do
        let (result, pos, bytes) ← fileRead fuel (files.file slot).fInode
          (files.file slot).fPos left
        pure (result, bytes, files.setPos slot pos)
      : Sys (Int × List UInt8 × FileTable)).wp .uncrossed Io
      (fun result next => result.1 = left.toNat ∧
        result.2.1 = (kernel.fileAt (files.file slot).fInode).bytes pos
          left.toNat ∧
        Implements dev sb limit held others (result.2.2, next)
          { store with files := files.setPos slot (pos + left.toNat) })
      kernel := by
  split <;> rename_i atEnd
  · rw [show left.toNat = 0 by omega]
    exact ⟨rfl, rfl, holds.readNothing isPos⟩
  · have within := inRange (by omega)
    have limit : mappedBytes = 268966912 := rfl
    obtain ⟨count, rfl⟩ := Int.eq_ofNat_of_zero_le (show 0 ≤ left by omega)
    rw [wp_bind, isPos]
    apply wp_mono (holds.fileRead_wp isFile room (by omega) within)
    rintro _ next ⟨rfl, kept⟩
    have moved := (holds.kept kept).moved slot
      (Int.natCast_nonneg (pos + count)) (by omega)
    exact ⟨rfl, rfl, moved⟩

theorem Implements.read_wp (room : limit < 255) {fd : Nat}
    (isHeld : ∀ slot, files.slotAt fd = some slot →
      (files.file slot).fInode ∈ held) (count : BitVec 32)
    (device : DeviceCall) :
    (sysRead fuel files fd count device).wp .uncrossed Io
      (fun result next => ∃ after,
        store.read fd count = (⟨result.1, result.2.1⟩, after) ∧
          Implements dev sb limit held others (result.2.2, next) after) kernel := by
  unfold sysRead ByteStore.read
  rw [wp_bind, wp_get, holds.sameFiles]
  cases isOpen : files.slotAt fd with
  | none => exact ⟨_, rfl, holds⟩
  | some slot =>
      have isFile := isHeld slot isOpen
      dsimp only
      rw [(holds.isFile _ isFile).2, regular_plain (holds.isFile _ isFile).1,
        (holds.isFile _ isFile).1, holds.sameBytes _ isFile, Bool.or_true,
        if_neg Bool.false_ne_true, if_neg Bool.false_ne_true, if_pos rfl]
      by_cases sign : count.toInt < 0
      · rw [if_pos sign, if_pos sign]
        exact ⟨_, rfl, holds⟩
      · rw [if_neg sign, if_neg sign]
        obtain ⟨pos, isPos⟩ := Int.eq_ofNat_of_zero_le (holds.lower slot isFile)
        obtain ⟨wanted, isWanted⟩ := Int.eq_ofNat_of_zero_le (Int.not_lt.mp sign)
        have small := holds.upper slot isFile
        have few := count.toInt_lt
        have size := holds.size _ isFile
        dsimp only at isPos small size
        have left := readCount_eq isPos (by omega)
          (show wanted < 2147483648 by omega) size
        have read : (kernel.fileAt (files.file slot).fInode).read
            (files.file slot).fPos.toNat count.toInt.toNat =
            (kernel.fileAt (files.file slot).fInode).bytes pos
              ((files.file slot).readCount
                (kernel.inodes (files.file slot).fInode) wanted).toNat := by
          rw [left, isPos, isWanted]
          rfl
        have reads := holds.readFile_wp fuel room isFile isPos
          ((files.file slot).readCount
            (kernel.inodes (files.file slot).fInode) wanted) (by omega)
        rw [read, ByteFile.length_bytes, isWanted, isPos]
        by_cases isNone : wanted = 0
        · have none : ((files.file slot).readCount
              (kernel.inodes (files.file slot).fInode) wanted).toNat = 0 := by
            omega
          rw [if_pos (by omega), none]
          exact ⟨_, rfl, holds.readNothing isPos⟩
        · rw [if_neg (by omega), ← isPos]
          apply wp_mono reads
          rintro result next ⟨isResult, isBytes, goesOn⟩
          refine ⟨_, ?_, goesOn⟩
          rw [isResult, isBytes, isPos]

/-! ### Writing -/

theorem Implements.start (isFile : (files.file slot).fInode ∈ held) :
    (files.file slot).start (kernel.inodes (files.file slot).fInode) =
      ((if (files.file slot).fFlags &&& oAppend ≠ 0 then
        (kernel.fileAt (files.file slot).fInode).size
      else (files.file slot).fPos.toNat : Nat) : Int) := by
  have limit : mappedBytes = 268966912 := rfl
  have size := holds.size _ isFile
  have lower := holds.lower slot isFile
  dsimp only at size lower
  unfold OpenFile.start
  split
  · exact long_of_fits (by omega) (by omega)
  · exact (Int.toNat_of_nonneg lower).symm

/-- One of the files was changed. -/
theorem Implements.changedOne {change : ByteFile → ByteFile}
    (changed : FilesChanged dev sb limit held (onFile index change) kernel next)
    (small : index ∈ held →
      (change (kernel.fileAt index)).size ≤ mappedBytes) :
    Implements dev sb limit held others (files, next)
      (store.change index change) := by
  apply holds.changed changed
  intro other isHeld
  by_cases isOwn : other = index
  · subst isOwn
    rw [onFile_own]
    exact small isHeld
  · rw [onFile_other isOwn]
    exact holds.size other isHeld

/-- Bytes were stored. -/
theorem Implements.written {place stored : Nat} {buf : Nat → UInt8}
    (inRange : place + stored ≤ mappedBytes)
    (written : FilesWritten dev sb limit held index place stored buf kernel
      next) :
    Implements dev sb limit held others (files, next)
      (store.change index fun file => file.write place stored buf) := by
  apply holds.changedOne written
  intro isHeld
  have same := holds.size index isHeld
  show (if stored = 0 then (kernel.inodes index).size
    else max (kernel.inodes index).size (place + stored)) ≤ _
  split
  · exact same
  · exact Nat.max_le.mpr ⟨same, inRange⟩

theorem Implements.write_wp
    (room : limit + 1 < 255) {fd : Nat} {buf : Nat → UInt8} {count : BitVec 32}
    (allowed : (ByteCall.write fd buf count).Allowed held files kernel)
    (device : DeviceCall) :
    (sysWrite fuel files fd buf count device).wp .uncrossed Io
      (fun result next => (∃ after, (∃ stored : Nat,
        (stored : Int) ≤ max 0 count.toInt ∧
          store.write fd buf count stored = (⟨result.1, []⟩, after)) ∧
          Implements dev sb limit held others (result.2, next) after) ∧
        (result.1 = count.toInt ∨ result.1 = -22 ∨ NoneFree sb next))
      kernel := by
  unfold sysWrite ByteStore.write
  rw [wp_bind, wp_get, holds.sameFiles]
  cases isOpen : files.slotAt fd with
  | none => exact ⟨⟨_, ⟨0, by omega, rfl⟩, holds⟩, .inr (.inl rfl)⟩
  | some slot =>
      obtain ⟨isFile, within⟩ := allowed slot isOpen
      dsimp only
      rw [(holds.isFile _ isFile).2, regular_plain (holds.isFile _ isFile).1,
        (holds.isFile _ isFile).1, holds.sameBytes _ isFile,
        if_neg Bool.false_ne_true, if_neg Bool.false_ne_true, if_pos rfl]
      by_cases sign : count.toInt < 0
      · simp only [if_pos sign]
        exact ⟨⟨_, ⟨0, by omega, rfl⟩, holds⟩, .inr (.inl rfl)⟩
      · simp only [if_neg sign]
        by_cases isNone : count.toInt = 0
        · simp only [if_pos isNone]
          exact ⟨⟨_, ⟨0, by omega, rfl⟩, holds⟩, .inl isNone.symm⟩
        · simp only [if_neg isNone]
          obtain ⟨wanted, isWanted⟩ :=
            Int.eq_ofNat_of_zero_le (Int.not_lt.mp sign)
          have position := holds.upper slot isFile
          have notBefore := holds.lower slot isFile
          have limit : mappedBytes = 268966912 := rfl
          dsimp only at within position notBefore
          rw [holds.start isFile, isWanted] at within
          rw [isWanted, wp_bind]
          apply wp_mono (holds.fileWrite_wp isFile room (holds.start isFile)
            (by omega) buf)
          rintro _ later ⟨stored, isStored, rfl, full, written⟩
          have wrote := holds.written (by omega) written
          refine ⟨⟨_, ⟨stored, by omega, rfl⟩, ?_⟩, ?_⟩
          rotate_left
          · by_cases isShort : stored < wanted
            · exact .inr (.inr (full isShort))
            · have isAll : stored = wanted := by omega
              refine .inl ?_
              show (if stored ≠ 0 then (stored : Int) else -1) = wanted
              rw [if_pos (by omega), isAll]
          by_cases append : (files.file slot).fFlags &&& oAppend ≠ 0
          · simp only [if_pos append] at wrote ⊢
            exact wrote.moved slot notBefore position
          · simp only [if_neg append] at within wrote ⊢
            rw [show (((files.file slot).fPos.toNat + stored : Nat) : Int) =
              (files.file slot).fPos + stored by omega]
            exact wrote.moved slot (by omega) (by omega)

/-! ### All of them -/

/-- What is left after a call. -/
structure Returned (dev sb limit : Nat) (held others : Set Nat)
    (store : ByteStore) (call : ByteCall) (reply : Reply)
    (next : FileTable × Kernel) : Prop where
  explained : ∃ after, store.Step dev (call, reply) after ∧
    Implements dev sb limit held others next after
  full : ∀ fd buf count, call = .write fd buf count →
    reply.result = count.toInt ∨ reply.result = -22 ∨ NoneFree sb next.2

theorem Implements.program_wp (room : limit + 2 < 255) {call : ByteCall}
    (allowed : call.Allowed held files kernel) (device : DeviceCall) :
    (call.program fuel files device).wp .uncrossed Io
      (fun result next => Returned dev sb limit held others store call
        result.1 (result.2, next)) kernel := by
  cases call with
  | lseek fd offset origin =>
      unfold ByteCall.program
      rw [wp_bind]
      apply wp_mono (holds.lseek_wp allowed offset origin)
      exact fun _ _ gives => ⟨gives, fun _ _ _ isWrite => nomatch isWrite⟩
  | read fd count =>
      unfold ByteCall.program
      rw [wp_bind]
      apply wp_mono (holds.read_wp (by omega) allowed count device)
      exact fun _ _ gives => ⟨gives, fun _ _ _ isWrite => nomatch isWrite⟩
  | write fd buf count =>
      unfold ByteCall.program
      rw [wp_bind]
      apply wp_mono (holds.write_wp (by omega) allowed device)
      rintro _ _ ⟨gives, full⟩
      refine ⟨gives, ?_⟩
      rintro _ _ _ isWrite
      cases isWrite
      exact full
  | truncate nr =>
      unfold ByteCall.program
      rw [wp_bind]
      apply wp_mono (holds.truncate_wp holds.rest allowed trivial room
        holds.apart fuel)
      exact fun _ _ truncated => ⟨⟨_, rfl,
        holds.changedOne truncated fun _ => Nat.zero_le _⟩,
        fun _ _ _ isWrite => nomatch isWrite⟩

end Holds

/-- Requests are served. -/
theorem Implements.served {before : FileTable × Kernel}
    (holds : Implements dev sb limit held others before store) {state : Kernel}
    (io : Io before.2 state) :
    Implements dev sb limit held others (before.1, state) store := by
  obtain ⟨sound, serviced⟩ := io.spec holds.volume.sound
  exact holds.kept (holds.toFilesHeld.settled sound serviced.settled)

theorem Implements.step {before next : FileTable × Kernel}
    {event : ByteCall × Reply}
    (holds : Implements dev sb limit held others before store)
    (room : limit + 2 < 255) (steps : CallStep fuel held before event next) :
    Returned dev sb limit held others store event.1 event.2 next := by
  obtain ⟨state, device, io, allowed, returns⟩ := steps
  exact returns.meets_uncrossed ((holds.served io).program_wp room allowed device)

theorem Implements.run {before final : FileTable × Kernel}
    {events : List (ByteCall × Reply)}
    (holds : Implements dev sb limit held others before store)
    (room : limit + 2 < 255)
    (calls : Traces (CallStep fuel held) before events final) :
    ∃ after, Traces (ByteStore.Step dev) store events after ∧
      Implements dev sb limit held others final after :=
  calls.simulated (Implements dev sb limit held others) holds
    fun _ _ _ _ holds steps => (holds.step room steps).explained

/-- The zones in use that are in no tree of the files. -/
def Kernel.otherZones (kernel : Kernel) (sb : Nat) (held : Set Nat) : Set Nat :=
  {zone | InUse (kernel.supers sb) kernel zone ∧ zone ∉ kernel.zonesOf held}

theorem Kernel.otherZones_ledger :
    Ledger sb held (kernel.otherZones sb held) kernel where
  inUse := fun _ isOther => isOther.1
  apart := fun _ isOther => isOther.2
  all := by
    intro zone isUsed
    by_cases isOwn : zone ∈ kernel.zonesOf held
    · exact .inr isOwn
    · exact .inl ⟨isUsed, isOwn⟩

theorem BytesHeld.implements (begins : BytesHeld dev sb limit held files kernel)
    (ledger : Ledger sb held others kernel) :
    Implements dev sb limit held others (files, kernel) ⟨files, kernel.fileAt⟩ :=
  ⟨begins, rfl, fun _ _ => rfl, ledger⟩

/-- Whatever calls on the files of a volume return, the machine of bytes can
return too, and in the end it holds what they hold. -/
theorem fileCalls_refine_bytes
    (begins : BytesHeld dev sb limit held files kernel)
    (room : limit + 2 < 255) {events : List (ByteCall × Reply)}
    {final : FileTable × Kernel}
    (calls : Traces (CallStep fuel held) (files, kernel) events final) :
    ∃ store, Traces (ByteStore.Step dev) ⟨files, kernel.fileAt⟩ events store ∧
      store.files = final.1 ∧
      ∀ index ∈ held, final.2.fileAt index = store.holds index := by
  obtain ⟨store, traces, holds⟩ :=
    (begins.implements Kernel.otherZones_ledger).run room calls
  exact ⟨store, traces, holds.sameFiles,
    fun index isHeld => (holds.sameBytes index isHeld).symm⟩

/-- Whatever the calls are, every zone in use stands in one place: in one slot
of one file, or with what does not belong to the files, which is not touched.
So `truncate` never finds a zone that is free already. -/
theorem fileCalls_keepZones (begins : BytesHeld dev sb limit held files kernel)
    (room : limit + 2 < 255) (ledger : Ledger sb held others kernel)
    {events : List (ByteCall × Reply)} {final : FileTable × Kernel}
    (calls : Traces (CallStep fuel held) (files, kernel) events final) :
    FilesHeld dev sb limit held final.2 ∧ Ledger sb held others final.2 ∧
    ∀ index ∈ held, ∀ state, Io final.2 state →
      (truncate fuel index).wp { Fate.noPanic with crossed := False } Io
        (fun _ next => Ledger sb held others next) state := by
  obtain ⟨_, _, holds⟩ := (begins.implements ledger).run room calls
  refine ⟨holds.toFilesHeld, holds.ledger, ?_⟩
  intro index isHeld state io
  have served := holds.served io
  apply wp_mono (served.truncate_wp served.rest isHeld trivial room served.apart
    fuel)
  exact fun _ _ truncated =>
    truncated.ledger served.apart others served.ledger

/-- A write stores all that is asked, or it is refused, or it leaves no zone
free. -/
theorem fileCalls_shortWrite (begins : BytesHeld dev sb limit held files kernel)
    (room : limit + 2 < 255) {events : List (ByteCall × Reply)}
    {middle final : FileTable × Kernel}
    (calls : Traces (CallStep fuel held) (files, kernel) events middle)
    {fd : Nat} {buf : Nat → UInt8} {count : BitVec 32} {reply : Reply}
    (writes : CallStep fuel held middle (.write fd buf count, reply) final) :
    reply.result = count.toInt ∨ reply.result = -22 ∨ NoneFree sb final.2 := by
  obtain ⟨_, _, holds⟩ :=
    (begins.implements Kernel.otherZones_ledger).run room calls
  exact (holds.step room writes).full fd buf count rfl

end Calls

section Example

/-- The file of `mappedDisk`, without a block. -/
def Kernel.emptied (kernel : Kernel) : Kernel :=
  kernel.setInode 0
    { kernel.inodes 0 with
      size := 0
      zone := fun _ => 0 }

theorem openedSlot_lt : 5 < 64 := by decide

/-- Descriptor 3 is the only one that is open, for reading and writing. -/
def openedFile : FileTable where
  filp fd := if fd.val = 3 then some ⟨5, openedSlot_lt⟩ else none
  file _ :=
    { fMode := 0x81A4
      fFlags := 2
      fCount := 1
      fInode := 0
      fPos := 0 }
  closeOnExec := 0
  leader := false
  tty := -1

instance decidableFirst : DecidablePred (· ∈ ({0} : Set Nat)) :=
  fun index => inferInstanceAs (Decidable (index = 0))

/-- A call, if it is allowed. -/
def tryCall (files : FileTable) (call : ByteCall) : Sys (Reply × FileTable) := do
  let kernel ← Prog.get
  if call.Allowed {0} files kernel then call.program 5 files ⟨0, 0, []⟩
  else Prog.spent

/-- Calls one behind the other. -/
def callsOf (files : FileTable) :
    List ByteCall → Sys (List (ByteCall × Reply) × FileTable)
  | [] => return ([], files)
  | call :: rest => do
      let (reply, files) ← tryCall files call
      let (events, files) ← callsOf files rest
      return ((call, reply) :: events, files)

/-- Three bytes far behind the end of the file, and all of it from the first of
the bytes on.  Then it is truncated, and a byte is written to every free zone
of the disk. -/
def trialCalls : List ByteCall :=
  [.lseek 3 600 0, .write 3 (fun place => UInt8.ofNat (place + 7)) 3,
    .lseek 3 (-5) 1, .read 3 100, .truncate 0, .lseek 3 0 0,
    .write 3 (fun _ => 1) 1, .lseek 3 1024 0, .write 3 (fun _ => 1) 1,
    .lseek 3 2048 0, .write 3 (fun _ => 1) 1, .lseek 3 3072 0]

def trialReplies : List (Int × List UInt8) :=
  [(600, []), (3, []), (598, []), (5, [0, 0, 7, 8, 9]), (0, []), (0, []),
    (1, []), (1024, []), (1, []), (2048, []), (1, []), (3072, [])]

/-- Those calls and a write for which there is no zone, with the state before
the file lost its blocks. -/
def trial : Sys (Kernel × List (ByteCall × Reply) × Reply) := do
  if ← crowd then do
    let kernel ← Prog.get
    Prog.modify fun _ => kernel.emptied
    let (events, files) ← callsOf openedFile trialCalls
    let (reply, _) ← tryCall files (.write 3 (fun _ => 1) 1)
    return (kernel, events, reply)
  else Prog.spent

theorem tryCall_step {call : ByteCall} {files after : FileTable}
    {kernel next : Kernel} {reply : Reply}
    (returns : (tryCall files call kernel).MayReturn False Io (reply, after)
      next) : CallStep 5 {0} (files, kernel) (call, reply) (after, next) := by
  obtain ⟨state, _, ⟨rfl, rfl⟩, returns⟩ := Run.mayReturn_bind returns
  split at returns <;> rename_i allowed
  · exact ⟨_, _, Io.refl _, allowed, returns⟩
  · exact returns.elim

theorem callsOf_traces {calls : List ByteCall} {files after : FileTable}
    {kernel next : Kernel} {events : List (ByteCall × Reply)}
    (returns : (callsOf files calls kernel).MayReturn False Io
      (events, after) next) :
    Traces (CallStep 5 {0}) (files, kernel) events (after, next) := by
  induction calls generalizing files kernel events with
  | nil =>
      obtain ⟨same, rfl⟩ := returns
      cases same
      exact .start
  | cons call rest induction =>
      obtain ⟨⟨reply, moved⟩, middle, first, returns⟩ :=
        Run.mayReturn_bind returns
      obtain ⟨⟨later, _⟩, _, second, isEnd, rfl⟩ := Run.mayReturn_bind returns
      cases isEnd
      exact (induction second).cons (tryCall_step first)

theorem emptied_held {count : Nat} {kernel : Kernel}
    (mapped : FileMapped 257 0 1 0 kernel)
    (supers : kernel.supers = (mappedDisk count).supers)
    (alone : ∀ bh, (kernel.buffers bh).count = one 0 bh)
    (isRegular : (kernel.inodes 0).isRegular = true)
    (isPipe : (kernel.inodes 0).pipe = false) :
    BytesHeld 257 0 1 {0} openedFile kernel.emptied := by
  have value (slot : ZoneSlot) : (kernel.emptied.tree 0).value slot = 0 :=
    Kernel.value_none rfl
  have isMap : (kernel.supers 0).zmap = fun index =>
      if index = 0 then some 0 else none := by
    rw [supers]
    rfl
  constructor
  · constructor
    · exact mapped.volume.setInode rfl rfl mapped.isDev
    · rintro _ rfl
      exact mapped.isDev
    · rintro _ rfl
      exact ⟨isRegular, isPipe⟩
    · rintro _ rfl slot _ isZone
      exact absurd (value slot) isZone
    · rintro _ rfl _ rfl slot _ _ _ _ isZone
      exact absurd (value slot) isZone
  · rintro zone lower bh isDev rfl
    by_cases isFirst : bh = 0
    · -- the block of the map comes before the data zones
      have loaded := mapped.volume.loaded 0 0 (by rw [isMap]; rfl)
      have below := loaded.below
      have ordered := mapped.volume.ordered
      rw [isFirst] at lower
      exact absurd lower (by
        show ¬(kernel.supers 0).firstdatazone ≤ (kernel.buffers 0).block
        omega)
    · exact (alone bh).trans (one_other isFirst)
  · intro first second bh isFirst isSecond
    have only (index : Nat) (isSome : (kernel.supers 0).zmap index = some bh) :
        index = 0 := by
      rw [isMap] at isSome
      change (if index = 0 then some 0 else none) = some bh at isSome
      by_contra isOther
      rw [if_neg isOther] at isSome
      cases isSome
    rw [only first isFirst, only second isSecond]
  · rintro _ rfl
    exact Nat.zero_le _
  · exact fun _ _ => Int.le_refl 0
  · exact fun _ _ => (by decide : (0 : Int) < 2147483648)

/-- The trial begins with a file that is held, and shows the calls. -/
theorem trial_ends {count : Nat} (isSome : 0 < count) {kernel next : Kernel}
    {events : List (ByteCall × Reply)} {reply : Reply}
    (played : (trial (mappedDisk count)).play false id =
      some ((kernel, events, reply), next))
    (isRegular : (kernel.inodes 0).isRegular = true)
    (isPipe : (kernel.inodes 0).pipe = false) :
    BytesHeld 257 0 1 {0} openedFile kernel.emptied ∧ ∃ middle final,
      Traces (CallStep 5 {0}) (openedFile, kernel.emptied) events middle ∧
      CallStep 5 {0} middle (.write 3 (fun _ => 1) 1, reply) final := by
  have returns := Run.mayReturn_play Io.refl played
  obtain ⟨done, state, first, returns⟩ := Run.mayReturn_bind returns
  have first := first.mono Bool.false_ne_true
  cases done with
  | false => exact returns.elim
  | true =>
      obtain ⟨_, _, ⟨rfl, rfl⟩, returns⟩ := Run.mayReturn_bind returns
      obtain ⟨_, _, ⟨_, rfl⟩, returns⟩ := Run.mayReturn_bind returns
      obtain ⟨_, _, calls, returns⟩ := Run.mayReturn_bind returns
      obtain ⟨_, _, last, isEnd, rfl⟩ := Run.mayReturn_bind returns
      cases isEnd
      obtain ⟨mapped, supers, alone⟩ :=
        first.meets_uncrossed (crowd_held isSome) rfl
      exact ⟨emptied_held mapped supers alone isRegular isPipe, _, _,
        callsOf_traces (calls.mono Bool.false_ne_true),
        tryCall_step (last.mono Bool.false_ne_true)⟩

theorem trial_play : ((trial (mappedDisk 3)).play false id).any
    (fun ((kernel, events, reply), _) =>
      (kernel.inodes 0).isRegular = true ∧ (kernel.inodes 0).pipe = false ∧
      events.map (fun event => (event.2.result, event.2.bytes)) =
        trialReplies ∧ reply.result = -1) = true := by
  decide +kernel

theorem trial_shows : ∃ kernel events middle reply final,
    BytesHeld 257 0 1 {0} openedFile kernel ∧
    Traces (CallStep 5 {0}) (openedFile, kernel) events middle ∧
    CallStep 5 {0} middle (.write 3 (fun _ => 1) 1, reply) final ∧
    events.map (fun event => (event.2.result, event.2.bytes)) =
      trialReplies ∧ reply.result = -1 := by
  have plays := trial_play
  rw [Option.any_eq_true] at plays
  obtain ⟨⟨⟨kernel, events, reply⟩, next⟩, played, holds⟩ := plays
  obtain ⟨isRegular, isPipe, replies, isShort⟩ := of_decide_eq_true holds
  obtain ⟨held, middle, final, calls, last⟩ :=
    trial_ends (by decide) played isRegular isPipe
  exact ⟨_, events, middle, reply, final, held, calls, last, replies, isShort⟩

/-- The machine of bytes reads three bytes behind a hole. -/
theorem fileCalls_refine_bytes_hole :
    ∃ kernel events final store,
      BytesHeld 257 0 1 {0} openedFile kernel ∧
      Traces (CallStep 5 {0}) (openedFile, kernel) events final ∧
      Traces (ByteStore.Step 257) ⟨openedFile, kernel.fileAt⟩ events store ∧
      final.2.fileAt 0 = store.holds 0 ∧
      events.map (fun event => (event.2.result, event.2.bytes)) =
        trialReplies := by
  obtain ⟨kernel, events, middle, _, _, held, traces, _, replies, _⟩ := trial_shows
  obtain ⟨store, explained, _, same⟩ :=
    fileCalls_refine_bytes held (by decide) traces
  exact ⟨kernel, events, middle, store, held, traces, explained, same 0 rfl,
    replies⟩

/-- A file is truncated and has all zones afterwards. -/
theorem fileCalls_keepZones_truncated :
    ∃ kernel events final,
      BytesHeld 257 0 1 {0} openedFile kernel ∧
      Traces (CallStep 5 {0}) (openedFile, kernel) events final ∧
      Ledger 0 {0} (kernel.otherZones 0 {0}) final.2 ∧
      events.map (fun event => (event.2.result, event.2.bytes)) =
        trialReplies := by
  obtain ⟨kernel, events, middle, _, _, held, traces, _, replies, _⟩ := trial_shows
  obtain ⟨_, ledger, _⟩ :=
    fileCalls_keepZones held (by decide) Kernel.otherZones_ledger traces
  exact ⟨kernel, events, middle, held, traces, ledger, replies⟩

/-- The last byte finds no zone. -/
theorem fileCalls_shortWrite_filled :
    ∃ kernel events middle final reply,
      BytesHeld 257 0 1 {0} openedFile kernel ∧
      Traces (CallStep 5 {0}) (openedFile, kernel) events middle ∧
      CallStep 5 {0} middle (.write 3 (fun _ => 1) 1, reply) final ∧
      reply.result = -1 ∧ NoneFree 0 final.2 := by
  obtain ⟨kernel, events, middle, reply, final, held, traces, last, _, isShort⟩ :=
    trial_shows
  refine ⟨kernel, events, middle, final, reply, held, traces, last, isShort, ?_⟩
  obtain isAll | isRefused | isFull :=
    fileCalls_shortWrite held (by decide) traces last
  · rw [isShort] at isAll
    cases isAll
  · rw [isShort] at isRefused
    cases isRefused
  · exact isFull

end Example

end Linux011.Fs

import Linux011.Fs.BlockFiles
import Linux011.Fs.InodeAnchors

/-!
# Reading and writing files through the block map

`file_read` and `file_write` of `file_dev.c`, and the calls that move the
position of an open file, over the inode table and the cache.  A position is
a signed 32-bit number, `i_size` an unsigned one.  What `open_namei` finds,
and what a device or a pipe does, are parameters of the calls.
-/

namespace Linux011.Fs

open Coop Prog Sched

/-- A `file`; `f_inode` is the place in the inode table. -/
structure OpenFile where
  fMode : BitVec 16
  fFlags : BitVec 16
  fCount : Nat
  fInode : Nat
  fPos : Int

/-- What a process has open, and what `sys_open` reads of `current`. -/
structure FileTable where
  filp : Fin 20 → Option (Fin 64)
  file : Fin 64 → OpenFile
  closeOnExec : BitVec 32
  leader : Bool
  tty : Int

namespace FileTable

def setFile (files : FileTable) (slot : Fin 64) (file : OpenFile) :
    FileTable :=
  { files with
    file := fun other => if other = slot then file else files.file other }

def setPos (files : FileTable) (slot : Fin 64) (pos : Int) : FileTable :=
  files.setFile slot { files.file slot with fPos := pos }

/-- The slot in the table of files that a descriptor points to. -/
def slotAt (files : FileTable) (fd : Nat) : Option (Fin 64) :=
  (Descriptors.slotOf fd).bind files.filp

end FileTable

/-- `S_ISCHR`. -/
def Inode.isChrDevice (inode : Inode) : Bool := inode.fileType == 2

/-- A 32-bit number as an `unsigned long`. -/
def unsignedLong (value : Int) : Nat := (value % 4294967296).toNat

/-- `bmap` and `create_block`, for an `int`. -/
def mapBlock (create : Bool) (fuel index : Nat) (block : Int) : Sys Nat :=
  if block < 0 then Prog.panic "_bmap: block<0"
  else bmapWith create fuel index block.toNat

/-- The loop of `file_read`: what is left to read, the position, and the bytes
put into the buffer of the caller.  Every round reads at least one. -/
def fileReadLoop (fuel index : Nat) :
    Nat → Nat → Int → List UInt8 → Sys (Nat × Int × List UInt8)
  | 0, left, pos, bytes => return (left, pos, bytes)
  | rounds + 1, left, pos, bytes =>
      if left = 0 then return (left, pos, bytes)
      else do
        let nr ← mapBlock false fuel index (pos.tdiv 1024)
        let offset := (pos.tmod 1024).toNat
        let chars := min (1024 - offset) left
        let goOn (copied : List UInt8) : Sys (Nat × Int × List UInt8) :=
          fileReadLoop fuel index rounds (left - chars) (long (pos + chars))
            (bytes ++ copied)
        if nr = 0 then goOn (List.replicate chars 0)
        else do
          let kernel ← Prog.get
          match ← (bread fuel (kernel.inodes index).dev nr).unmarked with
          | none => return (left, pos, bytes)
          | some bh => do
              let kernel ← Prog.get
              let data := (kernel.buffers bh).data
              brelse (some bh)
              goOn ((List.range chars).map fun place => data (offset + place))

/-- `file_read`: its result, the position it leaves, and the bytes. -/
def fileRead (fuel index : Nat) (pos count : Int) :
    Sys (Int × Int × List UInt8) :=
  if count ≤ 0 then return (0, pos, [])
  else do
    let (left, pos, bytes) ←
      fileReadLoop fuel index count.toNat count.toNat pos []
    let kernel ← Prog.get
    onInode index fun inode => { inode with atime := kernel.now }
    return (if count - left ≠ 0 then count - left else -error, pos, bytes)

/-- The loop of `file_write`: `i` and the position.  Every round stores at
least one byte. -/
def fileWriteLoop (fuel index : Nat) (buf : Nat → UInt8) (count : Nat) :
    Nat → Nat → Int → Sys (Nat × Int)
  | 0, i, pos => return (i, pos)
  | rounds + 1, i, pos =>
      if count ≤ i then return (i, pos)
      else do
        let block ← mapBlock true fuel index (pos.tdiv 1024)
        if block = 0 then return (i, pos)
        else do
          let kernel ← Prog.get
          match ← (bread fuel (kernel.inodes index).dev block).unmarked with
          | none => return (i, pos)
          | some bh => do
              let offset := (pos.tmod 1024).toNat
              let c := min (1024 - offset) (count - i)
              let pos := long (pos + c)
              onInode index fun inode =>
                if inode.size < unsignedLong pos then
                  { inode with
                    size := unsignedLong pos
                    dirt := true }
                else inode
              storeMap bh fun data =>
                Block.copied data offset c fun place => buf (i + place)
              brelse (some bh)
              fileWriteLoop fuel index buf count rounds (i + c) pos

/-- Where `file_write` begins. -/
def OpenFile.start (file : OpenFile) (inode : Inode) : Int :=
  if file.fFlags &&& oAppend ≠ 0 then long inode.size else file.fPos

/-- `file_write`: its result and the position it leaves. -/
def fileWrite (fuel : Nat) (file : OpenFile) (buf : Nat → UInt8)
    (count : Int) : Sys (Int × Int) := do
  let kernel ← Prog.get
  let (i, pos) ← fileWriteLoop fuel file.fInode buf count.toNat count.toNat 0
    (file.start (kernel.inodes file.fInode))
  let kernel ← Prog.get
  let append := file.fFlags &&& oAppend ≠ 0
  onInode file.fInode fun inode =>
    if append then { inode with mtime := kernel.now }
    else
      { inode with
        mtime := kernel.now
        ctime := kernel.now }
  return (if i ≠ 0 then i else -1, if append then file.fPos else pos)

/-! ## The calls -/

/-- What a call of a device or a pipe comes to. -/
structure DeviceCall where
  result : Int
  pos : Int
  bytes : List UInt8

/-- `sys_open`, with what `open_namei` returns and the kernel as it is once
the lookups, `iput` and `check_disk_change` are done. -/
def sysOpen (files : FileTable) (flag : BitVec 32) (found : Except Int Nat)
    (after : Kernel) : Sys (Int × FileTable) :=
  match (List.finRange 20).find? fun fd => (files.filp fd).isNone with
  | none => return (-22, files)
  | some fd =>
      let files :=
        { files with closeOnExec := files.closeOnExec &&& ~~~(1#32 <<< fd.val) }
      match (List.finRange 64).find? fun slot =>
          (files.file slot).fCount = 0 with
      | none => return (-22, files)
      | some slot => do
          Prog.modify fun _ => after
          match found with
          | .error errno => return (errno, files)
          | .ok nr =>
              let inode := after.inodes nr
              let isTty (major : Nat) : Bool :=
                inode.isChrDevice && inode.zone 0 / 256 = major
              if isTty 5 = true ∧ files.tty < 0 then return (-eperm, files)
              else
                let takesTty : Bool :=
                  isTty 4 && files.leader && files.tty < 0
                let files :=
                  if takesTty = true then
                    { files with tty := (inode.zone 0 % 256 : Nat) }
                  else files
                let files :=
                  { files with
                    filp := fun other =>
                      if other = fd then some slot else files.filp other }
                return (fd.val, files.setFile slot
                  { fMode := BitVec.ofNat 16 inode.mode
                    fFlags := flag.setWidth 16
                    fCount := 1
                    fInode := nr
                    fPos := 0 })

/-- `sys_lseek`. -/
def sysLseek (files : FileTable) (fd : Nat) (offset : BitVec 32)
    (origin : Nat) : Sys (Int × FileTable) := do
  let kernel ← Prog.get
  match files.slotAt fd with
  | none => return (-9, files)
  | some slot =>
      let file := files.file slot
      let inode := kernel.inodes file.fInode
      let seek (pos : Int) : Sys (Int × FileTable) :=
        if pos < 0 then return (-22, files)
        else return (pos, files.setPos slot pos)
      if ¬(1 ≤ major inode.dev ∧ major inode.dev ≤ 3) then return (-9, files)
      else if inode.pipe = true then return (-29, files)
      else
        match origin with
        | 0 => seek offset.toInt
        | 1 => seek (long (file.fPos + offset.toInt))
        | 2 => seek (long (inode.size + offset.toInt))
        | _ => return (-22, files)

/-- What `sys_read` reads of a file at most. -/
def OpenFile.readCount (file : OpenFile) (inode : Inode) (count : Int) : Int :=
  if inode.size < unsignedLong (count + file.fPos) then
    long (inode.size - file.fPos)
  else count

/-- `sys_read`. -/
def sysRead (fuel : Nat) (files : FileTable) (fd : Nat) (count : BitVec 32)
    (device : DeviceCall) : Sys (Int × List UInt8 × FileTable) := do
  let kernel ← Prog.get
  let count := count.toInt
  match files.slotAt fd with
  | none => return (-22, [], files)
  | some slot =>
      let file := files.file slot
      let inode := kernel.inodes file.fInode
      let moved : FileTable := files.setPos slot device.pos
      if count < 0 then return (-22, [], files)
      else if count = 0 then return (0, [], files)
      else if inode.pipe = true then
        if file.fMode &&& 1 ≠ 0 then return (device.result, device.bytes, files)
        else return (-5, [], files)
      else if (inode.isChrDevice || inode.isBlockDevice) = true then
        return (device.result, device.bytes, moved)
      else if (inode.isDirectory || inode.isRegular) = true then
        if file.readCount inode count ≤ 0 then return (0, [], files)
        else do
          let (result, pos, bytes) ← fileRead fuel file.fInode file.fPos
            (file.readCount inode count)
          return (result, bytes, files.setPos slot pos)
      else return (-22, [], files)

/-- `sys_write`. -/
def sysWrite (fuel : Nat) (files : FileTable) (fd : Nat) (buf : Nat → UInt8)
    (count : BitVec 32) (device : DeviceCall) : Sys (Int × FileTable) := do
  let kernel ← Prog.get
  let count := count.toInt
  match files.slotAt fd with
  | none => return (-22, files)
  | some slot =>
      let file := files.file slot
      let inode := kernel.inodes file.fInode
      let moved : FileTable := files.setPos slot device.pos
      if count < 0 then return (-22, files)
      else if count = 0 then return (0, files)
      else if inode.pipe = true then
        if file.fMode &&& 2 ≠ 0 then return (device.result, files)
        else return (-5, files)
      else if (inode.isChrDevice || inode.isBlockDevice) = true then
        return (device.result, moved)
      else if inode.isRegular = true then do
        let (result, pos) ← fileWrite fuel file buf count
        return (result, files.setPos slot pos)
      else return (-22, files)

end Linux011.Fs

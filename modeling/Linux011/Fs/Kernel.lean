import Linux011.Library.Coop

/-!
# The state of the file system code

The buffers with their two pointer structures, the request slots and queues
of the block devices, the in-core inodes and the superblocks, together with
the contents of the devices.  Buffers, request slots, inodes and superblocks
are named by their index; a pointer that may be `NULL` is an `Option`.
-/

namespace Linux011.Fs

open Coop

/-- `BLOCK_SIZE` bytes, by offset. -/
abbrev Block := Nat → UInt8

/-- A `buffer_head`.  `count` is the number of references; the code keeps its
low byte in `b_count` and tests that byte. -/
structure Buffer where
  data : Block
  block : Nat
  dev : Nat
  uptodate : Bool
  dirt : Bool
  count : Nat
  lock : Bool
  prev : Option Nat
  next : Option Nat
  prevFree : Option Nat
  nextFree : Option Nat

namespace Buffer

/-- `b_count`. -/
def countByte (buffer : Buffer) : Nat := buffer.count % 256

/-- `BADNESS`. -/
def badness (buffer : Buffer) : Nat :=
  2 * buffer.dirt.toNat + buffer.lock.toNat

/-- `b_count--`. -/
def dropCount (buffer : Buffer) : Buffer :=
  { buffer with
    count := if buffer.countByte = 0 then buffer.count + 255
      else buffer.count - 1 }

end Buffer

inductive Rw where
  | read
  | write
  | reada
  | writea
  deriving DecidableEq

/-- A `request`; `dev` is `none` for the `-1` of a free slot, and the buffer
address is that of `bh`'s data. -/
structure Request where
  dev : Option Nat
  cmd : Rw
  sector : Nat
  nrSectors : Nat
  bh : Nat

/-- What `request_fn` is: absent, the ram disk with its length in bytes, or a
driver that works by interrupts. -/
inductive Driver where
  | absent
  | ram (length : Nat)
  | interrupt

/-- An in-core inode. -/
structure Inode where
  mode : Nat
  uid : Nat
  size : Nat
  mtime : Nat
  gid : Nat
  nlinks : Nat
  zone : Nat → Nat
  atime : Nat
  ctime : Nat
  dev : Nat
  num : Nat
  count : Nat
  lock : Bool
  dirt : Bool
  pipe : Bool
  mount : Bool

/-- A cleared `m_inode`. -/
def Inode.zero : Inode where
  mode := 0
  uid := 0
  size := 0
  mtime := 0
  gid := 0
  nlinks := 0
  zone := fun _ => 0
  atime := 0
  ctime := 0
  dev := 0
  num := 0
  count := 0
  lock := false
  dirt := false
  pipe := false
  mount := false

/-- A `super_block`. -/
structure Super where
  ninodes : Nat
  nzones : Nat
  imapBlocks : Nat
  zmapBlocks : Nat
  firstdatazone : Nat
  magic : Nat
  imap : Nat → Option Nat
  zmap : Nat → Option Nat
  dev : Nat
  isup : Option Nat
  imount : Option Nat
  lock : Bool

/-- `NR_HASH`. -/
def nrHash : Nat := 307

/-- `NR_REQUEST`. -/
def nrRequest : Nat := 32

/-- `NR_BLK_DEV`. -/
def nrBlkDev : Nat := 7

/-- `NR_INODE`. -/
def nrInode : Nat := 32

/-- `NR_SUPER`. -/
def nrSuper : Nat := 8

/-- `queue major` lists the slots reached from `blk_dev[major].current_request`,
and `disk dev` holds the bytes of a device by position. -/
structure Kernel where
  nrBuffers : Nat
  buffers : Nat → Buffer
  hashTable : Nat → Option Nat
  freeList : Nat
  requests : Nat → Request
  queue : Nat → List Nat
  driver : Nat → Driver
  disk : Nat → Nat → UInt8
  inodes : Nat → Inode
  lastInode : Nat
  supers : Nat → Super
  now : Nat

/-- `MAJOR`. -/
def major (dev : Nat) : Nat := dev / 256

/-- `MINOR`. -/
def minor (dev : Nat) : Nat := dev % 256

/-- `_hashfn`. -/
def hashfn (dev block : Nat) : Nat := (dev ^^^ block) % nrHash

namespace Kernel

def setBuffer (kernel : Kernel) (bh : Nat) (buffer : Buffer) : Kernel :=
  { kernel with
    buffers := fun other =>
      if other = bh then buffer else kernel.buffers other }

def setRequest (kernel : Kernel) (slot : Nat) (request : Request) : Kernel :=
  { kernel with
    requests := fun other =>
      if other = slot then request else kernel.requests other }

def setQueue (kernel : Kernel) (major : Nat) (slots : List Nat) : Kernel :=
  { kernel with
    queue := fun other => if other = major then slots else kernel.queue other }

def setInode (kernel : Kernel) (index : Nat) (inode : Inode) : Kernel :=
  { kernel with
    inodes := fun other =>
      if other = index then inode else kernel.inodes other }

def setSuper (kernel : Kernel) (index : Nat) (super : Super) : Kernel :=
  { kernel with
    supers := fun other =>
      if other = index then super else kernel.supers other }

@[simp] theorem setBuffer_same (kernel : Kernel) (bh : Nat)
    (buffer : Buffer) : (kernel.setBuffer bh buffer).buffers bh = buffer := by
  simp [setBuffer]

theorem setBuffer_other {kernel : Kernel} {bh other : Nat} {buffer : Buffer}
    (different : other ≠ bh) :
    (kernel.setBuffer bh buffer).buffers other = kernel.buffers other := by
  simp [setBuffer, different]

theorem setBuffer_buffers (kernel : Kernel) (bh other : Nat)
    (buffer : Buffer) :
    (kernel.setBuffer bh buffer).buffers other =
      if other = bh then buffer else kernel.buffers other := rfl

end Kernel

/-- A program of the kernel. -/
abbrev Sys (α : Type) := Prog Kernel α

/-- Change the fields of one buffer. -/
def onBuffer (bh : Nat) (change : Buffer → Buffer) : Sys Unit :=
  Prog.modify fun kernel => kernel.setBuffer bh (change (kernel.buffers bh))

def onInode (index : Nat) (change : Inode → Inode) : Sys Unit :=
  Prog.modify fun kernel => kernel.setInode index (change (kernel.inodes index))

def onSuper (index : Nat) (change : Super → Super) : Sys Unit :=
  Prog.modify fun kernel => kernel.setSuper index (change (kernel.supers index))

end Linux011.Fs

import Linux011.Fs.Bitmaps

/-!
# The in-core inodes

`inode.c` without the block mapping, `truncate.c`, and `new_inode`.  An inode
is named by its slot in `inode_table`.  A task may lose the processor in each
of these functions: while it waits for an inode to be unlocked, and wherever
the cache sleeps.
-/

namespace Linux011.Fs

open Coop

namespace Inode

/-- The bits of `S_IFMT`. -/
def fileType (inode : Inode) : Nat := inode.mode / 4096 % 16

/-- `S_ISREG`. -/
def isRegular (inode : Inode) : Bool := inode.fileType == 8

/-- `S_ISDIR`. -/
def isDirectory (inode : Inode) : Bool := inode.fileType == 4

/-- `S_ISBLK`. -/
def isBlockDevice (inode : Inode) : Bool := inode.fileType == 6

def setCount (inode : Inode) (count : Nat) : Inode :=
  { inode with count := count }

@[simp] theorem setCount_dev (inode : Inode) (count : Nat) :
    (inode.setCount count).dev = inode.dev := rfl

@[simp] theorem setCount_num (inode : Inode) (count : Nat) :
    (inode.setCount count).num = inode.num := rfl

/-- `i_count++`. -/
def takeCount (inode : Inode) : Inode :=
  inode.setCount ((inode.count + 1) % 65536)

/-- `i_count--`. -/
def dropCount (inode : Inode) : Inode :=
  inode.setCount ((inode.count + 65535) % 65536)

/-- One of the references to a pipe, of which there are some, is given
back. -/
def dropPipe (inode : Inode) : Inode :=
  if inode.count - 1 ≠ 0 then inode.setCount (inode.count - 1)
  else { inode with count := 0, dirt := false, pipe := false }

/-- `i_zone[index] = value`. -/
def setZone (inode : Inode) (index value : Nat) : Inode :=
  { inode with
    zone := fun other => if other = index then value else inode.zone other }

/-- The head of the inode is read from its slot in the block. -/
def load (inode : Inode) (data : Block) : Inode :=
  let start := (inode.num - 1) % inodesPerBlock * 32
  { inode with
    mode := shortAt data start
    uid := shortAt data (start + 2)
    size := longAt data (start + 4)
    mtime := longAt data (start + 8)
    gid := (data (start + 12)).toNat
    nlinks := (data (start + 13)).toNat
    zone := fun index =>
      if index < 9 then shortAt data (start + 14 + 2 * index)
      else inode.zone index }

end Inode

def readInode (fuel index : Nat) : Sys Unit := do
  lockInode index
  let kernel ← Prog.get
  match ← getSuper (kernel.inodes index).dev fuel with
  | none => Prog.panic "trying to read inode without dev"
  | some sb => do
      let kernel ← Prog.get
      let inode := kernel.inodes index
      match ← (bread fuel inode.dev
          (inodeBlock (kernel.supers sb) inode.num)).unmarked with
      | none => Prog.panic "unable to read i-node block"
      | some bh => do
          let kernel ← Prog.get
          onInode index fun inode => inode.load (kernel.buffers bh).data
          brelse (some bh)
          unlockInode index

/-! ## Truncation -/

/-- What `free_ind` and `free_dind` share: all that the entries of a block
name is freed, then the block. -/
def freeTree (free : Nat → Sys Unit) (fuel dev block : Nat) : Sys Unit :=
  if block = 0 then pure ()
  else do
    let entries : Sys Unit := do
      match ← (bread fuel dev block).unmarked with
      | none => pure ()
      | some bh => do
          Prog.upTo (fun entry => do
            let kernel ← Prog.get
            let zone := shortAt (kernel.buffers bh).data (2 * entry)
            if zone ≠ 0 then free zone else pure ()) 512
          brelse (some bh)
    entries
    freeBlock fuel dev block

def freeInd (fuel dev block : Nat) : Sys Unit :=
  freeTree (freeBlock fuel dev) fuel dev block

def freeDind (fuel dev block : Nat) : Sys Unit :=
  freeTree (freeInd fuel dev) fuel dev block

def truncate (fuel index : Nat) : Sys Unit := do
  let kernel ← Prog.get
  if (kernel.inodes index).isRegular = false ∧
      (kernel.inodes index).isDirectory = false then return ()
  else do
    Prog.upTo (fun entry => do
      let kernel ← Prog.get
      let inode := kernel.inodes index
      if inode.zone entry ≠ 0 then do
        freeBlock fuel inode.dev (inode.zone entry)
        onInode index fun inode => inode.setZone entry 0
      else pure ()) 7
    let kernel ← Prog.get
    let inode := kernel.inodes index
    freeInd fuel inode.dev (inode.zone 7)
    let kernel ← Prog.get
    let inode := kernel.inodes index
    freeDind fuel inode.dev (inode.zone 8)
    let kernel ← Prog.get
    onInode index fun inode =>
      { (inode.setZone 7 0).setZone 8 0 with
        size := 0
        dirt := true
        mtime := kernel.now
        ctime := kernel.now }

/-! ## References to inodes -/

/-- `iput` from its label `repeat` on. -/
def iputRepeat (fuel index : Nat) : Nat → Sys Unit
  | 0 => Prog.spent
  | rounds + 1 => do
      let kernel ← Prog.get
      let inode := kernel.inodes index
      if 1 < inode.count then onInode index Inode.dropCount
      else if inode.nlinks = 0 then do
        truncate fuel index
        freeInode fuel index
      else if inode.dirt = true then do
        (writeInode fuel index).unmarked
        waitOnInode index
        iputRepeat fuel index rounds
      else onInode index Inode.dropCount

/-- `iput`.  The page of a pipe goes back to the memory manager, which is not
part of this state. -/
def iput (fuel : Nat) (inode : Option Nat) : Sys Unit :=
  match inode with
  | none => pure ()
  | some index => do
      waitOnInode index
      let kernel ← Prog.get
      let inode := kernel.inodes index
      if inode.count = 0 then
        Prog.panic "iput: trying to free free inode"
      else if inode.pipe = true then
        onInode index Inode.dropPipe
      else if inode.dev = 0 then onInode index Inode.dropCount
      else if inode.isBlockDevice = true then do
        (syncDev fuel (inode.zone 0)).unmarked
        waitOnInode index
        iputRepeat fuel index fuel
      else iputRepeat fuel index fuel

/-- The search of `get_empty_inode`: where it leaves `last_inode`, and the
unused inode it has found. -/
def searchEmpty (inodes : Nat → Inode) :
    Nat → Nat → Option Nat → Nat × Option Nat
  | 0, last, found => (last, found)
  | rest + 1, last, found =>
      let last := if nrInode ≤ last + 1 then 0 else last + 1
      if (inodes last).count ≠ 0 then searchEmpty inodes rest last found
      else if (inodes last).dirt = false ∧ (inodes last).lock = false then
        (last, some last)
      else searchEmpty inodes rest last (some last)

/-- The inner loop of `get_empty_inode`. -/
def cleanInode (fuel index : Nat) : Nat → Sys Unit
  | 0 => Prog.spent
  | rounds + 1 => do
      let kernel ← Prog.get
      if (kernel.inodes index).dirt = false then return ()
      else do
        (writeInode fuel index).unmarked
        waitOnInode index
        cleanInode fuel index rounds

/-- `get_empty_inode`, for at most so many rounds.  It does not return
`NULL`. -/
def getEmptyInode (fuel : Nat) : Nat → Sys Nat
  | 0 => Prog.spent
  | rounds + 1 => do
      let kernel ← Prog.get
      let (last, found) := searchEmpty kernel.inodes nrInode kernel.lastInode none
      Prog.modify fun kernel => { kernel with lastInode := last }
      match found with
      | none => Prog.panic "No free inodes in mem"
      | some index => do
          waitOnInode index
          cleanInode fuel index fuel
          let kernel ← Prog.get
          if (kernel.inodes index).count ≠ 0 then getEmptyInode fuel rounds
          else do
            onInode index fun _ => { Inode.zero with count := 1 }
            return index

/-- The walk of `iget` along the table: the first slot from `index` on that
holds the inode. -/
def findInode (kernel : Kernel) (dev nr : Nat) : Nat → Nat → Option Nat
  | 0, _ => none
  | rest + 1, index =>
      if (kernel.inodes index).dev = dev ∧ (kernel.inodes index).num = nr then
        some index
      else findInode kernel dev nr rest (index + 1)

/-- The superblock mounted on an inode. -/
def findMount (kernel : Kernel) (inode : Nat) : Nat → Nat → Option Nat
  | 0, _ => none
  | rest + 1, index =>
      if (kernel.supers index).imount = some inode then some index
      else findMount kernel inode rest (index + 1)

/-- `ROOT_INO`. -/
def rootIno : Nat := 1

/-- `iget` once it has its spare slot `empty`.  Nothing sleeps between the
last pass over the table and the use of the slot. -/
def igetWith (fuel empty : Nat) : Nat → Nat → Nat → Sys Nat
  | 0, _, _ => Prog.spent
  | rounds + 1, dev, nr => do
      let kernel ← Prog.get
      match findInode kernel dev nr nrInode 0 with
      | none => do
          onInode empty fun inode =>
            { inode with dev := dev, num := nr % 65536 }
          readInode fuel empty
          return empty
      | some index => do
          waitOnInode index
          let kernel ← Prog.get
          if (kernel.inodes index).dev ≠ dev ∨
              (kernel.inodes index).num ≠ nr then
            igetWith fuel empty rounds dev nr
          else do
            onInode index Inode.takeCount
            if (kernel.inodes index).mount = true then
              match findMount kernel index nrSuper 0 with
              | none => do
                  iput fuel (some empty)
                  return index
              | some sb => do
                  iput fuel (some index)
                  let kernel ← Prog.get
                  igetWith fuel empty rounds (kernel.supers sb).dev rootIno
            else do
              iput fuel (some empty)
              return index

/-- `iget`, which never returns `NULL` either. -/
def iget (fuel dev nr : Nat) : Sys Nat :=
  if dev = 0 then Prog.panic "iget with dev==0"
  else do
    let empty ← getEmptyInode fuel fuel
    igetWith fuel empty fuel dev nr

/-- `new_inode` for a process with these ids.  The mark is at the point where
the number it takes from the map is that of an inode still in the table. -/
def newInode (fuel dev euid egid : Nat) : Sys (Option Nat) := do
  let index ← getEmptyInode fuel fuel
  match ← getSuper dev fuel with
  | none => Prog.panic "new_inode with unknown device"
  | some sb => do
      let kernel ← Prog.get
      match findMap kernel (kernel.supers sb).imap 8 0 with
      | none => do
          (iput fuel (some index)).unmarked
          return none
      | some (block, bh, bit) =>
          let nr := bit + block * 8192
          if (kernel.supers sb).ninodes < nr then do
            (iput fuel (some index)).unmarked
            return none
          else if bitOf (kernel.buffers bh).data bit = true then
            Prog.panic "new_inode: bit already set"
          else do
            let take : Sys (Option Nat) := do
              storeMap bh (setBit bit)
              onInode index fun inode =>
                { inode with
                  count := 1
                  nlinks := 1
                  dev := dev
                  uid := euid
                  gid := egid % 256
                  dirt := true
                  num := nr % 65536
                  mtime := kernel.now
                  atime := kernel.now
                  ctime := kernel.now }
              return some index
            if (findInode kernel dev nr nrInode 0).isSome = true then do
              Prog.cross
              take
            else take

end Linux011.Fs

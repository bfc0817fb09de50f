import Linux011.Fs.BlockDevices

/-!
# The buffer cache

`buffer.c`.  `getblk` may clean a buffer for reuse by writing out its device,
which first writes the changed inodes into buffers and so comes back to
`getblk`; the functions on that circle take the inner `getblk` as an
argument, and `getblk` itself ties the knot on its fuel.
-/

namespace Linux011.Fs

open Coop

/-- `find_buffer`: the walk along a hash chain, over at most `fuel` buffers. -/
def findFrom (kernel : Kernel) (dev block : Nat) : Nat → Option Nat → Option Nat
  | _, none => none
  | 0, some _ => none
  | fuel + 1, some tmp =>
      if (kernel.buffers tmp).dev = dev ∧ (kernel.buffers tmp).block = block then
        some tmp
      else findFrom kernel dev block fuel (kernel.buffers tmp).next

def findBuffer (kernel : Kernel) (dev block : Nat) : Option Nat :=
  findFrom kernel dev block kernel.nrBuffers
    (kernel.hashTable (hashfn dev block))

namespace Kernel

/-- A store through a pointer to a buffer; through `NULL` it hits none. -/
def through (kernel : Kernel) (pointer : Option Nat)
    (change : Buffer → Buffer) : Kernel :=
  match pointer with
  | none => kernel
  | some bh => kernel.setBuffer bh (change (kernel.buffers bh))

/-- `pointer->b_prev = value`. -/
def storePrev (kernel : Kernel) (pointer value : Option Nat) : Kernel :=
  kernel.through pointer fun buffer => { buffer with prev := value }

def storeNext (kernel : Kernel) (pointer value : Option Nat) : Kernel :=
  kernel.through pointer fun buffer => { buffer with next := value }

def storePrevFree (kernel : Kernel) (pointer value : Option Nat) : Kernel :=
  kernel.through pointer fun buffer => { buffer with prevFree := value }

def storeNextFree (kernel : Kernel) (pointer value : Option Nat) : Kernel :=
  kernel.through pointer fun buffer => { buffer with nextFree := value }

def storeHash (kernel : Kernel) (slot : Nat) (value : Option Nat) : Kernel :=
  { kernel with
    hashTable := fun other =>
      if other = slot then value else kernel.hashTable other }

end Kernel

/-- The hash queue half of `remove_from_queues`. -/
def unhash (bh : Nat) (kernel : Kernel) : Kernel :=
  let buffer := kernel.buffers bh
  let kernel := kernel.storePrev buffer.next buffer.prev
  let kernel := kernel.storeNext buffer.prev buffer.next
  let slot := hashfn buffer.dev buffer.block
  if kernel.hashTable slot = some bh then kernel.storeHash slot buffer.next
  else kernel

/-- The free list half. -/
def unlinkFree (bh : Nat) (kernel : Kernel) : Kernel :=
  let buffer := kernel.buffers bh
  let kernel := kernel.storeNextFree buffer.prevFree buffer.nextFree
  let kernel := kernel.storePrevFree buffer.nextFree buffer.prevFree
  if kernel.freeList = bh then
    { kernel with freeList := buffer.nextFree.getD 0 }
  else kernel

def removeFromQueues (bh : Nat) : Sys Unit := do
  Prog.modify (unhash bh)
  let kernel ← Prog.get
  if (kernel.buffers bh).prevFree = none ∨
      (kernel.buffers bh).nextFree = none then
    Prog.panic "Free block list corrupted"
  else Prog.modify (unlinkFree bh)

/-- The free list half of `insert_into_queues`: in front of `free_list`. -/
def linkFree (bh : Nat) (kernel : Kernel) : Kernel :=
  let head := kernel.freeList
  let last := (kernel.buffers head).prevFree
  let kernel := kernel.storeNextFree (some bh) (some head)
  let kernel := kernel.storePrevFree (some bh) last
  let kernel := kernel.storeNextFree last (some bh)
  kernel.storePrevFree (some head) (some bh)

/-- The hash queue half.  Where the chain was empty the last store goes
through `NULL`. -/
def enhash (bh : Nat) (kernel : Kernel) : Kernel :=
  let kernel := kernel.storePrev (some bh) none
  let kernel := kernel.storeNext (some bh) none
  let buffer := kernel.buffers bh
  if buffer.dev = 0 then kernel
  else
    let slot := hashfn buffer.dev buffer.block
    let head := kernel.hashTable slot
    let kernel := kernel.storeNext (some bh) head
    let kernel := kernel.storeHash slot (some bh)
    kernel.storePrev head (some bh)

def insertIntoQueues (bh : Nat) : Sys Unit :=
  Prog.modify fun kernel => enhash bh (linkFree bh kernel)

/-- `b_count++`.  The byte wraps at the 256th reference. -/
def takeReference (bh : Nat) : Sys Unit := do
  let kernel ← Prog.get
  let take := onBuffer bh fun buffer => { buffer with count := buffer.count + 1 }
  if 255 ≤ (kernel.buffers bh).count then do
    Prog.cross
    take
  else take

def getHashTable : Nat → Nat → Nat → Sys (Option Nat)
  | 0, _, _ => Prog.spent
  | fuel + 1, dev, block => do
      let kernel ← Prog.get
      match findBuffer kernel dev block with
      | none => return none
      | some bh => do
          takeReference bh
          waitOnBuffer bh
          let kernel ← Prog.get
          if (kernel.buffers bh).dev = dev ∧
              (kernel.buffers bh).block = block then
            return some bh
          else do
            onBuffer bh Buffer.dropCount
            getHashTable fuel dev block

def brelse (buf : Option Nat) : Sys Unit :=
  match buf with
  | none => pure ()
  | some bh => do
      waitOnBuffer bh
      let kernel ← Prog.get
      if (kernel.buffers bh).countByte = 0 then
        Prog.panic "Trying to free free buffer"
      else onBuffer bh Buffer.dropCount

section Circle

variable (getblk : Nat → Nat → Sys Nat)

/-- `bread`, over the `getblk` it calls. -/
def breadWith (dev block : Nat) : Sys (Option Nat) := do
  let bh ← getblk dev block
  let kernel ← Prog.get
  if (kernel.buffers bh).uptodate = true then return some bh
  else do
    llRwBlock .read bh
    waitOnBuffer bh
    let kernel ← Prog.get
    if (kernel.buffers bh).uptodate = true then return some bh
    else do
      brelse (some bh)
      return none

/-- `wait_on_inode`. -/
def waitOnInode (index : Nat) : Sys Unit :=
  Prog.waitUntil fun kernel => !(kernel.inodes index).lock

def lockInode (index : Nat) : Sys Unit := do
  Prog.waitUntil fun kernel => !(kernel.inodes index).lock
  onInode index fun inode => { inode with lock := true }

def unlockInode (index : Nat) : Sys Unit :=
  onInode index fun inode => { inode with lock := false }

/-- The first superblock from `index` on that is in use for `dev`. -/
def findSuper (supers : Nat → Super) (dev : Nat) : Nat → Nat → Option Nat
  | _, 0 => none
  | index, rest + 1 =>
      if (supers index).dev = dev then some index
      else findSuper supers dev (index + 1) rest

def getSuper (dev : Nat) : Nat → Sys (Option Nat)
  | 0 => Prog.spent
  | fuel + 1 => do
      if dev = 0 then return none
      else do
        let kernel ← Prog.get
        match findSuper kernel.supers dev 0 nrSuper with
        | none => return none
        | some index => do
            Prog.waitUntil fun kernel => !(kernel.supers index).lock
            let kernel ← Prog.get
            if (kernel.supers index).dev = dev then return some index
            else getSuper dev fuel

/-- The low and the high byte of a stored 16-bit word. -/
def wordBytes (value : Nat) : Nat → UInt8
  | 0 => UInt8.ofNat value
  | _ => UInt8.ofNat (value / 256)

/-- Byte `offset` of the `d_inode` that an in-core inode begins with. -/
def Inode.byte (inode : Inode) (offset : Nat) : UInt8 :=
  if offset < 2 then wordBytes inode.mode offset
  else if offset < 4 then wordBytes inode.uid (offset - 2)
  else if offset < 8 then
    UInt8.ofNat (inode.size / 256 ^ (offset - 4))
  else if offset < 12 then
    UInt8.ofNat (inode.mtime / 256 ^ (offset - 8))
  else if offset < 13 then UInt8.ofNat inode.gid
  else if offset < 14 then UInt8.ofNat inode.nlinks
  else wordBytes (inode.zone ((offset - 14) / 2)) ((offset - 14) % 2)

/-- `INODES_PER_BLOCK`. -/
def inodesPerBlock : Nat := 32

/-- The block of an inode on its device. -/
def inodeBlock (super : Super) (num : Nat) : Nat :=
  2 + super.imapBlocks + super.zmapBlocks + (num - 1) / inodesPerBlock

/-- A block with the slot of an inode overwritten. -/
def storeInode (data : Block) (inode : Inode) : Block := fun offset =>
  let start := (inode.num - 1) % inodesPerBlock * 32
  if start ≤ offset ∧ offset < start + 32 then inode.byte (offset - start)
  else data offset

def writeInodeWith (fuel index : Nat) : Sys Unit := do
  lockInode index
  let kernel ← Prog.get
  if (kernel.inodes index).dirt = false ∨ (kernel.inodes index).dev = 0 then
    unlockInode index
  else
    match ← getSuper (kernel.inodes index).dev fuel with
    | none => Prog.panic "trying to write inode without device"
    | some sb => do
        let kernel ← Prog.get
        let inode := kernel.inodes index
        match ← breadWith getblk inode.dev
            (inodeBlock (kernel.supers sb) inode.num) with
        | none => Prog.panic "unable to read i-node block"
        | some bh => do
            Prog.modify fun kernel =>
              let buffer := kernel.buffers bh
              let inode := kernel.inodes index
              (kernel.setBuffer bh
                { buffer with
                  data := storeInode buffer.data inode, dirt := true }).setInode
                index { inode with dirt := false }
            brelse (some bh)
            unlockInode index

def syncInodesWith (fuel : Nat) : Sys Unit :=
  Prog.upTo (fun index => do
    waitOnInode index
    let kernel ← Prog.get
    if (kernel.inodes index).dirt = true ∧
        (kernel.inodes index).pipe = false then
      writeInodeWith getblk fuel index
    else pure ()) nrInode

/-- One pass of `sync_dev` over the buffers. -/
def syncPass (dev bh : Nat) : Sys Unit := do
  let kernel ← Prog.get
  if (kernel.buffers bh).dev ≠ dev then pure ()
  else do
    waitOnBuffer bh
    let kernel ← Prog.get
    if (kernel.buffers bh).dev = dev ∧ (kernel.buffers bh).dirt = true then
      llRwBlock .write bh
    else pure ()

def syncDevWith (fuel dev : Nat) : Sys Unit := do
  let kernel ← Prog.get
  Prog.upTo (syncPass dev) kernel.nrBuffers
  syncInodesWith getblk fuel
  Prog.upTo (syncPass dev) kernel.nrBuffers

/-- The `while` loop of `getblk` that writes out a dirty buffer; false where
it goes back to `repeat`. -/
def cleanWith (fuel bh : Nat) : Nat → Sys Bool
  | 0 => Prog.spent
  | rounds + 1 => do
      let kernel ← Prog.get
      if (kernel.buffers bh).dirt = false then return true
      else do
        syncDevWith getblk fuel (kernel.buffers bh).dev
        waitOnBuffer bh
        let kernel ← Prog.get
        if (kernel.buffers bh).countByte ≠ 0 then return false
        else cleanWith fuel bh rounds

end Circle

/-- The search of `getblk` along the free list for the least bad unused
buffer, over at most `fuel` buffers. -/
def scanFree (kernel : Kernel) : Nat → Nat → Option Nat → Option Nat
  | 0, _, bh => bh
  | fuel + 1, tmp, bh =>
      let buffer := kernel.buffers tmp
      let better := buffer.countByte = 0 ∧
        ∀ best, bh = some best →
          buffer.badness < (kernel.buffers best).badness
      if better ∧ buffer.badness = 0 then some tmp
      else
        let bh := if better then some tmp else bh
        match buffer.nextFree with
        | none => bh
        | some next =>
            if next = kernel.freeList then bh
            else scanFree kernel fuel next bh

/-- The end of `getblk`: the buffer becomes the one for a new block. -/
def claimBuffer (bh dev block : Nat) : Sys Unit := do
  onBuffer bh fun buffer =>
    { buffer with count := 1, dirt := false, uptodate := false }
  removeFromQueues bh
  onBuffer bh fun buffer => { buffer with dev := dev, block := block }
  insertIntoQueues bh

def getblk : Nat → Nat → Nat → Sys Nat
  | 0, _, _ => Prog.spent
  | fuel + 1, dev, block => do
      match ← getHashTable fuel dev block with
      | some bh => return bh
      | none => do
          let kernel ← Prog.get
          match scanFree kernel kernel.nrBuffers kernel.freeList none with
          | none => do
              Prog.sleep
              getblk fuel dev block
          | some bh => do
              waitOnBuffer bh
              let kernel ← Prog.get
              if (kernel.buffers bh).countByte ≠ 0 then
                getblk fuel dev block
              else do
                let clean ← cleanWith (getblk fuel) fuel bh fuel
                if clean = false then getblk fuel dev block
                else do
                  let kernel ← Prog.get
                  match findBuffer kernel dev block with
                  | some _ => getblk fuel dev block
                  | none => do
                      claimBuffer bh dev block
                      return bh

def bread (fuel dev block : Nat) : Sys (Option Nat) :=
  breadWith (getblk fuel) dev block

def writeInode (fuel index : Nat) : Sys Unit :=
  writeInodeWith (getblk fuel) fuel index

def syncInodes (fuel : Nat) : Sys Unit :=
  syncInodesWith (getblk fuel) fuel

def syncDev (fuel dev : Nat) : Sys Unit :=
  syncDevWith (getblk fuel) fuel dev

def sysSync (fuel : Nat) : Sys Unit := do
  syncInodes fuel
  let kernel ← Prog.get
  Prog.upTo (fun bh => do
    waitOnBuffer bh
    let kernel ← Prog.get
    if (kernel.buffers bh).dirt = true then llRwBlock .write bh
    else pure ()) kernel.nrBuffers

/-- `buffer_init` over the memory that becomes the buffer heads.  It leaves
the block numbers as they are. -/
def bufferInit (count : Nat) (memory : Nat → Buffer) (kernel : Kernel) :
    Kernel :=
  { kernel with
    nrBuffers := count
    freeList := 0
    hashTable := fun _ => none
    buffers := fun bh =>
      { memory bh with
        dev := 0
        dirt := false
        count := 0
        lock := false
        uptodate := false
        next := none
        prev := none
        prevFree := some (if bh = 0 then count - 1 else bh - 1)
        nextFree := some (if bh + 1 = count then 0 else bh + 1) } }

end Linux011.Fs

import Linux011.Fs.InodeTable

/-!
# Reading a superblock

`read_super` of `super.c`.  The loops over the map blocks take their bounds
from the disk and store through `s_imap[i]` and `s_zmap[i]` without looking
at the length of these arrays; the model stops at the first store that is
past its array, since what follows is a matter of memory layout.
-/

namespace Linux011.Fs

open Coop

/-- `SUPER_MAGIC`. -/
def superMagic : Nat := 0x137F

/-- `I_MAP_SLOTS` and `Z_MAP_SLOTS`. -/
def mapSlots : Nat := 8

/-- The calls of `bread` in `read_super`: for block 1, and in each loop for
the block that the count `block` has come to. -/
structure SuperReads where
  super : Sys (Option Nat)
  imap : Nat → Nat → Sys (Option Nat)
  zmap : Nat → Nat → Sys (Option Nat)

namespace Super

/-- The `d_super_block` at the start of a block. -/
def load (super : Super) (data : Block) : Super :=
  { super with
    ninodes := shortAt data 0
    nzones := shortAt data 2
    imapBlocks := shortAt data 4
    zmapBlocks := shortAt data 6
    firstdatazone := shortAt data 8
    magic := shortAt data 16 }

/-- `s_imap[i] = bh`. -/
def setImap (i : Nat) (bh : Option Nat) (super : Super) : Super :=
  { super with
    imap := fun other => if other = i then bh else super.imap other }

/-- `s_zmap[i] = bh`. -/
def setZmap (i : Nat) (bh : Option Nat) (super : Super) : Super :=
  { super with
    zmap := fun other => if other = i then bh else super.zmap other }

/-- A slot that is given up: `s_dev = 0` and `free_super`. -/
def giveUp (super : Super) : Super := { super with dev := 0, lock := false }

end Super

/-- `lock_super`. -/
def lockSuper (sb : Nat) : Sys Unit := do
  Prog.waitUntil fun kernel => !(kernel.supers sb).lock
  onSuper sb fun super => { super with lock := true }

/-- `s_imap[i] = bh` or `s_zmap[i] = bh`, for any `i`. -/
def storeSlot (sb : Nat) (set : Nat → Option Nat → Super → Super) (i : Nat)
    (bh : Option Nat) : Sys Unit :=
  if i < mapSlots then onSuper sb (set i bh)
  else Prog.panic "store past the map slots"

/-- A loop over map blocks from index `i` on, `rest` before its bound.  It
ends with `block`. -/
def readMap (read : Nat → Nat → Sys (Option Nat)) (sb : Nat)
    (set : Nat → Option Nat → Super → Super) :
    Nat → Nat → Nat → Sys Nat
  | 0, _, block => return block
  | rest + 1, i, block => do
      let bh ← read i block
      storeSlot sb set i bh
      match bh with
      | none => return block
      | some _ => readMap read sb set rest (i + 1) (block + 1)

/-- The loops that release all map blocks. -/
def releaseMaps (sb : Nat) : Sys Unit := do
  Prog.upTo (fun i => do
    let kernel ← Prog.get
    brelse ((kernel.supers sb).imap i)) mapSlots
  Prog.upTo (fun i => do
    let kernel ← Prog.get
    brelse ((kernel.supers sb).zmap i)) mapSlots

/-- `bh->b_data[0] |= 1`. -/
def markFirst (bh : Option Nat) : Sys Unit :=
  match bh with
  | none => Prog.panic "store through a NULL buffer"
  | some bh => onBuffer bh fun buffer =>
      { buffer with data := fun offset =>
          if offset = 0 then buffer.data 0 ||| 1 else buffer.data offset }

/-- The end of `read_super`, where `block` has come to after both loops and
where it should have come to. -/
def settleMaps (sb block expected : Nat) : Sys (Option Nat) := do
  if block ≠ expected then do
    releaseMaps sb
    onSuper sb Super.giveUp
    return none
  else do
    let kernel ← Prog.get
    markFirst ((kernel.supers sb).imap 0)
    markFirst ((kernel.supers sb).zmap 0)
    onSuper sb fun super => { super with lock := false }
    return some sb

/-- The part of `read_super` from the clearing of the map slots on. -/
def fillMaps (reads : SuperReads) (sb : Nat) : Sys (Option Nat) := do
  onSuper sb fun super =>
    { super with imap := fun _ => none, zmap := fun _ => none }
  let kernel ← Prog.get
  let super := kernel.supers sb
  let block ← readMap reads.imap sb Super.setImap super.imapBlocks 0 2
  let block ← readMap reads.zmap sb Super.setZmap super.zmapBlocks 0 block
  settleMaps sb block (2 + super.imapBlocks + super.zmapBlocks)

/-- The part after `lock_super`. -/
def fillSuper (reads : SuperReads) (sb : Nat) : Sys (Option Nat) := do
  match ← reads.super with
  | none => do
      onSuper sb Super.giveUp
      return none
  | some bh => do
      let kernel ← Prog.get
      onSuper sb fun super => super.load (kernel.buffers bh).data
      brelse (some bh)
      let kernel ← Prog.get
      if (kernel.supers sb).magic ≠ superMagic then do
        onSuper sb Super.giveUp
        return none
      else fillMaps reads sb

/-- The part of `read_super` for a device that has no superblock yet. -/
def claimSuper (reads : SuperReads) (dev : Nat) : Sys (Option Nat) := do
  let kernel ← Prog.get
  match findSuper kernel.supers 0 0 nrSuper with
  | none => return none
  | some sb => do
      onSuper sb fun super =>
        { super with dev := dev, isup := none, imount := none }
      lockSuper sb
      fillSuper reads sb

/-- `read_super` after `check_disk_change`. -/
def readSuperWith (reads : SuperReads) (fuel dev : Nat) :
    Sys (Option Nat) := do
  if dev = 0 then return none
  else
    match ← getSuper dev fuel with
    | some sb => return some sb
    | none => claimSuper reads dev

def readSuper (fuel dev : Nat) : Sys (Option Nat) :=
  readSuperWith
    { super := (bread fuel dev 1).unmarked
      imap := fun _ block => (bread fuel dev block).unmarked
      zmap := fun _ block => (bread fuel dev block).unmarked } fuel dev

end Linux011.Fs

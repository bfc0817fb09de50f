import Linux011.Fs.BufferCache
import Linux011.Library.Stretches

/-!
# The maps of zones and inodes

`bitmap.c` without `new_inode`.  A map is a list of up to eight blocks that
the superblock holds in the cache; bit `nr` of a block is found as `btsl` and
`btrl` find it.  From here on the cache's functions are used without the
marks that bound the references of a buffer.
-/

namespace Linux011.Fs

open Coop

/-- `BLOCK_SIZE`. -/
def blockSize : Nat := 1024

/-- Bit `nr` of a block. -/
def bitOf (data : Block) (nr : Nat) : Bool :=
  (data (nr / 8)).toNat.testBit (nr % 8)

/-- What `set_bit` leaves behind. -/
def setBit (nr : Nat) (data : Block) : Block := fun offset =>
  if offset = nr / 8 then data offset ||| UInt8.ofNat (2 ^ (nr % 8))
  else data offset

/-- What `clear_bit` leaves behind. -/
def clearBit (nr : Nat) (data : Block) : Block := fun offset =>
  if offset = nr / 8 then data offset &&& ~~~UInt8.ofNat (2 ^ (nr % 8))
  else data offset

/-- The 16-bit word at an offset. -/
def shortAt (data : Block) (offset : Nat) : Nat :=
  (data offset).toNat + 256 * (data (offset + 1)).toNat

/-- The 32-bit word at an offset. -/
def longAt (data : Block) (offset : Nat) : Nat :=
  shortAt data offset + 65536 * shortAt data (offset + 2)

/-- `notl` and `bsfl`: the lowest clear bit of a word. -/
def lowestClear (word : Nat) : Option Nat :=
  (List.range 32).find? fun bit => !word.testBit bit

/-- The loop of `find_first_zero`, with `ecx` at `32 * index`: `lodsl` loads the
word of the next 32 bits. -/
def findZeroFrom (data : Block) : Nat → Nat → Nat
  | 0, index => 32 * index
  | words + 1, index =>
      match lowestClear (longAt data (4 * index)) with
      | some bit => 32 * index + bit
      | none => findZeroFrom data words (index + 1)

/-- `find_first_zero`: 8192 where there is none. -/
def findFirstZero (data : Block) : Nat := findZeroFrom data 256 0

/-- The loop of `new_block` and `new_inode` over the blocks of a map: the
index of the first one with a clear bit, its buffer and the bit. -/
def findMap (kernel : Kernel) (blocks : Nat → Option Nat) :
    Nat → Nat → Option (Nat × Nat × Nat)
  | 0, _ => none
  | rest + 1, index =>
      match blocks index with
      | none => findMap kernel blocks rest (index + 1)
      | some bh =>
          let bit := findFirstZero (kernel.buffers bh).data
          if bit < 8192 then some (index, bh, bit)
          else findMap kernel blocks rest (index + 1)

/-- Change the data of a map block, which makes it dirty. -/
def storeMap (bh : Nat) (change : Block → Block) : Sys Unit :=
  onBuffer bh fun buffer =>
    { buffer with data := change buffer.data, dirt := true }

/-- The end of `free_block` and of `free_inode`: the bit is cleared.  A map
block that was never loaded is a `NULL` pointer. -/
def releaseBit (map : Option Nat) (bit : Nat) (onClear : Sys Unit) :
    Sys Unit :=
  match map with
  | none => Prog.panic "NULL map block"
  | some bh => do
      let kernel ← Prog.get
      let check : Sys Unit :=
        if bitOf (kernel.buffers bh).data bit = false then onClear else pure ()
      check
      storeMap bh (clearBit bit)

/-- `free_block`.  The mark is at the point where it finds the block in use
and returns with the reference it has taken. -/
def freeBlock (fuel dev block : Nat) : Sys Unit := do
  match ← getSuper dev fuel with
  | none => Prog.panic "trying to free block on nonexistent device"
  | some sb => do
      let kernel ← Prog.get
      if block < (kernel.supers sb).firstdatazone ∨
          (kernel.supers sb).nzones ≤ block then
        Prog.panic "trying to free block not in datazone"
      else do
        let release : Sys Unit := do
          let kernel ← Prog.get
          let super := kernel.supers sb
          let nr := block + 1 - super.firstdatazone
          releaseBit (super.zmap (nr / 8192)) (nr % 8192)
            (Prog.panic "free_block: bit already cleared")
        match ← (getHashTable fuel dev block).unmarked with
        | none => release
        | some bh => do
            let kernel ← Prog.get
            if (kernel.buffers bh).countByte ≠ 1 then Prog.cross
            else do
              onBuffer bh fun buffer =>
                { buffer with dirt := false, uptodate := false }
              brelse (some bh)
              release

/-- `new_block`; an `int` is given by its 32 bits. -/
def newBlock (fuel dev : Nat) : Sys Nat := do
  match ← getSuper dev fuel with
  | none => Prog.panic "trying to get new block from nonexistant device"
  | some sb => do
      let kernel ← Prog.get
      let super := kernel.supers sb
      match findMap kernel super.zmap 8 0 with
      | none => return 0
      | some (index, bh, bit) =>
          if bitOf (kernel.buffers bh).data bit = true then
            Prog.panic "new_block: bit already set"
          else do
            storeMap bh (setBit bit)
            let zone : Int := bit + index * 8192 + super.firstdatazone - 1
            if (super.nzones : Int) ≤ zone then return 0
            else do
              let block := (zone % 2 ^ 32).toNat
              let bh ← (getblk fuel dev block).unmarked
              let kernel ← Prog.get
              if (kernel.buffers bh).countByte ≠ 1 then
                Prog.panic "new block: count is != 1"
              else do
                onBuffer bh fun buffer =>
                  { buffer with
                    data := fun offset =>
                      if offset < blockSize then 0 else buffer.data offset
                    uptodate := true
                    dirt := true }
                brelse (some bh)
                return block

/-- `free_inode`; the map is taken without regard to its bits in other
blocks, as `i_num >> 13` and `i_num & 8191` say. -/
def freeInode (fuel index : Nat) : Sys Unit := do
  let clear : Sys Unit := onInode index fun _ => Inode.zero
  let kernel ← Prog.get
  let inode := kernel.inodes index
  if inode.dev = 0 then clear
  else if 1 < inode.count then Prog.panic "free_inode"
  else if inode.nlinks ≠ 0 then Prog.panic "trying to free inode with links"
  else
    match ← getSuper inode.dev fuel with
    | none => Prog.panic "trying to free inode on nonexistent device"
    | some sb => do
        let kernel ← Prog.get
        let inode := kernel.inodes index
        let super := kernel.supers sb
        if inode.num < 1 ∨ super.ninodes < inode.num then
          Prog.panic "trying to free inode 0 or nonexistant inode"
        else
          match super.imap (inode.num / 8192) with
          | none => Prog.panic "nonexistent imap in superblock"
          | some bh => do
              releaseBit (some bh) (inode.num % 8192) (pure ())
              clear

end Linux011.Fs

import Mathlib.Order.CompletePartialOrder
import Mathlib.Order.Interval.Set.Disjoint
import Linux011.Fs.Bitmaps
import Linux011.Fs.CacheTasks

/-!
# The buffer area

`buffer_init` at the addresses it works on.  The buffer heads go up from
`start_buffer`, where the kernel ends; the data blocks go down from the end of
the area, past the hole below 1 MB.  Pointers are numbers below `2^32`.
-/

namespace Linux011.Fs.BufferArea

open Links

/-- `sizeof (struct buffer_head)`. -/
def headSize : Nat := 36

/-- A `buffer_head` with its pointers as addresses. -/
structure BufferHead where
  data : Nat
  blocknr : Nat
  dev : Nat
  uptodate : Nat
  dirt : Nat
  count : Nat
  lock : Nat
  wait : Nat
  prev : Nat
  next : Nat
  prevFree : Nat
  nextFree : Nat

/-- The heads by their addresses, and the variables of `buffer.c`. -/
structure Area where
  heads : Nat → BufferHead
  nrBuffers : Nat
  freeList : Nat
  hashTable : Nat → Nat

def Area.setHead (area : Area) (h : Nat) (change : BufferHead → BufferHead) :
    Area :=
  { area with
    heads := fun other =>
      if other = h then change (area.heads h) else area.heads other }

def plus (pointer size : Nat) : Nat := (pointer + size) % 4294967296

def minus (pointer size : Nat) : Nat :=
  (pointer + (4294967296 - size)) % 4294967296

/-! ## The code -/

/-- The body of the loop for the head at `h`. -/
def initHead (h b : Nat) (head : BufferHead) : BufferHead :=
  { head with
    dev := 0
    dirt := 0
    count := 0
    lock := 0
    uptodate := 0
    wait := 0
    next := 0
    prev := 0
    data := b
    prevFree := minus h headSize
    nextFree := plus h headSize }

/-- The loop, at most `fuel` times, and where it leaves `h`. -/
def initHeads : Nat → Nat → Nat → Area → Option (Nat × Area)
  | 0, _, _, _ => none
  | fuel + 1, h, b, area =>
      let b := minus b blockSize
      if plus h headSize ≤ b then
        initHeads fuel (plus h headSize) (if b = 0x100000 then 0xA0000 else b)
          { area.setHead h (initHead h b) with
            nrBuffers := area.nrBuffers + 1 }
      else some (h, area)

/-- The ring is closed behind the last head. -/
def closeRing (startBuffer h : Nat) (area : Area) : Area :=
  let h := minus h headSize
  let area := area.setHead startBuffer fun head => { head with prevFree := h }
  { area.setHead h fun head => { head with nextFree := startBuffer } with
    freeList := startBuffer
    hashTable := fun _ => 0 }

/-- The variables before the first call. -/
def untouched (memory : Nat → BufferHead) : Area :=
  { heads := memory, nrBuffers := 0, freeList := 0, hashTable := fun _ => 0 }

def bufferInit (fuel startBuffer bufferEnd : Nat)
    (memory : Nat → BufferHead) : Option Area :=
  let b := if bufferEnd = 1 <<< 20 then 640 * 1024 else bufferEnd
  (initHeads fuel startBuffer b (untouched memory)).map fun (h, area) =>
    closeRing startBuffer h area

/-- `memory_end`, from the kilobytes above 1 MB. -/
def memoryEnd (extMemK : Nat) : Nat :=
  let memoryEnd := ((1 <<< 20) + (extMemK <<< 10)) &&& 0xfffff000
  if memoryEnd > 16 * 1024 * 1024 then 16 * 1024 * 1024 else memoryEnd

/-- What `main` passes. -/
def bufferMemoryEnd (memoryEnd : Nat) : Nat :=
  if memoryEnd > 12 * 1024 * 1024 then 4 * 1024 * 1024
  else if memoryEnd > 6 * 1024 * 1024 then 2 * 1024 * 1024
  else 1 * 1024 * 1024

/-- `tmp_floppy_area`. -/
def tmpFloppyArea : Nat := 0x5000

/-- Where a floppy transfer of a buffer goes. -/
def dmaAddress (buffer : Nat) : Nat :=
  if buffer ≥ 0x100000 then tmpFloppyArea else buffer

/-- The bytes that `setup_DMA` puts out, each with its port. -/
def setupDma (read : Bool) (buffer : Nat) : List (Nat × Nat) :=
  let addr := dmaAddress buffer
  let mode := if read then 0x46 else 0x4A
  [(4 ||| 2, 10), (mode, 12), (mode, 11), (addr % 256, 4),
    ((addr >>> 8) % 256, 4), ((addr >>> 16) % 256, 0x81), (0xff, 5), (3, 5),
    (0 ||| 2, 10)]

/-- What a port was given. -/
def written (port : Nat) (bytes : List (Nat × Nat)) : List Nat :=
  (bytes.filter fun byte => byte.2 = port).map Prod.fst

/-- The addresses that the controller goes through: its counter has 16 bits and
does not carry into the page register. -/
def transferred (bytes : List (Nat × Nat)) : List Nat :=
  match written 4 bytes, written 0x81 bytes, written 5 bytes with
  | [low, high], [page], [countLow, countHigh] =>
      (List.range (countLow + 256 * countHigh + 1)).map fun i =>
        65536 * page + (low + 256 * high + i) % 65536
  | _, _, _ => []

/-! ## Where heads and blocks are -/

/-- The head of buffer `bh`. -/
def headAt (startBuffer bh : Nat) : Nat := startBuffer + headSize * bh

/-- How many blocks there is room for above the hole. -/
def above (bufferEnd : Nat) : Nat := (bufferEnd - 0x100000) / blockSize

/-- `b` before buffer `bh` is made. -/
def edge (bufferEnd bh : Nat) : Nat :=
  if bh < above bufferEnd then bufferEnd - blockSize * bh
  else 0xA0000 - blockSize * (bh - above bufferEnd)

/-- The block of buffer `bh`. -/
def blockAt (bufferEnd bh : Nat) : Nat := edge bufferEnd bh - blockSize

def Fits (startBuffer bufferEnd bh : Nat) : Prop :=
  headAt startBuffer (bh + 1) ≤ blockAt bufferEnd bh

instance (startBuffer bufferEnd bh : Nat) :
    Decidable (Fits startBuffer bufferEnd bh) := Nat.decLe _ _

/-- What `main` calls `buffer_init` with, and a kernel below 512 KB. -/
structure Limits (startBuffer bufferEnd : Nat) : Prop where
  low : startBuffer ≤ 0x80000
  pages : bufferEnd % 4096 = 0
  least : 0x100000 ≤ bufferEnd
  most : bufferEnd ≤ 0x400000

section Places

variable {startBuffer bufferEnd : Nat}

theorem Limits.bufferEnd_eq (limits : Limits startBuffer bufferEnd) :
    bufferEnd = 0x100000 + blockSize * above bufferEnd := by
  have pages := limits.pages
  have least := limits.least
  unfold above blockSize
  omega

theorem Limits.above_le (limits : Limits startBuffer bufferEnd) :
    above bufferEnd ≤ 3072 := by
  have most := limits.most
  unfold above blockSize
  omega

/-- Above the hole every head has room below it. -/
theorem Limits.fits_above (limits : Limits startBuffer bufferEnd) {bh : Nat}
    (isAbove : bh ≤ above bufferEnd) : Fits startBuffer bufferEnd bh := by
  have isEnd := limits.bufferEnd_eq
  have few := limits.above_le
  have low := limits.low
  unfold Fits headAt blockAt edge headSize blockSize at *
  split <;> omega

theorem blockAt_below {bh : Nat} (isBelow : above bufferEnd ≤ bh) :
    blockAt bufferEnd bh =
      0xA0000 - blockSize * (bh - above bufferEnd + 1) := by
  unfold blockAt edge blockSize
  rw [if_neg (by omega)]
  omega

theorem Limits.blockAt_above (limits : Limits startBuffer bufferEnd) {bh : Nat}
    (isAbove : bh < above bufferEnd) :
    blockAt bufferEnd bh =
      0x100000 + blockSize * (above bufferEnd - bh - 1) := by
  have isEnd := limits.bufferEnd_eq
  unfold blockAt edge blockSize at *
  rw [if_pos isAbove]
  omega

/-- Every block is on one side of the hole. -/
theorem Limits.block_side (limits : Limits startBuffer bufferEnd) (bh : Nat) :
    0x100000 ≤ blockAt bufferEnd bh ∧
        blockAt bufferEnd bh + blockSize ≤ bufferEnd ∨
      blockAt bufferEnd bh + blockSize ≤ 0xA0000 := by
  have isEnd := limits.bufferEnd_eq
  by_cases isAbove : bh < above bufferEnd
  · have isBlock := limits.blockAt_above isAbove
    unfold blockSize at *
    omega
  · have isBlock := @blockAt_below bufferEnd bh (Nat.le_of_not_lt isAbove)
    unfold blockSize at *
    omega

theorem Limits.blockAt_aligned (limits : Limits startBuffer bufferEnd)
    (bh : Nat) : blockAt bufferEnd bh % blockSize = 0 := by
  by_cases isAbove : bh < above bufferEnd
  · rw [limits.blockAt_above isAbove]
    unfold blockSize
    omega
  · rw [blockAt_below (Nat.le_of_not_lt isAbove)]
    unfold blockSize
    omega

theorem Fits.block_pos {bh : Nat} (fits : Fits startBuffer bufferEnd bh) :
    0 < blockAt bufferEnd bh := by
  unfold Fits headAt headSize at fits
  omega

/-- Blocks go down. -/
theorem Limits.block_below (limits : Limits startBuffer bufferEnd)
    {first second : Nat} (less : first < second)
    (fits : Fits startBuffer bufferEnd second) :
    blockAt bufferEnd second + blockSize ≤ blockAt bufferEnd first := by
  have positive := fits.block_pos
  by_cases isAbove : second < above bufferEnd
  · rw [limits.blockAt_above isAbove, limits.blockAt_above (by omega)]
    unfold blockSize
    omega
  · have isSecond := @blockAt_below bufferEnd second (by omega)
    by_cases other : first < above bufferEnd
    · rw [limits.blockAt_above other]
      unfold blockSize at *
      omega
    · have isFirst := @blockAt_below bufferEnd first (by omega)
      unfold blockSize at *
      omega

theorem Limits.fits_few (limits : Limits startBuffer bufferEnd) {bh : Nat}
    (fits : Fits startBuffer bufferEnd bh) : bh < 3712 := by
  have few := limits.above_le
  have positive := fits.block_pos
  by_contra many
  rw [blockAt_below (by omega)] at positive
  unfold blockSize at positive
  omega

/-- The head of a buffer that fits ends below the hole. -/
theorem Limits.head_low (limits : Limits startBuffer bufferEnd) {bh : Nat}
    (fits : Fits startBuffer bufferEnd bh) :
    headAt startBuffer (bh + 1) ≤ 0xA0000 := by
  have few := limits.above_le
  have low := limits.low
  by_cases isAbove : bh < above bufferEnd
  · unfold headAt headSize
    omega
  · have isBlock := @blockAt_below bufferEnd bh (by omega)
    unfold Fits at fits
    omega

/-! ## The loop -/

/-- The buffers that fit, up to the first one that does not. -/
structure Count (startBuffer bufferEnd count : Nat) : Prop where
  fits : ∀ bh < count, Fits startBuffer bufferEnd bh
  full : ¬ Fits startBuffer bufferEnd count

theorem Limits.count (limits : Limits startBuffer bufferEnd) :
    ∃ count, Count startBuffer bufferEnd count ∧ 0 < count ∧
      count ≤ 3712 := by
  have ends : ∃ bh, ¬ Fits startBuffer bufferEnd bh :=
    ⟨3712, fun fits => Nat.lt_irrefl _ (limits.fits_few fits)⟩
  refine ⟨Nat.find ends, ⟨?_, Nat.find_spec ends⟩, ?_, ?_⟩
  · intro bh less
    exact not_not.mp (Nat.find_min ends less)
  · rw [Nat.find_pos]
    exact not_not_intro (limits.fits_above (Nat.zero_le _))
  · exact Nat.find_min' ends fun fits =>
      Nat.lt_irrefl _ (limits.fits_few fits)

/-- The area after `count` passes. -/
def filled (startBuffer bufferEnd : Nat) (memory : Nat → BufferHead) :
    Nat → Area
  | 0 => untouched memory
  | bh + 1 =>
      let area := filled startBuffer bufferEnd memory bh
      { area.setHead (headAt startBuffer bh)
          (initHead (headAt startBuffer bh) (blockAt bufferEnd bh)) with
        nrBuffers := area.nrBuffers + 1 }

theorem minus_eq {pointer size : Nat} (enough : size ≤ pointer)
    (small : pointer < 4294967296) : minus pointer size = pointer - size := by
  unfold minus
  omega

theorem plus_eq {pointer size : Nat} (small : pointer + size < 4294967296) :
    plus pointer size = pointer + size :=
  Nat.mod_eq_of_lt small

/-- `b` never wraps. -/
theorem Limits.minus_edge (limits : Limits startBuffer bufferEnd) {bh : Nat}
    (before : ∀ other < bh, Fits startBuffer bufferEnd other) :
    minus (edge bufferEnd bh) blockSize = blockAt bufferEnd bh := by
  have isEnd := limits.bufferEnd_eq
  have few := limits.above_le
  refine minus_eq ?_ ?_
  · by_cases isAbove : bh ≤ above bufferEnd
    · unfold edge blockSize at *
      split <;> omega
    · have fits := before (bh - 1) (by omega)
      have positive := fits.block_pos
      rw [blockAt_below (by omega)] at positive
      unfold edge blockSize at *
      rw [if_neg (by omega)]
      omega
  · unfold edge blockSize at *
    split <;> omega

/-- Where the next block ends; the hole is jumped over. -/
theorem Limits.edge_succ (limits : Limits startBuffer bufferEnd) (bh : Nat) :
    (if blockAt bufferEnd bh = 0x100000 then 0xA0000
      else blockAt bufferEnd bh) = edge bufferEnd (bh + 1) := by
  have isEnd := limits.bufferEnd_eq
  by_cases isAbove : bh < above bufferEnd
  · rw [limits.blockAt_above isAbove]
    unfold edge blockSize at *
    split <;> split <;> omega
  · rw [blockAt_below (Nat.le_of_not_lt isAbove)]
    unfold edge blockSize
    rw [if_neg (by omega), if_neg (by omega)]
    omega

theorem Limits.plus_headAt (limits : Limits startBuffer bufferEnd) {bh : Nat}
    (few : bh ≤ 3712) :
    plus (headAt startBuffer bh) headSize = headAt startBuffer (bh + 1) := by
  have low := limits.low
  rw [plus_eq (by unfold headAt headSize; omega)]
  unfold headAt
  rw [Nat.mul_succ, Nat.add_assoc]

/-- By induction on the buffers that are left. -/
theorem Limits.initHeads_eq (limits : Limits startBuffer bufferEnd)
    (memory : Nat → BufferHead) {count : Nat}
    (isCount : Count startBuffer bufferEnd count) (few : count ≤ 3712)
    (left : Nat) {bh : Nat} (isLeft : bh + left = count) {fuel : Nat}
    (enough : left < fuel) :
    initHeads fuel (headAt startBuffer bh) (edge bufferEnd bh)
        (filled startBuffer bufferEnd memory bh) =
      some (headAt startBuffer count,
        filled startBuffer bufferEnd memory count) := by
  induction left generalizing bh fuel with
  | zero =>
      obtain ⟨fuel, rfl⟩ := Nat.exists_eq_add_of_lt enough
      obtain rfl : bh = count := isLeft
      have full : ¬ headAt startBuffer (bh + 1) ≤ blockAt bufferEnd bh :=
        isCount.full
      rw [initHeads]
      dsimp only
      rw [limits.minus_edge isCount.fits, limits.plus_headAt few, if_neg full]
  | succ left induction =>
      obtain ⟨spare, rfl⟩ := Nat.exists_eq_add_of_lt enough
      have fits : headAt startBuffer (bh + 1) ≤ blockAt bufferEnd bh :=
        isCount.fits bh (by omega)
      have before : ∀ other < bh, Fits startBuffer bufferEnd other :=
        fun other less => isCount.fits other (by omega)
      rw [initHeads]
      dsimp only
      rw [limits.minus_edge before, limits.plus_headAt (by omega),
        if_pos fits, limits.edge_succ]
      exact induction (by omega) (by omega)

theorem headAt_injective (startBuffer : Nat) :
    Function.Injective (headAt startBuffer) := by
  intro first second same
  unfold headAt headSize at same
  omega

theorem filled_nrBuffers (memory : Nat → BufferHead) (count : Nat) :
    (filled startBuffer bufferEnd memory count).nrBuffers = count := by
  induction count with
  | zero => rfl
  | succ count induction => exact congrArg (· + 1) induction

theorem filled_later (memory : Nat → BufferHead) {count bh : Nat}
    (later : count ≤ bh) :
    (filled startBuffer bufferEnd memory count).heads
      (headAt startBuffer bh) = memory (headAt startBuffer bh) := by
  induction count with
  | zero => rfl
  | succ count induction =>
      have other : headAt startBuffer bh ≠ headAt startBuffer count :=
        (headAt_injective startBuffer).ne (by omega)
      refine (if_neg other).trans ?_
      exact induction (by omega)

theorem filled_heads (memory : Nat → BufferHead) {count bh : Nat}
    (isBuffer : bh < count) :
    (filled startBuffer bufferEnd memory count).heads
        (headAt startBuffer bh) =
      initHead (headAt startBuffer bh) (blockAt bufferEnd bh)
        (memory (headAt startBuffer bh)) := by
  induction count with
  | zero => omega
  | succ count induction =>
      by_cases last : bh = count
      · subst last
        refine (if_pos rfl).trans ?_
        rw [filled_later memory (Nat.le_refl bh)]
      · have other : headAt startBuffer bh ≠ headAt startBuffer count :=
          (headAt_injective startBuffer).ne last
        refine (if_neg other).trans ?_
        exact induction (by omega)

end Places

/-! ## The cache it builds -/

/-- A pointer to a buffer as an address. -/
def address (startBuffer : Nat) : Option Nat → Nat
  | none => 0
  | some bh => headAt startBuffer bh

/-- A head has the fields and links of its buffer. -/
structure Holds (startBuffer : Nat) (head : BufferHead) (buffer : Buffer) :
    Prop where
  dev : head.dev = buffer.dev
  uptodate : head.uptodate = buffer.uptodate.toNat
  dirt : head.dirt = buffer.dirt.toNat
  count : head.count = buffer.count
  lock : head.lock = buffer.lock.toNat
  prev : head.prev = address startBuffer buffer.prev
  next : head.next = address startBuffer buffer.next
  prevFree : head.prevFree = address startBuffer buffer.prevFree
  nextFree : head.nextFree = address startBuffer buffer.nextFree

/-- The area holds the cache. -/
structure Represents (startBuffer : Nat) (area : Area) (kernel : Kernel) :
    Prop where
  nrBuffers : area.nrBuffers = kernel.nrBuffers
  freeList : area.freeList = headAt startBuffer kernel.freeList
  hashTable : ∀ slot,
    area.hashTable slot = address startBuffer (kernel.hashTable slot)
  buffers : ∀ bh < kernel.nrBuffers,
    Holds startBuffer (area.heads (headAt startBuffer bh))
      (kernel.buffers bh)

section Closed

variable {startBuffer bufferEnd : Nat}

/-- Closing the ring stores one link in the first head and one in the last,
which may be the same. -/
theorem closeRing_heads (startBuffer h : Nat) (area : Area) (other : Nat) :
    (closeRing startBuffer h area).heads other =
      { area.heads other with
        prevFree :=
          if other = startBuffer then minus h headSize
          else (area.heads other).prevFree
        nextFree :=
          if other = minus h headSize then startBuffer
          else (area.heads other).nextFree } := by
  unfold closeRing Area.setHead
  dsimp only
  by_cases isFirst : other = startBuffer
  · subst isFirst
    by_cases isLast : other = minus h headSize
    · rw [← isLast, if_pos rfl, if_pos rfl, if_pos rfl, if_pos rfl]
    · rw [if_neg isLast, if_neg isLast, if_pos rfl, if_pos rfl]
  · by_cases isLast : other = minus h headSize
    · rw [← isLast, if_pos rfl, if_pos rfl, if_neg isFirst, if_neg isFirst]
    · rw [if_neg isLast, if_neg isLast, if_neg isFirst, if_neg isFirst]

/-- The head of a buffer when the ring is closed. -/
theorem Limits.closed_heads (limits : Limits startBuffer bufferEnd)
    (memory : Nat → BufferHead) {count bh : Nat} (few : count ≤ 3712)
    (isBuffer : bh < count) :
    (closeRing startBuffer (headAt startBuffer count)
        (filled startBuffer bufferEnd memory count)).heads
          (headAt startBuffer bh) =
      { initHead (headAt startBuffer bh) (blockAt bufferEnd bh)
          (memory (headAt startBuffer bh)) with
        prevFree := headAt startBuffer
          (if bh = 0 then count - 1 else bh - 1)
        nextFree := headAt startBuffer
          (if bh + 1 = count then 0 else bh + 1) } := by
  have low := limits.low
  have minusHead {other : Nat} (some : 0 < other) (less : other ≤ count) :
      minus (headAt startBuffer other) headSize =
        headAt startBuffer (other - 1) := by
    rw [minus_eq (by unfold headAt headSize; omega)
      (by unfold headAt headSize; omega)]
    unfold headAt headSize
    omega
  have isHead (other : Nat) : headAt startBuffer bh =
      headAt startBuffer other ↔ bh = other :=
    (headAt_injective startBuffer).eq_iff
  have isLast : bh = count - 1 ↔ bh + 1 = count := by omega
  rw [closeRing_heads, filled_heads memory isBuffer,
    minusHead (by omega) (Nat.le_refl count)]
  have prevLink : (if headAt startBuffer bh = startBuffer
        then headAt startBuffer (count - 1)
        else minus (headAt startBuffer bh) headSize) =
      headAt startBuffer (if bh = 0 then count - 1 else bh - 1) := by
    have isFirst : headAt startBuffer bh = startBuffer ↔ bh = 0 := isHead 0
    simp only [isFirst]
    split
    · rfl
    · exact minusHead (by omega) (by omega)
  have nextLink : (if headAt startBuffer bh = headAt startBuffer (count - 1)
        then startBuffer else plus (headAt startBuffer bh) headSize) =
      headAt startBuffer (if bh + 1 = count then 0 else bh + 1) := by
    simp only [isHead, isLast]
    split
    · rfl
    · exact limits.plus_headAt (by omega)
  unfold initHead
  dsimp only
  rw [prevLink, nextLink]

/-- `buffer_init` returns, and what it returns holds the cache that the rest
of `buffer.c` starts from. -/
theorem Limits.bufferInit_represents (limits : Limits startBuffer bufferEnd)
    (memory : Nat → BufferHead) :
    ∃ count area, Count startBuffer bufferEnd count ∧ 0 < count ∧
      (∀ fuel, 3712 < fuel →
        bufferInit fuel startBuffer bufferEnd memory = some area) ∧
      (∀ bh < count, (area.heads (headAt startBuffer bh)).data =
        blockAt bufferEnd bh) ∧
      ∀ (buffers : Nat → Buffer) (kernel : Kernel),
        Represents startBuffer area
          (Fs.bufferInit count buffers kernel) := by
  obtain ⟨count, isCount, some, few⟩ := limits.count
  refine ⟨count, closeRing startBuffer (headAt startBuffer count)
    (filled startBuffer bufferEnd memory count), isCount, some, ?_, ?_, ?_⟩
  · intro fuel enough
    have isEdge : (if bufferEnd = 1 <<< 20 then 640 * 1024 else bufferEnd) =
        edge bufferEnd 0 := by
      have isEnd := limits.bufferEnd_eq
      unfold edge blockSize at *
      split <;> split <;> omega
    have run := limits.initHeads_eq memory isCount few count
      (Nat.zero_add count) (by omega : count < fuel)
    unfold bufferInit
    dsimp only
    rw [isEdge]
    exact congrArg (Option.map _) run
  · intro bh isBuffer
    rw [limits.closed_heads memory few isBuffer]
    rfl
  · intro buffers kernel
    refine ⟨?_, rfl, fun _ => rfl, ?_⟩
    · exact filled_nrBuffers memory count
    · intro bh isBuffer
      rw [limits.closed_heads memory few isBuffer]
      exact ⟨rfl, rfl, rfl, rfl, rfl, rfl, rfl, rfl, rfl⟩

end Closed

/-! ## The layout -/

def blockBytes (area : Area) (h : Nat) : Set Nat :=
  Set.Ico (area.heads h).data ((area.heads h).data + blockSize)

/-- Video memory and the BIOS. -/
def hole : Set Nat := Set.Ico 0xA0000 0x100000

/-- The blocks and heads of an area, apart from each other and the hole. -/
structure LaidOut (startBuffer bufferEnd : Nat) (area : Area) : Prop where
  nonempty : 1 ≤ area.nrBuffers
  disjoint : ∀ first < area.nrBuffers, ∀ second < area.nrBuffers,
    first ≠ second →
      Disjoint (blockBytes area (headAt startBuffer first))
        (blockBytes area (headAt startBuffer second))
  aligned : ∀ bh < area.nrBuffers,
    (area.heads (headAt startBuffer bh)).data % blockSize = 0
  bank : ∀ bh < area.nrBuffers, ∀ byte ∈
    blockBytes area (headAt startBuffer bh),
      byte / 65536 = (area.heads (headAt startBuffer bh)).data / 65536
  within : ∀ bh < area.nrBuffers,
    (area.heads (headAt startBuffer bh)).data + blockSize ≤ bufferEnd
  blockHole : ∀ bh < area.nrBuffers,
    Disjoint (blockBytes area (headAt startBuffer bh)) hole
  headHole : ∀ bh < area.nrBuffers,
    Disjoint (Set.Ico (headAt startBuffer bh)
      (headAt startBuffer bh + headSize)) hole
  apart : ∀ bh < area.nrBuffers,
    Disjoint (blockBytes area (headAt startBuffer bh))
      (Set.Ico startBuffer (startBuffer + headSize * area.nrBuffers))
  start : area.freeList = startBuffer
  ring : ∃ nodes,
    Ring (fun h => some (area.heads h).nextFree)
      (fun h => some (area.heads h).prevFree) area.freeList nodes ∧
        ∀ h, h ∈ nodes ↔ ∃ bh < area.nrBuffers, h = headAt startBuffer bh
  dma : ∀ bh < area.nrBuffers, ∀ read,
    transferred (setupDma read (area.heads (headAt startBuffer bh)).data) =
      (List.range blockSize).map
        (dmaAddress (area.heads (headAt startBuffer bh)).data + ·)

/-- An area that holds a cache in order has its ring of heads. -/
theorem Represents.ring {startBuffer : Nat} {area : Area} {kernel : Kernel}
    (represents : Represents startBuffer area kernel)
    (lists : Lists kernel) :
    ∃ nodes,
      Ring (fun h => some (area.heads h).nextFree)
        (fun h => some (area.heads h).prevFree) area.freeList nodes ∧
          ∀ h, h ∈ nodes ↔
            ∃ bh < area.nrBuffers, h = headAt startBuffer bh := by
  obtain ⟨nodes, ring, members⟩ := lists.ring
  refine ⟨nodes.map (headAt startBuffer), ?_, ?_⟩
  · rw [represents.freeList]
    refine ring.map _ (headAt_injective startBuffer) ?_ ?_
    · intro bh isIn
      obtain ⟨after, _, adjacent⟩ := ring.next_mem isIn
      have isNext : (kernel.buffers bh).nextFree = some after := adjacent.1
      have holds := represents.buffers bh ((members bh).mp isIn)
      rw [adjacent.1, holds.nextFree, isNext]
      rfl
    · intro bh isIn
      obtain ⟨before, _, adjacent⟩ := ring.prev_mem isIn
      have isPrev : (kernel.buffers bh).prevFree = some before := adjacent.2
      have holds := represents.buffers bh ((members bh).mp isIn)
      rw [adjacent.2, holds.prevFree, isPrev]
      rfl
  · intro h
    rw [List.mem_map, represents.nrBuffers]
    constructor
    · rintro ⟨bh, isIn, rfl⟩
      exact ⟨bh, (members bh).mp isIn, rfl⟩
    · rintro ⟨bh, isBuffer, rfl⟩
      exact ⟨bh, (members bh).mpr isBuffer, rfl⟩

/-- `main` keeps to the limits. -/
theorem bufferMemoryEnd_limits {startBuffer : Nat}
    (low : startBuffer ≤ 0x80000) (extMemK : Nat) :
    Limits startBuffer (bufferMemoryEnd (memoryEnd extMemK)) := by
  generalize memoryEnd extMemK = memoryEnd
  unfold bufferMemoryEnd
  split
  · exact ⟨low, by decide, by decide, by decide⟩
  · split
    · exact ⟨low, by decide, by decide, by decide⟩
    · exact ⟨low, by decide, by decide, by decide⟩

/-- The transfer of an aligned buffer does not wrap. -/
theorem transferred_setupDma (read : Bool) {buffer : Nat}
    (aligned : buffer % blockSize = 0) :
    transferred (setupDma read buffer) =
      (List.range blockSize).map (dmaAddress buffer + ·) := by
  have low : dmaAddress buffer < 0x100000 ∧
      dmaAddress buffer % 1024 = 0 := by
    unfold dmaAddress tmpFloppyArea blockSize at *
    split <;> omega
  obtain ⟨low, aligned⟩ := low
  show ((List.range (0xff + 256 * 3 + 1)).map fun i =>
    65536 * ((dmaAddress buffer >>> 16) % 256) +
      (dmaAddress buffer % 256 +
        256 * ((dmaAddress buffer >>> 8) % 256) + i) % 65536) = _
  refine List.map_congr_left fun i inBlock => ?_
  rw [List.mem_range] at inBlock
  rw [Nat.shiftRight_eq_div_pow, Nat.shiftRight_eq_div_pow]
  omega

/-- All heads end where the lowest block begins or before. -/
theorem Limits.heads_below {startBuffer bufferEnd count bh : Nat}
    (limits : Limits startBuffer bufferEnd)
    (isCount : Count startBuffer bufferEnd count) (isBuffer : bh < count) :
    headAt startBuffer count ≤ blockAt bufferEnd bh := by
  obtain ⟨last, rfl⟩ := Nat.exists_eq_add_of_lt isBuffer
  have fits := isCount.fits (bh + last) (by omega)
  have lowest : headAt startBuffer (bh + last + 1) ≤
      blockAt bufferEnd (bh + last) := fits
  cases last with
  | zero => exact lowest
  | succ last =>
      have below := limits.block_below (by omega : bh < bh + (last + 1)) fits
      omega

/-- For every kernel end and every end of the area. -/
theorem bufferInit_layout {startBuffer bufferEnd : Nat}
    (limits : Limits startBuffer bufferEnd) (memory : Nat → BufferHead) :
    ∃ area,
      (∀ fuel, 3712 < fuel →
        bufferInit fuel startBuffer bufferEnd memory = some area) ∧
      LaidOut startBuffer bufferEnd area := by
  obtain ⟨count, area, isCount, some, run, data, cache⟩ :=
    limits.bufferInit_represents memory
  have represents := cache idleKernel.buffers idleKernel
  have lists := bufferInit_lists some idleKernel.buffers idleKernel
  have isNumber : area.nrBuffers = count := represents.nrBuffers
  have least := limits.least
  subst isNumber
  refine ⟨area, run, ?_⟩
  exact
    { nonempty := some
      disjoint := by
        intro first inFirst second inSecond different
        unfold blockBytes
        rw [data first inFirst, data second inSecond, Set.Ico_disjoint_Ico]
        rcases Nat.lt_or_gt_of_ne different with less | less
        · have below :=
            limits.block_below less (isCount.fits second inSecond)
          omega
        · have below :=
            limits.block_below less (isCount.fits first inFirst)
          omega
      aligned := by
        intro bh isBuffer
        rw [data bh isBuffer]
        exact limits.blockAt_aligned bh
      bank := by
        intro bh isBuffer byte inBlock
        have aligned := limits.blockAt_aligned bh
        unfold blockBytes at inBlock
        rw [data bh isBuffer] at inBlock ⊢
        rw [Set.mem_Ico] at inBlock
        unfold blockSize at *
        omega
      within := by
        intro bh isBuffer
        rw [data bh isBuffer]
        have side := limits.block_side bh
        omega
      blockHole := by
        intro bh isBuffer
        unfold blockBytes hole
        rw [data bh isBuffer, Set.Ico_disjoint_Ico]
        have side := limits.block_side bh
        omega
      headHole := by
        intro bh isBuffer
        have low := limits.head_low (isCount.fits bh isBuffer)
        unfold hole headAt headSize at *
        rw [Set.Ico_disjoint_Ico]
        omega
      apart := by
        intro bh isBuffer
        have below := limits.heads_below isCount isBuffer
        unfold blockBytes headAt at *
        rw [data bh isBuffer, Set.Ico_disjoint_Ico]
        omega
      start := represents.freeList
      ring := represents.ring lists
      dma := by
        intro bh isBuffer read
        rw [data bh isBuffer]
        exact transferred_setupDma read (limits.blockAt_aligned bh) }

/-- A kernel that ends at 128 KB, with 16 MB. -/
theorem bufferInit_layout_sixteenMegabytes :
    ∃ area,
      bufferInit 4096 0x20000 (bufferMemoryEnd (memoryEnd 0x3c00))
          (fun _ => ⟨0, 0, 0, 0, 0, 0, 0, 0, 0, 0, 0, 0⟩) = some area ∧
        LaidOut 0x20000 (bufferMemoryEnd (memoryEnd 0x3c00)) area := by
  obtain ⟨area, run, laidOut⟩ :=
    bufferInit_layout (@bufferMemoryEnd_limits 0x20000 (by decide) 0x3c00)
      fun _ => ⟨0, 0, 0, 0, 0, 0, 0, 0, 0, 0, 0, 0⟩
  exact ⟨area, run 4096 (by decide), laidOut⟩

end Linux011.Fs.BufferArea

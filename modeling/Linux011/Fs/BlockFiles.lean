import Linux011.Fs.CacheSession

/-!
# Block devices as files

`block_write` and `block_read` go through the cache block by block.  A whole
block is written without being read first: its buffer has changes, but is not
up to date.  While it is, `breada` reads the block from the device, over the
changes.
-/

namespace Linux011.Fs

open Coop Prog

/-- One of the blocks that `breada` is to read ahead.  What it asks for is
the first block once more. -/
def readAhead (fuel dev bh ahead : Nat) : Sys Unit := do
  let tmp ← getblk fuel dev ahead
  let kernel ← Prog.get
  if (kernel.buffers tmp).uptodate = false then llRwBlock .reada bh
  else pure ()
  onBuffer tmp Buffer.dropCount

def readAheads (fuel dev bh : Nat) : List Nat → Sys Unit
  | [] => pure ()
  | ahead :: rest => do
      readAhead fuel dev bh ahead
      readAheads fuel dev bh rest

/-- The request of `breada` for the first block.  The mark is where it reads
over changes. -/
def readFirst (bh : Nat) : Sys Unit := do
  let kernel ← Prog.get
  if (kernel.buffers bh).uptodate = true then pure ()
  else if (kernel.buffers bh).dirt = true then do
    Prog.cross
    llRwBlock .read bh
  else llRwBlock .read bh

def breada (fuel dev first : Nat) (aheads : List Nat) : Sys (Option Nat) := do
  let bh ← getblk fuel dev first
  readFirst bh
  readAheads fuel dev bh aheads
  waitOnBuffer bh
  let kernel ← Prog.get
  if (kernel.buffers bh).uptodate = true then return some bh
  else do
    brelse (some bh)
    return none

/-- A block after the store of some bytes. -/
def Block.copied (data : Block) (offset chars : Nat) (bytes : Nat → UInt8) :
    Block := fun place =>
  if offset ≤ place ∧ place < offset + chars then bytes (place - offset)
  else data place

/-- The error number of a device. -/
def eio : Nat := 5

/-- The buffer that `block_write` stores into.  It does not read a block that
it is to write as a whole. -/
def blockForWrite (fuel dev block chars : Nat) : Sys (Option Nat) :=
  if chars = 1024 then do
    let bh ← getblk fuel dev block
    return some bh
  else breada fuel dev block [block + 1, block + 2]

/-- The loop of `block_write`.  Every round stores at least one byte. -/
def blockWriteLoop (fuel dev : Nat) (buf : Nat → UInt8) :
    Nat → Nat → Nat → Nat → Nat → Nat → Sys (Int × Nat)
  | 0, _, _, pos, written, _ => return ((written : Int), pos)
  | rounds + 1, block, offset, pos, written, count =>
      if count = 0 then return ((written : Int), pos)
      else do
        let chars := min (1024 - offset) count
        match ← blockForWrite fuel dev block chars with
        | none => return (if written = 0 then -(eio : Int) else written, pos)
        | some bh => do
            onBuffer bh fun buffer =>
              { buffer with
                data := Block.copied buffer.data offset chars
                  fun index => buf (written + index)
                dirt := true }
            brelse (some bh)
            blockWriteLoop fuel dev buf rounds (block + 1) 0 (pos + chars)
              (written + chars) (count - chars)

/-- `block_write`: what it returns, and the new position. -/
def blockWrite (fuel dev pos : Nat) (buf : Nat → UInt8) (count : Nat) :
    Sys (Int × Nat) :=
  blockWriteLoop fuel dev buf count (pos / 1024) (pos % 1024) pos 0 count

/-- What `block_read` returns, the new position, and the bytes it has put
into the buffer of the caller. -/
structure BlockRead where
  value : Int
  pos : Nat
  bytes : List UInt8

/-- The loop of `block_read`, after the given bytes. -/
def blockReadLoop (fuel dev : Nat) :
    Nat → Nat → Nat → Nat → List UInt8 → Nat → Sys BlockRead
  | 0, _, _, pos, bytes, _ => return ⟨bytes.length, pos, bytes⟩
  | rounds + 1, block, offset, pos, bytes, count =>
      if count = 0 then return ⟨bytes.length, pos, bytes⟩
      else do
        let chars := min (1024 - offset) count
        match ← breada fuel dev block [block + 1, block + 2] with
        | none =>
            return ⟨if bytes.length = 0 then -(eio : Int) else bytes.length, pos,
              bytes⟩
        | some bh => do
            let kernel ← Prog.get
            let data := (kernel.buffers bh).data
            let copied := (List.range chars).map fun index =>
              data (offset + index)
            brelse (some bh)
            blockReadLoop fuel dev rounds (block + 1) 0 (pos + chars)
              (bytes ++ copied) (count - chars)

def blockRead (fuel dev pos count : Nat) : Sys BlockRead :=
  blockReadLoop fuel dev count (pos / 1024) (pos % 1024) pos [] count

/-! ## `breada` -/

/-- The buffer of the first block, while the others are looked for. -/
structure Pinned (gain : Nat → Nat) (kernel : Kernel) (dev block bh : Nat)
    (next : Kernel) : Prop where
  sound : Sound next
  settled : Settled gain kernel next
  isBuffer : bh < next.nrBuffers
  isFor : IsFor dev block bh next
  held : 0 < (next.buffers bh).count
  small : ∀ other, (next.buffers other).count ≤ 255
  notBlind : ¬Blind next dev block

section Breada

variable {kernel next : Kernel} {gain : Nat → Nat} {dev block bh : Nat}

/-- References do not keep the cache from its work. -/
theorem Ready.gained (ready : Ready .noPanic kernel)
    (settled : Settled gain kernel next)
    (small : ∀ other, (next.buffers other).count ≤ 255) :
    Ready .noPanic next where
  small := small
  room := .inr (.inl trivial)
  inodes := fun _ => ready.placed settled

theorem Got.smallCounts (got : Got kernel dev block bh next)
    (small : ∀ other, (kernel.buffers other).count ≤ 255) (other : Nat) :
    (next.buffers other).count ≤ 255 := by
  by_cases isOwn : other = bh
  · rw [isOwn]
    exact got.small
  · rw [got.settled.count, one_other isOwn]
    exact small other

/-- There is one buffer for the block. -/
theorem Got.notBlind (got : Got kernel dev block bh next) (hasDev : dev ≠ 0)
    (sees : (next.buffers bh).uptodate = true ∨
      (next.buffers bh).dirt = false) : ¬Blind next dev block := by
  rintro ⟨other, isBuffer, ⟨isDev, isBlock⟩, isDirty, notFresh⟩
  have isOwn : other = bh := by
    apply got.sound.lists.unique other bh isBuffer got.isBuffer
    · rw [isDev]
      exact hasDev
    · exact isDev.trans got.isFor.1.symm
    · exact isBlock.trans got.isFor.2.symm
  subst isOwn
  rcases sees with isFresh | isClean
  · rw [notFresh] at isFresh
    cases isFresh
  · rw [isDirty] at isClean
    cases isClean

theorem Got.pinned (got : Got kernel dev block bh next)
    (small : ∀ other, (kernel.buffers other).count ≤ 255) (hasDev : dev ≠ 0)
    (sees : (next.buffers bh).uptodate = true ∨
      (next.buffers bh).dirt = false) :
    Pinned (one bh) kernel dev block bh next where
  sound := got.sound
  settled := got.settled
  isBuffer := got.isBuffer
  isFor := got.isFor
  held := by
    rw [got.settled.count, one_same]
    exact Nat.succ_pos _
  small := got.smallCounts small
  notBlind := got.notBlind hasDev sees

theorem Pinned.later {final : Kernel} {more : Nat → Nat}
    (pinned : Pinned gain kernel dev block bh next) (sound : Sound final)
    (settled : Settled more next final)
    (small : ∀ other, (final.buffers other).count ≤ 255) :
    Pinned (gain + more) kernel dev block bh final := by
  obtain ⟨sameDev, sameBlock, _⟩ := settled.held bh pinned.held
  refine ⟨sound, pinned.settled.trans settled, settled.size ▸ pinned.isBuffer,
    ⟨sameDev.trans pinned.isFor.1, sameBlock.trans pinned.isFor.2⟩, ?_, small, ?_⟩
  · rw [settled.count]
    exact Nat.add_pos_left pinned.held _
  · exact fun isBlind => pinned.notBlind (settled.blind _ _ isBlind)

theorem Pinned.serviced {final : Kernel}
    (pinned : Pinned gain kernel dev block bh next) (sound : Sound final)
    (serviced : Serviced next final) :
    Pinned gain kernel dev block bh final := by
  apply pinned.later sound serviced.settled
  intro other
  rw [serviced.count]
  exact pinned.small other

theorem Pinned.requestable (pinned : Pinned gain kernel dev block bh next)
    (hasDev : dev ≠ 0) (serves : Serves kernel dev block) (rw : Rw) :
    Requestable next rw bh where
  isBuffer := pinned.isBuffer
  hasDev := pinned.isFor.1 ▸ hasDev
  serves := by
    rw [pinned.isFor.1, pinned.isFor.2]
    exact serves.congr pinned.settled.driver
  keeps := by
    right
    intro isDirty
    by_contra notFresh
    exact pinned.notBlind
      ⟨bh, pinned.isBuffer, pinned.isFor, isDirty, by simpa using notFresh⟩

/-- A request for the buffer itself. -/
theorem Pinned.request_wp (pinned : Pinned gain kernel dev block bh next)
    (hasDev : dev ≠ 0) (serves : Serves kernel dev block) {rw : Rw}
    (plain : rw ≠ .writea) :
    (llRwBlock rw bh).wp .noPanic Io
      (fun _ final => Pinned gain kernel dev block bh final) next := by
  apply wp_mono (llRwBlock_wp pinned.sound
    (pinned.requestable hasDev serves rw) plain)
  rintro _ final ⟨finalSound, serviced, _⟩
  exact pinned.serviced finalSound serviced

/-- The reference that a look at another block has taken is given back. -/
theorem Pinned.drop {tmp : Nat}
    (pinned : Pinned (one bh + one tmp) kernel dev block bh next) :
    Pinned (one bh) kernel dev block bh
      (next.setBuffer tmp (next.buffers tmp).dropCount) := by
  have count := pinned.settled.count tmp
  rw [Pi.add_apply, one_same] at count
  have small := pinned.small tmp
  have dropped : (next.buffers tmp).dropCount =
      { next.buffers tmp with count := (next.buffers tmp).count - 1 } := by
    unfold Buffer.dropCount Buffer.countByte
    rw [if_neg (by omega)]
  rw [dropped]
  have settled : Settled (one bh) kernel (next.setBuffer tmp
      { next.buffers tmp with count := (next.buffers tmp).count - 1 }) := by
    apply pinned.settled.recount
    · omega
    · intro other different
      rw [Pi.add_apply, one_other different, Nat.add_zero]
  have same : SameLists next (next.setBuffer tmp
      { next.buffers tmp with count := (next.buffers tmp).count - 1 }) :=
    setCount_same _
  refine ⟨setCount_sound pinned.sound _, settled,
    same.nrBuffers ▸ pinned.isBuffer,
    ⟨(same.dev bh).trans pinned.isFor.1, (same.block bh).trans pinned.isFor.2⟩,
    ?_, ?_, fun isBlind => pinned.notBlind (setCount_blind isBlind)⟩
  · rw [settled.count, one_same]
    exact Nat.succ_pos _
  · intro other
    have total := pinned.settled.count other
    have before := pinned.small other
    rw [Pi.add_apply] at total
    rw [settled.count]
    omega

theorem readAhead_wp {fuel ahead : Nat}
    (pinned : Pinned (one bh) kernel dev block bh next)
    (ready : Ready .noPanic kernel) (hasDev : dev ≠ 0)
    (serves : Serves kernel dev block) :
    (readAhead fuel dev bh ahead).wp .noPanic Io
      (fun _ final => Pinned (one bh) kernel dev block bh final) next := by
  unfold readAhead
  rw [wp_bind]
  apply wp_mono (getblk_wp trivial fuel next dev ahead pinned.sound
    (ready.gained pinned.settled pinned.small) (.inl trivial) hasDev)
  intro tmp gotten got
  have gotPinned := pinned.later got.sound got.settled
    (got.smallCounts pinned.small)
  rw [wp_bind, wp_get]
  dsimp only
  split
  · rw [wp_bind]
    apply wp_mono (gotPinned.request_wp hasDev serves (by decide))
    exact fun _ _ finalPinned => finalPinned.drop
  · exact gotPinned.drop

theorem readAheads_wp {fuel : Nat} {aheads : List Nat}
    (pinned : Pinned (one bh) kernel dev block bh next)
    (ready : Ready .noPanic kernel) (hasDev : dev ≠ 0)
    (serves : Serves kernel dev block) :
    (readAheads fuel dev bh aheads).wp .noPanic Io
      (fun _ final => Pinned (one bh) kernel dev block bh final) next := by
  induction aheads generalizing next with
  | nil => exact pinned
  | cons ahead rest induction =>
      unfold readAheads
      rw [wp_bind]
      apply wp_mono (readAhead_wp pinned ready hasDev serves)
      exact fun _ _ later => induction later

theorem readFirst_wp (got : Got kernel dev block bh next)
    (small : ∀ other, (kernel.buffers other).count ≤ 255) (hasDev : dev ≠ 0)
    (serves : Serves kernel dev block) :
    (readFirst bh).wp .noPanic Io
      (fun _ final => Pinned (one bh) kernel dev block bh final) next := by
  unfold readFirst
  rw [wp_bind, wp_get]
  split <;> rename_i isFresh
  · exact got.pinned small hasDev (.inl isFresh)
  · split <;> rename_i isDirty
    · rw [wp_bind, wp_cross]
      trivial
    · have pinned := got.pinned small hasDev (.inr (by simpa using isDirty))
      exact pinned.request_wp hasDev serves (by decide)

/-- A run of `breada` that reads over no changes. -/
theorem breada_wp {fuel : Nat} {aheads : List Nat} (sound : Sound kernel)
    (ready : Ready .noPanic kernel) (hasDev : dev ≠ 0)
    (serves : Serves kernel dev block) :
    (breada fuel dev block aheads).wp .noPanic Io
      (fun found next =>
        match found with
        | none => Sound next ∧ Settled 0 kernel next
        | some bh => Read kernel dev block bh next) kernel := by
  unfold breada
  rw [wp_bind]
  apply wp_mono (getblk_wp trivial fuel kernel dev block sound ready
    (.inl trivial) hasDev)
  intro bh gotten got
  rw [wp_bind]
  apply wp_mono (readFirst_wp got ready.small hasDev serves)
  intro _ asked pinned
  rw [wp_bind]
  apply wp_mono (readAheads_wp pinned ready hasDev serves)
  intro _ looked pinned
  rw [wp_bind]
  apply wp_mono (waitOnBuffer_wp pinned.sound)
  rintro _ final ⟨finalSound, serviced, _, unlocked⟩
  have finalPinned := pinned.serviced finalSound serviced
  rw [wp_bind, wp_get]
  split <;> rename_i isFresh
  · exact ⟨⟨finalSound, finalPinned.settled, finalPinned.isBuffer,
      finalPinned.isFor, unlocked, finalPinned.small bh⟩, isFresh⟩
  · rw [wp_bind]
    apply wp_mono (brelse_wp finalSound finalPinned.held (finalPinned.small bh))
    rintro _ released ⟨releasedSound, gives⟩
    have settled := finalPinned.settled
    rw [← zero_add (one bh)] at settled
    exact ⟨releasedSound, gives kernel 0 settled⟩

end Breada

/-! ## What was written is read back -/

/-- The bytes of a device after `count` bytes are stored from `pos` on. -/
def storedAt (expected : Nat → UInt8) (pos : Nat) (buf : Nat → UInt8)
    (count : Nat) : Nat → UInt8 := fun place =>
  if pos ≤ place ∧ place < pos + count then buf (place - pos)
  else expected place

/-- The changed in-core inodes are those of other devices, and have a place in
the inode table of a device that can be read. -/
def InodesElsewhere (kernel : Kernel) (dev : Nat) : Prop :=
  ∀ index, index < nrInode → (kernel.inodes index).dirt = true →
    (kernel.inodes index).dev ≠ 0 →
      (kernel.inodes index).dev ≠ dev ∧
      ∃ sb, findSuper kernel.supers (kernel.inodes index).dev 0 nrSuper =
          some sb ∧
        Serves kernel (kernel.inodes index).dev
          (inodeBlock (kernel.supers sb) (kernel.inodes index).num) ∧
        ¬Blind kernel (kernel.inodes index).dev
          (inodeBlock (kernel.supers sb) (kernel.inodes index).num)

/-- A state in which a task begins to use the device. -/
structure RawBegins (start : Kernel) (dev : Nat) : Prop where
  sound : Sound start
  small : ∀ bh, (start.buffers bh).count ≤ 255
  hasDev : dev ≠ 0
  elsewhere : InodesElsewhere start dev

/-- The device holds the bytes it should. -/
structure RawSession (start : Kernel) (dev : Nat) (expected : Nat → UInt8)
    (kernel : Kernel) : Prop where
  sound : Sound kernel
  remains : Remains start kernel
  small : ∀ bh, (kernel.buffers bh).count ≤ 255
  agrees : ∀ block offset, offset < 1024 →
    kernel.content dev block offset = expected (block * 1024 + offset)
  blind : ∀ other block, Blind kernel other block →
    other = dev ∨ Blind start other block

/-- The bytes of a device. -/
def Kernel.bytesOf (kernel : Kernel) (dev place : Nat) : UInt8 :=
  kernel.content dev (place / 1024) (place % 1024)

namespace RawSession

variable {start kernel next : Kernel} {dev block bh : Nat}
variable {expected : Nat → UInt8} {gain : Nat → Nat}

theorem begin (begins : RawBegins start dev) :
    RawSession start dev (start.bytesOf dev) start where
  sound := begins.sound
  remains := ⟨fun _ => ⟨_, _, rfl, fun isDirty => isDirty⟩, rfl, rfl⟩
  small := begins.small
  agrees := by
    intro block offset inBlock
    unfold Kernel.bytesOf
    rw [show (block * 1024 + offset) / 1024 = block by omega,
      show (block * 1024 + offset) % 1024 = offset by omega]
  blind := fun _ _ isBlind => .inr isBlind

theorem ready (session : RawSession start dev expected kernel)
    (begins : RawBegins start dev) : Ready .noPanic kernel where
  small := session.small
  room := .inr (.inl trivial)
  inodes := by
    intro index
    apply placed_kept session.remains.inode session.remains.supers
      session.remains.driver
    intro index inRange isDirty hasDev
    obtain ⟨otherDev, sb, found, serves, notBlind⟩ :=
      begins.elsewhere index inRange isDirty hasDev
    refine ⟨sb, found, serves, fun isBlind => ?_⟩
    rcases session.blind _ _ isBlind with isDev | wasBlind
    · exact otherDev isDev
    · exact notBlind wasBlind

/-- A call into the cache that stores nothing. -/
theorem settle (session : RawSession start dev expected kernel)
    (begins : RawBegins start dev) (sound : Sound next)
    (settled : Settled gain kernel next)
    (small : ∀ other, (next.buffers other).count ≤ 255) :
    RawSession start dev expected next where
  sound := sound
  remains := session.remains.settled settled
  small := small
  agrees := by
    intro block offset inBlock
    rw [← session.agrees block offset inBlock]
    obtain ⟨_, same⟩ | ⟨index, written, isByte, _⟩ :=
      settled.content dev block offset begins.hasDev inBlock
    · exact same
    · -- the inodes that are written out are of other devices
      obtain ⟨dirt, lock, inode, wasDirty⟩ := session.remains.inode index
      have isDirty := written.before
      have isDev := isByte.isDev
      rw [inode] at isDirty isDev
      have otherDev := begins.elsewhere index written.inRange
        (wasDirty isDirty) (isDev ▸ begins.hasDev)
      exact (otherDev.1 isDev).elim
  blind := fun other block isBlind =>
    session.blind other block (settled.blind other block isBlind)

theorem serviced (session : RawSession start dev expected kernel)
    (begins : RawBegins start dev) (sound : Sound next)
    (serviced : Serviced kernel next) :
    RawSession start dev expected next := by
  apply session.settle begins sound serviced.settled
  intro other
  rw [serviced.count]
  exact session.small other

/-- A store into the buffer of a block. -/
theorem store {data : Block} {later : Nat → UInt8}
    (session : RawSession start dev expected kernel)
    (begins : RawBegins start dev) (serves : Serves kernel dev block)
    (isBuffer : bh < kernel.nrBuffers) (isFor : IsFor dev block bh kernel)
    (unlocked : (kernel.buffers bh).lock = false)
    (own : ∀ offset, offset < 1024 →
      data offset = later (block * 1024 + offset))
    (others : ∀ other offset, other ≠ block → offset < 1024 →
      later (other * 1024 + offset) = expected (other * 1024 + offset)) :
    RawSession start dev later
      (kernel.edit bh data (kernel.buffers bh).uptodate) := by
  have count (other : Nat) :
      ((kernel.edit bh data (kernel.buffers bh).uptodate).buffers other).count =
        (kernel.buffers other).count := by
    by_cases isOwn : other = bh
    · rw [isOwn, edit_own]
    · rw [edit_other isOwn]
  constructor
  case sound =>
    apply edit_sound session.sound (session.sound.notReading (.inr unlocked))
    · rw [isFor.1]
      exact begins.hasDev
    · rw [isFor.1, isFor.2]
      exact serves
  case remains =>
    exact ⟨session.remains.inode, session.remains.supers,
      session.remains.driver⟩
  case small =>
    intro other
    rw [count]
    exact session.small other
  case agrees =>
    intro other offset inBlock
    rw [edit_content session.sound isBuffer isFor begins.hasDev begins.hasDev]
    split <;> rename_i here
    · rw [here.2]
      exact own offset inBlock
    · have different : other ≠ block := fun same => here ⟨rfl, same⟩
      rw [others other offset different inBlock]
      exact session.agrees other offset inBlock
  case blind =>
    rintro otherDev other ⟨third, thirdBuffer, thirdFor, isDirty, notFresh⟩
    by_cases isOwn : third = bh
    · left
      rw [isOwn] at thirdFor
      have same := (@edit_same kernel bh data
        (kernel.buffers bh).uptodate).dev bh
      exact thirdFor.1.symm.trans (same.trans isFor.1)
    · unfold IsFor at thirdFor
      rw [edit_other isOwn] at thirdFor isDirty notFresh
      exact session.blind otherDev other
        ⟨third, thirdBuffer, thirdFor, isDirty, notFresh⟩

/-- `brelse` of a buffer that is held. -/
theorem release (session : RawSession start dev expected kernel)
    (begins : RawBegins start dev) (isHeld : 0 < (kernel.buffers bh).count) :
    (brelse (some bh)).wp .noPanic Io
      (fun _ next => RawSession start dev expected next) kernel := by
  apply wp_mono (brelse_drops session.sound isHeld (session.small bh))
  rintro _ _ ⟨waited, waitedSound, serviced, rfl⟩
  have later := session.serviced begins waitedSound serviced
  refine ⟨setCount_sound waitedSound _, ?_, ?_, ?_, ?_⟩
  · exact ⟨later.remains.inode, later.remains.supers, later.remains.driver⟩
  · intro other
    have small := later.small other
    rw [Kernel.setBuffer_buffers]
    split <;> rename_i here
    · rw [here] at small
      show (waited.buffers bh).count - 1 ≤ 255
      omega
    · exact small
  · intro block offset inBlock
    rw [setCount_content _ dev block offset begins.hasDev inBlock]
    exact later.agrees block offset inBlock
  · exact fun other block isBlind =>
      later.blind other block (setCount_blind isBlind)

end RawSession

/-- A round of `block_write` stores the bytes that come next. -/
theorem copied_own {data : Block} {expected buf : Nat → UInt8}
    {block offset pos written chars : Nat}
    (isPos : block * 1024 + offset = pos + written)
    (rest : ∀ place, place < 1024 →
      ¬(offset ≤ place ∧ place < offset + chars) →
      data place = storedAt expected pos buf written (block * 1024 + place))
    {place : Nat} (inBlock : place < 1024) :
    Block.copied data offset chars (fun index => buf (written + index)) place =
      storedAt expected pos buf (written + chars) (block * 1024 + place) := by
  unfold Block.copied
  split <;> rename_i here
  · unfold storedAt
    rw [if_pos (by omega)]
    exact congrArg buf (by omega)
  · rw [rest place inBlock here]
    unfold storedAt
    split <;> rename_i wasStored
    · rw [if_pos (by omega)]
    · rw [if_neg (by omega)]

theorem stored_others {expected buf : Nat → UInt8}
    {block offset pos written chars : Nat}
    (isPos : block * 1024 + offset = pos + written)
    (inBlock : offset + chars ≤ 1024) {other place : Nat}
    (different : other ≠ block) (inOther : place < 1024) :
    storedAt expected pos buf (written + chars) (other * 1024 + place) =
      storedAt expected pos buf written (other * 1024 + place) := by
  unfold storedAt
  split <;> rename_i isStored
  · rw [if_pos (by omega)]
  · rw [if_neg (by omega)]

section Loops

variable {start kernel : Kernel} {dev fuel : Nat} {expected : Nat → UInt8}

theorem blockForWrite_wp {block chars : Nat}
    (session : RawSession start dev expected kernel)
    (begins : RawBegins start dev) (serves : Serves start dev block) :
    (blockForWrite fuel dev block chars).wp .noPanic Io
      (fun found next =>
        match found with
        | none => RawSession start dev expected next
        | some bh => RawSession start dev expected next ∧
            Got kernel dev block bh next ∧
            (chars ≠ 1024 → (next.buffers bh).uptodate = true))
      kernel := by
  have ready := session.ready begins
  unfold blockForWrite
  split <;> rename_i isWhole
  · rw [wp_bind]
    apply wp_mono (getblk_wp trivial fuel kernel dev block session.sound ready
      (.inl trivial) begins.hasDev)
    intro bh next got
    refine ⟨?_, got, fun notWhole => (notWhole isWhole).elim⟩
    exact session.settle begins got.sound got.settled
      (got.smallCounts session.small)
  · apply wp_mono (breada_wp session.sound ready begins.hasDev
      (serves.congr session.remains.driver))
    rintro (_ | bh) next found
    · obtain ⟨sound, settled⟩ := found
      apply session.settle begins sound settled
      intro other
      rw [settled.count]
      exact session.small other
    · refine ⟨?_, found.toGot, fun _ => found.fresh⟩
      exact session.settle begins found.sound found.settled
        (found.smallCounts session.small)

theorem blockWriteLoop_wp {buf : Nat → UInt8} {begun : Nat}
    (begins : RawBegins start dev) (rounds : Nat) :
    ∀ {kernel block offset written count},
      RawSession start dev (storedAt expected begun buf written) kernel →
      offset < 1024 → (count ≠ 0 → block * 1024 + offset = begun + written) →
      (∀ place, begun + written ≤ place → place < begun + written + count →
        Serves start dev (place / 1024)) →
      (blockWriteLoop fuel dev buf rounds block offset (begun + written)
        written count).wp .noPanic Io
        (fun result next => RawSession start dev
          (storedAt expected begun buf result.1.toNat) next) kernel := by
  induction rounds with
  | zero =>
      intro kernel block offset written count session _ _ _
      exact session
  | succ rounds induction =>
      intro kernel block offset written count session inBlock isPos inDevice
      unfold blockWriteLoop
      split <;> rename_i more
      · exact session
      · generalize isChars : min (1024 - offset) count = chars
        replace isPos := isPos more
        have serves : Serves start dev block := by
          have here := inDevice (begun + written) (Nat.le_refl _) (by omega)
          rwa [show (begun + written) / 1024 = block by omega] at here
        dsimp only
        rw [wp_bind]
        apply wp_mono (blockForWrite_wp session begins serves)
        rintro (_ | bh) next found
        · dsimp only at found ⊢
          split <;> rename_i isFirst
          · subst isFirst
            exact found
          · exact found
        · obtain ⟨held, got, fresh⟩ := found
          dsimp only
          have isHeld : 0 < (next.buffers bh).count := by
            rw [got.settled.count, one_same]
            exact Nat.succ_pos _
          have stored : RawSession start dev
              (storedAt expected begun buf (written + chars))
              (next.edit bh
                (Block.copied (next.buffers bh).data offset chars
                  fun index => buf (written + index))
                (next.buffers bh).uptodate) := by
            apply held.store begins (serves.congr held.remains.driver)
              got.isBuffer got.isFor got.unlocked
            · intro place inPlace
              apply copied_own isPos _ inPlace
              intro place inPlace outside
              -- a block that is not written as a whole has been read
              have isRead : Read kernel dev block bh next :=
                ⟨got, fresh (by omega)⟩
              rw [← isRead.content begins.hasDev]
              exact held.agrees block place inPlace
            · intro other place different inPlace
              exact stored_others isPos (by omega) different inPlace
          have isHeld : 0 < ((next.edit bh
              (Block.copied (next.buffers bh).data offset chars
                fun index => buf (written + index))
              (next.buffers bh).uptodate).buffers bh).count := by
            rw [edit_own]
            exact isHeld
          show ((brelse (some bh) : Sys Unit) >>= fun _ => _).wp _ _ _
            (next.edit bh _ (next.buffers bh).uptodate)
          rw [wp_bind]
          apply wp_mono (stored.release begins isHeld)
          intro _ final session
          rw [Nat.add_assoc begun]
          apply induction session (by decide)
          · intro isMore
            rw [Nat.add_zero, Nat.succ_mul]
            omega
          · intro place lower upper
            exact inDevice place (by omega) (by omega)

/-- The write changes the bytes it says it has written, and no others. -/
theorem blockWrite_wp {buf : Nat → UInt8} {pos count : Nat}
    (session : RawSession start dev expected kernel)
    (begins : RawBegins start dev)
    (inDevice : ∀ place, pos ≤ place → place < pos + count →
      Serves start dev (place / 1024)) :
    (blockWrite fuel dev pos buf count).wp .noPanic Io
      (fun result next => RawSession start dev
        (storedAt expected pos buf result.1.toNat) next) kernel := by
  have nothing : storedAt expected pos buf 0 = expected := by
    funext place
    unfold storedAt
    rw [if_neg (by omega)]
  have stored : RawSession start dev (storedAt expected pos buf 0) kernel := by
    rw [nothing]
    exact session
  apply blockWriteLoop_wp begins count stored
  · omega
  · exact fun _ => Nat.div_add_mod' pos 1024
  · exact inDevice

/-- The bytes from a position on. -/
def bytesFrom (expected : Nat → UInt8) (pos count : Nat) : List UInt8 :=
  (List.range count).map fun index => expected (pos + index)

theorem bytesFrom_add (expected : Nat → UInt8) (pos count more : Nat) :
    bytesFrom expected pos (count + more) =
      bytesFrom expected pos count ++ bytesFrom expected (pos + count) more := by
  unfold bytesFrom
  rw [List.range_add, List.map_append, List.map_map]
  congr 1
  apply List.map_congr_left
  intro index _
  exact congrArg expected (Nat.add_assoc pos count index).symm

theorem bytesFrom_length (expected : Nat → UInt8) (pos count : Nat) :
    (bytesFrom expected pos count).length = count := by
  unfold bytesFrom
  rw [List.length_map, List.length_range]

theorem blockReadLoop_wp {begun : Nat} (begins : RawBegins start dev)
    (rounds : Nat) :
    ∀ {kernel block offset got count},
      RawSession start dev expected kernel →
      offset < 1024 → (count ≠ 0 → block * 1024 + offset = begun + got) →
      (∀ place, begun + got ≤ place → place < begun + got + count →
        Serves start dev (place / 1024)) →
      (blockReadLoop fuel dev rounds block offset (begun + got)
        (bytesFrom expected begun got) count).wp .noPanic Io
        (fun result next => RawSession start dev expected next ∧
          result.bytes = bytesFrom expected begun result.bytes.length)
        kernel := by
  induction rounds with
  | zero =>
      intro kernel block offset got count session _ _ _
      exact ⟨session, by rw [bytesFrom_length]⟩
  | succ rounds induction =>
      intro kernel block offset got count session inBlock isPos inDevice
      unfold blockReadLoop
      split <;> rename_i more
      · exact ⟨session, by rw [bytesFrom_length]⟩
      · generalize isChars : min (1024 - offset) count = chars
        replace isPos := isPos more
        have serves : Serves start dev block := by
          have here := inDevice (begun + got) (Nat.le_refl _) (by omega)
          rwa [show (begun + got) / 1024 = block by omega] at here
        dsimp only
        rw [wp_bind]
        apply wp_mono (breada_wp session.sound (session.ready begins)
          begins.hasDev (serves.congr session.remains.driver))
        rintro (_ | bh) next found
        · obtain ⟨sound, settled⟩ := found
          refine ⟨session.settle begins sound settled ?_, ?_⟩
          · intro other
            rw [settled.count]
            exact session.small other
          · rw [bytesFrom_length]
        · have held := session.settle begins found.sound found.settled
            (found.smallCounts session.small)
          have isHeld : 0 < (next.buffers bh).count := by
            rw [found.settled.count, one_same]
            exact Nat.succ_pos _
          -- the buffer has the bytes of the block
          have copied : ((List.range chars).map fun index =>
              (next.buffers bh).data (offset + index)) =
                bytesFrom expected (begun + got) chars := by
            apply List.map_congr_left
            intro index inChars
            rw [List.mem_range] at inChars
            rw [← found.content begins.hasDev,
              held.agrees block (offset + index) (by omega)]
            exact congrArg expected (by omega)
          dsimp only
          rw [wp_bind, wp_get, copied, ← bytesFrom_add, wp_bind]
          apply wp_mono (held.release begins isHeld)
          intro _ final session
          rw [Nat.add_assoc begun]
          apply induction session (by decide)
          · intro isMore
            rw [Nat.add_zero, Nat.succ_mul]
            omega
          · intro place lower upper
            exact inDevice place (by omega) (by omega)

theorem blockRead_wp {pos count : Nat}
    (session : RawSession start dev expected kernel)
    (begins : RawBegins start dev)
    (inDevice : ∀ place, pos ≤ place → place < pos + count →
      Serves start dev (place / 1024)) :
    (blockRead fuel dev pos count).wp .noPanic Io
      (fun result next => RawSession start dev expected next ∧
        result.bytes = bytesFrom expected pos result.bytes.length) kernel := by
  have reads := @blockReadLoop_wp start dev fuel expected pos begins count
    kernel (pos / 1024) (pos % 1024) 0 count session
    (Nat.mod_lt _ (by decide)) (fun _ => Nat.div_add_mod' pos 1024) inDevice
  exact reads

end Loops

/-! ## Sequences of calls -/

/-- What the task does with the device. -/
inductive RawStep where
  | write (pos : Nat) (buf : Nat → UInt8) (count : Nat)
  | read (pos count : Nat)
  | syncDev (dev : Nat)
  | sysSync

/-- The call, and what the device should hold after it. -/
def RawStep.perform (fuel dev : Nat) (expected : Nat → UInt8) :
    RawStep → Sys (Nat → UInt8)
  | write pos buf count => do
      let (written, _) ← blockWrite fuel dev pos buf count
      return storedAt expected pos buf written.toNat
  | read pos count => do
      let _ ← blockRead fuel dev pos count
      return expected
  | syncDev other => do
      Fs.syncDev fuel other
      return expected
  | sysSync => do
      Fs.sysSync fuel
      return expected

def performRaw (fuel dev : Nat) :
    List RawStep → (Nat → UInt8) → Sys (Nat → UInt8)
  | [], expected => return expected
  | step :: rest, expected => do
      let expected ← step.perform fuel dev expected
      performRaw fuel dev rest expected

/-- The call stays inside the device. -/
def RawStep.Inside (kernel : Kernel) (dev : Nat) : RawStep → Prop
  | write pos _ count | read pos count =>
      ∀ place, pos ≤ place → place < pos + count →
        Serves kernel dev (place / 1024)
  | _ => True

section Performing

-- the loop over the inode table is not to be looked into
attribute [local irreducible] syncInodesWith

variable {start kernel : Kernel} {dev fuel : Nat} {expected : Nat → UInt8}

theorem RawSession.synced {next : Kernel}
    (session : RawSession start dev expected kernel)
    (begins : RawBegins start dev) (sound : Sound next)
    (settled : Settled 0 kernel next) :
    RawSession start dev expected next := by
  apply session.settle begins sound settled
  intro other
  rw [settled.count]
  exact session.small other

theorem RawSession.perform (session : RawSession start dev expected kernel)
    (begins : RawBegins start dev) {step : RawStep}
    (inside : step.Inside start dev) :
    (step.perform fuel dev expected).wp .noPanic Io
      (fun expected next => RawSession start dev expected next) kernel := by
  have ready := session.ready begins
  cases step with
  | write pos buf count =>
      unfold RawStep.perform
      rw [wp_bind]
      apply wp_mono (blockWrite_wp session begins inside)
      exact fun _ _ later => later
  | read pos count =>
      unfold RawStep.perform
      rw [wp_bind]
      apply wp_mono (blockRead_wp session begins inside)
      exact fun _ _ later => later.1
  | syncDev other =>
      unfold RawStep.perform
      rw [wp_bind]
      apply wp_mono (syncDev_wp session.sound ready trivial)
      exact fun _ _ settled => session.synced begins settled.1 settled.2
  | sysSync =>
      unfold RawStep.perform
      rw [wp_bind]
      apply wp_mono (sysSync_wp session.sound ready trivial)
      exact fun _ _ settled => session.synced begins settled.1 settled.2

theorem RawSession.performRaw (session : RawSession start dev expected kernel)
    (begins : RawBegins start dev) {steps : List RawStep}
    (inside : ∀ step ∈ steps, step.Inside start dev) :
    (performRaw fuel dev steps expected).wp .noPanic Io
      (fun expected next => RawSession start dev expected next) kernel := by
  induction steps generalizing expected kernel with
  | nil => exact session
  | cons step rest induction =>
      unfold Fs.performRaw
      rw [wp_bind]
      apply wp_mono (session.perform begins (inside step List.mem_cons_self))
      intro expected next later
      exact induction later fun step member =>
        inside step (List.mem_cons_of_mem _ member)

end Performing

/-- Any calls, from `start` on, and then a `block_read`: the bytes there
should be, and what it returns. -/
def rawReadBack (fuel dev : Nat) (start : Kernel) (steps : List RawStep)
    (pos count : Nat) : Sys ((Nat → UInt8) × BlockRead) := do
  let expected ← performRaw fuel dev steps (start.bytesOf dev)
  let result ← blockRead fuel dev pos count
  return (expected, result)

/-- Every byte that `block_read` returns is the one that was written last at
its position, unless `breada` reads over changes on the way. -/
theorem blockRead_returnsWritten {start : Kernel} {dev : Nat}
    (begins : RawBegins start dev) {steps : List RawStep}
    (inside : ∀ step ∈ steps, step.Inside start dev) {pos count : Nat}
    (inDevice : (RawStep.read pos count).Inside start dev) (fuel : Nat) :
    (rawReadBack fuel dev start steps pos count).wp .noPanic Io
      (fun result _ => result.2.bytes =
        bytesFrom result.1 pos result.2.bytes.length) start := by
  unfold rawReadBack
  rw [wp_bind]
  apply wp_mono ((RawSession.begin begins).performRaw begins inside)
  intro expected middle session
  rw [wp_bind]
  apply wp_mono (blockRead_wp session begins inDevice)
  exact fun _ _ read => read.2

section Witness

theorem ramKernel_rawBegins {count : Nat} (some : 0 < count) :
    RawBegins (ramKernel count) 257 where
  sound := (ramKernel_begins some).sound
  small := (ramKernel_begins some).small
  hasDev := by decide
  elsewhere := fun _ _ isDirty => by cases isDirty

theorem ramKernel_inside (count : Nat) {pos size : Nat}
    (inDevice : pos + size ≤ 4096) :
    (RawStep.read pos size).Inside (ramKernel count) 257 :=
  fun _ _ upper => ramKernel_serves count (by omega)

/-- A block is written as a whole. -/
def overwrite : RawStep := .write 0 (fun _ => 7) 1024

theorem overwrite_inside (count : Nat) :
    overwrite.Inside (ramKernel count) 257 :=
  ramKernel_inside count (by decide : 0 + 1024 ≤ 4096)

/-- Part of a block is written. -/
def patch : RawStep := .write 5 (fun _ => 7) 1

theorem blockRead_returnsWritten_patch :
    ∃ expected result next,
      rawReadBack 5 257 (ramKernel 3) [patch] 5 1 (ramKernel 3) =
        .done (expected, result) next ∧
      result.bytes = bytesFrom expected 5 result.bytes.length := by
  have inside : ∀ step ∈ [patch], step.Inside (ramKernel 3) 257 := by
    intro step member
    rw [List.mem_singleton.mp member]
    exact ramKernel_inside 3 (by decide : 5 + 1 ≤ 4096)
  obtain ⟨expected, result, next, runs⟩ : ∃ expected result next,
      rawReadBack 5 257 (ramKernel 3) [patch] 5 1 (ramKernel 3) =
        .done (expected, result) next := ⟨_, _, _, rfl⟩
  have right := blockRead_returnsWritten (ramKernel_rawBegins (by decide))
    inside (ramKernel_inside 3 (by decide : 5 + 1 ≤ 4096)) 5
  unfold Prog.wp at right
  rw [runs] at right
  exact ⟨expected, result, next, runs, right⟩

/-- Without the `sync_dev` the read brings back what the device holds. -/
theorem blockRead_returnsOld :
    RawBegins (ramKernel 3) 257 ∧ overwrite.Inside (ramKernel 3) 257 ∧
      (RawStep.read 0 1).Inside (ramKernel 3) 257 ∧
      ∃ expected result next,
        (rawReadBack 5 257 (ramKernel 3) [overwrite] 0 1
          (ramKernel 3)).outcome = some ((expected, result), next) ∧
        result.bytes = [0] ∧ expected 0 = 7 ∧
        ¬result.bytes = bytesFrom expected 0 result.bytes.length := by
  refine ⟨ramKernel_rawBegins (by decide), overwrite_inside 3,
    ramKernel_inside 3 (by decide), ?_⟩
  have ends : ((rawReadBack 5 257 (ramKernel 3) [overwrite] 0 1
      (ramKernel 3)).outcome.map fun result =>
        (result.1.2.bytes, result.1.1 0)) = some ([0], 7) := by
    decide +kernel
  obtain ⟨⟨⟨expected, result⟩, next⟩, runs, holds⟩ :=
    Option.map_eq_some_iff.mp ends
  simp only [Prod.mk.injEq] at holds
  obtain ⟨bytes, isExpected⟩ := holds
  refine ⟨expected, result, next, runs, bytes, isExpected, ?_⟩
  rw [bytes]
  intro same
  have first : expected 0 = 0 := (List.cons.inj same).1.symm
  rw [isExpected] at first
  cases first

end Witness

end Linux011.Fs

import Linux011.Fs.RequestSpecs

/-!
# The functions of the cache, run by one task

`getblk`, `bread` and their kin under drivers whose transfers succeed.  They
change no content, with one exception: on its way `getblk` may write out
changed inodes, which brings the inode table up to date.
-/

namespace Linux011.Fs

open Coop Prog

/-- A byte of the inode table that belongs to an in-core inode. -/
structure InodeByte (kernel : Kernel) (index dev block offset : Nat) : Prop where
  isDev : (kernel.inodes index).dev = dev
  isBlock : ∃ sb, findSuper kernel.supers dev 0 nrSuper = some sb ∧
    block = inodeBlock (kernel.supers sb) (kernel.inodes index).num
  lower : ((kernel.inodes index).num - 1) % inodesPerBlock * 32 ≤ offset
  upper : offset < ((kernel.inodes index).num - 1) % inodesPerBlock * 32 + 32

/-- The block of the inode table that an in-core inode belongs to. -/
structure InodePlace (kernel : Kernel) (index dev block : Nat) : Prop where
  isDev : (kernel.inodes index).dev = dev
  isBlock : ∃ sb, findSuper kernel.supers dev 0 nrSuper = some sb ∧
    block = inodeBlock (kernel.supers sb) (kernel.inodes index).num

/-- The byte itself. -/
def inodeByte (inode : Inode) (offset : Nat) : UInt8 :=
  inode.byte (offset - (inode.num - 1) % inodesPerBlock * 32)

/-- Changes that have never been read in: reading the block would lose them. -/
def Blind (kernel : Kernel) (dev block : Nat) : Prop :=
  ∃ bh, bh < kernel.nrBuffers ∧ IsFor dev block bh kernel ∧
    (kernel.buffers bh).dirt = true ∧ (kernel.buffers bh).uptodate = false

/-- `write_inode` has been at work on an inode: it is not changed any more. -/
structure WrittenOut (kernel next : Kernel) (index : Nat) : Prop where
  inRange : index < nrInode
  before : (kernel.inodes index).dirt = true
  after : (next.inodes index).dirt = false

/-- A byte is what it was, unless it belongs to an inode that was written
out. -/
def Updated (kernel next : Kernel) (dev block offset : Nat)
    (old new : UInt8) : Prop :=
  ((∀ index, WrittenOut kernel next index →
      ¬InodeByte kernel index dev block offset) ∧ new = old) ∨
    ∃ index, WrittenOut kernel next index ∧
      InodeByte kernel index dev block offset ∧
      new = inodeByte (kernel.inodes index) offset

/-- What a call into the cache leaves of a state, up to the references it
has gained. -/
structure Settled (gain : Nat → Nat) (kernel next : Kernel) : Prop where
  size : next.nrBuffers = kernel.nrBuffers
  content : ∀ dev block offset, dev ≠ 0 → offset < 1024 →
    Updated kernel next dev block offset (kernel.content dev block offset)
      (next.content dev block offset)
  inode : ∀ index, ∃ dirt lock,
    next.inodes index = { kernel.inodes index with dirt, lock } ∧
      (dirt = true → (kernel.inodes index).dirt = true)
  lastInode : next.lastInode = kernel.lastInode
  supers : next.supers = kernel.supers
  driver : next.driver = kernel.driver
  now : next.now = kernel.now
  count : ∀ bh, (next.buffers bh).count = (kernel.buffers bh).count + gain bh
  held : ∀ bh, 0 < (kernel.buffers bh).count →
    (next.buffers bh).dev = (kernel.buffers bh).dev ∧
      (next.buffers bh).block = (kernel.buffers bh).block ∧
      ((kernel.buffers bh).uptodate = true →
        (next.buffers bh).uptodate = true) ∧
      (kernel.Live bh → next.Live bh)
  blind : ∀ dev block, Blind next dev block → Blind kernel dev block

namespace InodePlace

variable {kernel : Kernel} {index dev block : Nat}

theorem isByte (place : InodePlace kernel index dev block) {offset : Nat}
    (lower : ((kernel.inodes index).num - 1) % inodesPerBlock * 32 ≤ offset)
    (upper : offset <
      ((kernel.inodes index).num - 1) % inodesPerBlock * 32 + 32) :
    InodeByte kernel index dev block offset :=
  ⟨place.isDev, place.isBlock, lower, upper⟩

/-- An inode has one place. -/
theorem only (place : InodePlace kernel index dev block)
    {other where_ offset : Nat}
    (isByte : InodeByte kernel index other where_ offset) :
    other = dev ∧ where_ = block := by
  have sameDev : other = dev := isByte.isDev.symm.trans place.isDev
  obtain ⟨sb, found, isBlock⟩ := place.isBlock
  obtain ⟨otherSb, otherFound, otherBlock⟩ := isByte.isBlock
  rw [sameDev, found, Option.some.injEq] at otherFound
  rw [otherBlock, isBlock, otherFound]
  exact ⟨sameDev, rfl⟩

end InodePlace

theorem InodeByte.congr {kernel next : Kernel} {index dev block offset : Nat}
    {dirt lock : Bool} (isByte : InodeByte next index dev block offset)
    (supers : next.supers = kernel.supers)
    (inode : next.inodes index = { kernel.inodes index with dirt, lock }) :
    InodeByte kernel index dev block offset := by
  obtain ⟨isDev, isBlock, lower, upper⟩ := isByte
  rw [inode] at isDev isBlock lower upper
  rw [supers] at isBlock
  exact ⟨isDev, isBlock, lower, upper⟩

/-- No inode changes, and the byte is what it was. -/
theorem Updated.same {kernel next : Kernel} {dev block offset : Nat}
    {old new : UInt8} (inodes : next.inodes = kernel.inodes)
    (same : new = old) : Updated kernel next dev block offset old new := by
  refine .inl ⟨?_, same⟩
  rintro index ⟨_, before, after⟩
  rw [inodes, before] at after
  cases after

/-- Only the flags of the inodes count. -/
theorem Updated.congr {kernel next later : Kernel} {dev block offset : Nat}
    {old new : UInt8} (updated : Updated kernel next dev block offset old new)
    (same : ∀ index, (later.inodes index).dirt = (next.inodes index).dirt) :
    Updated kernel later dev block offset old new := by
  obtain ⟨nobody, value⟩ | ⟨index, written, isByte, value⟩ := updated
  · refine .inl ⟨fun index written => nobody index ?_, value⟩
    exact ⟨written.inRange, written.before, same index ▸ written.after⟩
  · refine .inr ⟨index, ?_, isByte, value⟩
    exact ⟨written.inRange, written.before, (same index).trans written.after⟩

theorem Serviced.settled {kernel next : Kernel}
    (serviced : Serviced kernel next) : Settled 0 kernel next where
  size := serviced.same.nrBuffers
  content := fun dev block offset hasDev inBlock =>
    .same serviced.inodes (serviced.content dev block offset hasDev inBlock)
  inode := by
    intro index
    rw [serviced.inodes]
    exact ⟨_, _, rfl, fun isDirty => isDirty⟩
  lastInode := serviced.lastInode
  supers := serviced.supers
  driver := serviced.driver
  now := serviced.now
  count := serviced.count
  held := fun bh _ => ⟨serviced.same.dev bh, serviced.same.block bh,
    serviced.uptodate bh, serviced.live bh⟩
  blind := by
    rintro dev block ⟨bh, isBuffer, ⟨isDev, isBlock⟩, isDirty, notFresh⟩
    refine ⟨bh, serviced.same.nrBuffers ▸ isBuffer, ⟨?_, ?_⟩,
      serviced.dirt bh isDirty, ?_⟩
    · exact (serviced.same.dev bh).symm.trans isDev
    · exact (serviced.same.block bh).symm.trans isBlock
    · by_contra wasFresh
      rw [serviced.uptodate bh (by simpa using wasFresh)] at notFresh
      cases notFresh

namespace Settled

theorem refl (kernel : Kernel) : Settled 0 kernel kernel :=
  (Serviced.refl kernel).settled

theorem isByte {kernel next : Kernel} {gain : Nat → Nat}
    {index dev block offset : Nat} (settled : Settled gain kernel next)
    (isByte : InodeByte kernel index dev block offset) :
    InodeByte next index dev block offset := by
  obtain ⟨dirt, lock, inode, _⟩ := settled.inode index
  obtain ⟨isDev, isBlock, lower, upper⟩ := isByte
  refine ⟨?_, ?_, ?_, ?_⟩
  · rw [inode]
    exact isDev
  · rw [inode, settled.supers]
    exact isBlock
  · rw [inode]
    exact lower
  · rw [inode]
    exact upper

/-- An inode that is clean stays clean. -/
theorem clean {kernel next : Kernel} {gain : Nat → Nat} {index : Nat}
    (settled : Settled gain kernel next)
    (isClean : (kernel.inodes index).dirt = false) :
    (next.inodes index).dirt = false := by
  obtain ⟨dirt, lock, inode, wasDirty⟩ := settled.inode index
  rw [inode]
  by_contra isDirty
  have was := wasDirty (by simpa using isDirty)
  rw [isClean] at was
  cases was

/-- Changes of a byte, one after the other. -/
theorem updated {first second third : Kernel} {left right : Nat → Nat}
    {dev block offset : Nat} {old middle new : UInt8}
    (before : Settled left first second) (after : Settled right second third)
    (earlier : Updated first second dev block offset old middle)
    (later : Updated second third dev block offset middle new) :
    Updated first third dev block offset old new := by
  have isLater {index : Nat} (written : WrittenOut second third index) :
      WrittenOut first third index := by
    obtain ⟨dirt, lock, inode, wasDirty⟩ := before.inode index
    refine ⟨written.inRange, wasDirty ?_, written.after⟩
    have isDirty := written.before
    rwa [inode] at isDirty
  obtain ⟨notLater, same⟩ | ⟨index, written, isByte, value⟩ := later
  · rw [same]
    obtain ⟨notEarlier, same⟩ | ⟨index, written, isByte, value⟩ := earlier
    · refine .inl ⟨?_, same⟩
      intro index total isByte
      cases isDirty : (second.inodes index).dirt
      · exact notEarlier index ⟨total.inRange, total.before, isDirty⟩ isByte
      · apply notLater index ⟨total.inRange, isDirty, total.after⟩
        exact before.isByte isByte
    · refine .inr ⟨index, ?_, isByte, value⟩
      exact ⟨written.inRange, written.before, after.clean written.after⟩
  · obtain ⟨dirt, lock, inode, _⟩ := before.inode index
    refine .inr ⟨index, isLater written, isByte.congr before.supers inode, ?_⟩
    rw [value, inode]
    rfl

theorem trans {first second third : Kernel} {left right : Nat → Nat}
    (before : Settled left first second) (after : Settled right second third) :
    Settled (left + right) first third where
  size := after.size.trans before.size
  content := fun dev block offset hasDev inBlock =>
    before.updated after (before.content dev block offset hasDev inBlock)
      (after.content dev block offset hasDev inBlock)
  inode := by
    intro index
    obtain ⟨dirt, lock, inode, wasDirty⟩ := before.inode index
    obtain ⟨nextDirt, nextLock, nextInode, nextWas⟩ := after.inode index
    refine ⟨nextDirt, nextLock, ?_, ?_⟩
    · rw [nextInode, inode]
    · intro isDirty
      have middle := nextWas isDirty
      rw [inode] at middle
      exact wasDirty middle
  lastInode := after.lastInode.trans before.lastInode
  supers := after.supers.trans before.supers
  driver := after.driver.trans before.driver
  now := after.now.trans before.now
  count := by
    intro bh
    rw [after.count, before.count, Pi.add_apply, Nat.add_assoc]
  held := by
    intro bh isHeld
    obtain ⟨dev, block, fresh, live⟩ := before.held bh isHeld
    have stillHeld : 0 < (second.buffers bh).count := by
      rw [before.count]
      exact Nat.add_pos_left isHeld _
    obtain ⟨nextDev, nextBlock, nextFresh, nextLive⟩ := after.held bh stillHeld
    exact ⟨nextDev.trans dev, nextBlock.trans block,
      fun isFresh => nextFresh (fresh isFresh),
      fun isLive => nextLive (live isLive)⟩
  blind := fun dev block isBlind =>
    before.blind dev block (after.blind dev block isBlind)

/-- Something that gains nothing, before or after. -/
theorem after {first second third : Kernel} {gain : Nat → Nat}
    (before : Settled 0 first second) (later : Settled gain second third) :
    Settled gain first third := by
  have total := before.trans later
  have sum : 0 + gain = gain := zero_add gain
  rwa [sum] at total

theorem before {first second third : Kernel} {gain : Nat → Nat}
    (earlier : Settled gain first second) (after : Settled 0 second third) :
    Settled gain first third := by
  have total := earlier.trans after
  have sum : gain + 0 = gain := add_zero gain
  rwa [sum] at total

end Settled

/-! ## References -/

section References

variable {fate : Fate} {kernel : Kernel} {bh : Nat}

/-- A change of a count. -/
theorem setCount_sound (sound : Sound kernel) (count : Nat) :
    Sound (kernel.setBuffer bh { kernel.buffers bh with count }) := by
  have same : SameLists kernel
      (kernel.setBuffer bh { kernel.buffers bh with count }) :=
    sameLists_setBuffer rfl rfl rfl rfl rfl rfl
  apply sound.setBuffer same
  · intro slot dev inRange isFor isOwn
    have requested := sound.requested slot dev inRange isFor
    rw [← isOwn]
    exact ⟨requested.locked, requested.command⟩
  · exact sound.clean bh
  · exact sound.servable bh

theorem setCount_same (count : Nat) :
    SameLists kernel (kernel.setBuffer bh { kernel.buffers bh with count }) :=
  sameLists_setBuffer rfl rfl rfl rfl rfl rfl

theorem setCount_content (count : Nat) : Kernel.SameContent kernel
    (kernel.setBuffer bh { kernel.buffers bh with count }) :=
  Kernel.sameContent_setBuffer (setCount_same count) rfl rfl rfl

theorem setCount_uptodate (count other : Nat) :
    ((kernel.setBuffer bh { kernel.buffers bh with count }).buffers
      other).uptodate = (kernel.buffers other).uptodate := by
  rw [Kernel.setBuffer_buffers]
  split <;> simp_all

theorem setCount_blind {count dev block : Nat}
    (isBlind : Blind (kernel.setBuffer bh { kernel.buffers bh with count })
      dev block) : Blind kernel dev block := by
  obtain ⟨other, isBuffer, ⟨isDev, isBlock⟩, isDirty, notFresh⟩ := isBlind
  have same : SameLists kernel
      (kernel.setBuffer bh { kernel.buffers bh with count }) :=
    setCount_same count
  have dirt : ((kernel.setBuffer bh { kernel.buffers bh with count }).buffers
      other).dirt = (kernel.buffers other).dirt := by
    rw [Kernel.setBuffer_buffers]
    split <;> simp_all
  rw [same.dev] at isDev
  rw [same.block] at isBlock
  rw [dirt] at isDirty
  rw [setCount_uptodate] at notFresh
  exact ⟨other, isBuffer, ⟨isDev, isBlock⟩, isDirty, notFresh⟩

theorem Settled.recount {before : Kernel} {count : Nat} {gain : Nat → Nat}
    {total : Nat → Nat} (settled : Settled gain before kernel)
    (own : count = (before.buffers bh).count + total bh)
    (others : ∀ other, other ≠ bh → total other = gain other) :
    Settled total before
      (kernel.setBuffer bh { kernel.buffers bh with count }) := by
  have same : SameLists kernel
      (kernel.setBuffer bh { kernel.buffers bh with count }) :=
    setCount_same count
  refine ⟨settled.size, ?_, settled.inode, settled.lastInode, settled.supers,
    settled.driver, settled.now, ?_, ?_, ?_⟩
  · intro dev block offset hasDev inBlock
    rw [setCount_content count dev block offset hasDev inBlock]
    apply (settled.content dev block offset hasDev inBlock).congr
    exact fun _ => rfl
  · intro other
    rw [Kernel.setBuffer_buffers]
    split <;> rename_i here
    · rw [here]
      exact own
    · rw [others other here]
      exact settled.count other
  · intro other isHeld
    obtain ⟨dev, block, fresh, live⟩ := settled.held other isHeld
    rw [same.dev, same.block, setCount_uptodate]
    refine ⟨dev, block, fresh, ?_⟩
    intro isLive
    refine (Kernel.live_setBuffer ?_ ?_).mpr (live isLive) <;> rfl
  · exact fun dev block isBlind =>
      settled.blind dev block (setCount_blind isBlind)

theorem takeReference_wp (sound : Sound kernel)
    (room : fate.crossed ∨ (kernel.buffers bh).count < 255) :
    (takeReference bh).wp fate Io
      (fun _ next => Sound next ∧ Settled (one bh) kernel next ∧
        SameLists kernel next ∧ (next.buffers bh).count ≤ 255) kernel := by
  unfold takeReference
  rw [wp_bind, wp_get]
  dsimp only
  split <;> rename_i full
  · rw [wp_bind, wp_cross]
    rcases room with crossed | small
    · exact crossed
    · omega
  · refine ⟨setCount_sound sound _, (Settled.refl kernel).recount ?_ ?_,
      sameLists_setBuffer rfl rfl rfl rfl rfl rfl, ?_⟩
    · rw [one_same]
    · exact fun other different => one_other different
    · rw [Kernel.setBuffer_same]
      dsimp only
      omega

/-- What `getblk` returns. -/
structure Got (kernel : Kernel) (dev block bh : Nat) (next : Kernel) :
    Prop where
  sound : Sound next
  settled : Settled (one bh) kernel next
  isBuffer : bh < next.nrBuffers
  isFor : IsFor dev block bh next
  unlocked : (next.buffers bh).lock = false
  small : (next.buffers bh).count ≤ 255

theorem Got.earlier {before : Kernel} {dev block : Nat} {next : Kernel}
    (got : Got kernel dev block bh next) (settled : Settled 0 before kernel) :
    Got before dev block bh next where
  sound := got.sound
  settled := settled.after got.settled
  isBuffer := got.isBuffer
  isFor := got.isFor
  unlocked := got.unlocked
  small := got.small

/-- A buffer for the block has a reference to spare. -/
def Room (fate : Fate) (kernel : Kernel) (dev block : Nat) : Prop :=
  fate.crossed ∨ ∀ bh, bh < kernel.nrBuffers → IsFor dev block bh kernel →
    (kernel.buffers bh).count < 255

theorem getHashTable_wp (sound : Sound kernel) (dev block : Nat) {fuel : Nat}
    (enough : fate.spent ∨ 0 < fuel)
    (room : Room fate kernel dev block) :
    (getHashTable fuel dev block).wp fate Io
      (fun found next =>
        match found with
        | none => next = kernel ∧ findBuffer kernel dev block = none
        | some bh => Got kernel dev block bh next)
      kernel := by
  cases fuel with
  | zero =>
      rcases enough with spent | absurd
      · exact spent
      · cases absurd
  | succ fuel =>
      unfold getHashTable
      rw [wp_bind, wp_get]
      cases found : findBuffer kernel dev block with
      | none => exact ⟨rfl, rfl⟩
      | some bh =>
          obtain ⟨isBuffer, isDev, isBlock⟩ := findBuffer_some sound.lists found
          dsimp only
          rw [wp_bind]
          apply wp_mono (takeReference_wp sound
            (room.imp_right fun small => small bh isBuffer ⟨isDev, isBlock⟩))
          rintro _ taken ⟨takenSound, settled, same, small⟩
          rw [wp_bind]
          apply wp_mono (waitOnBuffer_wp takenSound)
          rintro _ next ⟨nextSound, serviced, _, unlocked⟩
          have isFor : IsFor dev block bh next := by
            constructor
            · rw [serviced.same.dev, same.dev, isDev]
            · rw [serviced.same.block, same.block, isBlock]
          rw [wp_bind, wp_get, if_pos ⟨isFor.1, isFor.2⟩]
          refine ⟨nextSound, settled.before serviced.settled, ?_, isFor,
            unlocked, ?_⟩
          · rw [serviced.same.nrBuffers, same.nrBuffers]
            exact isBuffer
          · rw [serviced.count]
            exact small

/-- What `brelse` does to its buffer, once it is unlocked. -/
theorem brelse_drops (sound : Sound kernel)
    (isHeld : 0 < (kernel.buffers bh).count)
    (small : (kernel.buffers bh).count ≤ 255) :
    (brelse (some bh)).wp fate Io
      (fun _ next => ∃ waited, Sound waited ∧ Serviced kernel waited ∧
        next = waited.setBuffer bh
          { waited.buffers bh with count := (waited.buffers bh).count - 1 })
      kernel := by
  unfold brelse
  rw [wp_bind]
  apply wp_mono (waitOnBuffer_wp sound)
  rintro _ next ⟨nextSound, serviced, _, _⟩
  have count := serviced.count bh
  rw [wp_bind, wp_get, if_neg (by unfold Buffer.countByte; omega)]
  refine ⟨next, nextSound, serviced, ?_⟩
  have dropped : (next.buffers bh).dropCount =
      { next.buffers bh with count := (next.buffers bh).count - 1 } := by
    unfold Buffer.dropCount Buffer.countByte
    rw [if_neg (by omega)]
  exact congrArg (next.setBuffer bh) dropped

/-- A reference is given back. -/
theorem brelse_wp (sound : Sound kernel)
    (isHeld : 0 < (kernel.buffers bh).count)
    (small : (kernel.buffers bh).count ≤ 255) :
    (brelse (some bh)).wp fate Io
      (fun _ next => Sound next ∧ ∀ before gain,
        Settled (gain + one bh) before kernel → Settled gain before next)
      kernel := by
  apply wp_mono (brelse_drops sound isHeld small)
  rintro _ _ ⟨next, nextSound, serviced, rfl⟩
  have count := serviced.count bh
  refine ⟨setCount_sound nextSound _, ?_⟩
  intro before gain settled
  have total := (settled.before serviced.settled).count bh
  rw [Pi.add_apply, one_same] at total
  apply (settled.before serviced.settled).recount
  · omega
  · intro other different
    rw [Pi.add_apply, one_other different, Nat.add_zero]

end References

/-! ## Reading and writing back -/

theorem findSuper_dev {supers : Nat → Super} {dev start count sb : Nat}
    (found : findSuper supers dev start count = some sb) :
    (supers sb).dev = dev := by
  induction count generalizing start with
  | zero => cases found
  | succ count induction =>
      unfold findSuper at found
      split at found <;> rename_i here
      · rw [Option.some.injEq] at found
        rw [← found]
        exact here
      · exact induction found

/-- No in-core inode waits to be written. -/
def Calm (kernel : Kernel) : Prop :=
  ∀ index, index < nrInode → (kernel.inodes index).dirt = false

/-- What the cache needs of the state to work: counts that are bytes, changed
inodes whose place in the inode table can be read in, and then room for the
references that takes. -/
structure Ready (fate : Fate) (kernel : Kernel) : Prop where
  small : ∀ bh, (kernel.buffers bh).count ≤ 255
  room : Calm kernel ∨ fate.crossed ∨
    ∀ bh, bh < kernel.nrBuffers → (kernel.buffers bh).count < 255
  inodes : ∀ index, index < nrInode → (kernel.inodes index).dirt = true →
    (kernel.inodes index).dev ≠ 0 →
      ∃ sb, findSuper kernel.supers (kernel.inodes index).dev 0 nrSuper =
          some sb ∧
        Serves kernel (kernel.inodes index).dev
          (inodeBlock (kernel.supers sb) (kernel.inodes index).num) ∧
        ¬ Blind kernel (kernel.inodes index).dev
          (inodeBlock (kernel.supers sb) (kernel.inodes index).num)

theorem Calm.later {kernel next : Kernel} (calm : Calm kernel)
    (settled : Settled 0 kernel next) : Calm next :=
  fun index inRange => settled.clean (calm index inRange)

/-- Changed inodes can be written out as long as they, the super blocks and
the drivers stay, and the drivers see the blocks. -/
theorem placed_kept {kernel next : Kernel}
    (inode : ∀ index, ∃ dirt lock,
      next.inodes index = { kernel.inodes index with dirt, lock } ∧
        (dirt = true → (kernel.inodes index).dirt = true))
    (supers : next.supers = kernel.supers)
    (driver : next.driver = kernel.driver)
    (placed : ∀ index, index < nrInode → (kernel.inodes index).dirt = true →
      (kernel.inodes index).dev ≠ 0 →
        ∃ sb, findSuper kernel.supers (kernel.inodes index).dev 0 nrSuper =
            some sb ∧
          Serves kernel (kernel.inodes index).dev
            (inodeBlock (kernel.supers sb) (kernel.inodes index).num) ∧
          ¬ Blind next (kernel.inodes index).dev
            (inodeBlock (kernel.supers sb) (kernel.inodes index).num))
    {index : Nat} (inRange : index < nrInode)
    (isDirty : (next.inodes index).dirt = true)
    (hasDev : (next.inodes index).dev ≠ 0) :
    ∃ sb, findSuper next.supers (next.inodes index).dev 0 nrSuper = some sb ∧
      Serves next (next.inodes index).dev
        (inodeBlock (next.supers sb) (next.inodes index).num) ∧
      ¬ Blind next (next.inodes index).dev
        (inodeBlock (next.supers sb) (next.inodes index).num) := by
  obtain ⟨dirt, lock, isNext, wasDirty⟩ := inode index
  rw [isNext] at isDirty hasDev ⊢
  obtain ⟨sb, found, serves, notBlind⟩ :=
    placed index inRange (wasDirty isDirty) hasDev
  rw [supers]
  exact ⟨sb, found, serves.congr driver, notBlind⟩

theorem Ready.placed {fate : Fate} {kernel next : Kernel} {gain : Nat → Nat}
    (ready : Ready fate kernel) (settled : Settled gain kernel next)
    {index : Nat} (inRange : index < nrInode)
    (isDirty : (next.inodes index).dirt = true)
    (hasDev : (next.inodes index).dev ≠ 0) :
    ∃ sb, findSuper next.supers (next.inodes index).dev 0 nrSuper = some sb ∧
      Serves next (next.inodes index).dev
        (inodeBlock (next.supers sb) (next.inodes index).num) ∧
      ¬ Blind next (next.inodes index).dev
        (inodeBlock (next.supers sb) (next.inodes index).num) := by
  apply placed_kept settled.inode settled.supers settled.driver ?_ inRange
    isDirty hasDev
  intro other inTable wasDirty hadDev
  obtain ⟨sb, found, serves, notBlind⟩ :=
    ready.inodes other inTable wasDirty hadDev
  exact ⟨sb, found, serves, fun isBlind =>
    notBlind (settled.blind _ _ isBlind)⟩

theorem Ready.later {fate : Fate} {kernel next : Kernel}
    (ready : Ready fate kernel) (settled : Settled 0 kernel next) :
    Ready fate next where
  room := by
    rcases ready.room with calm | crossed | small
    · exact .inl (calm.later settled)
    · exact .inr (.inl crossed)
    · refine .inr (.inr fun bh isBuffer => ?_)
      rw [settled.count]
      exact small bh (settled.size ▸ isBuffer)
  small := by
    intro bh
    rw [settled.count]
    exact ready.small bh
  inodes := fun _ => ready.placed settled

section Circle

variable {fate : Fate} {kernel : Kernel} {getblk : Nat → Nat → Sys Nat}

/-- What the functions that call `getblk` rely on. -/
def Getter (fate : Fate) (getblk : Nat → Nat → Sys Nat) : Prop :=
  ∀ kernel dev block, Sound kernel → Ready fate kernel →
    Room fate kernel dev block → dev ≠ 0 →
    (getblk dev block).wp fate Io (fun bh next => Got kernel dev block bh next)
      kernel

/-- A buffer with the content of its block. -/
structure Read (kernel : Kernel) (dev block bh : Nat) (next : Kernel) : Prop
    extends Got kernel dev block bh next where
  fresh : (next.buffers bh).uptodate = true

theorem breadWith_wp {dev block : Nat}
    (gets : (getblk dev block).wp fate Io
      (fun bh next => Got kernel dev block bh next) kernel)
    (hasDev : dev ≠ 0) (serves : Serves kernel dev block)
    (notBlind : ¬ Blind kernel dev block) :
    (breadWith getblk dev block).wp fate Io
      (fun found next => ∃ bh, found = some bh ∧ Read kernel dev block bh next)
      kernel := by
  unfold breadWith
  rw [wp_bind]
  apply wp_mono gets
  rintro bh next got
  rw [wp_bind, wp_get]
  split <;> rename_i isFresh
  · exact ⟨bh, rfl, { toGot := got, fresh := isFresh }⟩
  · have requestable : Requestable next .read bh :=
      { isBuffer := got.isBuffer
        hasDev := got.isFor.1 ▸ hasDev
        serves := by
          rw [got.isFor.1, got.isFor.2]
          exact serves.congr got.settled.driver
        keeps := by
          right
          intro isDirty
          by_contra notFresh
          apply notBlind
          exact got.settled.blind dev block
            ⟨bh, got.isBuffer, got.isFor, isDirty, by simpa using notFresh⟩ }
    rw [wp_bind]
    apply wp_mono (llRwBlock_wp got.sound requestable (by decide))
    rintro _ asked ⟨askedSound, asking, reads, _⟩
    rw [wp_bind]
    apply wp_mono (waitOnBuffer_wp askedSound)
    rintro _ final ⟨finalSound, serviced, io, unlocked⟩
    have fresh : (final.buffers bh).uptodate = true := by
      rcases reads rfl with pending | isFresh
      · rcases io.reading askedSound pending with still | isFresh
        · obtain ⟨slot, inRange, busy, isOwn, _⟩ := still
          exact (finalSound.untouched unlocked slot inRange busy isOwn).elim
        · exact isFresh
      · exact serviced.uptodate bh isFresh
    rw [wp_bind, wp_get, if_pos fresh]
    have total := asking.trans serviced
    refine ⟨bh, rfl, ⟨⟨finalSound, got.settled.before total.settled, ?_, ?_,
      unlocked, ?_⟩, fresh⟩⟩
    · rw [total.same.nrBuffers]
      exact got.isBuffer
    · exact ⟨(total.same.dev bh).trans got.isFor.1,
        (total.same.block bh).trans got.isFor.2⟩
    · rw [total.count]
      exact got.small

/-- A buffer that was read holds the content of its block. -/
theorem Read.content {dev block bh : Nat} {next : Kernel}
    (read : Read kernel dev block bh next) (hasDev : dev ≠ 0) :
    next.content dev block = (next.buffers bh).data := by
  rw [Kernel.content_of_cached read.sound.lists hasDev read.isBuffer
    read.isFor.1 read.isFor.2]
  exact if_pos (.inl read.fresh)

theorem getSuper_wp {dev sb : Nat} {fuel : Nat} (sound : Sound kernel)
    (hasDev : dev ≠ 0) (enough : fate.spent ∨ 0 < fuel)
    (found : findSuper kernel.supers dev 0 nrSuper = some sb) :
    (getSuper dev fuel).wp fate Io
      (fun value next => value = some sb ∧ Sound next ∧ Serviced kernel next)
      kernel := by
  cases fuel with
  | zero =>
      rcases enough with spent | absurd
      · exact spent
      · cases absurd
  | succ fuel =>
      unfold getSuper
      rw [if_neg hasDev, wp_bind, wp_get, found]
      dsimp only
      rw [wp_bind]
      apply wp_wait sound
      intro next io nextSound serviced _
      rw [wp_bind, wp_get, if_pos]
      · exact ⟨rfl, nextSound, serviced⟩
      · rw [serviced.supers]
        exact findSuper_dev found

/-- Nothing of the cache depends on the inodes. -/
theorem setInode_sound (sound : Sound kernel) (index : Nat) (inode : Inode) :
    Sound (kernel.setInode index inode) := by
  have same : SameLists kernel (kernel.setInode index inode) :=
    SameLists.elsewhere rfl rfl rfl rfl
  refine ⟨sound.lists.congr same, sound.noDevice, ?_, sound.apart,
    sound.queues, sound.clean, sound.servable⟩
  intro slot dev inRange isFor
  exact (sound.requested slot dev inRange isFor).congr rfl rfl rfl rfl

/-- The lock of an inode. -/
theorem setLock_settled {before : Kernel} {gain : Nat → Nat} {index : Nat}
    {lock : Bool} (settled : Settled gain before kernel) :
    Settled gain before
      (kernel.setInode index { kernel.inodes index with lock }) := by
  have flags (other : Nat) :
      ((kernel.setInode index { kernel.inodes index with lock }).inodes
        other).dirt = (kernel.inodes other).dirt := by
    show (if other = index then _ else kernel.inodes other).dirt = _
    split <;> rename_i here
    · rw [here]
    · rfl
  refine ⟨settled.size, ?_, ?_, settled.lastInode, settled.supers,
    settled.driver, settled.now, settled.count, settled.held, settled.blind⟩
  · intro dev block offset hasDev inBlock
    exact (settled.content dev block offset hasDev inBlock).congr flags
  · intro other
    obtain ⟨oldDirt, oldLock, inode, wasDirty⟩ := settled.inode other
    show ∃ dirt lock, (if other = index then _ else kernel.inodes other) =
      { before.inodes other with dirt, lock } ∧ _
    by_cases here : other = index
    · subst here
      refine ⟨oldDirt, lock, ?_, wasDirty⟩
      rw [if_pos rfl, inode]
    · rw [if_neg here]
      exact ⟨oldDirt, oldLock, inode, wasDirty⟩

/-- The inode is stored in the buffer of its block, and changed no more. -/
def Kernel.storesInode (kernel : Kernel) (index bh : Nat) : Kernel :=
  (kernel.edit bh (storeInode (kernel.buffers bh).data (kernel.inodes index))
    (kernel.buffers bh).uptodate).setInode index
    { kernel.inodes index with dirt := false }

/-- Writing a changed inode to its place brings that place up to date. -/
theorem storesInode_settled {next : Kernel} {index dev block bh : Nat}
    (inRange : index < nrInode) (isDirty : (kernel.inodes index).dirt = true)
    (hasDev : dev ≠ 0) (place : InodePlace kernel index dev block)
    (read : Read kernel dev block bh next) :
    Settled (one bh) kernel (next.storesInode index bh) := by
  obtain ⟨dirt, lock, inode, _⟩ := read.settled.inode index
  have settled := read.settled
  have inodes (other : Nat) : (next.storesInode index bh).inodes other =
      if other = index then { next.inodes index with dirt := false }
      else next.inodes other := rfl
  have isWritten : WrittenOut kernel (next.storesInode index bh) index := by
    refine ⟨inRange, isDirty, ?_⟩
    rw [inodes, if_pos rfl]
  have others {other : Nat} (different : other ≠ index) :
      WrittenOut kernel (next.storesInode index bh) other ↔
        WrittenOut kernel next other := by
    constructor
    · rintro ⟨inRange, isDirty, isClean⟩
      rw [inodes, if_neg different] at isClean
      exact ⟨inRange, isDirty, isClean⟩
    · rintro ⟨inRange, isDirty, isClean⟩
      refine ⟨inRange, isDirty, ?_⟩
      rw [inodes, if_neg different]
      exact isClean
  -- a byte that is not of this inode has changed if it had before
  have elsewhere {other where_ offset : Nat} {old new : UInt8}
      (notByte : ¬InodeByte kernel index other where_ offset)
      (updated : Updated kernel next other where_ offset old new) :
      Updated kernel (next.storesInode index bh) other where_ offset old new := by
    obtain ⟨nobody, same⟩ | ⟨third, written, isByte, value⟩ := updated
    · refine .inl ⟨fun third written isByte => ?_, same⟩
      have different : third ≠ index := by
        rintro rfl
        exact notByte isByte
      exact nobody third ((others different).mp written) isByte
    · have different : third ≠ index := by
        rintro rfl
        exact notByte isByte
      exact .inr ⟨third, (others different).mpr written, isByte, value⟩
  refine ⟨settled.size, ?_, ?_, settled.lastInode, settled.supers,
    settled.driver, settled.now, ?_, ?_, ?_⟩
  · intro other where_ offset otherDev inBlock
    show Updated _ _ _ _ _ _ ((next.edit bh _ _).content other where_ offset)
    rw [edit_content read.sound read.isBuffer read.isFor hasDev otherDev]
    split <;> rename_i here
    · obtain ⟨rfl, rfl⟩ := here
      unfold storeInode
      rw [inode]
      dsimp only
      split <;> rename_i inSlot
      · exact .inr ⟨index, isWritten, place.isByte inSlot.1 inSlot.2, rfl⟩
      · rw [← read.content hasDev]
        apply elsewhere fun isByte => inSlot ⟨isByte.lower, isByte.upper⟩
        exact settled.content _ _ offset otherDev inBlock
    · apply elsewhere fun isByte => here (place.only isByte)
      exact settled.content other where_ offset otherDev inBlock
  · intro other
    rw [inodes]
    by_cases here : other = index
    · subst here
      refine ⟨false, lock, ?_, fun none => by cases none⟩
      rw [if_pos rfl, inode]
    · rw [if_neg here]
      exact settled.inode other
  · intro other
    rw [← settled.count other]
    show ((next.edit bh _ _).buffers other).count = _
    by_cases own : other = bh
    · rw [own, edit_own]
    · rw [edit_other own]
  · intro other isHeld
    obtain ⟨dev, block, fresh, live⟩ := settled.held other isHeld
    show ((next.edit bh _ _).buffers other).dev = _ ∧
      ((next.edit bh _ _).buffers other).block = _ ∧
      (_ → ((next.edit bh _ _).buffers other).uptodate = true) ∧
      (_ → (next.edit bh _ _).Live other)
    by_cases own : other = bh
    · subst own
      rw [edit_own]
      exact ⟨dev, block, fresh, fun _ => edit_live_own⟩
    · rw [edit_other own]
      refine ⟨dev, block, fresh, fun isLive => ?_⟩
      exact (edit_live_other own).mpr (live isLive)
  · rintro other where_ ⟨third, isBuffer, isFor, thirdDirty, notFresh⟩
    replace isFor : IsFor other where_ third (next.edit bh
      (storeInode (next.buffers bh).data (next.inodes index))
      (next.buffers bh).uptodate) := isFor
    replace thirdDirty : ((next.edit bh
      (storeInode (next.buffers bh).data (next.inodes index))
      (next.buffers bh).uptodate).buffers third).dirt = true := thirdDirty
    replace notFresh : ((next.edit bh
      (storeInode (next.buffers bh).data (next.inodes index))
      (next.buffers bh).uptodate).buffers third).uptodate = false := notFresh
    by_cases own : third = bh
    · subst own
      rw [edit_own, read.fresh] at notFresh
      cases notFresh
    · have thirdFor : IsFor other where_ third next := by
        unfold IsFor at isFor ⊢
        rwa [edit_other own] at isFor
      rw [edit_other own] at thirdDirty notFresh
      exact settled.blind other where_
        ⟨third, isBuffer, thirdFor, thirdDirty, notFresh⟩

/-- The end of `write_inode`: the inode is stored in the buffer of its block,
which is given back. -/
theorem storeInode_wp {got : Kernel} {index dev block bh : Nat}
    (inRange : index < nrInode) (isDirty : (kernel.inodes index).dirt = true)
    (hasDev : dev ≠ 0) (serves : Serves kernel dev block)
    (place : InodePlace kernel index dev block)
    (read : Read kernel dev block bh got) :
    (do
      Prog.modify fun kernel =>
        let buffer := kernel.buffers bh
        let inode := kernel.inodes index
        (kernel.setBuffer bh
          { buffer with
            data := storeInode buffer.data inode, dirt := true }).setInode
          index { inode with dirt := false }
      brelse (some bh)
      unlockInode index : Sys Unit).wp fate Io
      (fun _ next => Sound next ∧ Settled 0 kernel next) got := by
  have settled := storesInode_settled inRange isDirty hasDev place read
  have sound : Sound (got.storesInode index bh) := by
    apply setInode_sound
    apply edit_sound read.sound (read.sound.notReading (.inl read.fresh))
    · rw [read.isFor.1]
      exact hasDev
    · rw [read.isFor.1, read.isFor.2]
      exact serves.congr read.settled.driver
  have ownCount : ((got.storesInode index bh).buffers bh).count =
      (got.buffers bh).count := by
    show ((got.edit bh _ _).buffers bh).count = _
    rw [edit_own]
  have count := read.settled.count bh
  rw [one_same] at count
  rw [wp_bind, wp_modify, wp_bind]
  show (brelse (some bh)).wp fate Io _ (got.storesInode index bh)
  generalize got.storesInode index bh = stored at settled sound ownCount
  apply wp_mono (brelse_wp sound (by omega)
    (by rw [ownCount]; exact read.small))
  rintro _ given ⟨givenSound, gives⟩
  exact ⟨setInode_sound givenSound _ _,
    setLock_settled (gives kernel 0 (by rwa [zero_add]))⟩

theorem writeInodeWith_wp (sound : Sound kernel) (ready : Ready fate kernel)
    (gets : Getter fate getblk) {fuel index : Nat} (inRange : index < nrInode)
    (spent : fate.spent) :
    (writeInodeWith getblk fuel index).wp fate Io
      (fun _ next => Sound next ∧ Settled 0 kernel next) kernel := by
  unfold writeInodeWith lockInode unlockInode onInode
  rw [wp_bind, wp_bind]
  apply wp_wait sound
  intro woken io wokenSound serviced isReady
  have lockSound := setInode_sound wokenSound index
    { woken.inodes index with lock := true }
  have locked : Settled 0 kernel (woken.setInode index
      { woken.inodes index with lock := true }) :=
    setLock_settled serviced.settled
  rw [wp_modify, wp_bind, wp_get]
  generalize woken.setInode index { woken.inodes index with lock := true } =
    start at lockSound locked
  split <;> rename_i clean
  · exact ⟨setInode_sound lockSound _ _, setLock_settled locked⟩
  · have startReady := ready.later locked
    have isDirty : (start.inodes index).dirt = true := by
      by_contra notDirty
      exact clean (.inl (by simpa using notDirty))
    have hasDev : (start.inodes index).dev ≠ 0 := fun none => clean (.inr none)
    obtain ⟨sb, found, serves, notBlind⟩ :=
      startReady.inodes index inRange isDirty hasDev
    rw [wp_bind]
    apply wp_mono (getSuper_wp lockSound hasDev (.inl spent) found)
    rintro _ next ⟨rfl, nextSound, nextServiced⟩
    have nextReady := startReady.later nextServiced.settled
    dsimp only
    rw [wp_bind, wp_get, wp_bind]
    have sameInode : next.inodes index = start.inodes index := by
      rw [nextServiced.inodes]
    have sameSuper : next.supers = start.supers := nextServiced.supers
    rw [sameInode, sameSuper]
    have nextServes := serves.congr nextServiced.driver
    have nextBlind : ¬ Blind next (start.inodes index).dev
        (inodeBlock (start.supers sb) (start.inodes index).num) :=
      fun isBlind => notBlind (nextServiced.settled.blind _ _ isBlind)
    have nextDirty : (next.inodes index).dirt = true := sameInode ▸ isDirty
    have room : Room fate next (start.inodes index).dev
        (inodeBlock (start.supers sb) (start.inodes index).num) := by
      rcases nextReady.room with calm | crossed | small
      · rw [calm index inRange] at nextDirty
        cases nextDirty
      · exact .inl crossed
      · exact .inr fun bh isBuffer _ => small bh isBuffer
    apply wp_mono (breadWith_wp (gets next _ _ nextSound nextReady room hasDev)
      hasDev nextServes nextBlind)
    rintro _ got ⟨bh, rfl, read⟩
    have place : InodePlace next index (start.inodes index).dev
        (inodeBlock (start.supers sb) (start.inodes index).num) := by
      refine ⟨by rw [sameInode], sb, ?_, ?_⟩
      · rw [sameSuper]
        exact found
      · rw [sameSuper, sameInode]
    apply wp_mono (storeInode_wp inRange nextDirty hasDev nextServes place
      read)
    rintro _ final ⟨finalSound, finalSettled⟩
    exact ⟨finalSound, locked.trans (nextServiced.settled.trans finalSettled)⟩

end Circle

end Linux011.Fs

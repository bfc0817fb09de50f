import Linux011.Fs.InodeLocks
import Linux011.Fs.CacheSession
import Linux011.Fs.FreeBlock
import Linux011.Library.Likeness

/-!
# An inode on its way to the disk and back

`write_inode` stores the head of an inode in its slot of the inode table, and
`read_inode` takes it from there.  No other slot changes, and all of it stays
within the blocks of the table.
-/

namespace Linux011.Fs

open Coop Prog

/-! ## The slot of an inode -/

namespace Inode

/-- The fields fit their types in `d_inode`. -/
structure Sized (inode : Inode) : Prop where
  mode : inode.mode < 65536
  uid : inode.uid < 65536
  size : inode.size < 4294967296
  mtime : inode.mtime < 4294967296
  gid : inode.gid < 256
  nlinks : inode.nlinks < 256
  zone : ∀ index, index < 9 → inode.zone index < 65536

/-- Two inodes agree on what a `d_inode` holds. -/
structure SameHead (left right : Inode) : Prop where
  mode : left.mode = right.mode
  uid : left.uid = right.uid
  size : left.size = right.size
  mtime : left.mtime = right.mtime
  gid : left.gid = right.gid
  nlinks : left.nlinks = right.nlinks
  zone : ∀ index, index < 9 → left.zone index = right.zone index

end Inode

/-- The first byte of an inode in its block. -/
def slotStart (num : Nat) : Nat := (num - 1) % inodesPerBlock * 32

/-- The head of the inode is in its slot of the block. -/
def StoresInode (data : Block) (inode : Inode) : Prop :=
  ∀ offset, offset < 32 →
    data (slotStart inode.num + offset) = inode.byte offset

section Slot

variable {data : Block} {inode : Inode} {super : Super} {num other : Nat}

theorem wordBytes_short (value : Nat) :
    (wordBytes value 0).toNat + 256 * (wordBytes value 1).toNat =
      value % 65536 := by
  show (UInt8.ofNat value).toNat + 256 * (UInt8.ofNat (value / 256)).toNat = _
  rw [UInt8.toNat_ofNat', UInt8.toNat_ofNat']
  omega

/-- The slots of two inodes in one block lie apart. -/
theorem slotStart_apart (isNum : 1 ≤ num) (isOther : 1 ≤ other)
    (different : other ≠ num)
    (sameBlock : inodeBlock super other = inodeBlock super num) {offset : Nat}
    (inSlot : offset < 32) :
    slotStart other + offset < slotStart num ∨
      slotStart num + 32 ≤ slotStart other + offset := by
  unfold inodeBlock inodesPerBlock at sameBlock
  unfold slotStart inodesPerBlock
  omega

/-- The slot lies in its block. -/
theorem slotStart_le (num : Nat) : slotStart num + 32 ≤ 1024 := by
  unfold slotStart inodesPerBlock
  omega

/-- The blocks of the inode table. -/
theorem inodeBlock_bounds (isNum : 1 ≤ num) (inTable : num ≤ super.ninodes) :
    2 + super.imapBlocks + super.zmapBlocks ≤ inodeBlock super num ∧
      inodeBlock super num ≤ 2 + super.imapBlocks + super.zmapBlocks +
        (super.ninodes + 31) / 32 - 1 := by
  unfold inodeBlock inodesPerBlock
  omega

theorem StoresInode.short (stores : StoresInode data inode) {offset value : Nat}
    (inSlot : offset + 1 < 32) (low : inode.byte offset = wordBytes value 0)
    (high : inode.byte (offset + 1) = wordBytes value 1) :
    shortAt data (slotStart inode.num + offset) = value % 65536 := by
  unfold shortAt
  rw [stores offset (Nat.lt_of_succ_lt inSlot), Nat.add_assoc,
    stores (offset + 1) inSlot, low, high]
  exact wordBytes_short value

/-- A word is stored as two halves. -/
theorem StoresInode.long (stores : StoresInode data inode) {offset value : Nat}
    (inSlot : offset + 3 < 32) (bytes : ∀ index, index < 4 →
      inode.byte (offset + index) = UInt8.ofNat (value / 256 ^ index)) :
    longAt data (slotStart inode.num + offset) = value % 4294967296 := by
  have lower : shortAt data (slotStart inode.num + offset) = value % 65536 := by
    apply stores.short (by omega)
    · have low := bytes 0 (by decide)
      rw [Nat.add_zero] at low
      rw [low]
      show UInt8.ofNat (value / 1) = UInt8.ofNat value
      rw [Nat.div_one]
    · have high := bytes 1 (by decide)
      rw [high, Nat.pow_one]
      rfl
  have upper : shortAt data (slotStart inode.num + (offset + 2)) =
      value / 65536 % 65536 := by
    apply stores.short (by omega)
    · rw [bytes 2 (by decide)]
      rfl
    · rw [Nat.add_assoc, bytes 3 (by decide)]
      show UInt8.ofNat (value / 256 ^ 3) = UInt8.ofNat (value / 65536 / 256)
      rw [Nat.div_div_eq_div_mul]
      rfl
  unfold longAt
  rw [Nat.add_assoc, lower, upper]
  omega

/-- What is read back from the slot. -/
theorem StoresInode.load (stores : StoresInode data inode) (sized : inode.Sized)
    {slot : Inode} (same : slot.num = inode.num) :
    (slot.load data).SameHead inode := by
  have short {offset value : Nat} (inSlot : offset + 1 < 32)
      (small : value < 65536) (low : inode.byte offset = wordBytes value 0)
      (high : inode.byte (offset + 1) = wordBytes value 1) :
      shortAt data (slotStart slot.num + offset) = value := by
    rw [same, stores.short inSlot low high, Nat.mod_eq_of_lt small]
  have long {offset value : Nat} (inSlot : offset + 3 < 32)
      (small : value < 4294967296) (bytes : ∀ index, index < 4 →
        inode.byte (offset + index) = UInt8.ofNat (value / 256 ^ index)) :
      longAt data (slotStart slot.num + offset) = value := by
    rw [same, stores.long inSlot bytes, Nat.mod_eq_of_lt small]
  have byte {offset value : Nat} (inSlot : offset < 32) (small : value < 256)
      (stored : inode.byte offset = UInt8.ofNat value) :
      (data (slotStart slot.num + offset)).toNat = value := by
    rw [same, stores offset inSlot, stored, UInt8.toNat_ofNat',
      Nat.mod_eq_of_lt small]
  refine ⟨?_, ?_, ?_, ?_, ?_, ?_, ?_⟩
  · exact @short 0 _ (by decide) sized.mode rfl rfl
  · exact @short 2 _ (by decide) sized.uid rfl rfl
  · refine @long 4 _ (by decide) sized.size fun index inWord => ?_
    unfold Inode.byte
    rw [if_neg (by omega), if_neg (by omega), if_pos (by omega),
      Nat.add_sub_cancel_left]
  · refine @long 8 _ (by decide) sized.mtime fun index inWord => ?_
    unfold Inode.byte
    rw [if_neg (by omega), if_neg (by omega), if_neg (by omega),
      if_pos (by omega), Nat.add_sub_cancel_left]
  · exact @byte 12 _ (by decide) sized.gid rfl
  · exact @byte 13 _ (by decide) sized.nlinks rfl
  · intro index inArray
    have zones (half : Nat) (isHalf : half < 2) :
        inode.byte (14 + 2 * index + half) =
          wordBytes (inode.zone index) half := by
      have place : (14 + 2 * index + half - 14) / 2 = index := by omega
      have byte : (14 + 2 * index + half - 14) % 2 = half := by omega
      unfold Inode.byte
      rw [if_neg (by omega), if_neg (by omega), if_neg (by omega),
        if_neg (by omega), if_neg (by omega), if_neg (by omega), place, byte]
    show (if index < 9 then shortAt data
      (slotStart slot.num + 14 + 2 * index) else slot.zone index) = _
    rw [if_pos inArray, Nat.add_assoc]
    exact short (by omega) (sized.zone index inArray) (zones 0 (by decide))
      (zones 1 (by decide))

end Slot

/-! ## `bread` under the lock of an inode -/

/-- The byte that counts the references of the buffer has wrapped. -/
structure Overflowed (bh : Nat) (kernel : Kernel) : Prop where
  lists : Lists kernel
  count : (kernel.buffers bh).countByte = 0

/-- A buffer for the block, and no inode is touched. -/
structure Fetched (start : Kernel) (dev block bh : Nat) (next : Kernel) : Prop
    extends Got start dev block bh next where
  inodes : next.inodes = start.inodes

/-- What the cache is to be like, with a lock held. -/
structure Locking (index : Nat) (kernel : Kernel) : Prop where
  sound : Sound kernel
  small : ∀ bh, (kernel.buffers bh).count ≤ 255
  locks : Locks index kernel

section Fetch

variable {kernel : Kernel} {index dev block : Nat}

theorem Locking.serviced {next : Kernel} (locking : Locking index kernel)
    (sound : Sound next) (serviced : Serviced kernel next) :
    Locking index next where
  sound := sound
  small := by
    intro bh
    rw [serviced.count]
    exact locking.small bh
  locks := by
    unfold Locks
    rw [serviced.inodes]
    exact locking.locks

theorem Fetched.earlier {before next : Kernel} {bh : Nat}
    (fetched : Fetched kernel dev block bh next)
    (serviced : Serviced before kernel) : Fetched before dev block bh next where
  toGot := fetched.toGot.earlier serviced.settled
  inodes := fetched.inodes.trans serviced.inodes

theorem sameInodes (inodes : Nat → Inode) :
    OnInodes Io fun kernel => kernel.inodes = inodes where
  kept := fun isHeld same => same.trans isHeld
  lasts := fun io => io.interrupts.inodes

theorem getHashTable_fetches (sound : Sound kernel)
    (small : ∀ bh, (kernel.buffers bh).count ≤ 255) (hasDev : dev ≠ 0)
    (fuel : Nat) :
    (getHashTable fuel dev block).unmarked.wp .any Io
      (fun found next =>
        match found with
        | none => next = kernel ∧ findBuffer kernel dev block = none
        | some bh => Fetched kernel dev block bh next ∨ Overflowed bh next)
      kernel := by
  have inodes := ((sameInodes kernel.inodes).getHashTable fuel dev block).run
    kernel rfl
  by_cases full : ∃ bh, findBuffer kernel dev block = some bh ∧
      (kernel.buffers bh).count = 255
  · obtain ⟨bh, found, isFull⟩ := full
    have counts := (hoare_env (@getHashTable_gains kernel .any trivial fuel dev
      block) fun _ _ => Io.interrupts).run kernel (Gained.refl kernel)
    refine Run.wp_mono counts ?_
    rintro _ next ⟨rfl, gained⟩
    rw [found] at gained ⊢
    refine .inr ⟨sound.lists.congr gained.same, ?_⟩
    unfold Buffer.countByte
    rw [gained.count, one_same, isFull]
  · have room : Room { Fate.any with crossed := False } kernel dev block := by
      refine .inr fun bh isBuffer isFor => ?_
      have notFull : (kernel.buffers bh).count ≠ 255 := fun isFull => full
        ⟨bh, findBuffer_of_cached sound.lists hasDev isBuffer isFor.1 isFor.2,
          isFull⟩
      exact Nat.lt_of_le_of_ne (small bh) notFull
    have gets := Run.wp_unmarked (getHashTable_wp sound dev block
      (.inl trivial : _ ∨ 0 < fuel) room)
    refine Run.wp_mono (Run.wp_and gets inodes) ?_
    rintro (_ | bh) next ⟨outcome, same⟩
    · exact outcome
    · exact .inl ⟨outcome, same⟩

/-- `getblk` with the lock held. -/
theorem getblk_fetches (inTable : index < nrInode) (fuel : Nat)
    (locking : Locking index kernel) (hasDev : dev ≠ 0) :
    (getblk fuel dev block).unmarked.wp .any Io
      (fun bh next => Fetched kernel dev block bh next ∨ Overflowed bh next)
      kernel := by
  induction fuel generalizing kernel with
  | zero => trivial
  | succ fuel induction =>
      -- from a later state it is as well to start again
      have again {next : Kernel} (sound : Sound next)
          (serviced : Serviced kernel next) :
          (getblk fuel dev block).unmarked.wp .any Io
            (fun bh final => Fetched kernel dev block bh final ∨
              Overflowed bh final) next := by
        refine Run.wp_mono (induction (locking.serviced sound serviced)) ?_
        exact fun _ _ gets => gets.imp_left fun fetched =>
          fetched.earlier serviced
      have locksOnly := @locks_onInodes Io index fun io => io.interrupts.inodes
      unfold getblk
      apply wp_unmarked_bind.mpr
      refine Run.wp_mono (getHashTable_fetches locking.sound locking.small hasDev
        fuel) ?_
      rintro (_ | bh) next outcome
      · obtain ⟨rfl, missing⟩ := outcome
        apply wp_unmarked_get.mpr
        split <;> rename_i scan
        · apply wp_unmarked_bind.mpr
          intro woken io _
          obtain ⟨wokenSound, serviced⟩ := io.spec locking.sound
          exact again wokenSound serviced
        · rename_i bh
          obtain ⟨isBuffer, unused⟩ := scanFree_some locking.sound.lists scan
          apply wp_unmarked_bind.mpr
          refine Run.wp_mono (Run.wp_unmarked
            (waitOnBuffer_wp locking.sound)) ?_
          rintro _ waited ⟨waitedSound, serviced, _, unlocked⟩
          have waitedLocking := locking.serviced waitedSound serviced
          apply wp_unmarked_get.mpr
          split
          · exact again waitedSound serviced
          · apply wp_unmarked_bind.mpr
            refine Run.wp_mono ((cleanWith_stuck locksOnly
              (getblk_locks locksOnly inTable fuel) inTable fuel bh fuel
              waitedLocking.locks).run waited rfl) ?_
            rintro _ final ⟨rfl, rfl, isClean⟩
            apply wp_unmarked_get.mpr
            split <;> rename_i search
            · exact again waitedSound serviced
            · have count := serviced.count bh
              have small := locking.small bh
              have claimable : Claimable final bh dev block :=
                { sound := waitedSound
                  isBuffer := serviced.same.nrBuffers ▸ isBuffer
                  unused := by
                    unfold Buffer.countByte at unused
                    omega
                  isClean := isClean
                  unlocked := unlocked
                  hasDev := hasDev
                  fresh := fun other otherBuffer sameDev =>
                    findBuffer_none waitedSound.lists search hasDev
                      otherBuffer sameDev }
              have claims : claimBuffer bh dev block final =
                  .done () (claim bh dev block final) :=
                claimBuffer_eq waitedSound.lists claimable.isBuffer
              apply wp_unmarked_bind.mpr
              show (claimBuffer bh dev block final).unmarked.wp _ _ _
              rw [claims]
              exact .inl (Fetched.earlier
                ⟨claimable.got, claim_beside.inodes⟩ serviced)
      · exact outcome

/-- No device counts references. -/
theorem overflowed_kept {bh : Nat} {kernel next : Kernel}
    (overflowed : Overflowed bh kernel) (moved : Interrupts kernel next) :
    Overflowed bh next where
  lists := overflowed.lists.congr moved.quiet.same
  count := by
    unfold Buffer.countByte
    rw [moved.quiet.count]
    exact overflowed.count

theorem overflowed_lasts {bh : Nat} {kernel next : Kernel}
    (overflowed : Overflowed bh kernel) (io : Io kernel next) :
    Overflowed bh next :=
  overflowed_kept overflowed io.interrupts

theorem llRwBlock_overflowed (bh : Nat) (rw : Rw) (other : Nat) :
    Stays .any Io (Overflowed bh) (llRwBlock rw other) :=
  stays_of_within (llRwBlock_interrupts rw other)
    (fun _ _ => overflowed_kept) fun _ _ => overflowed_lasts

/-- An overflowed buffer cannot be given back. -/
theorem brelse_overflowed (bh : Nat) :
    Hoare .any Io (Overflowed bh) (brelse (some bh)).unmarked
      fun _ _ => False := by
  refine hoare_unmarked_bind (stays_waitUntil fun _ _ => overflowed_lasts)
    fun _ => ?_
  apply hoare_unmarked_get
  intro kernel overflowed
  rw [if_pos overflowed.count]
  exact hoare_panic trivial

/-- What `bread` does with the buffer of its block. -/
def breadInto (bh : Nat) : Sys (Option Nat) := do
  let kernel ← Prog.get
  if (kernel.buffers bh).uptodate = true then return some bh
  else do
    llRwBlock .read bh
    waitOnBuffer bh
    let kernel ← Prog.get
    if (kernel.buffers bh).uptodate = true then return some bh
    else do
      brelse (some bh)
      return none

theorem breadInto_overflowed (bh : Nat) :
    Hoare .any Io (Overflowed bh) (breadInto bh).unmarked
      fun found next => found = some bh ∧ Overflowed bh next := by
  have returns : Hoare .any Io (Overflowed bh)
      (pure (some bh) : Sys (Option Nat)).unmarked
      fun found next => found = some bh ∧ Overflowed bh next :=
    hoare_pure fun _ overflowed => ⟨rfl, overflowed⟩
  apply hoare_unmarked_read
  intro kernel
  split
  · exact returns
  · refine hoare_unmarked_bind (llRwBlock_overflowed bh .read bh) fun _ => ?_
    refine hoare_unmarked_bind (stays_waitUntil fun _ _ => overflowed_lasts)
      fun _ => ?_
    apply hoare_unmarked_read
    intro kernel
    split
    · exact returns
    · exact hoare_unmarked_stuck (brelse_overflowed bh)

theorem breadInto_reads {bh : Nat} {next : Kernel}
    (fetched : Fetched kernel dev block bh next) (hasDev : dev ≠ 0)
    (serves : Serves kernel dev block) (notBlind : ¬ Blind kernel dev block) :
    (breadInto bh).unmarked.wp .any Io
      (fun found final => (∃ bh, found = some bh ∧
        Read kernel dev block bh final) ∧ final.inodes = kernel.inodes)
      next := by
  -- as if `getblk` came here at once
  have reads := @breadWith_wp { Fate.any with crossed := False } kernel
    (fun _ _ _ => .done bh next) dev block fetched.toGot hasDev serves notBlind
  have inodes := (@OnInodes.breadWith _ _ (sameInodes kernel.inodes)
    (fun _ _ _ => .done bh next) dev block
    ⟨fun _ _ => fetched.inodes⟩).run kernel rfl
  exact Run.wp_and (Run.wp_unmarked reads) inodes

theorem bread_fetches (inTable : index < nrInode) (fuel : Nat)
    (locking : Locking index kernel) (hasDev : dev ≠ 0)
    (serves : Serves kernel dev block) (notBlind : ¬ Blind kernel dev block) :
    (bread fuel dev block).unmarked.wp .any Io
      (fun found next => ∃ bh, found = some bh ∧
        (Read kernel dev block bh next ∧ next.inodes = kernel.inodes ∨
          Overflowed bh next)) kernel := by
  have isBind : bread fuel dev block =
      getblk fuel dev block >>= breadInto := rfl
  rw [isBind]
  apply wp_unmarked_bind.mpr
  refine Run.wp_mono (getblk_fetches inTable fuel locking hasDev) ?_
  rintro bh next (fetched | overflowed)
  · refine Run.wp_mono (breadInto_reads fetched hasDev serves notBlind) ?_
    rintro _ final ⟨⟨bh, rfl, read⟩, same⟩
    exact ⟨bh, rfl, .inl ⟨read, same⟩⟩
  · refine Run.wp_mono ((breadInto_overflowed bh).run next overflowed) ?_
    rintro _ final ⟨rfl, overflowed⟩
    exact ⟨bh, rfl, .inr overflowed⟩

end Fetch

/-! ## `write_inode` -/

/-- The superblock of a device, whose inode table can be read. -/
structure Readable (kernel : Kernel) (dev sb : Nat) : Prop where
  hasDev : dev ≠ 0
  found : findSuper kernel.supers dev 0 nrSuper = some sb
  serves : ∀ num, 1 ≤ num → num ≤ (kernel.supers sb).ninodes →
    Serves kernel dev (inodeBlock (kernel.supers sb) num)
  notBlind : ∀ num, 1 ≤ num → num ≤ (kernel.supers sb).ninodes →
    ¬ Blind kernel dev (inodeBlock (kernel.supers sb) num)

/-- The inode table with one inode replaced. -/
def replaceInode (inodes : Nat → Inode) (index : Nat) (inode : Inode) :
    Nat → Inode :=
  fun other => if other = index then inode else inodes other

section Calls

variable {kernel : Kernel} {index dev sb : Nat}

theorem Readable.settled {next : Kernel} (table : Readable kernel dev sb)
    (settled : Settled 0 kernel next) : Readable next dev sb where
  hasDev := table.hasDev
  found := by
    rw [settled.supers]
    exact table.found
  serves := by
    rw [settled.supers]
    exact fun num isNum inTable =>
      (table.serves num isNum inTable).congr settled.driver
  notBlind := by
    rw [settled.supers]
    exact fun num isNum inTable isBlind =>
      table.notBlind num isNum inTable (settled.blind _ _ isBlind)

/-- A task has locked an inode, and nothing else has changed. -/
structure LockedAt (index : Nat) (kernel next : Kernel) : Prop where
  sound : Sound next
  settled : Settled 0 kernel next
  inodes : next.inodes = replaceInode kernel.inodes index
    { kernel.inodes index with lock := true }

theorem lockInode_locks (sound : Sound kernel) (index : Nat) :
    (lockInode index).unmarked.wp .any Io (fun _ => LockedAt index kernel)
      kernel := by
  apply wp_unmarked_bind.mpr
  refine Run.wp_unmarked (wp_wait sound ?_)
  intro woken _ wokenSound serviced _
  refine ⟨setInode_sound wokenSound _ _, setLock_settled serviced.settled, ?_⟩
  rw [← serviced.inodes]
  rfl

namespace LockedAt

variable {next : Kernel} (locked : LockedAt index kernel next)

include locked

theorem inode : next.inodes index = { kernel.inodes index with lock := true } := by
  rw [locked.inodes]
  exact if_pos rfl

theorem locking (small : ∀ bh, (kernel.buffers bh).count ≤ 255) :
    Locking index next where
  sound := locked.sound
  small := fun bh => (locked.settled.count bh).symm ▸ small bh
  locks := by
    unfold Locks
    rw [locked.inode]

theorem getSuper (table : Readable kernel dev sb) (fuel : Nat) :
    (getSuper dev fuel).unmarked.wp .any Io
      (fun found after => found = some sb ∧ LockedAt index kernel after) next := by
  refine Run.wp_mono (Run.wp_unmarked (getSuper_wp locked.sound table.hasDev
    (.inl trivial) (table.settled locked.settled).found)) ?_
  rintro _ after ⟨rfl, sound, serviced⟩
  exact ⟨rfl, sound, locked.settled.after serviced.settled,
    serviced.inodes.trans locked.inodes⟩

/-- The block of an inode is read. -/
theorem bread (inTable : index < nrInode) (fuel : Nat)
    (small : ∀ bh, (kernel.buffers bh).count ≤ 255)
    (table : Readable kernel dev sb) {num : Nat} (isNum : 1 ≤ num)
    (inDevice : num ≤ (kernel.supers sb).ninodes) :
    (bread fuel dev (inodeBlock (next.supers sb) num)).unmarked.wp .any Io
      (fun found got => ∃ bh, found = some bh ∧
        (Read next dev (inodeBlock (next.supers sb) num) bh got ∧
          got.inodes = next.inodes ∨ Overflowed bh got)) next := by
  have nextTable := table.settled locked.settled
  have inNext : num ≤ (next.supers sb).ninodes :=
    locked.settled.supers ▸ inDevice
  exact bread_fetches inTable fuel (locked.locking small) table.hasDev
    (nextTable.serves num isNum inNext) (nextTable.notBlind num isNum inNext)

end LockedAt

/-- The inodes at the end of `write_inode`. -/
theorem storeInode_inodes (bh index : Nat) (inodes : Nat → Inode) :
    Hoare .any Io (fun kernel => kernel.inodes = inodes) (do
      Prog.modify fun kernel =>
        let buffer := kernel.buffers bh
        let inode := kernel.inodes index
        (kernel.setBuffer bh
          { buffer with
            data := storeInode buffer.data inode, dirt := true }).setInode
          index { inode with dirt := false }
      brelse (some bh)
      unlockInode index : Sys Unit).unmarked
      fun _ next => next.inodes = replaceInode inodes index
        { inodes index with dirt := false, lock := false } := by
  refine @hoare_unmarked_bind _ _ _ _ _ _ _ _ _ (fun _ kernel =>
    kernel.inodes = replaceInode inodes index
      { inodes index with dirt := false }) ?_ fun _ => ?_
  · refine ⟨fun kernel same => ?_⟩
    rw [← same]
    rfl
  · refine hoare_unmarked_bind ((sameInodes _).brelse (some bh)) fun _ => ?_
    refine ⟨fun kernel same => ?_⟩
    show replaceInode kernel.inodes index { kernel.inodes index with lock := false } = _
    rw [same]
    unfold replaceInode
    rw [if_pos rfl]
    funext other
    split <;> rfl

/-- An overflowed buffer keeps `write_inode` from returning. -/
theorem storeInode_overflowed (bh index : Nat) :
    Hoare .any Io (Overflowed bh) (do
      Prog.modify fun kernel =>
        let buffer := kernel.buffers bh
        let inode := kernel.inodes index
        (kernel.setBuffer bh
          { buffer with
            data := storeInode buffer.data inode, dirt := true }).setInode
          index { inode with dirt := false }
      brelse (some bh)
      unlockInode index : Sys Unit).unmarked fun _ _ => False := by
  refine hoare_unmarked_bind ⟨fun kernel overflowed => ?_⟩ fun _ =>
    hoare_unmarked_stuck (brelse_overflowed bh)
  refine ⟨overflowed.lists.congr ?_, ?_⟩
  · have stored : SameLists kernel (kernel.setBuffer bh
        { kernel.buffers bh with
          data := storeInode (kernel.buffers bh).data (kernel.inodes index)
          dirt := true }) := sameLists_setBuffer rfl rfl rfl rfl rfl rfl
    exact stored.trans (SameLists.elsewhere rfl rfl rfl rfl)
  · show ((kernel.setBuffer bh _).buffers bh).countByte = 0
    rw [Kernel.setBuffer_same]
    exact overflowed.count

theorem writeInode_stores (inTable : index < nrInode) (fuel : Nat)
    (sound : Sound kernel) (small : ∀ bh, (kernel.buffers bh).count ≤ 255)
    (table : Readable kernel dev sb) (isDev : (kernel.inodes index).dev = dev)
    (isDirty : (kernel.inodes index).dirt = true)
    (isNum : 1 ≤ (kernel.inodes index).num)
    (inDevice : (kernel.inodes index).num ≤ (kernel.supers sb).ninodes) :
    (writeInode fuel index).unmarked.wp .any Io
      (fun _ next => Sound next ∧ Settled 0 kernel next ∧
        next.inodes = replaceInode kernel.inodes index
          { kernel.inodes index with dirt := false, lock := false }) kernel := by
  subst isDev
  unfold writeInode writeInodeWith
  apply wp_unmarked_bind.mpr
  refine Run.wp_mono (lockInode_locks sound index) ?_
  intro _ start startLocked
  apply wp_unmarked_get.mpr
  rw [startLocked.inode, if_neg]
  swap
  · rintro (notDirty | noDev)
    · exact nomatch isDirty.symm.trans notDirty
    · exact table.hasDev noDev
  apply wp_unmarked_bind.mpr
  refine Run.wp_mono (startLocked.getSuper table fuel) ?_
  rintro _ next ⟨rfl, locked⟩
  apply wp_unmarked_get.mpr
  have place : InodePlace next index (kernel.inodes index).dev
      (inodeBlock (next.supers sb) (kernel.inodes index).num) := by
    refine ⟨?_, sb, (table.settled locked.settled).found, ?_⟩
    · rw [locked.inode]
    · rw [locked.inode]
  have nextDirty : (next.inodes index).dirt = true := by
    rw [locked.inode]
    exact isDirty
  have serves := (table.settled locked.settled).serves _ isNum
    (locked.settled.supers ▸ inDevice)
  dsimp only
  rw [locked.inode]
  apply wp_unmarked_bind.mpr
  refine Run.wp_mono (locked.bread inTable fuel small table isNum inDevice) ?_
  rintro _ got ⟨bh, rfl, ⟨read, same⟩ | overflowed⟩
  · have stores := Run.wp_unmarked (storeInode_wp inTable nextDirty table.hasDev
      serves place read : Prog.wp { Fate.any with crossed := False } _ _ _ _)
    have inodes := (storeInode_inodes bh index next.inodes).run got same
    refine Run.wp_mono (Run.wp_and stores inodes) ?_
    rintro _ final ⟨⟨finalSound, finalSettled⟩, finalInodes⟩
    refine ⟨finalSound, locked.settled.after finalSettled, ?_⟩
    rw [finalInodes, locked.inode, locked.inodes]
    unfold replaceInode
    funext other
    split <;> rfl
  · refine Run.wp_mono ((storeInode_overflowed bh index).run got overflowed) ?_
    exact fun _ _ never => never.elim

/-- The content of the devices, once the inode has been written. -/
theorem written_content {next : Kernel} (inTable : index < nrInode)
    (settled : Settled 0 kernel next) (table : Readable kernel dev sb)
    (isDev : (kernel.inodes index).dev = dev)
    (isDirty : (kernel.inodes index).dirt = true)
    (inodes : next.inodes = replaceInode kernel.inodes index
      { kernel.inodes index with dirt := false, lock := false }) :
    StoresInode (next.content dev (inodeBlock (kernel.supers sb)
        (kernel.inodes index).num)) (kernel.inodes index) ∧
      ∀ other block offset, other ≠ 0 → offset < 1024 →
        (other = dev → block = inodeBlock (kernel.supers sb)
            (kernel.inodes index).num →
          offset < slotStart (kernel.inodes index).num ∨
            slotStart (kernel.inodes index).num + 32 ≤ offset) →
        next.content other block offset = kernel.content other block offset := by
  have isWritten : WrittenOut kernel next index := by
    refine ⟨inTable, isDirty, ?_⟩
    rw [inodes]
    unfold replaceInode
    rw [if_pos rfl]
  have only {other : Nat} (written : WrittenOut kernel next other) :
      other = index := by
    by_contra different
    have isClean := written.after
    rw [inodes] at isClean
    unfold replaceInode at isClean
    rw [if_neg different, written.before] at isClean
    cases isClean
  have place : InodePlace kernel index dev
      (inodeBlock (kernel.supers sb) (kernel.inodes index).num) :=
    ⟨isDev, sb, table.found, rfl⟩
  constructor
  · intro offset inSlot
    have inBlock := slotStart_le (kernel.inodes index).num
    have isByte : InodeByte kernel index dev
        (inodeBlock (kernel.supers sb) (kernel.inodes index).num)
        (slotStart (kernel.inodes index).num + offset) :=
      place.isByte (Nat.le_add_right _ _) (Nat.add_lt_add_left inSlot _)
    obtain ⟨nobody, _⟩ | ⟨other, written, _, value⟩ := settled.content dev
      (inodeBlock (kernel.supers sb) (kernel.inodes index).num)
      (slotStart (kernel.inodes index).num + offset) table.hasDev (by omega)
    · exact (nobody index isWritten isByte).elim
    · rw [value, only written]
      unfold inodeByte
      congr 1
      exact Nat.add_sub_cancel_left _ _
  · intro other block offset hasDev inBlock outside
    obtain ⟨_, same⟩ | ⟨third, written, isByte, _⟩ :=
      settled.content other block offset hasDev inBlock
    · exact same
    · rw [only written] at isByte
      obtain ⟨sameDev, sameBlock⟩ := place.only isByte
      have lower := isByte.lower
      have upper := isByte.upper
      have apart := outside sameDev sameBlock
      unfold slotStart at apart
      omega

/-! ## `read_inode` -/

/-- Where no inode is written out, the content stays. -/
theorem Settled.sameContent {next : Kernel} {gain : Nat → Nat}
    (settled : Settled gain kernel next)
    (dirt : ∀ index, (next.inodes index).dirt = (kernel.inodes index).dirt) :
    Kernel.SameContent kernel next := by
  intro other block offset hasDev inBlock
  obtain ⟨_, same⟩ | ⟨third, written, _, _⟩ :=
    settled.content other block offset hasDev inBlock
  · exact same
  · have isClean := written.after
    rw [dirt, written.before] at isClean
    cases isClean

theorem LockedAt.sameContent {next : Kernel}
    (locked : LockedAt index kernel next) : Kernel.SameContent kernel next := by
  refine locked.settled.sameContent fun other => ?_
  rw [locked.inodes]
  unfold replaceInode
  split <;> rename_i here
  · rw [here]
  · rfl

/-- The end of `read_inode`. -/
theorem loadInode_wp {start got : Kernel} {block bh : Nat}
    (read : Read start dev block bh got) :
    (do
      let kernel ← Prog.get
      onInode index fun inode => inode.load (kernel.buffers bh).data
      brelse (some bh)
      unlockInode index : Sys Unit).unmarked.wp .any Io
      (fun _ final => Kernel.SameContent got final ∧
        final.inodes index =
          { (got.inodes index).load (got.buffers bh).data with lock := false })
      got := by
  have count := read.settled.count bh
  rw [one_same] at count
  have sound := setInode_sound read.sound index
    ((got.inodes index).load (got.buffers bh).data)
  apply wp_unmarked_get.mpr
  apply wp_unmarked_bind.mpr
  show (do
    brelse (some bh)
    unlockInode index : Sys Unit).unmarked.wp _ _ _ (got.setInode index
      ((got.inodes index).load (got.buffers bh).data))
  apply wp_unmarked_bind.mpr
  refine Run.wp_mono (Run.wp_unmarked (brelse_drops sound
    (show 0 < (got.buffers bh).count by omega) read.small)) ?_
  rintro _ _ ⟨waited, _, serviced, rfl⟩
  constructor
  · intro other where_ offset hasDev inBlock
    show (waited.setBuffer bh _).content other where_ offset = _
    rw [setCount_content _ other where_ offset hasDev inBlock,
      serviced.content other where_ offset hasDev inBlock]
    rfl
  · show (if index = index then { waited.inodes index with lock := false }
      else waited.inodes index) = _
    rw [if_pos rfl, serviced.inodes]
    show { (if index = index then _ else got.inodes index : Inode) with
      lock := false } = _
    rw [if_pos rfl]

theorem loadInode_overflowed (bh index : Nat) :
    Hoare .any Io (Overflowed bh) (do
      let kernel ← Prog.get
      onInode index fun inode => inode.load (kernel.buffers bh).data
      brelse (some bh)
      unlockInode index : Sys Unit).unmarked fun _ _ => False := by
  apply hoare_unmarked_read
  intro kernel
  refine hoare_unmarked_bind ⟨fun kernel overflowed => ?_⟩ fun _ =>
    hoare_unmarked_stuck (brelse_overflowed bh)
  exact ⟨overflowed.lists.congr (SameLists.elsewhere rfl rfl rfl rfl),
    overflowed.count⟩

theorem readInode_loads (inTable : index < nrInode) (fuel : Nat)
    (sound : Sound kernel) (small : ∀ bh, (kernel.buffers bh).count ≤ 255)
    (table : Readable kernel dev sb) (isDev : (kernel.inodes index).dev = dev)
    (isNum : 1 ≤ (kernel.inodes index).num)
    (inDevice : (kernel.inodes index).num ≤ (kernel.supers sb).ninodes) :
    (readInode fuel index).unmarked.wp .any Io
      (fun _ next => Kernel.SameContent kernel next ∧
        ∃ data : Block, (∀ offset, offset < 1024 → data offset =
            kernel.content dev (inodeBlock (kernel.supers sb)
              (kernel.inodes index).num) offset) ∧
          next.inodes index =
            { (kernel.inodes index).load data with lock := false }) kernel := by
  subst isDev
  unfold readInode
  apply wp_unmarked_bind.mpr
  refine Run.wp_mono (lockInode_locks sound index) ?_
  intro _ start startLocked
  apply wp_unmarked_get.mpr
  rw [startLocked.inode]
  apply wp_unmarked_bind.mpr
  refine Run.wp_mono (startLocked.getSuper table fuel) ?_
  rintro _ next ⟨rfl, locked⟩
  apply wp_unmarked_get.mpr
  dsimp only
  rw [locked.inode]
  apply wp_unmarked_bind.mpr
  rw [Prog.unmarked_unmarked]
  refine Run.wp_mono (locked.bread inTable fuel small table isNum inDevice) ?_
  rintro _ got ⟨bh, rfl, ⟨read, same⟩ | overflowed⟩
  · refine Run.wp_mono (loadInode_wp read) ?_
    rintro _ final ⟨sameContent, loaded⟩
    have gotContent : Kernel.SameContent kernel got := by
      intro other block offset hasDev inBlock
      have reads := read.settled.sameContent fun index => by rw [same]
      rw [reads other block offset hasDev inBlock,
        locked.sameContent other block offset hasDev inBlock]
    refine ⟨?_, (got.buffers bh).data, ?_, ?_⟩
    · intro other block offset hasDev inBlock
      rw [sameContent other block offset hasDev inBlock,
        gotContent other block offset hasDev inBlock]
    · intro offset inBlock
      rw [← read.content table.hasDev, locked.settled.supers]
      exact gotContent _ _ offset table.hasDev inBlock
    · rw [loaded, same, locked.inode]
      rfl
  · refine Run.wp_mono ((loadInode_overflowed bh index).run got overflowed) ?_
    exact fun _ _ never => never.elim

/-! ## There and back -/

/-- An inode is written, its slot of the table is cleared, and it is read in
again, by way of the same slot or another. -/
def reload (fuel index slot : Nat) : Sys Unit := do
  let kernel ← Prog.get
  let inode := kernel.inodes index
  writeInode fuel index
  onInode index fun _ => Inode.zero
  onInode slot fun _ =>
    { Inode.zero with dev := inode.dev, num := inode.num, count := 1 }
  readInode fuel slot

/-- Whatever the call leaves of the inode is what it was, and nothing changes
on the devices but the slot of the inode. -/
theorem reload_restores {final : Kernel} {fuel slot : Nat} (sound : Sound kernel)
    (small : ∀ bh, (kernel.buffers bh).count ≤ 255)
    (table : Readable kernel dev sb) (inTable : index < nrInode)
    (slotInTable : slot < nrInode) (isDev : (kernel.inodes index).dev = dev)
    (isDirty : (kernel.inodes index).dirt = true)
    (isNum : 1 ≤ (kernel.inodes index).num)
    (inDevice : (kernel.inodes index).num ≤ (kernel.supers sb).ninodes)
    (sized : (kernel.inodes index).Sized)
    (returns : (reload fuel index slot kernel).MayReturn True Io () final) :
    (final.inodes slot).SameHead (kernel.inodes index) ∧
      (∀ other block offset, other ≠ 0 → offset < 1024 →
        (other = dev → block = inodeBlock (kernel.supers sb)
            (kernel.inodes index).num →
          offset < slotStart (kernel.inodes index).num ∨
            slotStart (kernel.inodes index).num + 32 ≤ offset) →
        final.content other block offset = kernel.content other block offset) ∧
      (∀ num, 1 ≤ num → num ≤ (kernel.supers sb).ninodes →
        num ≠ (kernel.inodes index).num → ∀ offset, offset < 32 →
          final.content dev (inodeBlock (kernel.supers sb) num)
              (slotStart num + offset) =
            kernel.content dev (inodeBlock (kernel.supers sb) num)
              (slotStart num + offset)) ∧
      ∀ num, 1 ≤ num → num ≤ (kernel.supers sb).ninodes →
        2 + (kernel.supers sb).imapBlocks + (kernel.supers sb).zmapBlocks ≤
            inodeBlock (kernel.supers sb) num ∧
          inodeBlock (kernel.supers sb) num ≤
            2 + (kernel.supers sb).imapBlocks + (kernel.supers sb).zmapBlocks +
              ((kernel.supers sb).ninodes + 31) / 32 - 1 := by
  subst isDev
  have goes : (reload fuel index slot kernel).unmarked.wp .any Io
      (fun _ final => (final.inodes slot).SameHead (kernel.inodes index) ∧
        ∃ written : Kernel, Settled 0 kernel written ∧
          written.inodes = replaceInode kernel.inodes index
            { kernel.inodes index with dirt := false, lock := false } ∧
          Kernel.SameContent written final) := by
    show (reload fuel index slot).unmarked.wp .any Io _ kernel
    unfold reload
    apply wp_unmarked_get.mpr
    apply wp_unmarked_bind.mpr
    refine Run.wp_mono (writeInode_stores inTable fuel sound small table rfl
      isDirty isNum inDevice) ?_
    rintro _ written ⟨writtenSound, settled, inodes⟩
    obtain ⟨stores, _⟩ := written_content inTable settled table rfl isDirty inodes
    apply wp_unmarked_bind.mpr
    apply wp_unmarked_bind.mpr
    obtain ⟨prepared, isPrepared⟩ : ∃ prepared, prepared =
        (written.setInode index Inode.zero).setInode slot
          { Inode.zero with
            dev := (kernel.inodes index).dev
            num := (kernel.inodes index).num
            count := 1 } := ⟨_, rfl⟩
    show (readInode fuel slot).unmarked.wp _ _ _ ((written.setInode index
      Inode.zero).setInode slot _)
    rw [← isPrepared]
    have preparedSound : Sound prepared := by
      rw [isPrepared]
      exact setInode_sound (setInode_sound writtenSound _ _) _ _
    have preparedTable : Readable prepared (kernel.inodes index).dev sb := by
      have writtenTable := table.settled settled
      rw [isPrepared]
      exact ⟨table.hasDev, writtenTable.found, writtenTable.serves,
        writtenTable.notBlind⟩
    have ownInode : prepared.inodes slot =
        { Inode.zero with
          dev := (kernel.inodes index).dev
          num := (kernel.inodes index).num
          count := 1 } := by
      rw [isPrepared]
      exact if_pos rfl
    have sameContent : prepared.content = written.content := by
      rw [isPrepared]
      rfl
    have sameSupers : prepared.supers = kernel.supers := by
      rw [isPrepared]
      exact settled.supers
    have counts (bh : Nat) : (prepared.buffers bh).count ≤ 255 := by
      rw [isPrepared]
      exact (settled.count bh).symm ▸ small bh
    have ownNum : (prepared.inodes slot).num = (kernel.inodes index).num := by
      rw [ownInode]
    have loads := @readInode_loads prepared slot (kernel.inodes index).dev sb
      slotInTable fuel preparedSound counts preparedTable (by rw [ownInode])
      (ownNum ▸ isNum) (ownNum ▸ sameSupers ▸ inDevice)
    refine Run.wp_mono loads ?_
    rintro _ final ⟨kept, data, agrees, loaded⟩
    refine ⟨?_, written, settled, inodes, ?_⟩
    · have ownStores : StoresInode data (kernel.inodes index) := by
        intro offset inSlot
        have inBlock := slotStart_le (kernel.inodes index).num
        rw [agrees _ (by omega), ownNum, sameSupers, sameContent]
        exact stores offset inSlot
      have sameHead := ownStores.load sized ownNum
      rw [loaded]
      exact ⟨sameHead.mode, sameHead.uid, sameHead.size, sameHead.mtime,
        sameHead.gid, sameHead.nlinks, sameHead.zone⟩
    · rw [Kernel.SameContent, ← sameContent]
      exact kept
  obtain ⟨sameHead, written, settled, inodes, sameContent⟩ := returns.meets goes
  obtain ⟨_, outside⟩ := written_content inTable settled table rfl isDirty inodes
  have others (other block offset : Nat) (hasDev : other ≠ 0)
      (inBlock : offset < 1024)
      (apart : other = (kernel.inodes index).dev →
        block = inodeBlock (kernel.supers sb) (kernel.inodes index).num →
          offset < slotStart (kernel.inodes index).num ∨
            slotStart (kernel.inodes index).num + 32 ≤ offset) :
      final.content other block offset = kernel.content other block offset :=
    (sameContent other block offset hasDev inBlock).trans
      (outside other block offset hasDev inBlock apart)
  refine ⟨sameHead, others, ?_, fun num => inodeBlock_bounds⟩
  intro num isOther inRange different offset inSlot
  have inBlock := slotStart_le num
  refine others _ _ _ table.hasDev (by omega) fun _ sameBlock => ?_
  exact slotStart_apart isNum isOther different sameBlock inSlot

end Calls

/-- A ram disk with 64 inodes, the 33rd of them in core and changed. -/
def inodeDisk : Kernel :=
  bufferInit 2 idleKernel.buffers
    { idleKernel with
      driver := fun major => if major = 1 then .ram 4096 else .absent
      supers := fun index =>
        if index = 0 then
          { idleKernel.supers 0 with
            dev := 257
            ninodes := 64
            imapBlocks := 0
            zmapBlocks := 0 }
        else idleKernel.supers index
      inodes := fun index =>
        if index = 0 then
          { Inode.zero with
            mode := 0x81A4
            size := 100000
            nlinks := 1
            zone := fun entry => 300 + entry
            dev := 257
            num := 33
            count := 1
            dirt := true }
        else idleKernel.inodes index }

theorem inodeDisk_serves {num : Nat} (inTable : num ≤ 64) :
    Serves inodeDisk 257 (inodeBlock (inodeDisk.supers 0) num) := by
  have isBlock : inodeBlock (inodeDisk.supers 0) num =
      2 + 0 + 0 + (num - 1) / 32 := rfl
  rw [isBlock]
  refine ⟨by omega, by decide, by decide, ?_⟩
  omega

theorem inodeDisk_sound : Sound inodeDisk := by
  refine (bufferInit_begins (by decide) idleKernel.buffers rfl (fun _ => rfl)
    (fun _ => rfl) ?_).sound
  intro index _ isDirty _
  by_cases isFirst : index = 0
  · subst isFirst
    exact ⟨0, rfl, inodeDisk_serves (by decide)⟩
  · have isClean : (if index = 0 then _ else idleKernel.inodes index : Inode).dirt =
      true := isDirty
    rw [if_neg isFirst] at isClean
    cases isClean

theorem inodeDisk_readable : Readable inodeDisk 257 0 where
  hasDev := by decide
  found := rfl
  serves := fun _ _ inTable => inodeDisk_serves inTable
  notBlind := by
    rintro num _ _ ⟨bh, _, _, isDirty, _⟩
    cases isDirty

theorem reload_restores_other :
    ∃ final, reload 5 0 1 inodeDisk = .done () final ∧
      (final.inodes 1).SameHead (inodeDisk.inodes 0) := by
  obtain ⟨final, runs⟩ : ∃ final, reload 5 0 1 inodeDisk = .done () final :=
    ⟨_, rfl⟩
  have sized : (inodeDisk.inodes 0).Sized := by
    refine ⟨by decide, by decide, by decide, by decide, by decide, by decide, ?_⟩
    intro index inArray
    show 300 + index < 65536
    omega
  have restores := reload_restores inodeDisk_sound (fun _ => Nat.zero_le _)
    inodeDisk_readable (by decide) (by decide) rfl rfl (by decide) (by decide)
    sized (runs ▸ ⟨rfl, rfl⟩ : (reload 5 0 1 inodeDisk).MayReturn True Io () final)
  exact ⟨final, runs, restores.1⟩

end Linux011.Fs

import Linux011.Fs.CacheSpecs

/-!
# A buffer for a new block

At the end of `getblk` an unused buffer leaves its block for another one.
What it held is on the device, so no content changes.
-/

namespace Linux011.Fs

open Coop Prog

section Claimed

variable {kernel : Kernel} {bh dev block : Nat}

/-- What the links leave of a buffer. -/
structure SameFields (left right : Buffer) : Prop where
  data : left.data = right.data
  block : left.block = right.block
  dev : left.dev = right.dev
  uptodate : left.uptodate = right.uptodate
  dirt : left.dirt = right.dirt
  count : left.count = right.count
  lock : left.lock = right.lock

theorem Buffer.bare_fields {left right : Buffer}
    (same : left.bare = right.bare) : SameFields left right := by
  cases left
  cases right
  simp only [Buffer.bare, Buffer.mk.injEq, and_true] at same
  obtain ⟨data, block, dev, uptodate, dirt, count, lock⟩ := same
  exact ⟨data, block, dev, uptodate, dirt, count, lock⟩

/-- The other buffers are left alone, but for their links. -/
theorem claim_other {other : Nat} (different : other ≠ bh) :
    SameFields ((claim bh dev block kernel).buffers other)
      (kernel.buffers other) := by
  apply Buffer.bare_fields
  rw [Kernel.bare_buffer (claim_bare bh dev block kernel) other,
    Kernel.setBuffer_other different]

theorem claim_own : SameFields ((claim bh dev block kernel).buffers bh)
    ((kernel.buffers bh).claimed dev block) := by
  apply Buffer.bare_fields
  rw [Kernel.bare_buffer (claim_bare bh dev block kernel) bh,
    Kernel.setBuffer_same]

/-- What is left alone beside the buffers and their lists. -/
structure SameBeside (left right : Kernel) : Prop where
  requests : left.requests = right.requests
  queue : left.queue = right.queue
  driver : left.driver = right.driver
  disk : left.disk = right.disk
  inodes : left.inodes = right.inodes
  lastInode : left.lastInode = right.lastInode
  supers : left.supers = right.supers
  now : left.now = right.now

theorem claim_beside : SameBeside (claim bh dev block kernel) kernel := by
  have bares := claim_bare bh dev block kernel
  generalize claim bh dev block kernel = next at bares
  cases next
  simp only [Kernel.bare, Kernel.setBuffer, Kernel.mk.injEq] at bares
  obtain ⟨_, _, _, _, requests, queue, driver, disk, inodes, lastInode, supers,
    now⟩ := bares
  exact ⟨requests, queue, driver, disk, inodes, lastInode, supers, now⟩

theorem claim_pending (other : Nat) (rw : Rw) :
    (claim bh dev block kernel).Pending other rw ↔ kernel.Pending other rw := by
  unfold Kernel.Pending
  rw [claim_beside.requests]

theorem claim_live {other : Nat} (different : other ≠ bh) :
    (claim bh dev block kernel).Live other ↔ kernel.Live other := by
  have same := @claim_other kernel bh dev block other different
  unfold Kernel.Live
  rw [claim_pending, same.uptodate, same.dirt]

theorem claim_value {other : Nat} (different : other ≠ bh) :
    (claim bh dev block kernel).value other = kernel.value other := by
  have same := @claim_other kernel bh dev block other different
  unfold Kernel.value Kernel.stored
  simp only [claim_live different, claim_beside.disk, same.data, same.dev,
    same.block]

theorem Kernel.holder_eq_none
    (nobody : ∀ bh, bh < kernel.nrBuffers → (kernel.buffers bh).dev = dev →
      (kernel.buffers bh).block ≠ block) :
    kernel.holder dev block = none := by
  refine List.find?_eq_none.mpr fun other inRange isHolder => ?_
  rw [decide_eq_true_eq] at isHolder
  exact nobody other (List.mem_range.mp inRange) isHolder.1 isHolder.2

/-- A clean buffer without a request holds what is on the device, if it holds
anything. -/
theorem Sound.idle_value (sound : Sound kernel) (isBuffer : bh < kernel.nrBuffers)
    (hasDev : (kernel.buffers bh).dev ≠ 0)
    (isClean : (kernel.buffers bh).dirt = false)
    (untouched : kernel.Untouched bh) {offset : Nat} (inBlock : offset < 1024) :
    kernel.value bh offset =
      kernel.stored (kernel.buffers bh).dev (kernel.buffers bh).block offset := by
  have notPending : ¬kernel.Pending bh .write := by
    rintro ⟨slot, inRange, busy, isOwn, _⟩
    exact untouched slot inRange busy isOwn
  unfold Kernel.value
  split <;> rename_i live
  · rcases live with isFresh | isDirty | pending
    · exact sound.clean bh isBuffer hasDev isFresh isClean notPending offset
        inBlock
    · rw [isClean] at isDirty
      cases isDirty
    · exact (notPending pending).elim
  · rfl

/-- What a buffer must be like to be claimed. -/
structure Claimable (kernel : Kernel) (bh dev block : Nat) : Prop where
  sound : Sound kernel
  isBuffer : bh < kernel.nrBuffers
  unused : (kernel.buffers bh).count = 0
  isClean : (kernel.buffers bh).dirt = false
  unlocked : (kernel.buffers bh).lock = false
  hasDev : dev ≠ 0
  fresh : ∀ other, other < kernel.nrBuffers →
    (kernel.buffers other).dev = dev → (kernel.buffers other).block ≠ block

namespace Claimable

theorem lists (claimable : Claimable kernel bh dev block) :
    Lists (claim bh dev block kernel) :=
  claim_lists claimable.sound.lists claimable.isBuffer fun _ => claimable.fresh

theorem untouched (claimable : Claimable kernel bh dev block) :
    kernel.Untouched bh :=
  claimable.sound.untouched claimable.unlocked

theorem notLive (claimable : Claimable kernel bh dev block) :
    ¬(claim bh dev block kernel).Live bh := by
  have own := @claim_own kernel bh dev block
  rintro (isFresh | isDirty | pending)
  · rw [own.uptodate] at isFresh
    cases isFresh
  · rw [own.dirt] at isDirty
    cases isDirty
  · obtain ⟨slot, inRange, busy, isOwn, _⟩ := (claim_pending bh .write).mp pending
    exact claimable.untouched slot inRange busy isOwn

theorem content (claimable : Claimable kernel bh dev block) :
    Kernel.SameContent kernel (claim bh dev block kernel) := by
  intro other where_ offset otherDev inBlock
  have stored : (claim bh dev block kernel).stored other where_ =
      kernel.stored other where_ := by
    unfold Kernel.stored
    rw [claim_beside.disk]
  by_cases isNew : other = dev ∧ where_ = block
  · -- the block had no buffer, and now has one without data
    obtain ⟨rfl, rfl⟩ := isNew
    have before : kernel.holder other where_ = none :=
      Kernel.holder_eq_none claimable.fresh
    have after : (claim bh other where_ kernel).content other where_ =
        (claim bh other where_ kernel).value bh := by
      apply Kernel.content_of_cached claimable.lists otherDev
      · rw [claim_nrBuffers]
        exact claimable.isBuffer
      · rw [claim_dev, if_pos rfl]
      · rw [claim_block, if_pos rfl]
    rw [after]
    unfold Kernel.content Kernel.value
    rw [before, if_neg claimable.notLive, claim_dev, claim_block, if_pos rfl,
      if_pos rfl, stored]
  · cases isHolder : kernel.holder other where_ with
    | none =>
        have after : (claim bh dev block kernel).holder other where_ = none := by
          apply Kernel.holder_eq_none
          intro third isBuffer isDev isBlock
          rw [claim_nrBuffers] at isBuffer
          rw [claim_dev] at isDev
          rw [claim_block] at isBlock
          split at isDev <;> rename_i isOwn
          · rw [if_pos isOwn] at isBlock
            exact isNew ⟨isDev.symm, isBlock.symm⟩
          · rw [if_neg isOwn] at isBlock
            exact Kernel.holder_none isHolder isBuffer isDev isBlock
        unfold Kernel.content
        rw [isHolder, after, stored]
    | some holder =>
        obtain ⟨isBuffer, isDev, isBlock⟩ := Kernel.holder_some isHolder
        by_cases isOwn : holder = bh
        · -- the block that the buffer leaves
          subst isOwn
          have after : (claim holder dev block kernel).holder other where_ =
              none := by
            apply Kernel.holder_eq_none
            intro third thirdBuffer thirdDev thirdBlock
            rw [claim_nrBuffers] at thirdBuffer
            rw [claim_dev] at thirdDev
            rw [claim_block] at thirdBlock
            split at thirdDev <;> rename_i isOwn
            · rw [if_pos isOwn] at thirdBlock
              exact isNew ⟨thirdDev.symm, thirdBlock.symm⟩
            · rw [if_neg isOwn] at thirdBlock
              apply isOwn
              apply claimable.sound.lists.unique third holder thirdBuffer
                isBuffer (thirdDev ▸ otherDev)
              · exact thirdDev.trans isDev.symm
              · exact thirdBlock.trans isBlock.symm
          unfold Kernel.content
          rw [isHolder, after, stored]
          dsimp only
          rw [claimable.sound.idle_value isBuffer (isDev ▸ otherDev)
            claimable.isClean claimable.untouched inBlock, isDev, isBlock]
        · have after : (claim bh dev block kernel).content other where_ =
              (claim bh dev block kernel).value holder := by
            apply Kernel.content_of_cached claimable.lists otherDev
            · rw [claim_nrBuffers]
              exact isBuffer
            · rw [claim_dev, if_neg isOwn]
              exact isDev
            · rw [claim_block, if_neg isOwn]
              exact isBlock
          rw [after, claim_value isOwn]
          unfold Kernel.content
          rw [isHolder]

theorem stays (claimable : Claimable kernel bh dev block) :
    Sound (claim bh dev block kernel) := by
  have old := claimable.sound
  have beside := @claim_beside kernel bh dev block
  have size := @claim_nrBuffers bh dev block kernel
  refine ⟨claimable.lists, ?_, ?_, ?_, ?_, ?_, ?_⟩
  case refine_1 => rw [beside.driver, old.noDevice]
  case refine_2 =>
    intro slot other inRange isFor
    rw [beside.requests] at isFor
    have requested := old.requested slot other inRange isFor
    have busy : (kernel.requests slot).dev ≠ none := by simp [isFor]
    have different := claimable.untouched slot inRange busy
    have same := @claim_other kernel bh dev block _ different
    apply requested.change (by rw [beside.requests]) size beside.driver
      same.dev same.block
    · rw [same.lock]
      exact requested.locked
    · rw [same.uptodate, same.dirt]
      exact requested.command
  case refine_3 =>
    rw [beside.requests]
    exact old.apart
  case refine_4 =>
    rw [beside.requests, beside.queue]
    exact old.queues
  case refine_5 =>
    intro other isBuffer hasDev isFresh isClean notPending
    rw [claim_pending] at notPending
    rw [size] at isBuffer
    by_cases isOwn : other = bh
    · rw [isOwn, claim_own.uptodate] at isFresh
      cases isFresh
    · have same := @claim_other kernel bh dev block other isOwn
      rw [same.dev] at hasDev
      rw [same.uptodate] at isFresh
      rw [same.dirt] at isClean
      unfold Kernel.stored
      rw [same.data, same.dev, same.block, beside.disk]
      exact old.clean other isBuffer hasDev isFresh isClean notPending
  case refine_6 =>
    intro other isBuffer isDirty
    rw [size] at isBuffer
    by_cases isOwn : other = bh
    · rw [isOwn, claim_own.dirt] at isDirty
      cases isDirty
    · have same := @claim_other kernel bh dev block other isOwn
      rw [same.dirt] at isDirty
      rw [same.dev, same.block]
      obtain ⟨hasDev, serves⟩ := old.servable other isBuffer isDirty
      exact ⟨hasDev, serves.congr beside.driver⟩

theorem settled (claimable : Claimable kernel bh dev block) :
    Settled (one bh) kernel (claim bh dev block kernel) := by
  have beside := @claim_beside kernel bh dev block
  have size := @claim_nrBuffers bh dev block kernel
  refine ⟨size, ?_, ?_, beside.lastInode, beside.supers, beside.driver,
    beside.now, ?_, ?_, ?_⟩
  · intro other where_ offset otherDev inBlock
    exact .same beside.inodes
      (claimable.content other where_ offset otherDev inBlock)
  · intro index
    rw [beside.inodes]
    exact ⟨_, _, rfl, fun isDirty => isDirty⟩
  · intro other
    by_cases isOwn : other = bh
    · rw [isOwn, claim_own.count, claimable.unused, one_same]
      rfl
    · rw [(claim_other isOwn).count, one_other isOwn, Nat.add_zero]
  · intro other isHeld
    have different : other ≠ bh := by
      rintro rfl
      rw [claimable.unused] at isHeld
      cases isHeld
    have same := @claim_other kernel bh dev block other different
    refine ⟨same.dev, same.block, fun isFresh => ?_, ?_⟩
    · rw [same.uptodate]
      exact isFresh
    · exact (claim_live different).mpr
  · rintro other where_ ⟨third, isBuffer, ⟨isDev, isBlock⟩, isDirty, notFresh⟩
    by_cases isOwn : third = bh
    · rw [isOwn, claim_own.dirt] at isDirty
      cases isDirty
    · have same := @claim_other kernel bh dev block third isOwn
      rw [size] at isBuffer
      rw [same.dev] at isDev
      rw [same.block] at isBlock
      rw [same.dirt] at isDirty
      rw [same.uptodate] at notFresh
      exact ⟨third, isBuffer, ⟨isDev, isBlock⟩, isDirty, notFresh⟩

theorem got (claimable : Claimable kernel bh dev block) :
    Got kernel dev block bh (claim bh dev block kernel) where
  sound := claimable.stays
  settled := claimable.settled
  isBuffer := by
    rw [claim_nrBuffers]
    exact claimable.isBuffer
  isFor := by
    constructor
    · rw [claim_dev, if_pos rfl]
    · rw [claim_block, if_pos rfl]
  unlocked := by
    rw [claim_own.lock]
    exact claimable.unlocked
  small := by
    rw [claim_own.count]
    exact Nat.le_of_ble_eq_true rfl

end Claimable

end Claimed

/-! ## `sync_dev` -/

section Sync

variable {fate : Fate} {kernel : Kernel} {getblk : Nat → Nat → Sys Nat}

/-- A buffer is waited for, and then written out if it is to be. -/
theorem writeOut_wp (sound : Sound kernel) {bh : Nat}
    (isBuffer : bh < kernel.nrBuffers) (wanted : Buffer → Prop)
    [DecidablePred wanted]
    (isDirty : ∀ buffer, wanted buffer → buffer.dirt = true) :
    (do
      waitOnBuffer bh
      let kernel ← Prog.get
      if wanted (kernel.buffers bh) then llRwBlock .write bh
      else pure () : Sys Unit).wp fate Io
      (fun _ next => Sound next ∧ Serviced kernel next) kernel := by
  rw [wp_bind]
  apply wp_mono (waitOnBuffer_wp sound)
  rintro _ next ⟨nextSound, serviced, _, _⟩
  rw [wp_bind, wp_get]
  split <;> rename_i isWanted
  · have inNext : bh < next.nrBuffers := by
      rw [serviced.same.nrBuffers]
      exact isBuffer
    obtain ⟨hasDev, serves⟩ :=
      nextSound.servable bh inNext (isDirty _ isWanted)
    apply wp_mono (llRwBlock_wp nextSound
      ⟨inNext, hasDev, serves, .inl rfl⟩ (by decide))
    rintro _ final ⟨finalSound, finalServiced, _⟩
    exact ⟨finalSound, serviced.trans finalServiced⟩
  · exact ⟨nextSound, serviced⟩

/-- A buffer that is looked at on the way is written out if it is dirty. -/
theorem syncPass_wp (sound : Sound kernel) (dev : Nat) {bh : Nat}
    (isBuffer : bh < kernel.nrBuffers) :
    (syncPass dev bh).wp fate Io
      (fun _ next => Sound next ∧ Serviced kernel next) kernel := by
  unfold syncPass
  rw [wp_bind, wp_get]
  split
  · exact ⟨sound, Serviced.refl kernel⟩
  · exact writeOut_wp sound isBuffer
      (fun buffer => buffer.dev = dev ∧ buffer.dirt = true)
      fun _ isDirty => isDirty.2

theorem syncPasses_wp (sound : Sound kernel) (dev count : Nat)
    (inBuffers : count ≤ kernel.nrBuffers) :
    (Prog.upTo (syncPass dev) count).wp fate Io
      (fun _ next => Sound next ∧ Serviced kernel next) kernel := by
  apply wp_loop
  · exact ⟨sound, Serviced.refl kernel⟩
  · rintro bh inRange state ⟨stateSound, serviced⟩
    apply wp_mono (syncPass_wp stateSound dev
      (by rw [serviced.same.nrBuffers]; omega))
    rintro _ next ⟨nextSound, nextServiced⟩
    exact ⟨nextSound, serviced.trans nextServiced⟩

theorem syncInodesWith_wp (sound : Sound kernel) (ready : Ready fate kernel)
    (gets : Getter fate getblk) (fuel : Nat) (spent : fate.spent) :
    (syncInodesWith getblk fuel).wp fate Io
      (fun _ next => Sound next ∧ Settled 0 kernel next) kernel := by
  unfold syncInodesWith
  generalize isCount : nrInode = count
  apply wp_loop
  · exact ⟨sound, Settled.refl kernel⟩
  · rintro index inRange state ⟨stateSound, settled⟩
    unfold waitOnInode
    rw [wp_bind]
    apply wp_wait stateSound
    intro woken _ wokenSound serviced _
    have wokenSettled := settled.after serviced.settled
    rw [wp_bind, wp_get]
    split
    · apply wp_mono (writeInodeWith_wp wokenSound (ready.later wokenSettled)
        gets (isCount.symm ▸ inRange) spent)
      rintro _ next ⟨nextSound, nextSettled⟩
      exact ⟨nextSound, wokenSettled.after nextSettled⟩
    · exact ⟨wokenSound, wokenSettled⟩

-- the loop over the inode table is not to be looked into
attribute [local irreducible] syncInodesWith

theorem syncDevWith_wp (sound : Sound kernel) (ready : Ready fate kernel)
    (gets : Getter fate getblk) (fuel dev : Nat) (spent : fate.spent) :
    (syncDevWith getblk fuel dev).wp fate Io
      (fun _ next => Sound next ∧ Settled 0 kernel next) kernel := by
  unfold syncDevWith
  rw [wp_bind, wp_get, wp_bind]
  apply wp_mono (syncPasses_wp sound dev _ (Nat.le_refl _))
  rintro _ first ⟨firstSound, firstServiced⟩
  have firstSettled := firstServiced.settled
  rw [wp_bind]
  apply wp_mono (syncInodesWith_wp firstSound (ready.later firstSettled) gets
    fuel spent)
  rintro _ second ⟨secondSound, secondSettled⟩
  have settled := firstSettled.after secondSettled
  apply wp_mono (syncPasses_wp secondSound dev _ (Nat.le_of_eq settled.size.symm))
  rintro _ next ⟨nextSound, serviced⟩
  exact ⟨nextSound, settled.after serviced.settled⟩

/-- What the loop of `getblk` over a dirty buffer ends with. -/
theorem cleanWith_wp (sound : Sound kernel) (ready : Ready fate kernel)
    (gets : Getter fate getblk) (fuel : Nat) {bh rounds : Nat}
    (unlocked : (kernel.buffers bh).lock = false) (spent : fate.spent) :
    (cleanWith getblk fuel bh rounds).wp fate Io
      (fun clean next => Sound next ∧ Settled 0 kernel next ∧
        (clean = true → (next.buffers bh).dirt = false ∧
          (next.buffers bh).lock = false)) kernel := by
  induction rounds generalizing kernel with
  | zero => exact spent
  | succ rounds induction =>
      unfold cleanWith
      rw [wp_bind, wp_get]
      split <;> rename_i isClean
      · exact ⟨sound, Settled.refl kernel, fun _ => ⟨isClean, unlocked⟩⟩
      · rw [wp_bind]
        apply wp_mono (syncDevWith_wp sound ready gets fuel _ spent)
        rintro _ synced ⟨syncedSound, syncedSettled⟩
        rw [wp_bind]
        apply wp_mono (waitOnBuffer_wp syncedSound)
        rintro _ next ⟨nextSound, serviced, _, nextUnlocked⟩
        have settled := syncedSettled.after serviced.settled
        rw [wp_bind, wp_get]
        split
        · exact ⟨nextSound, settled, fun isTrue => by cases isTrue⟩
        · apply wp_mono (induction nextSound (ready.later settled) nextUnlocked)
          rintro clean final ⟨finalSound, finalSettled, whenClean⟩
          exact ⟨finalSound, settled.after finalSettled, whenClean⟩

end Sync

/-! ## `getblk` -/

section Getblk

variable {fate : Fate} {kernel : Kernel} {dev block : Nat}

theorem Room.later {next : Kernel} (room : Room fate kernel dev block)
    (settled : Settled 0 kernel next) : Room fate next dev block := by
  refine room.imp_right fun small bh isBuffer isFor => ?_
  have count := settled.count bh
  rw [Pi.zero_apply, Nat.add_zero] at count
  rw [count]
  by_contra isFull
  -- a buffer with references is for the block it was for
  obtain ⟨sameDev, sameBlock, _⟩ := settled.held bh (by omega)
  have wasFor : IsFor dev block bh kernel :=
    ⟨sameDev.symm.trans isFor.1, sameBlock.symm.trans isFor.2⟩
  exact isFull (small bh (settled.size ▸ isBuffer) wasFor)

/-- The end of `getblk`. -/
theorem claimBuffer_wp {bh : Nat} (claimable : Claimable kernel bh dev block) :
    (do
      claimBuffer bh dev block
      return bh : Sys Nat).wp fate Io
      (fun bh next => Got kernel dev block bh next) kernel := by
  rw [wp_bind]
  unfold Prog.wp
  rw [claimBuffer_eq claimable.sound.lists claimable.isBuffer]
  exact claimable.got

theorem getblk_wp (spent : fate.spent) (fuel : Nat) :
    Getter fate (getblk fuel) := by
  induction fuel with
  | zero => exact fun _ _ _ _ _ _ _ => spent
  | succ fuel induction =>
      intro kernel dev block sound ready room hasDev
      -- from a later state it is as well to start again
      have again {next : Kernel} (nextSound : Sound next)
          (settled : Settled 0 kernel next) :
          (getblk fuel dev block).wp fate Io
            (fun bh final => Got kernel dev block bh final) next := by
        apply wp_mono (induction next dev block nextSound (ready.later settled)
          (room.later settled) hasDev)
        exact fun _ _ got => got.earlier settled
      unfold getblk
      rw [wp_bind]
      apply wp_mono (getHashTable_wp sound dev block (.inl spent) room)
      rintro (_ | bh) next outcome
      · obtain ⟨rfl, missing⟩ := outcome
        dsimp only
        rw [wp_bind, wp_get]
        split <;> rename_i scan
        · intro woken io _
          obtain ⟨wokenSound, serviced⟩ := io.spec sound
          exact again wokenSound serviced.settled
        · rename_i bh
          obtain ⟨isBuffer, unused⟩ := scanFree_some sound.lists scan
          rw [wp_bind]
          apply wp_mono (waitOnBuffer_wp sound)
          rintro _ waited ⟨waitedSound, serviced, _, unlocked⟩
          rw [wp_bind, wp_get]
          split
          · exact again waitedSound serviced.settled
          · rw [wp_bind]
            apply wp_mono (cleanWith_wp waitedSound
              (ready.later serviced.settled) induction fuel unlocked spent)
            rintro clean final ⟨finalSound, finalSettled, whenClean⟩
            have settled := serviced.settled.after finalSettled
            split <;> rename_i isClean
            · exact again finalSound settled
            · obtain ⟨notDirty, finalUnlocked⟩ := whenClean (by simpa using isClean)
              rw [wp_bind, wp_get]
              split <;> rename_i search
              · exact again finalSound settled
              · have count := settled.count bh
                have small := ready.small bh
                rw [Pi.zero_apply, Nat.add_zero] at count
                have claimable : Claimable final bh dev block :=
                  { sound := finalSound
                    isBuffer := settled.size ▸ isBuffer
                    unused := by
                      unfold Buffer.countByte at unused
                      omega
                    isClean := notDirty
                    unlocked := finalUnlocked
                    hasDev := hasDev
                    fresh := fun other otherBuffer sameDev =>
                      findBuffer_none finalSound.lists search hasDev
                        otherBuffer sameDev }
                apply wp_mono (claimBuffer_wp claimable)
                exact fun _ _ got => got.earlier settled
      · exact outcome

end Getblk

end Linux011.Fs

import Linux011.Fs.CacheTasks
import Linux011.Fs.CacheFrame
import Linux011.Fs.Completion

/-!
# The references of one call

What a call holds is a list of buffers and a list of inodes, one entry for
each reference; the counts are those before the call and the entries.  The
functions of the cache leave their caller with what it held, but for the
buffer they return, whatever the devices do.
-/

namespace Linux011.Fs

open Coop Prog

/-- Nothing happens to the counts, nor to the lists of the buffers. -/
structure Undisturbed (kernel next : Kernel) : Prop where
  quiet : Quiet kernel next
  inode : ∀ slot, (next.inodes slot).count = (kernel.inodes slot).count

/-- What may happen while the task sleeps and no other runs. -/
structure Interrupts (kernel next : Kernel) : Prop where
  quiet : Quiet kernel next
  inodes : next.inodes = kernel.inodes
  supers : next.supers = kernel.supers

theorem Interrupts.undisturbed {kernel next : Kernel}
    (calm : Interrupts kernel next) : Undisturbed kernel next where
  quiet := calm.quiet
  inode := by
    intro slot
    rw [calm.inodes]

theorem complete_table (major : Nat) (success : Bool) (kernel : Kernel) :
    (complete major success kernel).inodes = kernel.inodes ∧
      (complete major success kernel).supers = kernel.supers := by
  have ends (uptodate : Bool) (kernel : Kernel) :
      (endRequest major uptodate kernel).inodes = kernel.inodes ∧
        (endRequest major uptodate kernel).supers = kernel.supers := by
    unfold endRequest
    split <;> exact ⟨rfl, rfl⟩
  have moves (slot : Nat) :
      (transfer slot kernel).inodes = kernel.inodes ∧
        (transfer slot kernel).supers = kernel.supers := by
    unfold transfer
    dsimp only
    split <;> exact ⟨rfl, rfl⟩
  unfold complete
  split
  · exact ⟨rfl, rfl⟩
  · rename_i slot _ _
    split
    · exact ⟨(ends true _).1.trans (moves slot).1,
        (ends true _).2.trans (moves slot).2⟩
    · exact ends false kernel

/-- The devices do no more than the calls are proof against. -/
theorem Device.interrupts {kernel next : Kernel} (acts : Device kernel next) :
    Interrupts kernel next := by
  cases acts with
  | complete major success =>
      obtain ⟨inodes, supers⟩ := complete_table major success kernel
      exact ⟨complete_quiet major success kernel, inodes, supers⟩
  | unlock bh uptodate => exact ⟨Quiet.setBuffer, rfl, rfl⟩

theorem Io.interrupts {kernel next : Kernel} (io : Io kernel next) :
    Interrupts kernel next := by
  induction io with
  | refl => exact ⟨Quiet.refl kernel, rfl, rfl⟩
  | tail _ completes induction =>
      obtain ⟨major, rfl⟩ := completes
      obtain ⟨inodes, supers⟩ := complete_table major true _
      exact ⟨induction.quiet.trans (complete_quiet major true _),
        inodes.trans induction.inodes, supers.trans induction.supers⟩

/-- The counters have room for the references of one more call. -/
structure HasRoom (kernel : Kernel) : Prop where
  buffer : ∀ bh, (kernel.buffers bh).count + 8 ≤ 255
  inode : ∀ slot, (kernel.inodes slot).count + 8 ≤ 65535

/-- The counts are those of `base` and what is held since. -/
structure Keeping (base : Kernel) (bufs inodes : List Nat) (kernel : Kernel) :
    Prop where
  size : kernel.nrBuffers = base.nrBuffers
  lists : Lists kernel
  buffer : ∀ bh, (kernel.buffers bh).count =
    (base.buffers bh).count + bufs.count bh
  inode : ∀ slot, (kernel.inodes slot).count =
    (base.inodes slot).count + inodes.count slot

/-- Of the ways to stop, only the giving back of what is free counts. -/
structure Releasing (fate : Fate) : Prop where
  spent : fate.spent
  panic : ∀ message, message ≠ "Trying to free free buffer" →
    message ≠ "iput: trying to free free inode" → fate.panic message

theorem Releasing.uncrossed {fate : Fate} (releasing : Releasing fate) :
    Releasing { fate with crossed := False } :=
  ⟨releasing.spent, releasing.panic⟩

section References

variable {base : Kernel} {bufs inodes : List Nat} {fate : Fate} {α : Type}

namespace Keeping

theorem begin {kernel : Kernel} (lists : Lists kernel) :
    Keeping kernel [] [] kernel :=
  ⟨rfl, lists, fun _ => rfl, fun _ => rfl⟩

theorem keep {kernel next : Kernel} (holding : Keeping base bufs inodes kernel)
    (undisturbed : Undisturbed kernel next) :
    Keeping base bufs inodes next where
  size := undisturbed.quiet.same.nrBuffers.trans holding.size
  lists := holding.lists.congr undisturbed.quiet.same
  buffer := fun bh => (undisturbed.quiet.count bh).trans (holding.buffer bh)
  inode := fun slot => (undisturbed.inode slot).trans (holding.inode slot)

theorem reorder {kernel : Kernel} {others slots : List Nat}
    (holding : Keeping base bufs inodes kernel) (sameBufs : bufs.Perm others)
    (sameInodes : inodes.Perm slots) : Keeping base others slots kernel where
  size := holding.size
  lists := holding.lists
  buffer := fun bh => by
    rw [holding.buffer, sameBufs.count_eq]
  inode := fun slot => by
    rw [holding.inode, sameInodes.count_eq]

theorem small {kernel : Kernel} (holding : Keeping base bufs inodes kernel)
    (room : HasRoom base) (bh : Nat) :
    (kernel.buffers bh).count + 8 ≤ 255 + bufs.length := by
  have bound := room.buffer bh
  have most : bufs.count bh ≤ bufs.length := List.count_le_length
  rw [holding.buffer]
  omega

/-- A change of one count. -/
theorem recount {kernel : Kernel} {others : List Nat} {bh : Nat}
    {buffer : Buffer} (holding : Keeping base bufs inodes kernel)
    (same : SameLists kernel (kernel.setBuffer bh buffer))
    (own : buffer.count = (base.buffers bh).count + others.count bh)
    (beside : ∀ other, other ≠ bh → others.count other = bufs.count other) :
    Keeping base others inodes (kernel.setBuffer bh buffer) where
  size := holding.size
  lists := holding.lists.congr same
  buffer := by
    intro other
    rw [Kernel.setBuffer_buffers]
    split <;> rename_i here
    · rw [here, own]
    · rw [holding.buffer, beside other here]
  inode := holding.inode

end Keeping

/-- A program that leaves its caller with what it held. -/
abbrev Returns (fate : Fate) (base : Kernel) (bufs inodes : List Nat)
    (program : Sys α) : Prop :=
  Hoare fate Interrupts (Keeping base bufs inodes) program
    fun _ => Keeping base bufs inodes

theorem returns_pure (value : α) :
    Returns fate base bufs inodes (pure value) :=
  hoare_pure fun _ holding => holding

theorem returns_modify {change : Kernel → Kernel}
    (undisturbed : ∀ kernel, Undisturbed kernel (change kernel)) :
    Returns fate base bufs inodes (Prog.modify change) :=
  hoare_modify fun kernel holding => holding.keep (undisturbed kernel)

theorem returns_waitUntil (ready : Kernel → Bool) :
    Returns fate base bufs inodes (Prog.waitUntil ready) := by
  refine hoare_post (hoare_waitUntil ?_) fun _ _ holds => holds.1
  exact fun _ _ holding calm => holding.keep calm.undisturbed

theorem returns_sleep : Returns fate base bufs inodes Prog.sleep :=
  hoare_sleep fun _ _ holding calm => holding.keep calm.undisturbed

/-- The state that is read does not count. -/
theorem returns_get {next : Kernel → Sys α}
    (continues : ∀ kernel, Returns fate base bufs inodes (next kernel)) :
    Returns fate base bufs inodes (Prog.get >>= next) :=
  hoare_read continues

/-- A change of the data and the flags of a buffer. -/
theorem setBuffer_undisturbed {kernel : Kernel} {bh : Nat} {data : Block}
    {uptodate dirt lock : Bool} :
    Undisturbed kernel (kernel.setBuffer bh
      { kernel.buffers bh with data, uptodate, dirt, lock }) :=
  ⟨Quiet.setBuffer, fun _ => rfl⟩

theorem Undisturbed.trans {first second third : Kernel}
    (left : Undisturbed first second) (right : Undisturbed second third) :
    Undisturbed first third :=
  ⟨left.quiet.trans right.quiet,
    fun slot => (right.inode slot).trans (left.inode slot)⟩

theorem Aside.undisturbed {kernel next : Kernel} (quiet : Quiet kernel next)
    (aside : Aside kernel next) : Undisturbed kernel next where
  quiet := quiet
  inode := by
    intro slot
    obtain ⟨_, _, same⟩ := aside.inodes slot
    rw [same]

theorem onInode_returns (index : Nat) {change : Inode → Inode}
    (same : ∀ inode, (change inode).count = inode.count) :
    Returns fate base bufs inodes (onInode index change) := by
  apply returns_modify
  intro kernel
  refine ⟨Quiet.elsewhere rfl rfl rfl rfl, ?_⟩
  intro slot
  by_cases here : slot = index
  · subst here
    simpa [Kernel.setInode] using same _
  · simp [Kernel.setInode, here]

/-- A change of an inode that leaves its count alone, and what follows. -/
theorem onInode_then {index : Nat} {change : Inode → Inode}
    {next : Unit → Sys α} {slots : List Nat} {post : α → Kernel → Prop}
    (continues : ∀ value,
      Hoare fate Interrupts (Keeping base bufs slots) (next value) post)
    (same : ∀ inode, (change inode).count = inode.count) :
    Hoare fate Interrupts (Keeping base bufs slots) (onInode index change >>= next)
      post :=
  hoare_bind (onInode_returns index same) continues

/-! ## Block devices -/

variable (releasing : Releasing fate)

theorem lockBuffer_returns (bh : Nat) :
    Returns fate base bufs inodes (lockBuffer bh) :=
  hoare_bind (returns_waitUntil _) fun _ =>
    returns_modify fun _ => setBuffer_undisturbed

theorem unlockBuffer_returns (bh : Nat) :
    Returns fate base bufs inodes (unlockBuffer bh) :=
  returns_modify fun _ => setBuffer_undisturbed

theorem fileRequest_returns (major slot bh : Nat) (rw : Rw) :
    Returns fate base bufs inodes (fileRequest major slot bh rw) := by
  apply returns_modify
  intro kernel
  have filled : Undisturbed kernel
      (kernel.setRequest slot (requestOf kernel bh rw)) :=
    ⟨Quiet.elsewhere rfl rfl rfl rfl, fun _ => rfl⟩
  exact filled.trans
    (Aside.undisturbed (addRequest_quiet _ _ _) (addRequest_aside _ _ _))

include releasing in
theorem submit_returns (major : Nat) (ahead : Bool) (rw : Rw) (bh : Nat) :
    Returns fate base bufs inodes (submit major ahead rw bh) := by
  apply returns_get
  intro kernel
  split
  · exact unlockBuffer_returns bh
  · split
    · exact fileRequest_returns _ _ _ _
    · split
      · exact unlockBuffer_returns bh
      · apply hoare_bind (returns_waitUntil _)
        intro _
        apply returns_get
        intro kernel
        split
        · exact fileRequest_returns _ _ _ _
        · exact hoare_spent releasing.spent

include releasing in
theorem llRwBlock_returns (rw : Rw) (bh : Nat) :
    Returns fate base bufs inodes (llRwBlock rw bh) := by
  apply returns_get
  intro kernel
  dsimp only
  split
  · exact returns_pure ()
  · split
    · exact returns_pure ()
    · apply returns_get
      intro kernel
      split
      · exact returns_pure ()
      · exact hoare_bind (lockBuffer_returns bh) fun _ =>
          submit_returns releasing _ _ _ _

/-! ## Buffers -/

variable (room : HasRoom base)

include room in
/-- The byte in `b_count` is the count. -/
theorem Keeping.countByte {kernel : Kernel}
    (holding : Keeping base bufs inodes kernel) (few : bufs.length ≤ 7)
    (bh : Nat) : (kernel.buffers bh).countByte =
      (base.buffers bh).count + bufs.count bh := by
  have small := holding.small room bh
  unfold Buffer.countByte
  rw [← holding.buffer]
  omega

include room in
theorem takeReference_returns (few : bufs.length ≤ 6) (bh : Nat) :
    Hoare fate Interrupts (Keeping base bufs inodes) (takeReference bh)
      fun _ => Keeping base (bh :: bufs) inodes := by
  apply hoare_get
  intro kernel holding
  dsimp only
  have small := holding.small room bh
  rw [if_neg (by omega)]
  apply hoare_modify
  rintro state rfl
  refine holding.recount (sameLists_setBuffer rfl rfl rfl rfl rfl rfl) ?_ ?_
  · rw [List.count_cons_self, ← Nat.add_assoc, ← holding.buffer]
  · intro other different
    rw [List.count_cons_of_ne different.symm]

include room in
theorem dropCount_returns (few : bufs.length ≤ 6) (bh : Nat) :
    Hoare fate Interrupts (Keeping base (bh :: bufs) inodes)
      (onBuffer bh Buffer.dropCount) fun _ => Keeping base bufs inodes := by
  apply hoare_modify
  intro kernel holding
  have byte := holding.countByte room (Nat.succ_le_succ few) bh
  have count := holding.buffer bh
  rw [List.count_cons_self] at byte count
  refine holding.recount (sameLists_setBuffer rfl rfl rfl rfl rfl rfl) ?_ ?_
  · unfold Buffer.dropCount
    dsimp only
    rw [if_neg (by omega)]
    omega
  · intro other different
    rw [List.count_cons_of_ne different.symm]

include room in
theorem brelse_returns (few : bufs.length ≤ 6) (bh : Nat) :
    Hoare fate Interrupts (Keeping base (bh :: bufs) inodes) (brelse (some bh))
      fun _ => Keeping base bufs inodes := by
  apply hoare_bind (returns_waitUntil _)
  intro _
  apply hoare_get
  intro kernel holding
  have byte := holding.countByte room (Nat.succ_le_succ few) bh
  rw [List.count_cons_self] at byte
  rw [if_neg (by omega)]
  refine hoare_pre (dropCount_returns room few bh) ?_
  rintro state rfl
  exact holding

/-- `brelse` of a pointer that may be `NULL`. -/
theorem brelse_pointer (room : HasRoom base) (few : bufs.length ≤ 6)
    (buf : Option Nat) :
    Hoare fate Interrupts (Keeping base (buf.toList ++ bufs) inodes) (brelse buf)
      fun _ => Keeping base bufs inodes := by
  cases buf with
  | none => exact returns_pure ()
  | some bh => exact brelse_returns room few bh

include releasing room in
theorem getHashTable_returns (few : bufs.length ≤ 6) (fuel dev block : Nat) :
    Hoare fate Interrupts (Keeping base bufs inodes) (getHashTable fuel dev block)
      fun found => Keeping base (found.toList ++ bufs) inodes := by
  induction fuel with
  | zero => exact hoare_spent releasing.spent
  | succ fuel induction =>
      unfold getHashTable
      apply hoare_read
      intro kernel
      split
      · exact hoare_pure fun _ holding => holding
      · rename_i bh _
        apply hoare_bind (takeReference_returns room few bh)
        intro _
        apply hoare_bind (returns_waitUntil _)
        intro _
        apply hoare_read
        intro kernel
        split
        · exact hoare_pure fun _ holding => holding
        · exact hoare_bind (dropCount_returns room few bh) fun _ => induction

/-- What `getblk` does for its callers. -/
def Obtains (fate : Fate) (base : Kernel) (getblk : Nat → Nat → Sys Nat) :
    Prop :=
  ∀ bufs inodes dev block, bufs.length ≤ 6 →
    Hoare fate Interrupts (Keeping base bufs inodes) (getblk dev block)
      fun bh => Keeping base (bh :: bufs) inodes

section Circle

variable {getblk : Nat → Nat → Sys Nat} (gets : Obtains fate base getblk)

include releasing room gets in
theorem breadWith_returns (few : bufs.length ≤ 6) (dev block : Nat) :
    Hoare fate Interrupts (Keeping base bufs inodes) (breadWith getblk dev block)
      fun found => Keeping base (found.toList ++ bufs) inodes := by
  apply hoare_bind (gets bufs inodes dev block few)
  intro bh
  apply hoare_read
  intro kernel
  split
  · exact hoare_pure fun _ holding => holding
  · apply hoare_bind (llRwBlock_returns releasing _ _)
    intro _
    apply hoare_bind (returns_waitUntil _)
    intro _
    apply hoare_read
    intro kernel
    split
    · exact hoare_pure fun _ holding => holding
    · exact hoare_bind (brelse_returns room few bh) fun _ =>
        hoare_pure fun _ holding => holding

include releasing in
theorem getSuper_returns (dev fuel : Nat) :
    Returns fate base bufs inodes (getSuper dev fuel) := by
  induction fuel with
  | zero => exact hoare_spent releasing.spent
  | succ fuel induction =>
      unfold getSuper
      split
      · exact returns_pure none
      · apply returns_get
        intro kernel
        split
        · exact returns_pure none
        · apply hoare_bind (returns_waitUntil _)
          intro _
          apply returns_get
          intro kernel
          split
          · exact returns_pure _
          · exact induction

theorem lockInode_returns (index : Nat) :
    Returns fate base bufs inodes (lockInode index) :=
  hoare_bind (returns_waitUntil _) fun _ => onInode_returns index fun _ => rfl

theorem unlockInode_returns (index : Nat) :
    Returns fate base bufs inodes (unlockInode index) :=
  onInode_returns index fun _ => rfl

include releasing room gets in
theorem writeInodeWith_returns (few : bufs.length ≤ 6) (fuel index : Nat) :
    Returns fate base bufs inodes (writeInodeWith getblk fuel index) := by
  apply hoare_bind (lockInode_returns index)
  intro _
  apply returns_get
  intro kernel
  split
  · exact unlockInode_returns index
  · apply hoare_bind (getSuper_returns releasing _ _)
    rintro (_ | sb)
    · exact hoare_panic (releasing.panic _ (by decide) (by decide))
    · apply returns_get
      intro kernel
      apply hoare_bind (breadWith_returns releasing room gets few _ _)
      rintro (_ | bh)
      · exact hoare_panic (releasing.panic _ (by decide) (by decide))
      · refine hoare_bind (returns_modify ?_) fun _ => ?_
        · intro kernel
          have stores (buffer : Buffer) : Aside kernel
              (kernel.setBuffer bh buffer) := Aside.elsewhere rfl rfl
          exact Aside.undisturbed
            (Quiet.trans Quiet.setBuffer (Quiet.elsewhere rfl rfl rfl rfl))
            (Steady.trans (stores _) (Aside.setInode _ index
              (kernel.inodes index).lock false))
        · exact hoare_bind (brelse_returns room few bh) fun _ =>
            unlockInode_returns index

include releasing in
theorem syncPass_returns (dev bh : Nat) :
    Returns fate base bufs inodes (syncPass dev bh) := by
  apply returns_get
  intro kernel
  split
  · exact returns_pure ()
  · apply hoare_bind (returns_waitUntil _)
    intro _
    apply returns_get
    intro kernel
    split
    · exact llRwBlock_returns releasing _ _
    · exact returns_pure ()

include releasing room gets in
theorem syncDevWith_returns (few : bufs.length ≤ 6) (fuel dev : Nat) :
    Returns fate base bufs inodes (syncDevWith getblk fuel dev) := by
  have table : Returns fate base bufs inodes (syncInodesWith getblk fuel) := by
    apply hoare_upTo
    intro index
    apply hoare_bind (returns_waitUntil _)
    intro _
    apply returns_get
    intro kernel
    split
    · exact writeInodeWith_returns releasing room gets few fuel index
    · exact returns_pure ()
  apply returns_get
  intro kernel
  apply hoare_bind (hoare_upTo fun bh => syncPass_returns releasing dev bh)
  intro _
  apply hoare_bind table
  intro _
  exact hoare_upTo fun bh => syncPass_returns releasing dev bh

include releasing room gets in
/-- A buffer that comes out clean is still unused. -/
theorem cleanWith_returns (few : bufs.length ≤ 6) (fuel bh rounds : Nat) :
    Hoare fate Interrupts
      (fun kernel => Keeping base bufs inodes kernel ∧
        (kernel.buffers bh).countByte = 0)
      (cleanWith getblk fuel bh rounds)
      fun clean kernel => Keeping base bufs inodes kernel ∧
        (clean = true → (kernel.buffers bh).countByte = 0) := by
  induction rounds with
  | zero => exact hoare_spent releasing.spent
  | succ rounds induction =>
      apply hoare_get
      rintro kernel ⟨holding, unused⟩
      split
      · apply hoare_pure
        rintro state rfl
        exact ⟨holding, fun _ => unused⟩
      · apply hoare_at holding
        apply hoare_bind (syncDevWith_returns releasing room gets few fuel _)
        intro _
        apply hoare_bind (returns_waitUntil _)
        intro _
        apply hoare_get
        intro kernel holding
        split <;> rename_i isUsed
        · apply hoare_pure
          rintro state rfl
          exact ⟨holding, by simp⟩
        · exact hoare_at ⟨holding, not_not.mp isUsed⟩ induction

end Circle

/-- `getblk` takes an unused buffer for a block that is not cached. -/
theorem claimBuffer_returns (room : HasRoom base) (few : bufs.length ≤ 6)
    {kernel : Kernel} {bh dev block : Nat}
    (holding : Keeping base bufs inodes kernel)
    (isBuffer : bh < kernel.nrBuffers)
    (unused : (kernel.buffers bh).countByte = 0)
    (missing : findBuffer kernel dev block = none) :
    Hoare fate Interrupts (fun current => current = kernel)
      (claimBuffer bh dev block)
      fun _ => Keeping base (bh :: bufs) inodes := by
  constructor
  rintro state rfl
  have fresh (hasDev : dev ≠ 0) (other : Nat)
      (isOther : other < state.nrBuffers)
      (sameDev : (state.buffers other).dev = dev) :=
    findBuffer_none holding.lists missing hasDev isOther sameDev
  have claimed := claim_bare bh dev block state
  unfold Prog.wp
  rw [claimBuffer_eq holding.lists isBuffer]
  rw [holding.countByte room (by omega) bh] at unused
  refine ⟨claim_nrBuffers.trans holding.size,
    claim_lists holding.lists isBuffer fresh, ?_, ?_⟩
  · intro other
    rw [Kernel.bare_count claimed, Kernel.setBuffer_buffers]
    split <;> rename_i here
    · rw [here, List.count_cons_self]
      show 1 = _
      omega
    · rw [List.count_cons_of_ne (Ne.symm here)]
      exact holding.buffer other
  · intro slot
    have sameInodes := congrArg Kernel.inodes claimed
    rw [← holding.inode]
    exact congrArg (fun table => (table slot).count) sameInodes

include releasing room in
theorem getblk_obtains (fuel : Nat) : Obtains fate base (getblk fuel) := by
  induction fuel with
  | zero => exact fun _ _ _ _ _ => hoare_spent releasing.spent
  | succ fuel induction =>
      intro bufs inodes dev block few
      have again := induction bufs inodes dev block few
      unfold getblk
      apply hoare_bind (getHashTable_returns releasing room few fuel dev block)
      rintro (_ | bh)
      · apply hoare_get
        intro kernel holding
        cases scan : scanFree kernel kernel.nrBuffers kernel.freeList none with
        | none => exact hoare_at holding (hoare_bind returns_sleep fun _ => again)
        | some bh =>
            have isBuffer := (scanFree_some holding.lists scan).1
            rw [holding.size] at isBuffer
            apply hoare_at holding
            apply hoare_bind (returns_waitUntil _)
            intro _
            apply hoare_get
            intro kernel holding
            split <;> rename_i isUsed
            · exact hoare_at holding again
            · have cleans := @cleanWith_returns base bufs inodes fate releasing
                room _ induction few fuel bh fuel
              refine hoare_bind (hoare_at ⟨holding, not_not.mp isUsed⟩ cleans)
                fun clean => ?_
              cases clean with
              | false => exact hoare_pre again fun _ holds => holds.1
              | true =>
                  apply hoare_get
                  rintro kernel ⟨holding, unused⟩
                  cases found : findBuffer kernel dev block with
                  | some other => exact hoare_at holding again
                  | none =>
                      have inRange : bh < kernel.nrBuffers :=
                        holding.size ▸ isBuffer
                      apply hoare_bind (claimBuffer_returns room few holding
                        inRange (unused rfl) found)
                      exact fun _ => hoare_pure fun _ holding => holding
      · exact hoare_pure fun _ holding => holding

include releasing room in
theorem bread_returns (few : bufs.length ≤ 6) (fuel dev block : Nat) :
    Hoare fate Interrupts (Keeping base bufs inodes) (bread fuel dev block).unmarked
      fun found => Keeping base (found.toList ++ bufs) inodes :=
  hoare_unmarked (breadWith_returns releasing.uncrossed room
    (getblk_obtains releasing.uncrossed room fuel) few dev block)

include releasing room in
theorem writeInode_returns (few : bufs.length ≤ 6) (fuel index : Nat) :
    Returns fate base bufs inodes (writeInode fuel index).unmarked :=
  hoare_unmarked (writeInodeWith_returns releasing.uncrossed room
    (getblk_obtains releasing.uncrossed room fuel) few fuel index)

include releasing room in
theorem syncDev_returns (few : bufs.length ≤ 6) (fuel dev : Nat) :
    Returns fate base bufs inodes (syncDev fuel dev).unmarked :=
  hoare_unmarked (syncDevWith_returns releasing.uncrossed room
    (getblk_obtains releasing.uncrossed room fuel) few fuel dev)

end References

instance : Steady Interrupts where
  refl := fun kernel => ⟨Quiet.refl kernel, rfl, rfl⟩
  trans := fun left right => ⟨left.quiet.trans right.quiet,
    right.inodes.trans left.inodes, right.supers.trans left.supers⟩

/-! ## Requests disturb nothing -/

theorem setBuffer_interrupts {kernel : Kernel} {bh : Nat} {data : Block}
    {uptodate dirt lock : Bool} :
    Interrupts kernel (kernel.setBuffer bh
      { kernel.buffers bh with data, uptodate, dirt, lock }) :=
  ⟨Quiet.setBuffer, rfl, rfl⟩

theorem addRequest_interrupts (major slot : Nat) (kernel : Kernel) :
    Interrupts kernel (addRequest major slot kernel) := by
  have serves (kernel : Kernel) :
      (requestFn major slot kernel).inodes = kernel.inodes ∧
        (requestFn major slot kernel).supers = kernel.supers := by
    unfold requestFn
    split
    · exact complete_table _ _ _
    · exact ⟨rfl, rfl⟩
  have table : (addRequest major slot kernel).inodes = kernel.inodes ∧
      (addRequest major slot kernel).supers = kernel.supers := by
    unfold addRequest
    dsimp only
    split
    · exact serves _
    · exact ⟨rfl, rfl⟩
  exact ⟨addRequest_quiet major slot kernel, table.1, table.2⟩

theorem submit_interrupts (major : Nat) (ahead : Bool) (rw : Rw) (bh : Nat) :
    (submit major ahead rw bh).Within Interrupts := by
  have unlocks : (unlockBuffer bh).Within Interrupts :=
    within_modify fun _ => setBuffer_interrupts
  have files (slot : Nat) : (fileRequest major slot bh rw).Within Interrupts := by
    apply within_modify
    intro kernel
    have filled : Interrupts kernel
        (kernel.setRequest slot (requestOf kernel bh rw)) :=
      ⟨Quiet.elsewhere rfl rfl rfl rfl, rfl, rfl⟩
    exact Steady.trans filled (addRequest_interrupts _ _ _)
  apply within_get
  intro kernel
  split
  · exact unlocks
  · split
    · exact files _
    · split
      · exact unlocks
      · apply within_bind (within_waitUntil _)
        intro _
        apply within_get
        intro kernel
        split
        · exact files _
        · exact keeps_spent

theorem llRwBlock_interrupts (rw : Rw) (bh : Nat) :
    (llRwBlock rw bh).Within Interrupts := by
  apply within_get
  intro kernel
  dsimp only
  split
  · exact within_pure ()
  · split
    · exact within_pure ()
    · apply within_get
      intro kernel
      split
      · exact within_pure ()
      · refine within_bind (within_bind (within_waitUntil _) fun _ => ?_)
          fun _ => submit_interrupts _ _ _ _
        exact within_modify fun _ => setBuffer_interrupts

end Linux011.Fs

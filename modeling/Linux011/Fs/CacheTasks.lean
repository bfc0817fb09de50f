import Linux011.Library.Tasks
import Linux011.Fs.CacheContent

/-!
# Tasks that share the buffer cache

A task owns the references it has taken, a number for each buffer.  The
references of all tasks add up to the counts of the buffers, and the owner of
a reference relies on the device and the block number of the buffer.  From
this no interleaving of the cache's functions caches a block twice, and what
`getblk` returns is the buffer it was asked for.
-/

namespace Linux011.Fs

open Coop Prog

variable {size : Nat}

/-- The tasks' references in sum are the counts of the `size` buffers. -/
structure Counted (size : Nat) (total : Nat → Nat) (kernel : Kernel) :
    Prop where
  nrBuffers : kernel.nrBuffers = size
  lists : Lists kernel
  counts : ∀ bh, bh < kernel.nrBuffers → (kernel.buffers bh).count = total bh
  small : ∀ bh, bh < kernel.nrBuffers → (kernel.buffers bh).count ≤ 255
  outside : ∀ bh, kernel.nrBuffers ≤ bh → total bh = 0

/-- The buffers in `owned` keep their blocks. -/
structure Holds (owned : Nat → Nat) (kernel next : Kernel) : Prop where
  dev : ∀ bh, 0 < owned bh →
    (next.buffers bh).dev = (kernel.buffers bh).dev
  block : ∀ bh, 0 < owned bh →
    (next.buffers bh).block = (kernel.buffers bh).block

def references (size : Nat) : Discipline Kernel (Nat → Nat) where
  allowed := Counted size
  stable := Holds
  refl := fun _ _ => ⟨fun _ _ => rfl, fun _ _ => rfl⟩
  trans := by
    intro owned first second third left right
    constructor
    · intro bh isOwned
      exact (right.dev bh isOwned).trans (left.dev bh isOwned)
    · intro bh isOwned
      exact (right.block bh isOwned).trans (left.block bh isOwned)
  split := by
    intro left right first second holds
    constructor
    · intro bh isOwned
      exact holds.dev bh (Nat.add_pos_left isOwned _)
    · intro bh isOwned
      exact holds.block bh (Nat.add_pos_left isOwned _)

theorem Counted.holder {bh : Nat} {rest : Nat → Nat} {kernel : Kernel}
    (counted : Counted size (one bh + rest) kernel) :
    bh < kernel.nrBuffers ∧
      (kernel.buffers bh).count = 1 + rest bh := by
  have isBuffer : bh < kernel.nrBuffers := by
    by_contra outside
    have none := counted.outside bh (Nat.le_of_not_lt outside)
    rw [Pi.add_apply, one_same] at none
    omega
  refine ⟨isBuffer, ?_⟩
  rw [counted.counts bh isBuffer, Pi.add_apply, one_same]

/-- A change of one count, with the total it stands for. -/
theorem Counted.setBuffer {total changed : Nat → Nat} {kernel : Kernel}
    {bh : Nat} {buffer : Buffer} (counted : Counted size total kernel)
    (isBuffer : bh < kernel.nrBuffers)
    (same : SameLists kernel (kernel.setBuffer bh buffer))
    (own : buffer.count = changed bh) (small : buffer.count ≤ 255)
    (others : ∀ other, other ≠ bh → changed other = total other) :
    Counted size changed (kernel.setBuffer bh buffer) where
  nrBuffers := counted.nrBuffers
  lists := counted.lists.congr same
  counts := by
    intro other isOther
    rw [Kernel.setBuffer_buffers]
    split <;> rename_i here
    · rw [here, own]
    · rw [others other here, counted.counts other isOther]
  small := by
    intro other isOther
    rw [Kernel.setBuffer_buffers]
    split
    · exact small
    · exact counted.small other isOther
  outside := by
    intro other outside
    rw [others other, counted.outside other outside]
    rintro rfl
    exact Nat.not_lt_of_le outside isBuffer

theorem SameLists.holds {kernel next : Kernel} (same : SameLists kernel next)
    (owned : Nat → Nat) : Holds owned kernel next where
  dev := fun bh _ => same.dev bh
  block := fun bh _ => same.block bh

/-! ## Steps that no holder notices -/

/-- Nothing changes that the discipline speaks of. -/
structure Quiet (kernel next : Kernel) : Prop where
  same : SameLists kernel next
  count : ∀ bh, (next.buffers bh).count = (kernel.buffers bh).count

theorem Counted.quiet {total : Nat → Nat} {kernel next : Kernel}
    (counted : Counted size total kernel) (quiet : Quiet kernel next) :
    Counted size total next where
  nrBuffers := quiet.same.nrBuffers.trans counted.nrBuffers
  lists := counted.lists.congr quiet.same
  counts := by
    intro bh isBuffer
    rw [quiet.count]
    exact counted.counts bh (quiet.same.nrBuffers ▸ isBuffer)
  small := by
    intro bh isBuffer
    rw [quiet.count]
    exact counted.small bh (quiet.same.nrBuffers ▸ isBuffer)
  outside := by
    intro bh outside
    exact counted.outside bh (quiet.same.nrBuffers ▸ outside)

namespace Quiet

theorem refl (kernel : Kernel) : Quiet kernel kernel :=
  ⟨SameLists.refl kernel, fun _ => rfl⟩

theorem trans {first second third : Kernel} (left : Quiet first second)
    (right : Quiet second third) : Quiet first third where
  same := left.same.trans right.same
  count := fun bh => (right.count bh).trans (left.count bh)

/-- A change of the data and the flags of a buffer. -/
theorem setBuffer {kernel : Kernel} {bh : Nat} {data : Block}
    {uptodate dirt lock : Bool} :
    Quiet kernel (kernel.setBuffer bh
      { kernel.buffers bh with data, uptodate, dirt, lock }) where
  same := sameLists_setBuffer rfl rfl rfl rfl rfl rfl
  count := by
    intro other
    rw [Kernel.setBuffer_buffers]
    split <;> simp_all

/-- A change outside the cache. -/
theorem elsewhere {kernel next : Kernel}
    (buffers : next.buffers = kernel.buffers)
    (hashTable : next.hashTable = kernel.hashTable)
    (freeList : next.freeList = kernel.freeList)
    (nrBuffers : next.nrBuffers = kernel.nrBuffers) : Quiet kernel next where
  same := SameLists.elsewhere buffers hashTable freeList nrBuffers
  count := by
    intro bh
    rw [buffers]

end Quiet

theorem transfer_quiet (slot : Nat) (kernel : Kernel) :
    Quiet kernel (transfer slot kernel) := by
  unfold transfer
  dsimp only
  split
  · exact Quiet.elsewhere rfl rfl rfl rfl
  · exact Quiet.setBuffer

theorem endRequest_quiet (major : Nat) (uptodate : Bool) (kernel : Kernel) :
    Quiet kernel (endRequest major uptodate kernel) := by
  unfold endRequest
  split
  · exact Quiet.refl kernel
  · exact Quiet.trans Quiet.setBuffer (Quiet.elsewhere rfl rfl rfl rfl)

theorem complete_quiet (major : Nat) (success : Bool) (kernel : Kernel) :
    Quiet kernel (complete major success kernel) := by
  unfold complete
  split
  · exact Quiet.refl kernel
  · split
    · exact (transfer_quiet _ kernel).trans (endRequest_quiet _ _ _)
    · exact endRequest_quiet _ _ _

theorem requestFn_quiet (major slot : Nat) (kernel : Kernel) :
    Quiet kernel (requestFn major slot kernel) := by
  unfold requestFn
  split
  · exact complete_quiet _ _ _
  · exact Quiet.refl kernel

/-! ## The functions of the cache -/

/-- A program that leaves its task with what it had. -/
abbrev Neutral (size : Nat) (program : Sys α) : Prop :=
  Triple (references size) (fun _ => True) 0 program (fun _ => 0) (fun _ _ => True)

section Neutral

variable {α β : Type}

theorem neutral_bind {program : Sys β} {next : β → Sys α}
    (first : Neutral size program) (second : ∀ value, Neutral size (next value)) :
    Neutral size (program >>= next) :=
  triple_bind first second

theorem neutral_get {next : Kernel → Sys α}
    (continues : ∀ kernel, Neutral size (next kernel)) :
    Neutral size (Prog.get >>= next) :=
  triple_get fun kernel _ =>
    triple_weaken (continues kernel) (fun _ _ => trivial) fun _ _ _ => trivial

theorem neutral_pure (value : α) : Neutral size (pure value) :=
  triple_pure (fun _ _ => trivial) rfl

theorem neutral_modify {change : Kernel → Kernel}
    (quiet : ∀ kernel, Quiet kernel (change kernel)) :
    Neutral size (Prog.modify change) := by
  apply triple_modify
  intro rest kernel _ counted
  exact ⟨Counted.quiet counted (quiet kernel), (quiet kernel).same.holds rest,
    trivial⟩

theorem neutral_waitUntil (ready : Kernel → Bool) :
    Neutral size (Prog.waitUntil ready) :=
  triple_weaken (triple_waitUntil rfl) (fun _ _ => trivial)
    fun _ _ _ => trivial

/-- A neutral program inside one that owns something. -/
theorem Triple.around {program : Sys α} {owned : Nat → Nat}
    (neutral : Neutral size program) :
    Triple (references size) (fun _ => True) owned program (fun _ => owned)
      (fun _ _ => True) := by
  have framed := triple_frame owned neutral
  simpa using framed

end Neutral

theorem waitOnBuffer_neutral (bh : Nat) : Neutral size (waitOnBuffer bh) :=
  neutral_waitUntil _

theorem lockBuffer_neutral (bh : Nat) : Neutral size (lockBuffer bh) :=
  neutral_bind (neutral_waitUntil _) fun _ =>
    neutral_modify fun _ => Quiet.setBuffer

theorem unlockBuffer_neutral (bh : Nat) : Neutral size (unlockBuffer bh) :=
  neutral_modify fun _ => Quiet.setBuffer

theorem addRequest_quiet (major slot : Nat) (kernel : Kernel) :
    Quiet kernel (addRequest major slot kernel) := by
  unfold addRequest
  dsimp only
  split
  · apply Quiet.trans Quiet.setBuffer
    refine Quiet.trans ?_ (requestFn_quiet _ _ _)
    exact Quiet.elsewhere rfl rfl rfl rfl
  · exact Quiet.trans Quiet.setBuffer (Quiet.elsewhere rfl rfl rfl rfl)

theorem fileRequest_neutral (major slot bh : Nat) (rw : Rw) :
    Neutral size (fileRequest major slot bh rw) := by
  unfold fileRequest
  apply neutral_modify
  intro kernel
  have filled : Quiet kernel
      (kernel.setRequest slot (requestOf kernel bh rw)) :=
    Quiet.elsewhere rfl rfl rfl rfl
  exact filled.trans (addRequest_quiet _ _ _)

theorem submit_neutral (major : Nat) (ahead : Bool) (rw : Rw) (bh : Nat) :
    Neutral size (submit major ahead rw bh) := by
  apply neutral_get
  intro kernel
  split
  · exact unlockBuffer_neutral bh
  · split
    · exact fileRequest_neutral _ _ _ _
    · split
      · exact unlockBuffer_neutral bh
      · apply neutral_bind (neutral_waitUntil _)
        intro _
        apply neutral_get
        intro kernel
        split
        · exact fileRequest_neutral _ _ _ _
        · exact triple_spent

theorem makeRequest_neutral (major : Nat) (rw : Rw) (bh : Nat) :
    Neutral size (makeRequest major rw bh) := by
  apply neutral_get
  intro kernel
  split
  · exact neutral_pure ()
  · apply neutral_bind (lockBuffer_neutral bh)
    intro _
    exact submit_neutral _ _ _ _

theorem llRwBlock_neutral (rw : Rw) (bh : Nat) : Neutral size (llRwBlock rw bh) := by
  apply neutral_get
  intro kernel
  dsimp only
  split
  · exact neutral_pure ()
  · split
    · exact neutral_pure ()
    · exact makeRequest_neutral _ _ _

theorem takeReference_triple (bh : Nat) :
    Triple (references size) (fun kernel => bh < kernel.nrBuffers) 0
      (takeReference bh) (fun _ => one bh) (fun _ _ => True) := by
  apply triple_get
  intro kernel isBuffer
  dsimp only
  split <;> rename_i full
  · exact triple_cross
  · apply triple_modify
    rintro rest state rfl counted
    rw [zero_add] at counted
    have count := Counted.counts counted bh isBuffer
    have same : SameLists state (state.setBuffer bh
        { state.buffers bh with count := (state.buffers bh).count + 1 }) :=
      sameLists_setBuffer rfl rfl rfl rfl rfl rfl
    refine ⟨Counted.setBuffer counted isBuffer same ?_ ?_ ?_,
      same.holds rest, trivial⟩
    · rw [Pi.add_apply, one_same, ← count, add_comm]
    · show (state.buffers bh).count + 1 ≤ 255
      omega
    · intro other different
      rw [Pi.add_apply, one_other different, zero_add]

theorem dropCount_triple (bh : Nat) :
    Triple (references size) (fun _ => True) (one bh) (onBuffer bh Buffer.dropCount)
      (fun _ => 0) (fun _ _ => True) := by
  apply triple_modify
  intro rest kernel _ counted
  obtain ⟨isBuffer, ownCount⟩ := Counted.holder counted
  have small := Counted.small counted bh isBuffer
  have dropped : (kernel.buffers bh).dropCount.count = rest bh := by
    unfold Buffer.dropCount Buffer.countByte
    dsimp only
    rw [if_neg (by omega)]
    omega
  have same : SameLists kernel
      (kernel.setBuffer bh (kernel.buffers bh).dropCount) :=
    sameLists_setBuffer rfl rfl rfl rfl rfl rfl
  rw [zero_add]
  refine ⟨Counted.setBuffer counted isBuffer same dropped ?_ ?_,
    same.holds rest, trivial⟩
  · rw [dropped]
    omega
  · intro other different
    rw [Pi.add_apply, one_other different, zero_add]

/-- Everything a search of `getblk` decides on is still so when it claims the
buffer. -/
theorem claimBuffer_triple (bh dev block : Nat) {kernel : Kernel}
    (isBuffer : bh < kernel.nrBuffers)
    (unused : (kernel.buffers bh).countByte = 0)
    (missing : findBuffer kernel dev block = none) :
    Triple (references size) (fun current => current = kernel) 0
      (claimBuffer bh dev block) (fun _ => one bh)
      (fun _ next => (next.buffers bh).dev = dev ∧
        (next.buffers bh).block = block) := by
  constructor
  rintro frame others state rfl allowed
  have counted : Counted size (0 + frame + others) state := allowed
  have fresh (hasDev : dev ≠ 0) (other : Nat) (isOther : other < state.nrBuffers)
      (sameDev : (state.buffers other).dev = dev) :=
    findBuffer_none counted.lists missing hasDev isOther sameDev
  have count := counted.counts bh isBuffer
  have none : (state.buffers bh).count = 0 := by
    have small := counted.small bh isBuffer
    unfold Buffer.countByte at unused
    omega
  rw [none] at count
  simp only [Pi.add_apply, Pi.zero_apply] at count
  have claimed := claim_bare bh dev block state
  have nextCount (other : Nat) :
      ((claim bh dev block state).buffers other).count =
        if other = bh then 1 else (state.buffers other).count := by
    rw [Kernel.bare_count claimed, Kernel.setBuffer_buffers]
    split <;> rfl
  have keeps {other : Nat} (isOwned : 0 < others other) : other ≠ bh := by
    rintro rfl
    omega
  unfold Prog.Safe
  rw [claimBuffer_eq counted.lists isBuffer]
  refine ⟨one bh + frame, ⟨?_, ?_, ?_, ?_, ?_⟩, ⟨?_, ?_⟩, rfl, ?_, ?_⟩
  · exact claim_nrBuffers.trans counted.nrBuffers
  · exact claim_lists counted.lists isBuffer fresh
  · intro other isOther
    rw [claim_nrBuffers] at isOther
    rw [nextCount]
    simp only [Pi.add_apply]
    split <;> rename_i here
    · rw [here, one_same]
      omega
    · rw [one_other here, counted.counts other isOther]
      rfl
  · intro other isOther
    rw [claim_nrBuffers] at isOther
    rw [nextCount]
    split
    · omega
    · exact counted.small other isOther
  · intro other outside
    rw [claim_nrBuffers] at outside
    have different : other ≠ bh := by
      rintro rfl
      exact Nat.not_lt_of_le outside isBuffer
    have total := counted.outside other outside
    simp only [Pi.add_apply, one_other different] at total ⊢
    exact total
  · intro other isOwned
    rw [claim_dev, if_neg (keeps isOwned)]
  · intro other isOwned
    rw [claim_block, if_neg (keeps isOwned)]
  · rw [claim_dev, if_pos rfl]
  · rw [claim_block, if_pos rfl]

/-- The reference that comes with a buffer pointer. -/
def held : Option Nat → Nat → Nat
  | none => 0
  | some bh => one bh

theorem getHashTable_triple (fuel dev block : Nat) :
    Triple (references size) (fun _ => True) 0 (getHashTable fuel dev block) held
      (fun found kernel => ∀ bh ∈ found, IsFor dev block bh kernel) := by
  induction fuel with
  | zero => exact triple_spent
  | succ fuel induction =>
      unfold getHashTable
      apply triple_get_allowed
      intro kernel total _ counted
      cases found : findBuffer kernel dev block with
      | none => exact triple_pure (by simp) rfl
      | some bh =>
          obtain ⟨isBuffer, _⟩ := findBuffer_some (Counted.lists counted) found
          have takes : Triple (references size)
              (fun current => current = kernel) 0 (takeReference bh)
              (fun _ => one bh) (fun _ _ => True) := by
            refine triple_weaken (takeReference_triple bh) ?_ fun _ _ _ => trivial
            rintro state rfl
            exact isBuffer
          refine triple_bind takes fun _ => ?_
          refine triple_bind (Triple.around (waitOnBuffer_neutral bh))
            fun _ => ?_
          apply triple_get
          intro later _
          split <;> rename_i isSame
          · refine triple_pure ?_ rfl
            rintro state rfl other isOther
            have same : bh = other := by simpa using isOther
            exact same ▸ isSame
          · refine triple_bind (triple_weaken (dropCount_triple bh)
              (fun _ _ => trivial) fun _ _ _ => trivial) fun _ => ?_
            exact triple_weaken induction (fun _ _ => trivial)
              fun _ _ holds => holds

theorem brelse_triple (buf : Option Nat) :
    Triple (references size) (fun _ => True) (held buf) (brelse buf) (fun _ => 0)
      (fun _ _ => True) := by
  cases buf with
  | none => exact triple_pure (fun _ _ => trivial) rfl
  | some bh =>
      refine triple_bind (Triple.around (waitOnBuffer_neutral bh)) fun _ => ?_
      apply triple_get
      intro kernel _
      split
      · exact triple_panic
      · exact triple_weaken (dropCount_triple bh) (fun _ _ => trivial)
          fun _ _ _ => trivial

section Circle

variable {getblk : Nat → Nat → Sys Nat}

/-- What `getblk` does for its callers. -/
def Gets (size : Nat) (getblk : Nat → Nat → Sys Nat) : Prop :=
  ∀ dev block, Triple (references size) (fun _ => True) 0 (getblk dev block) one
    (IsFor dev block)

theorem breadWith_triple (gets : Gets size getblk) (dev block : Nat) :
    Triple (references size) (fun _ => True) 0 (breadWith getblk dev block) held
      (fun _ _ => True) := by
  refine triple_bind (gets dev block) fun bh => ?_
  apply triple_get
  intro kernel _
  split
  · exact triple_pure (fun _ _ => trivial) rfl
  · refine triple_bind (triple_weaken (Triple.around (llRwBlock_neutral .read bh))
      (fun _ _ => trivial) fun _ _ _ => trivial) fun _ => ?_
    refine triple_bind (Triple.around (waitOnBuffer_neutral bh)) fun _ => ?_
    apply triple_get
    intro kernel _
    split
    · exact triple_pure (fun _ _ => trivial) rfl
    · refine triple_bind (triple_weaken (brelse_triple (some bh))
        (fun _ _ => trivial) fun _ _ _ => trivial) fun _ => ?_
      exact triple_pure (fun _ _ => trivial) rfl

theorem getSuper_neutral (dev fuel : Nat) : Neutral size (getSuper dev fuel) := by
  induction fuel with
  | zero => exact triple_spent
  | succ fuel induction =>
      unfold getSuper
      split
      · exact neutral_pure none
      · apply neutral_get
        intro kernel
        split
        · exact neutral_pure none
        · apply neutral_bind (neutral_waitUntil _)
          intro _
          apply neutral_get
          intro kernel
          split
          · exact neutral_pure _
          · exact induction

theorem onInode_neutral (index : Nat) (change : Inode → Inode) :
    Neutral size (onInode index change) :=
  neutral_modify fun _ => Quiet.elsewhere rfl rfl rfl rfl

theorem lockInode_neutral (index : Nat) : Neutral size (lockInode index) :=
  neutral_bind (neutral_waitUntil _) fun _ => onInode_neutral _ _

/-- What follows the read in `write_inode`. -/
theorem breadWith_neutral (gets : Gets size getblk) (dev block : Nat)
    {next : Option Nat → Sys Unit}
    (continues : ∀ found, Triple (references size) (fun _ => True) (held found)
      (next found) (fun _ => 0) (fun _ _ => True)) :
    Neutral size (breadWith getblk dev block >>= next) :=
  triple_bind (breadWith_triple gets dev block) continues

theorem writeInodeWith_neutral (gets : Gets size getblk) (fuel index : Nat) :
    Neutral size (writeInodeWith getblk fuel index) := by
  apply neutral_bind (lockInode_neutral index)
  intro _
  apply neutral_get
  intro kernel
  split
  · exact onInode_neutral _ _
  · apply neutral_bind (getSuper_neutral _ _)
    rintro (_ | sb)
    · exact triple_panic
    · apply neutral_get
      intro kernel
      apply breadWith_neutral gets
      rintro (_ | bh)
      · exact triple_panic
      · have stores : Neutral size (Prog.modify fun kernel : Kernel =>
            (kernel.setBuffer bh
              { kernel.buffers bh with
                data := storeInode (kernel.buffers bh).data
                  (kernel.inodes index)
                dirt := true }).setInode index
              { kernel.inodes index with dirt := false }) :=
          neutral_modify fun _ =>
            Quiet.trans Quiet.setBuffer (Quiet.elsewhere rfl rfl rfl rfl)
        refine triple_bind (Triple.around stores) fun _ => ?_
        refine triple_bind (brelse_triple (some bh)) fun _ => ?_
        exact onInode_neutral _ _

theorem neutral_upTo {body : Nat → Sys Unit} {count : Nat}
    (step : ∀ index, Neutral size (body index)) : Neutral size (Prog.upTo body count) :=
  triple_upTo step

theorem syncInodesWith_neutral (gets : Gets size getblk) (fuel : Nat) :
    Neutral size (syncInodesWith getblk fuel) := by
  unfold syncInodesWith
  apply neutral_upTo
  intro index
  apply neutral_bind (neutral_waitUntil _)
  intro _
  apply neutral_get
  intro kernel
  split
  · exact writeInodeWith_neutral gets fuel index
  · exact neutral_pure ()

theorem syncPass_neutral (dev bh : Nat) : Neutral size (syncPass dev bh) := by
  apply neutral_get
  intro kernel
  split
  · exact neutral_pure ()
  · apply neutral_bind (waitOnBuffer_neutral bh)
    intro _
    apply neutral_get
    intro kernel
    split
    · exact llRwBlock_neutral _ _
    · exact neutral_pure ()

theorem syncDevWith_neutral (gets : Gets size getblk) (fuel dev : Nat) :
    Neutral size (syncDevWith getblk fuel dev) := by
  unfold syncDevWith
  apply neutral_get
  intro kernel
  apply neutral_bind (neutral_upTo fun bh => syncPass_neutral dev bh)
  intro _
  apply neutral_bind (syncInodesWith_neutral gets fuel)
  intro _
  exact neutral_upTo fun bh => syncPass_neutral dev bh

/-- A buffer that comes out clean is still unused. -/
theorem cleanWith_triple (gets : Gets size getblk) (fuel bh rounds : Nat) :
    Triple (references size)
      (fun kernel => (kernel.buffers bh).countByte = 0) 0
      (cleanWith getblk fuel bh rounds) (fun _ => 0)
      (fun clean kernel =>
        clean = true → (kernel.buffers bh).countByte = 0) := by
  induction rounds with
  | zero => exact triple_spent
  | succ rounds induction =>
      apply triple_get
      intro kernel unused
      split
      · refine triple_pure ?_ rfl
        rintro state rfl _
        exact unused
      · refine triple_bind (triple_weaken (syncDevWith_neutral gets fuel _)
          (fun _ _ => trivial) fun _ _ _ => trivial) fun _ => ?_
        refine triple_bind (waitOnBuffer_neutral bh) fun _ => ?_
        apply triple_get
        intro kernel _
        split <;> rename_i isUsed
        · refine triple_pure ?_ rfl
          intro state _ isClean
          cases isClean
        · refine triple_weaken induction ?_ fun _ _ holds => holds
          rintro state rfl
          exact not_not.mp isUsed

end Circle

/-- `getblk` returns the buffer it was asked for, with a reference. -/
theorem getblk_triple (fuel : Nat) : Gets size (getblk fuel) := by
  induction fuel with
  | zero => exact fun _ _ => triple_spent
  | succ fuel induction =>
      intro dev block
      have again {pre : Kernel → Prop} :
          Triple (references size) pre 0 (getblk fuel dev block) one
            (IsFor dev block) :=
        triple_weaken (induction dev block) (fun _ _ => trivial)
          fun _ _ holds => holds
      unfold getblk
      refine triple_bind (getHashTable_triple fuel dev block) fun found => ?_
      cases found with
      | some bh => exact triple_pure (fun _ holds => holds bh rfl) rfl
      | none =>
          apply triple_get_allowed
          intro kernel rest _ counted
          cases scan : scanFree kernel kernel.nrBuffers kernel.freeList none with
          | none => exact triple_bind (triple_sleep rfl) fun _ => again
          | some bh =>
              have isBuffer := (scanFree_some (Counted.lists counted) scan).1
              rw [Counted.nrBuffers counted] at isBuffer
              refine triple_bind (triple_weaken (waitOnBuffer_neutral bh)
                (fun _ _ => trivial) fun _ _ _ => trivial) fun _ => ?_
              apply triple_get
              intro kernel _
              split <;> rename_i isUsed
              · exact again
              · refine triple_bind (triple_weaken
                  (cleanWith_triple induction fuel bh fuel) ?_
                  fun _ _ holds => holds) fun clean => ?_
                · rintro state rfl
                  exact not_not.mp isUsed
                · cases clean with
                  | false => exact again
                  | true =>
                      apply triple_get_allowed
                      intro kernel rest unused counted
                      cases found : findBuffer kernel dev block with
                      | some other => exact again
                      | none =>
                          have inRange : bh < kernel.nrBuffers :=
                            Counted.nrBuffers counted ▸ isBuffer
                          refine triple_bind (claimBuffer_triple bh dev block
                            inRange (unused rfl) found) fun _ => ?_
                          exact triple_pure (fun _ holds => holds) rfl

/-! ## Every interleaving -/

inductive CacheCall where
  | getblk (fuel dev block : Nat)
  | getHashTable (fuel dev block : Nat)
  | bread (fuel dev block : Nat)
  | brelse (buf : Option Nat)
  | syncDev (fuel dev : Nat)

def CacheCall.program : CacheCall → Sys (Option Nat)
  | .getblk fuel dev block => do
      let bh ← Fs.getblk fuel dev block
      return some bh
  | .getHashTable fuel dev block => Fs.getHashTable fuel dev block
  | .bread fuel dev block => Fs.bread fuel dev block
  | .brelse buf => do
      Fs.brelse buf
      return none
  | .syncDev fuel dev => do
      Fs.syncDev fuel dev
      return none

/-- The tasks: each remembers how many references it holds to each buffer, and
releases no others. -/
def cacheClient : Client Kernel (Option Nat) where
  Call := CacheCall
  Memory := Nat → Nat
  enabled := fun memory call =>
    match call with
    | .brelse (some bh) => 0 < memory bh
    | _ => True
  program := CacheCall.program
  finish := fun memory call value =>
    match call with
    | .brelse buf => memory - held buf
    | .syncDev _ _ => memory
    | _ => held value + memory

/-- What happens between the stretches: a driver completes a request, or an
interrupt unlocks some buffer. -/
inductive Device : Kernel → Kernel → Prop where
  | complete (kernel : Kernel) (major : Nat) (success : Bool) :
      Device kernel (complete major success kernel)
  | unlock (kernel : Kernel) (bh : Nat) (uptodate : Bool) :
      Device kernel (kernel.setBuffer bh
        { kernel.buffers bh with uptodate, lock := false })

theorem Device.quiet {kernel next : Kernel} (acts : Device kernel next) :
    Quiet kernel next := by
  cases acts with
  | complete major success => exact complete_quiet major success kernel
  | unlock bh uptodate => exact Quiet.setBuffer

/-- What is promised of the calls. -/
def CacheCall.promise : CacheCall → Option Nat → Kernel → Prop
  | .getblk _ dev block, value, kernel =>
      ∃ bh, value = some bh ∧ IsFor dev block bh kernel
  | _, _, _ => True

theorem held_le {memory : Nat → Nat} {buf : Option Nat}
    (enabled : cacheClient.enabled memory (.brelse buf)) :
    held buf + (memory - held buf) = memory := by
  funext bh
  simp only [Pi.add_apply, Pi.sub_apply]
  cases buf with
  | none => exact Nat.zero_add _
  | some own =>
      by_cases here : bh = own
      · subst here
        have isHeld : 0 < memory bh := enabled
        show one bh bh + (memory bh - one bh bh) = memory bh
        rw [one_same]
        omega
      · show one own bh + (memory bh - one own bh) = memory bh
        rw [one_other here, Nat.zero_add, Nat.sub_zero]

/-- A triple that ends in a fixed value. -/
theorem triple_then {program : Sys Unit} {before : Nat → Nat}
    (triple : Triple (references size) (fun _ => True) before program
      (fun _ => 0) (fun _ _ => True)) (value : Option Nat) :
    Triple (references size) (fun _ => True) before
      (program >>= fun _ => pure value) (fun _ => 0) (fun _ _ => True) :=
  triple_bind triple fun _ => neutral_pure value

/-- A triple run by a task that owns `memory`. -/
theorem run_owned {program : Sys (Option Nat)} {before : Nat → Nat}
    {after : Option Nat → Nat → Nat} {post : Option Nat → Kernel → Prop}
    (triple : Triple (references size) (fun _ => True) before program after
      post)
    {memory frame others : Nat → Nat} {state : Kernel}
    (split : before + frame = memory)
    (allowed : Counted size (memory + others) state) :
    program.Safe (references size)
      (fun mine _ value next => mine = after value + frame ∧ post value next)
      others state state := by
  subst split
  exact triple.run frame others state trivial allowed

theorem cacheClient_verified (size : Nat) :
    Verified cacheClient (references size) Device (fun memory => memory)
      CacheCall.promise where
  call := by
    intro memory call others state enabled allowed
    have gets (fuel : Nat) : Gets size (getblk fuel) := getblk_triple fuel
    cases call with
    | getblk fuel dev block =>
        have triple : Triple (references size) (fun _ => True) 0
            (CacheCall.program (.getblk fuel dev block)) held
            (CacheCall.promise (.getblk fuel dev block)) :=
          triple_bind (gets fuel dev block) fun bh =>
            triple_pure (fun _ isFor => ⟨bh, rfl, isFor⟩) rfl
        exact run_owned triple (zero_add _) allowed
    | getHashTable fuel dev block =>
        have triple : Triple (references size) (fun _ => True) 0
            (getHashTable fuel dev block) held (fun _ _ => True) :=
          triple_weaken (getHashTable_triple fuel dev block)
            (fun _ holds => holds) fun _ _ _ => trivial
        exact run_owned triple (zero_add _) allowed
    | bread fuel dev block =>
        have triple := breadWith_triple (gets fuel) dev block
        exact run_owned triple (zero_add _) allowed
    | brelse buf =>
        have triple := @triple_then size _ _ (brelse_triple buf) none
        apply Run.Safe.weaken (run_owned triple (held_le enabled) allowed)
        rintro mine _ value next _ ⟨owned, _⟩
        exact ⟨owned.trans (zero_add _), trivial⟩
    | syncDev fuel dev =>
        have triple := triple_then (syncDevWith_neutral (gets fuel) fuel dev) none
        apply Run.Safe.weaken (run_owned triple (zero_add _) allowed)
        rintro mine _ value next _ ⟨owned, _⟩
        exact ⟨owned.trans (zero_add _), trivial⟩
  device := by
    intro total state next allowed acts
    exact ⟨Counted.quiet allowed acts.quiet,
      fun owned => acts.quiet.same.holds owned⟩

theorem bufferInit_counted (some : 0 < size) (memory : Nat → Buffer)
    (kernel : Kernel) : Counted size 0 (bufferInit size memory kernel) where
  nrBuffers := rfl
  lists := bufferInit_lists some memory kernel
  counts := fun _ _ => rfl
  small := fun _ _ => Nat.zero_le 255
  outside := fun _ _ => rfl

/-- No block is cached twice. -/
def Kernel.NoAliases (kernel : Kernel) : Prop :=
  ∀ first second, first < kernel.nrBuffers → second < kernel.nrBuffers →
    (kernel.buffers first).dev ≠ 0 →
      (kernel.buffers first).dev = (kernel.buffers second).dev →
        (kernel.buffers first).block = (kernel.buffers second).block →
          first = second

/-- Whatever the tasks do and however they are interleaved, no block is
cached twice, and `getblk` returns a held buffer of the block it was asked
for. -/
theorem getblk_coherent {count : Nat} (some : 0 < size)
    (memory : Nat → Buffer) (kernel : Kernel)
    {world : World cacheClient count}
    (reached : Reachable Device (bufferInit size memory kernel) (fun _ => 0)
      world) :
    world.state.NoAliases ∧
      ∀ index (owned : Nat → Nat) fuel dev block value final,
        Stretch world index owned (.getblk fuel dev block)
            (.done value final) →
          ∃ bh, value = Option.some bh ∧ (final.buffers bh).dev = dev ∧
            (final.buffers bh).block = block ∧
            1 ≤ (final.buffers bh).countByte ∧ final.NoAliases := by
  have initial := bufferInit_counted some memory kernel
  constructor
  · obtain ⟨shares, counted, _⟩ :=
      reachable_balanced (cacheClient_verified size) rfl initial reached
    exact (Counted.lists counted).unique
  · intro index owned fuel dev block value final stretch
    obtain ⟨⟨bh, isValue, isFor⟩, total, counted⟩ :=
      reachable_returns (cacheClient_verified size) rfl initial reached stretch
    refine ⟨bh, isValue, isFor.1, isFor.2, ?_, (Counted.lists counted).unique⟩
    have total : Counted size (one bh + (owned + total)) final := by
      rw [← add_assoc]
      rw [isValue] at counted
      exact counted
    obtain ⟨isBuffer, ownCount⟩ := total.holder
    have small := total.small bh isBuffer
    unfold Buffer.countByte
    omega

section Witness

/-- A machine that has not used its devices. -/
def idleKernel : Kernel where
  nrBuffers := 0
  buffers := fun _ =>
    { data := fun _ => 0, block := 0, dev := 0, uptodate := false,
      dirt := false, count := 0, lock := false, prev := none, next := none,
      prevFree := none, nextFree := none }
  hashTable := fun _ => none
  freeList := 0
  requests := fun _ =>
    { dev := none, cmd := .read, sector := 0, nrSectors := 0, bh := 0 }
  queue := fun _ => []
  driver := fun major => if major = 3 then .interrupt else .absent
  disk := fun _ _ => 0
  inodes := fun _ => Inode.zero
  lastInode := 0
  supers := fun _ =>
    { ninodes := 0, nzones := 0, imapBlocks := 0, zmapBlocks := 0,
      firstdatazone := 0, magic := 0, imap := fun _ => none,
      zmap := fun _ => none, dev := 0, isup := none, imount := none,
      lock := false }
  now := 0

/-- A first `getblk` of block 7 of the first hard disk, two tasks. -/
theorem getblk_coherent_firstBlock :
    ∃ final, getblk 2 769 7 (bufferInit 3 idleKernel.buffers idleKernel) =
        .done 0 final ∧
      (final.buffers 0).dev = 769 ∧ (final.buffers 0).block = 7 ∧
      1 ≤ (final.buffers 0).countByte ∧ final.NoAliases := by
  obtain ⟨final, returns⟩ : ∃ final,
      getblk 2 769 7 (bufferInit 3 idleKernel.buffers idleKernel) =
        .done 0 final := ⟨_, rfl⟩
  refine ⟨final, returns, ?_⟩
  have stretch : @Stretch _ _ cacheClient 2
      ⟨bufferInit 3 idleKernel.buffers idleKernel, fun _ => .idle fun _ => 0⟩
      0 (fun _ => 0) (.getblk 2 769 7)
      ((Run.done 0 final).bind fun bh =>
        (pure (some bh) : Sys (Option Nat))) := by
    rw [← returns]
    exact Stretch.call _ _ rfl trivial
  have started : 0 < 3 := by decide
  obtain ⟨_, returned⟩ := getblk_coherent started idleKernel.buffers
    idleKernel (@Reachable.start _ _ cacheClient 2 Device _ _)
  obtain ⟨bh, isValue, holds⟩ := returned 0 _ 2 769 7 (some 0) final stretch
  cases isValue
  exact holds

end Witness

end Linux011.Fs

import Linux011.Library.Kinds
import Linux011.Fs.Bitmaps
import Linux011.Fs.CacheLists

/-!
# What the cache leaves alone

In each stretch the functions of the buffer cache touch no superblock, and
of the in-core inodes only their lock and their dirty bit.  None of them
panics with a message of `_bmap`.
-/

namespace Linux011.Fs

open Coop Prog

/-- The cache only locks inodes and cleans them. -/
structure Aside (kernel next : Kernel) : Prop where
  inodes : ∀ slot, ∃ lock dirt,
    next.inodes slot = { kernel.inodes slot with lock, dirt }
  supers : next.supers = kernel.supers

instance : Steady Aside where
  refl := fun kernel => ⟨fun slot => ⟨_, _, rfl⟩, rfl⟩
  trans := by
    intro first second third left right
    constructor
    · intro slot
      obtain ⟨_, _, leftSlot⟩ := left.inodes slot
      obtain ⟨lock, dirt, rightSlot⟩ := right.inodes slot
      exact ⟨lock, dirt, by rw [rightSlot, leftSlot]⟩
    · exact right.supers.trans left.supers

namespace Aside

theorem elsewhere {kernel next : Kernel}
    (inodes : next.inodes = kernel.inodes)
    (supers : next.supers = kernel.supers) : Aside kernel next where
  inodes := by
    intro slot
    rw [inodes]
    exact ⟨_, _, rfl⟩
  supers := supers

theorem setInode (kernel : Kernel) (slot : Nat) (lock dirt : Bool) :
    Aside kernel
      (kernel.setInode slot { kernel.inodes slot with lock, dirt }) where
  inodes := by
    intro other
    by_cases same : other = slot
    · subst same
      exact ⟨lock, dirt, by simp [Kernel.setInode]⟩
    · exact ⟨(kernel.inodes other).lock, (kernel.inodes other).dirt,
        by simp [Kernel.setInode, same]⟩
  supers := rfl

/-- The pointer structures of the cache are no part of the table. -/
theorem bare {kernel next : Kernel} (same : next.bare = kernel.bare) :
    Aside kernel next := by
  apply elsewhere
  · show next.bare.inodes = kernel.bare.inodes
    rw [same]
  · show next.bare.supers = kernel.bare.supers
    rw [same]

end Aside

theorem transfer_aside (slot : Nat) (kernel : Kernel) :
    Aside kernel (transfer slot kernel) := by
  unfold transfer
  dsimp only
  split <;> exact Aside.elsewhere rfl rfl

theorem endRequest_aside (major : Nat) (uptodate : Bool) (kernel : Kernel) :
    Aside kernel (endRequest major uptodate kernel) := by
  unfold endRequest
  split <;> exact Aside.elsewhere rfl rfl

theorem complete_aside (major : Nat) (success : Bool) (kernel : Kernel) :
    Aside kernel (complete major success kernel) := by
  unfold complete
  split
  · exact Steady.refl kernel
  · split
    · exact Steady.trans (transfer_aside _ kernel) (endRequest_aside _ _ _)
    · exact endRequest_aside _ _ _

theorem addRequest_aside (major slot : Nat) (kernel : Kernel) :
    Aside kernel (addRequest major slot kernel) := by
  unfold addRequest
  dsimp only
  split
  · unfold requestFn
    split
    · refine Steady.trans ?_ (complete_aside _ _ _)
      exact Aside.elsewhere rfl rfl
    · exact Aside.elsewhere rfl rfl
  · exact Aside.elsewhere rfl rfl

/-! ## The functions of the cache -/

/-- The message is not one that `_bmap` complains of a block number with. -/
def NotOfMapper (message : String) : Prop :=
  message ≠ "_bmap: block<0" ∧ message ≠ "_bmap: block>big"

instance : DecidablePred NotOfMapper := fun _ =>
  inferInstanceAs (Decidable (_ ∧ _))

/-- A kind of programs that the functions of the cache belong to. -/
abbrev CacheKind (kind : (α : Type) → Sys α → Prop) : Prop :=
  Prog.Kind Aside NotOfMapper kind

section Functions

variable {kind : (α : Type) → Sys α → Prop}

theorem CacheKind.onBuffer (kinds : CacheKind kind) (bh : Nat)
    (change : Buffer → Buffer) : kind Unit (onBuffer bh change) :=
  kinds.modify fun _ => Aside.elsewhere rfl rfl

theorem CacheKind.fileRequest (kinds : CacheKind kind) (major slot bh : Nat)
    (rw : Rw) : kind Unit (fileRequest major slot bh rw) := by
  apply kinds.modify
  intro kernel
  refine Steady.trans ?_ (addRequest_aside _ _ _)
  exact Aside.elsewhere rfl rfl

theorem CacheKind.submit (kinds : CacheKind kind) (major : Nat) (ahead : Bool)
    (rw : Rw) (bh : Nat) : kind Unit (submit major ahead rw bh) := by
  apply kinds.get
  intro kernel
  split
  · exact kinds.onBuffer _ _
  · split
    · exact kinds.fileRequest _ _ _ _
    · split
      · exact kinds.onBuffer _ _
      · apply kinds.bind kinds.waitUntil
        intro _
        apply kinds.get
        intro kernel
        split
        · exact kinds.fileRequest _ _ _ _
        · exact kinds.spent

theorem CacheKind.llRwBlock (kinds : CacheKind kind) (rw : Rw) (bh : Nat) :
    kind Unit (llRwBlock rw bh) := by
  apply kinds.get
  intro kernel
  dsimp only
  split
  · exact kinds.pure
  · split
    · exact kinds.pure
    · apply kinds.get
      intro kernel
      split
      · exact kinds.pure
      · refine kinds.bind (kinds.bind kinds.waitUntil ?_) ?_
        · exact fun _ => kinds.onBuffer _ _
        · exact fun _ => kinds.submit _ _ _ _

theorem CacheKind.takeReference (kinds : CacheKind kind) (bh : Nat) :
    kind Unit (takeReference bh) := by
  apply kinds.get
  intro kernel
  dsimp only
  split
  · exact kinds.bind kinds.cross fun _ => kinds.onBuffer _ _
  · exact kinds.onBuffer _ _

theorem CacheKind.getHashTable (kinds : CacheKind kind) (fuel dev block : Nat) :
    kind _ (getHashTable fuel dev block) := by
  induction fuel with
  | zero => exact kinds.spent
  | succ fuel induction =>
      apply kinds.get
      intro kernel
      split
      · exact kinds.pure
      · apply kinds.bind (kinds.takeReference _)
        intro _
        apply kinds.bind kinds.waitUntil
        intro _
        apply kinds.get
        intro kernel
        split
        · exact kinds.pure
        · exact kinds.bind (kinds.onBuffer _ _) fun _ => induction

theorem CacheKind.brelse (kinds : CacheKind kind) (buf : Option Nat) :
    kind Unit (brelse buf) := by
  cases buf with
  | none => exact kinds.pure
  | some bh =>
      apply kinds.bind kinds.waitUntil
      intro _
      apply kinds.get
      intro kernel
      split
      · exact kinds.panic (by decide)
      · exact kinds.onBuffer _ _

theorem CacheKind.getSuper (kinds : CacheKind kind) (dev fuel : Nat) :
    kind _ (getSuper dev fuel) := by
  induction fuel with
  | zero => exact kinds.spent
  | succ fuel induction =>
      unfold Fs.getSuper
      split
      · exact kinds.pure
      · apply kinds.get
        intro kernel
        split
        · exact kinds.pure
        · apply kinds.bind kinds.waitUntil
          intro _
          apply kinds.get
          intro kernel
          split
          · exact kinds.pure
          · exact induction

section Circle

variable {getblk : Nat → Nat → Sys Nat}

theorem CacheKind.breadWith (kinds : CacheKind kind)
    (gets : ∀ dev block, kind _ (getblk dev block)) (dev block : Nat) :
    kind _ (breadWith getblk dev block) := by
  apply kinds.bind (gets dev block)
  intro bh
  apply kinds.get
  intro kernel
  split
  · exact kinds.pure
  · apply kinds.bind (kinds.llRwBlock _ _)
    intro _
    apply kinds.bind kinds.waitUntil
    intro _
    apply kinds.get
    intro kernel
    split
    · exact kinds.pure
    · exact kinds.bind (kinds.brelse _) fun _ => kinds.pure

/-- `lock_inode` and `unlock_inode` and the end of a write. -/
theorem CacheKind.setFlags (kinds : CacheKind kind) (index : Nat)
    {change : Inode → Inode}
    (flags : ∀ inode, ∃ lock dirt, change inode = { inode with lock, dirt }) :
    kind Unit (onInode index change) := by
  apply kinds.modify
  intro kernel
  obtain ⟨lock, dirt, same⟩ := flags (kernel.inodes index)
  rw [same]
  exact Aside.setInode _ _ _ _

theorem CacheKind.lockInode (kinds : CacheKind kind) (index : Nat) :
    kind Unit (lockInode index) :=
  kinds.bind kinds.waitUntil fun _ =>
    kinds.setFlags index fun _ => ⟨_, _, rfl⟩

theorem CacheKind.unlockInode (kinds : CacheKind kind) (index : Nat) :
    kind Unit (unlockInode index) :=
  kinds.setFlags index fun _ => ⟨_, _, rfl⟩

theorem CacheKind.writeInodeWith (kinds : CacheKind kind)
    (gets : ∀ dev block, kind _ (getblk dev block)) (fuel index : Nat) :
    kind Unit (writeInodeWith getblk fuel index) := by
  apply kinds.bind (kinds.lockInode index)
  intro _
  apply kinds.get
  intro kernel
  split
  · exact kinds.unlockInode index
  · apply kinds.bind (kinds.getSuper _ _)
    rintro (_ | sb)
    · exact kinds.panic (by decide)
    · apply kinds.get
      intro kernel
      apply kinds.bind (kinds.breadWith gets _ _)
      rintro (_ | bh)
      · exact kinds.panic (by decide)
      · refine kinds.bind (kinds.modify ?_) fun _ => ?_
        · intro kernel
          have stores (buffer : Buffer) :
              Aside kernel (kernel.setBuffer bh buffer) :=
            Aside.elsewhere rfl rfl
          exact Steady.trans (stores _) (Aside.setInode _ index
            (kernel.inodes index).lock false)
        · exact kinds.bind (kinds.brelse _) fun _ => kinds.unlockInode index

theorem CacheKind.syncDevWith (kinds : CacheKind kind)
    (gets : ∀ dev block, kind _ (getblk dev block)) (fuel dev : Nat) :
    kind Unit (syncDevWith getblk fuel dev) := by
  have pass (bh : Nat) : kind Unit (syncPass dev bh) := by
    apply kinds.get
    intro kernel
    split
    · exact kinds.pure
    · apply kinds.bind kinds.waitUntil
      intro _
      apply kinds.get
      intro kernel
      split
      · exact kinds.llRwBlock _ _
      · exact kinds.pure
  have inodes : kind Unit (syncInodesWith getblk fuel) := by
    unfold syncInodesWith
    apply kinds.upTo
    intro index
    apply kinds.bind kinds.waitUntil
    intro _
    apply kinds.get
    intro kernel
    split
    · exact kinds.writeInodeWith gets _ _
    · exact kinds.pure
  apply kinds.get
  intro kernel
  apply kinds.bind (kinds.upTo pass)
  intro _
  exact kinds.bind inodes fun _ => kinds.upTo pass

theorem CacheKind.cleanWith (kinds : CacheKind kind)
    (gets : ∀ dev block, kind _ (getblk dev block)) (fuel bh rounds : Nat) :
    kind _ (cleanWith getblk fuel bh rounds) := by
  induction rounds with
  | zero => exact kinds.spent
  | succ rounds induction =>
      apply kinds.get
      intro kernel
      split
      · exact kinds.pure
      · apply kinds.bind (kinds.syncDevWith gets _ _)
        intro _
        apply kinds.bind kinds.waitUntil
        intro _
        apply kinds.get
        intro kernel
        split
        · exact kinds.pure
        · exact induction

end Circle

theorem CacheKind.claimBuffer (kinds : CacheKind kind) (bh dev block : Nat) :
    kind Unit (claimBuffer bh dev block) := by
  have removes : kind Unit (removeFromQueues bh) := by
    apply kinds.bind (kinds.modify fun kernel => Aside.bare (unhash_bare bh kernel))
    intro _
    apply kinds.get
    intro kernel
    split
    · exact kinds.panic (by decide)
    · exact kinds.modify fun kernel => Aside.bare (unlinkFree_bare bh kernel)
  have inserts : kind Unit (insertIntoQueues bh) := by
    apply kinds.modify
    intro kernel
    exact Aside.bare ((enhash_bare bh _).trans (linkFree_bare bh kernel))
  apply kinds.bind (kinds.onBuffer _ _)
  intro _
  apply kinds.bind removes
  intro _
  exact kinds.bind (kinds.onBuffer _ _) fun _ => inserts

theorem CacheKind.getblk (kinds : CacheKind kind) (fuel dev block : Nat) :
    kind _ (getblk fuel dev block) := by
  induction fuel generalizing dev block with
  | zero => exact kinds.spent
  | succ fuel induction =>
      apply kinds.bind (kinds.getHashTable _ _ _)
      rintro (_ | bh)
      · apply kinds.get
        intro kernel
        split
        · exact kinds.bind kinds.sleep fun _ => induction _ _
        · apply kinds.bind kinds.waitUntil
          intro _
          apply kinds.get
          intro kernel
          split
          · exact induction _ _
          · apply kinds.bind (kinds.cleanWith induction _ _ _)
            intro clean
            split
            · exact induction _ _
            · apply kinds.get
              intro kernel
              split
              · exact induction _ _
              · exact kinds.bind (kinds.claimBuffer _ _ _) fun _ =>
                  kinds.pure
      · exact kinds.pure

theorem CacheKind.bread (kinds : CacheKind kind) (fuel dev block : Nat) :
    kind _ (bread fuel dev block) :=
  kinds.breadWith (kinds.getblk fuel) dev block

theorem CacheKind.newBlock (kinds : CacheKind kind) (fuel dev : Nat) :
    kind _ (newBlock fuel dev) := by
  apply kinds.bind (kinds.getSuper _ _)
  rintro (_ | sb)
  · exact kinds.panic (by decide)
  · apply kinds.get
    intro kernel
    dsimp only
    split
    · exact kinds.pure
    · split
      · exact kinds.panic (by decide)
      · apply kinds.bind (kinds.onBuffer _ _)
        intro _
        split
        · exact kinds.pure
        · apply kinds.bind (kinds.unmarked (kinds.getblk _ _ _))
          intro bh
          apply kinds.get
          intro kernel
          split
          · exact kinds.panic (by decide)
          · apply kinds.bind (kinds.onBuffer _ _)
            intro _
            exact kinds.bind (kinds.brelse _) fun _ => kinds.pure

end Functions

/-! ## They keep aside -/

/-- The programs that keep aside. -/
theorem cacheKind_aside : CacheKind fun _ program => program.Within Aside :=
  kind_within

theorem onBuffer_within (bh : Nat) (change : Buffer → Buffer) :
    (onBuffer bh change).Within Aside :=
  cacheKind_aside.onBuffer bh change

theorem getHashTable_within (fuel dev block : Nat) :
    (getHashTable fuel dev block).Within Aside :=
  cacheKind_aside.getHashTable fuel dev block

theorem brelse_within (buf : Option Nat) : (brelse buf).Within Aside :=
  cacheKind_aside.brelse buf

theorem getSuper_within (dev fuel : Nat) : (getSuper dev fuel).Within Aside :=
  cacheKind_aside.getSuper dev fuel

theorem lockInode_within (index : Nat) : (lockInode index).Within Aside :=
  cacheKind_aside.lockInode index

theorem unlockInode_within (index : Nat) : (unlockInode index).Within Aside :=
  cacheKind_aside.unlockInode index

theorem getblk_within (fuel dev block : Nat) :
    (getblk fuel dev block).Within Aside :=
  cacheKind_aside.getblk fuel dev block

theorem bread_within (fuel dev block : Nat) :
    (bread fuel dev block).Within Aside :=
  cacheKind_aside.bread fuel dev block

theorem writeInode_within (fuel index : Nat) :
    (writeInode fuel index).Within Aside :=
  cacheKind_aside.writeInodeWith (getblk_within fuel) fuel index

theorem syncDev_within (fuel dev : Nat) : (syncDev fuel dev).Within Aside :=
  cacheKind_aside.syncDevWith (getblk_within fuel) fuel dev

end Linux011.Fs

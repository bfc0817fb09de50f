import Linux011.Fs.CacheFrame
import Linux011.Fs.Namei

/-!
# What looking up and truncating leave alone

Of an in-core inode that it does not take or put, a task changes neither the
number, the references nor the mount flag; and it changes no superblock.
-/

namespace Linux011.Fs

open Coop Prog

/-- The inode is the same one, with as many references. -/
structure Inode.Same (inode next : Inode) : Prop where
  dev : next.dev = inode.dev
  num : next.num = inode.num
  count : next.count = inode.count
  mount : next.mount = inode.mount

theorem Inode.Same.refl (inode : Inode) : inode.Same inode :=
  ⟨rfl, rfl, rfl, rfl⟩

/-- Every inode is the same, and so are the superblocks. -/
structure Anchored (kernel next : Kernel) : Prop where
  inodes : ∀ slot, (kernel.inodes slot).Same (next.inodes slot)
  supers : next.supers = kernel.supers

instance : Steady Anchored where
  refl := fun kernel => ⟨fun _ => .refl _, rfl⟩
  trans := by
    intro first second third left right
    constructor
    · intro slot
      have toSecond := left.inodes slot
      have toThird := right.inodes slot
      exact ⟨toThird.dev.trans toSecond.dev, toThird.num.trans toSecond.num,
        toThird.count.trans toSecond.count, toThird.mount.trans toSecond.mount⟩
    · exact right.supers.trans left.supers

theorem Aside.anchored {kernel next : Kernel} (aside : Aside kernel next) :
    Anchored kernel next where
  inodes := by
    intro slot
    obtain ⟨_, _, same⟩ := aside.inodes slot
    rw [same]
    exact ⟨rfl, rfl, rfl, rfl⟩
  supers := aside.supers

section Anchors

variable {α : Type}

theorem aside_anchored {program : Sys α} (within : program.Within Aside) :
    program.Within Anchored :=
  within.widen fun _ _ => Aside.anchored

theorem unmarked_anchored {program : Sys α} (within : program.Within Aside) :
    program.unmarked.Within Anchored :=
  (aside_anchored within).unmarked

theorem onInode_anchored (index : Nat) {change : Inode → Inode}
    (same : ∀ inode : Inode, Inode.Same inode (change inode)) :
    (onInode index change).Within Anchored := by
  apply within_modify
  intro kernel
  refine ⟨fun slot => ?_, rfl⟩
  show (kernel.inodes slot).Same
    (if slot = index then change (kernel.inodes index) else kernel.inodes slot)
  split <;> rename_i here
  · rw [here]
    exact same _
  · exact .refl _

theorem brelse_anchored (buf : Option Nat) : (brelse buf).Within Anchored :=
  aside_anchored (brelse_within buf)

theorem bread_anchored (fuel dev block : Nat) :
    (bread fuel dev block).unmarked.Within Anchored :=
  unmarked_anchored (bread_within fuel dev block)

theorem getSuper_anchored (dev fuel : Nat) :
    (getSuper dev fuel).Within Anchored :=
  aside_anchored (getSuper_within dev fuel)

/-! ## The maps -/

theorem storeMap_anchored (bh : Nat) (change : Block → Block) :
    (storeMap bh change).Within Anchored :=
  aside_anchored (onBuffer_within bh _)

theorem releaseBit_anchored (map : Option Nat) (bit : Nat) {onClear : Sys Unit}
    (clear : onClear.Within Anchored) :
    (releaseBit map bit onClear).Within Anchored := by
  unfold releaseBit
  split
  · exact keeps_panic
  · apply within_get
    intro kernel
    refine within_bind ?_ fun _ => storeMap_anchored _ _
    split
    · exact clear
    · exact within_pure ()

theorem freeBlock_anchored (fuel dev block : Nat) :
    (freeBlock fuel dev block).Within Anchored := by
  apply within_bind (getSuper_anchored _ _)
  rintro (_ | sb)
  · exact keeps_panic
  · apply within_get
    intro kernel
    split
    · exact keeps_panic
    · have release : (do
            let kernel ← Prog.get
            let super := kernel.supers sb
            let nr := block + 1 - super.firstdatazone
            releaseBit (super.zmap (nr / 8192)) (nr % 8192)
              (Prog.panic "free_block: bit already cleared")
            : Sys Unit).Within Anchored :=
        within_get fun _ => releaseBit_anchored _ _ keeps_panic
      apply within_bind (unmarked_anchored (getHashTable_within _ _ _))
      rintro (_ | bh)
      · exact release
      · apply within_get
        intro kernel
        split
        · exact within_cross
        · apply within_bind (aside_anchored (onBuffer_within _ _))
          intro _
          apply within_bind (brelse_anchored _)
          exact fun _ => release

/-! ## Truncation -/

theorem freeTree_anchored {free : Nat → Sys Unit}
    (frees : ∀ zone, (free zone).Within Anchored) (fuel dev block : Nat) :
    (freeTree free fuel dev block).Within Anchored := by
  unfold freeTree
  split
  · exact within_pure ()
  · refine within_bind ?_ fun _ => freeBlock_anchored _ _ _
    apply within_bind (bread_anchored _ _ _)
    rintro (_ | bh)
    · exact within_pure ()
    · refine within_bind (within_upTo fun entry => ?_) fun _ =>
        brelse_anchored _
      apply within_get
      intro kernel
      dsimp only
      split
      · exact frees _
      · exact within_pure ()

theorem truncate_anchored (fuel index : Nat) :
    (truncate fuel index).Within Anchored := by
  apply within_get
  intro kernel
  split
  · exact within_pure ()
  · refine within_bind (within_upTo fun entry => ?_) fun _ => ?_
    · apply within_get
      intro kernel
      dsimp only
      split
      · apply within_bind (freeBlock_anchored _ _ _)
        exact fun _ => onInode_anchored index fun _ => ⟨rfl, rfl, rfl, rfl⟩
      · exact within_pure ()
    · apply within_get
      intro kernel
      apply within_bind (freeTree_anchored (freeBlock_anchored _ _) _ _ _)
      intro _
      apply within_get
      intro kernel
      apply within_bind (freeTree_anchored (fun zone =>
        freeTree_anchored (freeBlock_anchored _ _) _ _ zone) _ _ _)
      intro _
      apply within_get
      intro kernel
      exact onInode_anchored index fun _ => ⟨rfl, rfl, rfl, rfl⟩

/-! ## The inode table -/

theorem writeInode_anchored (fuel index : Nat) :
    (writeInode fuel index).Within Anchored :=
  aside_anchored (writeInode_within fuel index)

theorem readInode_anchored (fuel index : Nat) :
    (readInode fuel index).Within Anchored := by
  apply within_bind (aside_anchored (lockInode_within index))
  intro _
  apply within_get
  intro kernel
  apply within_bind (getSuper_anchored _ _)
  rintro (_ | sb)
  · exact keeps_panic
  · apply within_get
    intro kernel
    apply within_bind (bread_anchored _ _ _)
    rintro (_ | bh)
    · exact keeps_panic
    · apply within_get
      intro kernel
      refine within_bind (onInode_anchored index fun _ => ?_) fun _ => ?_
      · exact ⟨rfl, rfl, rfl, rfl⟩
      · apply within_bind (brelse_anchored _)
        exact fun _ => aside_anchored (unlockInode_within index)

theorem cleanInode_anchored (fuel index rounds : Nat) :
    (cleanInode fuel index rounds).Within Anchored := by
  induction rounds with
  | zero => exact keeps_spent
  | succ rounds induction =>
      apply within_get
      intro kernel
      split
      · exact within_pure ()
      · apply within_bind (writeInode_anchored fuel index).unmarked
        intro _
        exact within_bind (within_waitUntil _) fun _ => induction

/-! ## Directories -/

/-- The inodes keep all but their zones, two flags and `i_ctime`. -/
structure Remapped (kernel next : Kernel) : Prop where
  inodes : ∀ slot, ∃ lock dirt zone ctime,
    next.inodes slot = { kernel.inodes slot with lock, dirt, zone, ctime }
  supers : next.supers = kernel.supers

theorem Aside.remapped {kernel next : Kernel} (aside : Aside kernel next) :
    Remapped kernel next where
  inodes := by
    intro slot
    obtain ⟨lock, dirt, same⟩ := aside.inodes slot
    exact ⟨lock, dirt, _, _, same⟩
  supers := aside.supers

theorem Remapped.anchored {kernel next : Kernel} (remapped : Remapped kernel next) :
    Anchored kernel next where
  inodes := by
    intro slot
    obtain ⟨_, _, _, _, same⟩ := remapped.inodes slot
    rw [same]
    exact ⟨rfl, rfl, rfl, rfl⟩
  supers := remapped.supers

/-- A kind of programs that `_bmap` belongs to, where it does not panic. -/
abbrev MapperKind (kind : (α : Type) → Sys α → Prop) : Prop :=
  Prog.Kind Remapped NotOfMapper kind

section Mapper

variable {kind : (α : Type) → Sys α → Prop}

theorem MapperKind.cache (kinds : MapperKind kind) : CacheKind kind :=
  kinds.narrow fun _ _ => Aside.remapped

theorem MapperKind.createZone (kinds : MapperKind kind)
    (fuel index entry : Nat) (create : Bool) :
    kind _ (createZone fuel index entry create) := by
  apply kinds.get
  intro kernel
  split
  · apply kinds.bind (kinds.cache.newBlock _ _)
    intro block
    apply kinds.get
    intro kernel
    apply kinds.modify
    intro kernel
    refine ⟨fun slot => ?_, rfl⟩
    show ∃ lock dirt zone ctime, (if slot = index then _
      else kernel.inodes slot) = { kernel.inodes slot with lock, dirt, zone, ctime }
    split <;> rename_i here
    · rw [here]
      dsimp only
      split <;> exact ⟨_, _, _, _, rfl⟩
    · exact ⟨_, _, _, _, rfl⟩
  · exact kinds.pure

theorem MapperKind.throughBlock (kinds : MapperKind kind)
    (fuel index block entry : Nat) (create : Bool) :
    kind _ (throughBlock fuel index block entry create) := by
  have finds (bh : Nat) : kind _ (indirectEntry fuel index bh entry create) := by
    apply kinds.get
    intro kernel
    dsimp only
    split
    · apply kinds.bind (kinds.cache.newBlock _ _)
      intro block
      split
      · exact kinds.pure
      · exact kinds.bind (kinds.cache.onBuffer _ _) fun _ => kinds.pure
    · exact kinds.pure
  apply kinds.get
  intro kernel
  apply kinds.bind (kinds.unmarked (kinds.cache.bread _ _ _))
  rintro (_ | bh)
  · exact kinds.pure
  · apply kinds.bind (finds bh)
    intro found
    exact kinds.bind (kinds.cache.brelse _) fun _ => kinds.pure

/-- The blocks that `_bmap` can map. -/
def mappedBlocks : Nat := 7 + 512 + 512 * 512

theorem MapperKind.bmapWith (kinds : MapperKind kind) (create : Bool)
    (fuel index : Nat) {block : Nat}
    (refused : mappedBlocks ≤ block →
      kind Nat (Prog.panic "_bmap: block>big")) :
    kind _ (bmapWith create fuel index block) := by
  unfold Fs.bmapWith
  split <;> rename_i tooBig
  · exact refused tooBig
  split
  · apply kinds.bind (kinds.createZone _ _ _ _)
    intro _
    exact kinds.get fun _ => kinds.pure
  split
  · apply kinds.bind (kinds.createZone _ _ _ _)
    intro _
    apply kinds.get
    intro kernel
    split
    · exact kinds.pure
    · exact kinds.throughBlock _ _ _ _ _
  · apply kinds.bind (kinds.createZone _ _ _ _)
    intro _
    apply kinds.get
    intro kernel
    split
    · exact kinds.pure
    · apply kinds.bind (kinds.throughBlock _ _ _ _ _)
      intro middle
      split
      · exact kinds.pure
      · exact kinds.throughBlock _ _ _ _ _

end Mapper

theorem bmapWith_anchored (create : Bool) (fuel index block : Nat) :
    (bmapWith create fuel index block).Within Anchored :=
  have anchors : Prog.Kind Anchored NotOfMapper fun _ program =>
      program.Within Anchored := kind_within
  have kinds : MapperKind fun _ program => program.Within Anchored :=
    anchors.narrow fun _ _ => Remapped.anchored
  kinds.bmapWith create fuel index fun _ => keeps_panic

theorem readBlock_anchored (fuel dir block : Nat) :
    (readBlock fuel dir block).Within Anchored := by
  apply within_get
  intro kernel
  split
  · exact within_pure none
  · exact bread_anchored _ _ _

theorem findLoop_anchored (fuel dir entries : Nat) (name : List UInt8)
    (rounds : Nat) (bh : Option Nat) (de i : Nat) :
    (findLoop fuel dir entries name rounds bh de i).Within Anchored := by
  induction rounds generalizing bh de i with
  | zero => exact keeps_spent
  | succ rounds induction =>
      have compares (bh de : Nat) : (compareEntry name (fun bh de =>
          findLoop fuel dir entries name rounds (some bh) de (i + 1))
          bh de).Within Anchored := by
        apply within_get
        intro kernel
        split
        · exact within_pure _
        · exact induction _ _ _
      unfold findLoop
      split
      · exact within_bind (brelse_anchored _) fun _ => within_pure none
      · dsimp only
        split
        · exact compares _ _
        · apply within_bind (brelse_anchored _)
          intro _
          apply within_bind (bmapWith_anchored _ _ _ _)
          intro block
          apply within_bind (readBlock_anchored _ _ _)
          rintro (_ | bh)
          · exact induction _ _ _
          · exact compares _ _

end Anchors

end Linux011.Fs

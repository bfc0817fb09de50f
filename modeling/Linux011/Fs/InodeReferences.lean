import Linux011.Fs.CacheReferences
import Linux011.Fs.InodeTable

/-!
# The references of a call to inodes

The maps, truncation and the inode table leave their caller with the buffers
it held; `iget` and `new_inode` give it an inode and `iput` takes one.  Where
`free_block` finds a block in use this is not so, and runs are followed only
up to there.
-/

namespace Linux011.Fs

open Coop Prog

section References

variable {base : Kernel} {bufs inodes : List Nat} {fate : Fate} {α : Type}

namespace Keeping

/-- A change of the count of an inode. -/
theorem resettle {kernel : Kernel} {slots : List Nat} {index : Nat}
    {inode : Inode} (holding : Keeping base bufs inodes kernel)
    (own : inode.count = (base.inodes index).count + slots.count index)
    (beside : ∀ other, other ≠ index →
      slots.count other = inodes.count other) :
    Keeping base bufs slots (kernel.setInode index inode) where
  size := holding.size
  lists := holding.lists.congr
    (SameLists.elsewhere rfl rfl rfl rfl :
      SameLists kernel (kernel.setInode index inode))
  buffer := holding.buffer
  inode := by
    intro slot
    by_cases here : slot = index
    · subst here
      simpa [Kernel.setInode] using own
    · rw [beside slot here, ← holding.inode]
      simp [Kernel.setInode, here]

theorem inodeSmall {kernel : Kernel} (holding : Keeping base bufs inodes kernel)
    (room : HasRoom base) (slot : Nat) :
    (kernel.inodes slot).count + 8 ≤ 65535 + inodes.length := by
  have bound := room.inode slot
  have most : inodes.count slot ≤ inodes.length := List.count_le_length
  rw [holding.inode]
  omega

end Keeping

theorem takeCount_returns (room : HasRoom base) (few : inodes.length ≤ 7)
    (index : Nat) :
    Hoare fate Interrupts (Keeping base bufs inodes)
      (onInode index Inode.takeCount)
      fun _ => Keeping base bufs (index :: inodes) := by
  apply hoare_modify
  intro kernel holding
  have small := holding.inodeSmall room index
  refine holding.resettle ?_ ?_
  · show ((kernel.inodes index).count + 1) % 65536 = _
    rw [List.count_cons_self, Nat.mod_eq_of_lt (by omega), holding.inode,
      Nat.add_assoc]
  · intro other different
    rw [List.count_cons_of_ne different.symm]

theorem Keeping.dropCount {kernel : Kernel} {index : Nat} {inode : Inode}
    (holding : Keeping base bufs (index :: inodes) kernel)
    (one : inode.count + 1 = (kernel.inodes index).count) :
    Keeping base bufs inodes (kernel.setInode index inode) := by
  refine holding.resettle ?_ ?_
  · have count := holding.inode index
    rw [List.count_cons_self] at count
    omega
  · intro other different
    rw [List.count_cons_of_ne different.symm]

theorem Keeping.positive {kernel : Kernel} {index : Nat}
    (holding : Keeping base bufs (index :: inodes) kernel) :
    (kernel.inodes index).count =
      (base.inodes index).count + inodes.count index + 1 := by
  rw [holding.inode, List.count_cons_self, Nat.add_assoc]

theorem inodeDropCount_returns (room : HasRoom base) (few : inodes.length ≤ 7)
    (index : Nat) :
    Hoare fate Interrupts (Keeping base bufs (index :: inodes))
      (onInode index Inode.dropCount)
      fun _ => Keeping base bufs inodes := by
  apply hoare_modify
  intro kernel holding
  have small := holding.inodeSmall room index
  have positive := holding.positive
  have length : (index :: inodes).length ≤ 8 := Nat.succ_le_succ few
  apply holding.dropCount
  show ((kernel.inodes index).count + 65535) % 65536 + 1 = _
  omega

/-! ## The maps -/

variable (releasing : Releasing fate)

theorem storeMap_returns (bh : Nat) (change : Block → Block) :
    Returns fate base bufs inodes (storeMap bh change) :=
  returns_modify fun _ => setBuffer_undisturbed

include releasing in
theorem releaseBit_returns (map : Option Nat) (bit : Nat) {onClear : Sys Unit}
    (clear : Returns fate base bufs inodes onClear) :
    Returns fate base bufs inodes (releaseBit map bit onClear) := by
  cases map with
  | none => exact hoare_panic (releasing.panic _ (by decide) (by decide))
  | some bh =>
      apply returns_get
      intro kernel
      refine hoare_bind ?_ fun _ => storeMap_returns bh _
      split
      · exact clear
      · exact returns_pure ()

variable (room : HasRoom base) (crossed : fate.crossed)

include releasing room crossed in
theorem freeBlock_returns (few : bufs.length ≤ 6) (fuel dev block : Nat) :
    Returns fate base bufs inodes (freeBlock fuel dev block) := by
  have stops {message : String}
      (notBuffer : message ≠ "Trying to free free buffer")
      (notInode : message ≠ "iput: trying to free free inode") :
      Returns fate base bufs inodes (Prog.panic message : Sys Unit) :=
    hoare_panic (releasing.panic _ notBuffer notInode)
  apply hoare_bind (getSuper_returns releasing _ _)
  rintro (_ | sb)
  · exact stops (by decide) (by decide)
  · apply returns_get
    intro kernel
    split
    · exact stops (by decide) (by decide)
    · have release : Returns fate base bufs inodes (do
            let kernel ← Prog.get
            let super := kernel.supers sb
            let nr := block + 1 - super.firstdatazone
            releaseBit (super.zmap (nr / 8192)) (nr % 8192)
              (Prog.panic "free_block: bit already cleared") : Sys Unit) :=
        returns_get fun _ => releaseBit_returns releasing _ _
          (stops (by decide) (by decide))
      apply hoare_bind (hoare_unmarked (getHashTable_returns
        releasing.uncrossed room few fuel dev block))
      rintro (_ | bh)
      · exact release
      · apply hoare_read
        intro kernel
        split
        · exact ⟨fun _ _ => crossed⟩
        · refine hoare_bind (returns_modify ?_) fun _ => ?_
          · exact fun _ => setBuffer_undisturbed
          · exact hoare_bind (brelse_returns room few bh) fun _ => release

include releasing room in
theorem newBlock_returns (few : bufs.length ≤ 6) (fuel dev : Nat) :
    Returns fate base bufs inodes (newBlock fuel dev) := by
  apply hoare_bind (getSuper_returns releasing _ _)
  rintro (_ | sb)
  · exact hoare_panic (releasing.panic _ (by decide) (by decide))
  · apply returns_get
    intro kernel
    dsimp only
    split
    · exact returns_pure 0
    · split
      · exact hoare_panic (releasing.panic _ (by decide) (by decide))
      · apply hoare_bind (storeMap_returns _ _)
        intro _
        split
        · exact returns_pure 0
        · apply hoare_bind (hoare_unmarked (getblk_obtains
            releasing.uncrossed room fuel bufs inodes dev _ few))
          intro bh
          apply hoare_read
          intro kernel
          split
          · exact hoare_panic (releasing.panic _ (by decide) (by decide))
          · refine hoare_bind (returns_modify ?_) fun _ => ?_
            · exact fun _ => setBuffer_undisturbed
            · exact hoare_bind (brelse_returns room few bh) fun _ =>
                returns_pure _

/-- The last reference to an inode disappears with the inode. -/
theorem clearInode_returns {index : Nat}
    (last : (base.inodes index).count + inodes.count index = 0) :
    Hoare fate Interrupts (Keeping base bufs (index :: inodes))
      (onInode index fun _ => Inode.zero)
      fun _ => Keeping base bufs inodes := by
  apply hoare_modify
  intro kernel holding
  apply holding.dropCount
  rw [holding.positive, last]
  rfl

include releasing in
theorem freeInode_returns {index : Nat}
    (last : (base.inodes index).count + inodes.count index = 0) (fuel : Nat) :
    Hoare fate Interrupts (Keeping base bufs (index :: inodes))
      (freeInode fuel index) fun _ => Keeping base bufs inodes := by
  have stops {message : String}
      (notBuffer : message ≠ "Trying to free free buffer")
      (notInode : message ≠ "iput: trying to free free inode") :
      Hoare fate Interrupts (Keeping base bufs (index :: inodes))
        (Prog.panic message : Sys Unit) fun _ => Keeping base bufs inodes :=
    hoare_panic (releasing.panic _ notBuffer notInode)
  apply hoare_read
  intro kernel
  dsimp only
  split
  · exact clearInode_returns last
  split
  · exact stops (by decide) (by decide)
  split
  · exact stops (by decide) (by decide)
  apply hoare_bind (getSuper_returns releasing _ _)
  rintro (_ | sb)
  · exact stops (by decide) (by decide)
  apply hoare_read
  intro kernel
  split
  · exact stops (by decide) (by decide)
  split
  · exact stops (by decide) (by decide)
  · apply hoare_bind (releaseBit_returns releasing _ _ (returns_pure ()))
    exact fun _ => clearInode_returns last

/-! ## The inode table -/

include releasing room in
theorem readInode_returns (few : bufs.length ≤ 6) (fuel index : Nat) :
    Returns fate base bufs inodes (readInode fuel index) := by
  apply hoare_bind (lockInode_returns index)
  intro _
  apply returns_get
  intro kernel
  apply hoare_bind (getSuper_returns releasing _ _)
  rintro (_ | sb)
  · exact hoare_panic (releasing.panic _ (by decide) (by decide))
  · apply returns_get
    intro kernel
    apply hoare_bind (bread_returns releasing room few _ _ _)
    rintro (_ | bh)
    · exact hoare_panic (releasing.panic _ (by decide) (by decide))
    · apply hoare_read
      intro kernel
      refine onInode_then (fun _ => ?_) fun _ => rfl
      exact hoare_bind (brelse_returns room few bh) fun _ =>
        unlockInode_returns index

include releasing room crossed in
theorem freeTree_returns {free : Nat → Sys Unit} (few : bufs.length ≤ 5)
    (frees : ∀ bh zone, Returns fate base (bh :: bufs) inodes (free zone))
    (fuel dev block : Nat) :
    Returns fate base bufs inodes (freeTree free fuel dev block) := by
  have less : bufs.length ≤ 6 := Nat.le_succ_of_le few
  unfold freeTree
  split
  · exact returns_pure ()
  · refine hoare_bind ?_ fun _ =>
      freeBlock_returns releasing room crossed less _ _ _
    apply hoare_bind (bread_returns releasing room less _ _ _)
    rintro (_ | bh)
    · exact returns_pure ()
    · refine hoare_bind (hoare_upTo fun entry => ?_) fun _ =>
        brelse_returns room less bh
      apply returns_get
      intro kernel
      dsimp only
      split
      · exact frees bh _
      · exact returns_pure ()

include releasing room crossed in
theorem truncate_returns (few : bufs.length ≤ 4) (fuel index : Nat) :
    Returns fate base bufs inodes (truncate fuel index) := by
  have freeInd_returns {bufs : List Nat} (few : bufs.length ≤ 5)
      (dev block : Nat) :
      Returns fate base bufs inodes (freeInd fuel dev block) :=
    freeTree_returns releasing room crossed few (fun bh _ =>
      freeBlock_returns releasing room crossed
        (show (bh :: bufs).length ≤ 6 from Nat.succ_le_succ few) _ _ _)
      _ _ _
  apply returns_get
  intro kernel
  split
  · exact returns_pure ()
  · refine hoare_bind (hoare_upTo fun entry => ?_) fun _ => ?_
    · apply returns_get
      intro kernel
      dsimp only
      split
      · apply hoare_bind (freeBlock_returns releasing room crossed (by omega) _ _ _)
        exact fun _ => onInode_returns index fun _ => rfl
      · exact returns_pure ()
    · apply returns_get
      intro kernel
      apply hoare_bind (freeInd_returns (by omega) _ _)
      intro _
      apply returns_get
      intro kernel
      apply hoare_bind (freeTree_returns releasing room crossed (by omega)
        (fun bh zone => freeInd_returns
          (show (bh :: bufs).length ≤ 5 from Nat.succ_le_succ few) _ zone) _ _ _)
      intro _
      apply returns_get
      intro kernel
      exact onInode_returns index fun _ => rfl

include releasing room crossed in
theorem iputRepeat_returns (few : bufs.length ≤ 4) (slots : inodes.length ≤ 7)
    (fuel index rounds : Nat) :
    Hoare fate Interrupts (Keeping base bufs (index :: inodes))
      (iputRepeat fuel index rounds) fun _ => Keeping base bufs inodes := by
  have drops := @inodeDropCount_returns base bufs inodes fate room slots index
  induction rounds with
  | zero => exact hoare_spent releasing.spent
  | succ rounds induction =>
      apply hoare_get
      intro kernel holding
      dsimp only
      apply hoare_at holding
      split
      · exact drops
      split
      · rename_i single _
        have last : (base.inodes index).count + inodes.count index = 0 := by
          rw [holding.positive] at single
          omega
        apply hoare_bind (truncate_returns releasing room crossed few fuel index)
        exact fun _ => freeInode_returns releasing last fuel
      split
      · apply hoare_bind (writeInode_returns releasing room (by omega) fuel index)
        intro _
        apply hoare_bind (returns_waitUntil _)
        exact fun _ => induction
      · exact drops

/-- The end of a pipe, or of one of the references to it. -/
theorem dropPipe_returns {index : Nat} :
    Hoare fate Interrupts (Keeping base bufs (index :: inodes))
      (onInode index Inode.dropPipe) fun _ => Keeping base bufs inodes := by
  apply hoare_modify
  intro kernel holding
  have positive := holding.positive
  apply holding.dropCount
  unfold Inode.dropPipe
  split <;> rename_i more
  · show (kernel.inodes index).count - 1 + 1 = _
    omega
  · show 0 + 1 = _
    omega

include releasing room crossed in
theorem iput_returns (few : bufs.length ≤ 4) (slots : inodes.length ≤ 7)
    (fuel index : Nat) :
    Hoare fate Interrupts (Keeping base bufs (index :: inodes))
      (iput fuel (some index)) fun _ => Keeping base bufs inodes := by
  apply hoare_bind (returns_waitUntil _)
  intro _
  apply hoare_get
  intro kernel holding
  have positive := holding.positive
  dsimp only
  rw [if_neg (by omega)]
  apply hoare_at holding
  split
  · exact dropPipe_returns
  split
  · exact inodeDropCount_returns room slots index
  split
  · apply hoare_bind (syncDev_returns releasing room (by omega) _ _)
    intro _
    apply hoare_bind (returns_waitUntil _)
    exact fun _ =>
      iputRepeat_returns releasing room crossed few slots fuel index fuel
  · exact iputRepeat_returns releasing room crossed few slots fuel index fuel

/-- An inode as `get_empty_inode` returns it. -/
def Fresh (index : Nat) (kernel : Kernel) : Prop :=
  kernel.inodes index = { Inode.zero with count := 1 }

theorem holdingFresh_lasts {index : Nat} (kernel next : Kernel)
    (holds : Keeping base bufs inodes kernel ∧ Fresh index kernel)
    (calm : Interrupts kernel next) :
    Keeping base bufs inodes next ∧ Fresh index next := by
  refine ⟨holds.1.keep calm.undisturbed, ?_⟩
  unfold Fresh
  rw [calm.inodes]
  exact holds.2

/-- An inode that has not been used is given back without any further ado. -/
theorem iput_fresh (room : HasRoom base) (slots : inodes.length ≤ 7)
    (fuel index : Nat) :
    Hoare fate Interrupts
      (fun kernel => Keeping base bufs (index :: inodes) kernel ∧
        Fresh index kernel)
      (iput fuel (some index)) fun _ => Keeping base bufs inodes := by
  apply hoare_bind (hoare_waitUntil holdingFresh_lasts)
  intro _
  apply hoare_get
  rintro kernel ⟨⟨holding, fresh⟩, _⟩
  have fresh : kernel.inodes index = { Inode.zero with count := 1 } := fresh
  simp only [fresh, Inode.zero]
  exact hoare_at holding (inodeDropCount_returns room slots index)

include releasing room in
theorem cleanInode_returns (few : bufs.length ≤ 6) (fuel index rounds : Nat) :
    Returns fate base bufs inodes (cleanInode fuel index rounds) := by
  induction rounds with
  | zero => exact hoare_spent releasing.spent
  | succ rounds induction =>
      apply returns_get
      intro kernel
      split
      · exact returns_pure ()
      · apply hoare_bind (writeInode_returns releasing room few fuel index)
        intro _
        apply hoare_bind (returns_waitUntil _)
        exact fun _ => induction

include releasing room in
/-- Nobody has a reference to the inode that `get_empty_inode` returns. -/
theorem getEmptyInode_returns (few : bufs.length ≤ 6) (fuel rounds : Nat) :
    Hoare fate Interrupts (Keeping base bufs inodes) (getEmptyInode fuel rounds)
      fun index kernel => Keeping base bufs (index :: inodes) kernel ∧
        Fresh index kernel := by
  induction rounds with
  | zero => exact hoare_spent releasing.spent
  | succ rounds induction =>
      apply hoare_read
      intro kernel
      dsimp only
      refine hoare_bind (returns_modify ?_) fun _ => ?_
      · exact fun _ => ⟨Quiet.elsewhere rfl rfl rfl rfl, fun _ => rfl⟩
      · split
        · exact hoare_panic (releasing.panic _ (by decide) (by decide))
        · rename_i index _
          apply hoare_bind (returns_waitUntil _)
          intro _
          apply hoare_bind (cleanInode_returns releasing room few fuel index fuel)
          intro _
          apply hoare_get
          intro kernel holding
          split <;> rename_i isUsed
          · exact hoare_at holding induction
          · have unused := not_not.mp isUsed
            rw [holding.inode] at unused
            have takes : Hoare fate Interrupts (fun current => current = kernel)
                (onInode index fun _ => { Inode.zero with count := 1 })
                fun _ next => Keeping base bufs (index :: inodes) next ∧
                  Fresh index next := by
              apply hoare_modify
              rintro state rfl
              refine ⟨holding.resettle ?_ ?_, ?_⟩
              · rw [List.count_cons_self, ← Nat.add_assoc, unused]
              · intro other different
                rw [List.count_cons_of_ne different.symm]
              · simp [Fresh, Kernel.setInode]
            exact hoare_bind takes fun _ => hoare_pure fun _ holds => holds

include releasing room crossed in
theorem igetWith_returns (few : bufs.length ≤ 4) (slots : inodes.length ≤ 6)
    (fuel empty rounds dev nr : Nat) :
    Hoare fate Interrupts (Keeping base bufs (empty :: inodes))
      (igetWith fuel empty rounds dev nr)
      fun index => Keeping base bufs (index :: inodes) := by
  have more (slot : Nat) : (slot :: inodes).length ≤ 7 :=
    Nat.succ_le_succ slots
  induction rounds generalizing dev nr with
  | zero => exact hoare_spent releasing.spent
  | succ rounds induction =>
      apply hoare_read
      intro kernel
      split
      · refine onInode_then (fun _ => ?_) fun _ => rfl
        exact hoare_bind (readInode_returns releasing room (by omega) fuel empty)
          fun _ => hoare_pure fun _ holding => holding
      · rename_i index _
        apply hoare_bind (returns_waitUntil _)
        intro _
        apply hoare_read
        intro kernel
        split
        · exact induction _ _
        · apply hoare_bind (takeCount_returns room (more _) index)
          intro _
          have gives : Hoare fate Interrupts
              (Keeping base bufs (index :: empty :: inodes)) (do
                iput fuel (some empty)
                return index : Sys Nat)
              fun index => Keeping base bufs (index :: inodes) := by
            refine hoare_bind (hoare_pre (iput_returns releasing room crossed
              few (more _) fuel empty) ?_) fun _ =>
              hoare_pure fun _ holding => holding
            exact fun _ holding =>
              holding.reorder (List.Perm.refl _) (List.Perm.swap _ _ _)
          split
          · split
            · exact gives
            · apply hoare_bind (iput_returns releasing room crossed few
                (more _) fuel index)
              intro _
              exact hoare_read fun _ => induction _ _
          · exact gives

include releasing room crossed in
theorem iget_returns (few : bufs.length ≤ 4) (slots : inodes.length ≤ 6)
    (fuel dev nr : Nat) :
    Hoare fate Interrupts (Keeping base bufs inodes) (iget fuel dev nr)
      fun index => Keeping base bufs (index :: inodes) := by
  unfold iget
  split
  · exact hoare_panic (releasing.panic _ (by decide) (by decide))
  · apply hoare_bind (getEmptyInode_returns releasing room (by omega) fuel fuel)
    intro empty
    refine hoare_pre (igetWith_returns releasing room crossed few slots fuel
      empty fuel dev nr) ?_
    exact fun _ holds => holds.1

/-- `get_super` keeps whatever the devices keep. -/
theorem getSuper_keeps (releasing : Releasing fate) {holds : Kernel → Prop}
    (lasts : ∀ kernel next, holds kernel → Interrupts kernel next → holds next)
    (dev fuel : Nat) :
    Hoare fate Interrupts holds (getSuper dev fuel) fun _ => holds := by
  induction fuel with
  | zero => exact hoare_spent releasing.spent
  | succ fuel induction =>
      unfold getSuper
      split
      · exact hoare_pure fun _ holds => holds
      · apply hoare_read
        intro kernel
        split
        · exact hoare_pure fun _ holds => holds
        · refine hoare_bind (hoare_post (hoare_waitUntil lasts)
            fun _ _ waited => waited.1) fun _ => ?_
          apply hoare_read
          intro kernel
          split
          · exact hoare_pure fun _ holds => holds
          · exact induction

include releasing room in
/-- `new_inode`, whatever numbers are in the table. -/
theorem newInode_returns (few : bufs.length ≤ 6) (slots : inodes.length ≤ 6)
    (fuel dev euid egid : Nat) :
    Hoare fate Interrupts (Keeping base bufs inodes)
      (newInode fuel dev euid egid).unmarked
      fun found => Keeping base bufs (found.toList ++ inodes) := by
  apply hoare_unmarked_bind (hoare_unmarked
    (getEmptyInode_returns releasing.uncrossed room few fuel fuel))
  intro index
  apply hoare_unmarked_bind (hoare_unmarked
    (getSuper_keeps releasing.uncrossed holdingFresh_lasts dev fuel))
  rintro (_ | sb)
  · exact hoare_panic (releasing.panic _ (by decide) (by decide))
  · apply hoare_unmarked_get
    rintro kernel ⟨holding, fresh⟩
    have gives : Hoare fate Interrupts (fun current => current = kernel)
        (do
          (iput fuel (some index)).unmarked
          return none : Sys (Option Nat)).unmarked
        fun found => Keeping base bufs (found.toList ++ inodes) := by
      have gives := @iput_fresh base bufs inodes
        { { fate with crossed := False } with crossed := False } room
        (by omega) fuel index
      refine hoare_unmarked_bind (hoare_at ⟨holding, fresh⟩
        (hoare_unmarked (hoare_unmarked gives))) fun _ => ?_
      exact hoare_pure fun _ holding => holding
    split
    · exact gives
    · dsimp only
      split
      · exact gives
      split
      · exact hoare_panic (releasing.panic _ (by decide) (by decide))
      · rename_i block bh bit _ _ _
        have single : 1 =
            (base.inodes index).count + (index :: inodes).count index := by
          rw [← holding.inode]
          have own : kernel.inodes index = { Inode.zero with count := 1 } :=
            fresh
          rw [own]
        have takes : Hoare fate Interrupts (fun current => current = kernel)
            (do
              storeMap bh (setBit bit)
              onInode index fun inode =>
                { inode with
                  count := 1
                  nlinks := 1
                  dev := dev
                  uid := euid
                  gid := egid % 256
                  dirt := true
                  num := (bit + block * 8192) % 65536
                  mtime := kernel.now
                  atime := kernel.now
                  ctime := kernel.now }
              return some index : Sys (Option Nat)).unmarked
            fun found => Keeping base bufs (found.toList ++ inodes) := by
          apply hoare_at holding
          refine hoare_unmarked_bind (hoare_unmarked (storeMap_returns _ _))
            fun _ => ?_
          have settles : Hoare { fate with crossed := False } Interrupts
              (Keeping base bufs (index :: inodes))
              (onInode index fun inode =>
                { inode with
                  count := 1
                  nlinks := 1
                  dev := dev
                  uid := euid
                  gid := egid % 256
                  dirt := true
                  num := (bit + block * 8192) % 65536
                  mtime := kernel.now
                  atime := kernel.now
                  ctime := kernel.now })
              fun _ => Keeping base bufs (index :: inodes) :=
            hoare_modify fun _ holding =>
              holding.resettle single fun _ _ => rfl
          exact hoare_unmarked_bind (hoare_unmarked settles) fun _ =>
            hoare_pure fun _ holding => holding
        split
        · exact hoare_unmarked_cross takes
        · exact takes

end References

end Linux011.Fs

import Linux011.Fs.CacheKeeps
import Linux011.Fs.CacheReferences

/-!
# A task that holds the lock of an inode

`write_inode` and `read_inode` hold the lock of their inode while they call
`bread`.  Where `getblk` then has to clean a buffer, `sync_inodes` waits for
that very lock.  So the calls that return have written out no inode on the
way.
-/

namespace Linux011.Fs

open Coop Prog

/-- An assertion about the in-core inodes, which nobody else changes. -/
structure OnInodes (env : Kernel → Kernel → Prop) (holds : Kernel → Prop) :
    Prop where
  kept : ∀ {kernel next}, holds kernel → next.inodes = kernel.inodes →
    holds next
  lasts : ∀ {kernel next}, env kernel next → next.inodes = kernel.inodes

theorem Kernel.bare_inodes {kernel next : Kernel} (same : next.bare = kernel.bare) :
    next.inodes = kernel.inodes := by
  have bares := congrArg Kernel.inodes same
  exact bares

/-! ## What touches no inode -/

namespace OnInodes

variable {env : Kernel → Kernel → Prop} {holds : Kernel → Prop}
  (only : OnInodes env holds)

include only

theorem modify {change : Kernel → Kernel}
    (same : ∀ kernel, (change kernel).inodes = kernel.inodes) :
    Stays .any env holds (Prog.modify change) :=
  stays_modify fun kernel isHeld => only.kept isHeld (same kernel)

theorem waitUntil (ready : Kernel → Bool) :
    Stays .any env holds (Prog.waitUntil ready) :=
  stays_waitUntil fun _ _ isHeld moved => only.kept isHeld (only.lasts moved)

theorem onBuffer (bh : Nat) (change : Buffer → Buffer) :
    Stays .any env holds (onBuffer bh change) :=
  only.modify fun _ => rfl

theorem llRwBlock (rw : Rw) (bh : Nat) :
    Stays .any env holds (llRwBlock rw bh) :=
  stays_of_within (llRwBlock_interrupts rw bh)
    (fun _ _ isHeld moved => only.kept isHeld moved.inodes)
    fun _ _ isHeld moved => only.kept isHeld (only.lasts moved)

theorem takeReference (bh : Nat) : Stays .any env holds (takeReference bh) := by
  apply stays_read
  intro kernel
  dsimp only
  split
  · exact stays_bind stays_cross fun _ => only.onBuffer bh _
  · exact only.onBuffer bh _

theorem getHashTable (fuel dev block : Nat) :
    Stays .any env holds (getHashTable fuel dev block) := by
  induction fuel with
  | zero => exact stays_spent trivial
  | succ fuel induction =>
      apply stays_read
      intro kernel
      split
      · exact stays_pure
      · apply stays_bind (only.takeReference _)
        intro _
        apply stays_bind (only.waitUntil _)
        intro _
        apply stays_read
        intro kernel
        split
        · exact stays_pure
        · exact stays_bind (only.onBuffer _ _) fun _ => induction

theorem brelse (buf : Option Nat) : Stays .any env holds (brelse buf) := by
  cases buf with
  | none => exact stays_pure
  | some bh =>
      apply stays_bind (only.waitUntil _)
      intro _
      apply stays_read
      intro kernel
      split
      · exact stays_panic trivial
      · exact only.onBuffer bh _

theorem getSuper (dev fuel : Nat) : Stays .any env holds (getSuper dev fuel) := by
  refine hoare_post (getSuper_finds trivial ?_ dev fuel) fun _ _ both => both.1
  exact fun _ _ isHeld moved => only.kept isHeld (only.lasts moved)

theorem breadWith {getblk : Nat → Nat → Sys Nat} {dev block : Nat}
    (gets : Stays .any env holds (getblk dev block)) :
    Stays .any env holds (breadWith getblk dev block) := by
  apply stays_bind gets
  intro bh
  apply stays_read
  intro kernel
  split
  · exact stays_pure
  · apply stays_bind (only.llRwBlock _ _)
    intro _
    apply stays_bind (only.waitUntil _)
    intro _
    apply stays_read
    intro kernel
    split
    · exact stays_pure
    · exact stays_bind (only.brelse _) fun _ => stays_pure

theorem syncPass (dev bh : Nat) : Stays .any env holds (syncPass dev bh) := by
  apply stays_read
  intro kernel
  split
  · exact stays_pure
  · apply stays_bind (only.waitUntil _)
    intro _
    apply stays_read
    intro kernel
    split
    · exact only.llRwBlock _ _
    · exact stays_pure

theorem claimBuffer (bh dev block : Nat) :
    Stays .any env holds (claimBuffer bh dev block) := by
  apply stays_bind (only.onBuffer _ _)
  intro _
  refine stays_bind ?_ fun _ => stays_bind (only.onBuffer _ _) fun _ => ?_
  · apply stays_bind
    · exact only.modify fun kernel => Kernel.bare_inodes (unhash_bare bh kernel)
    · intro _
      apply stays_read
      intro kernel
      split
      · exact stays_panic trivial
      · exact only.modify fun kernel =>
          Kernel.bare_inodes (unlinkFree_bare bh kernel)
  · exact only.modify fun kernel => Kernel.bare_inodes
      ((enhash_bare bh _).trans (linkFree_bare bh kernel))

end OnInodes

/-! ## The lock -/

/-- The inode is locked, by the task that is looked at. -/
def Locks (index : Nat) (kernel : Kernel) : Prop :=
  (kernel.inodes index).lock = true

section Locks

variable {env : Kernel → Kernel → Prop} {index : Nat}
  (only : OnInodes env (Locks index))

theorem locks_onInodes
    (lasts : ∀ {kernel next}, env kernel next → next.inodes = kernel.inodes) :
    OnInodes env (Locks index) where
  kept := by
    intro kernel next isHeld same
    unfold Locks
    rw [same]
    exact isHeld
  lasts := lasts

include only

/-- Whoever waits for the lock waits for ever. -/
theorem waitOnInode_stuck :
    Hoare .any env (Locks index) (waitOnInode index).unmarked
      fun _ _ => False := by
  constructor
  intro kernel isHeld
  have notReady {state : Kernel} (isHeld : Locks index state) :
      (!(state.inodes index).lock) = false := by
    rw [Bool.not_eq_false']
    exact isHeld
  show (if (!(kernel.inodes index).lock) = true then _
    else _ : Run Kernel Unit).unmarked.wp _ _ _
  rw [notReady isHeld]
  intro next moved isReady
  have stillHeld := only.kept isHeld (only.lasts moved)
  have never := (notReady stillHeld).symm.trans isReady
  cases never

section Circle

variable {getblk : Nat → Nat → Sys Nat}
  (gets : ∀ dev block, Stays .any env (Locks index) (getblk dev block))

include gets

/-- Another inode is locked and unlocked; this one cannot be locked. -/
theorem writeInodeWith_locks (fuel other : Nat) :
    Stays .any env (Locks index) (writeInodeWith getblk fuel other) := by
  by_cases here : other = index
  · subst here
    exact hoare_unmarked_stuck (hoare_unmarked_stuck (waitOnInode_stuck only))
  · have changes (change : Inode → Inode) :
        Stays .any env (Locks index) (onInode other change) := by
      refine stays_modify fun kernel isHeld => ?_
      show (if index = other then _ else kernel.inodes index).lock = true
      rw [if_neg (Ne.symm here)]
      exact isHeld
    have unlocks : Stays .any env (Locks index) (unlockInode other) := changes _
    apply stays_bind (stays_bind (only.waitUntil _) fun _ => changes _)
    intro _
    apply stays_read
    intro kernel
    split
    · exact unlocks
    · apply stays_bind (only.getSuper _ _)
      rintro (_ | sb)
      · exact stays_panic trivial
      · apply stays_read
        intro kernel
        apply stays_bind (only.breadWith (gets _ _))
        rintro (_ | bh)
        · exact stays_panic trivial
        · refine stays_bind (stays_modify fun kernel isHeld => ?_) fun _ =>
            stays_bind (only.brelse _) fun _ => unlocks
          show (if index = other then _ else kernel.inodes index).lock = true
          rw [if_neg (Ne.symm here)]
          exact isHeld

/-- The loop over the inode table does not come past the inode. -/
theorem syncInodesWith_stuck (inTable : index < nrInode) (fuel : Nat) :
    Hoare .any env (Locks index) (syncInodesWith getblk fuel).unmarked
      fun _ _ => False := by
  have passes (count : Nat) : Hoare .any env (Locks index)
      (Prog.upTo (fun index => do
        waitOnInode index
        let kernel ← Prog.get
        if (kernel.inodes index).dirt = true ∧
            (kernel.inodes index).pipe = false then
          writeInodeWith getblk fuel index
        else pure ()) count).unmarked
      fun _ kernel => count ≤ index ∧ Locks index kernel := by
    induction count with
    | zero => exact hoare_pure fun _ isHeld => ⟨Nat.zero_le _, isHeld⟩
    | succ count induction =>
        refine hoare_unmarked_bind induction fun _ =>
          hoare_given fun before => ?_
        by_cases here : count = index
        · subst here
          exact hoare_unmarked_stuck (waitOnInode_stuck only)
        · have body : Stays .any env (Locks index) (do
              waitOnInode count
              let kernel ← Prog.get
              if (kernel.inodes count).dirt = true ∧
                  (kernel.inodes count).pipe = false then
                writeInodeWith getblk fuel count
              else pure ()) := by
            apply stays_bind (only.waitUntil _)
            intro _
            apply stays_read
            intro kernel
            split
            · exact writeInodeWith_locks only gets fuel count
            · exact stays_pure
          exact hoare_post body fun _ _ isHeld =>
            ⟨Nat.lt_of_le_of_ne before here, isHeld⟩
  exact hoare_post (passes nrInode) fun _ _ both =>
    absurd inTable (Nat.not_lt_of_le both.1)

theorem syncDevWith_stuck (inTable : index < nrInode) (fuel dev : Nat) :
    Hoare .any env (Locks index) (syncDevWith getblk fuel dev).unmarked
      fun _ _ => False := by
  apply hoare_unmarked_read
  intro kernel
  refine hoare_unmarked_bind (stays_upTo fun bh => only.syncPass dev bh)
    fun _ => ?_
  exact hoare_unmarked_stuck (syncInodesWith_stuck only gets inTable fuel)

/-- So a buffer is found clean or not at all. -/
theorem cleanWith_stuck (inTable : index < nrInode) (fuel bh rounds : Nat)
    {kernel : Kernel} (isHeld : Locks index kernel) :
    Hoare .any env (fun current => current = kernel)
      (cleanWith getblk fuel bh rounds).unmarked fun clean next =>
        clean = true ∧ next = kernel ∧ (kernel.buffers bh).dirt = false := by
  cases rounds with
  | zero => exact hoare_spent trivial
  | succ rounds =>
      apply hoare_unmarked_get
      rintro _ rfl
      split <;> rename_i isClean
      · exact hoare_pure fun _ isNow => ⟨rfl, isNow, isClean⟩
      · exact hoare_unmarked_stuck (hoare_at isHeld
          (syncDevWith_stuck only gets inTable fuel _))

end Circle

theorem getblk_locks (inTable : index < nrInode) (fuel dev block : Nat) :
    Stays .any env (Locks index) (getblk fuel dev block) := by
  induction fuel generalizing dev block with
  | zero => exact stays_spent trivial
  | succ fuel induction =>
      apply stays_bind (only.getHashTable fuel dev block)
      rintro (_ | bh)
      · apply stays_read
        intro kernel
        split
        · refine stays_bind (stays_sleep fun _ _ isHeld moved =>
            only.kept isHeld (only.lasts moved)) fun _ => induction dev block
        · apply stays_bind (only.waitUntil _)
          intro _
          apply hoare_unmarked_get
          intro kernel isHeld
          split
          · exact hoare_at isHeld (induction dev block)
          · refine hoare_unmarked_bind (cleanWith_stuck only induction inTable
              fuel _ fuel isHeld) fun clean => ?_
            refine @hoare_pre _ _ _ _ _ _ _ (Locks index) ?_ ?_
            · split
              · exact induction dev block
              · apply stays_read
                intro kernel
                split
                · exact induction dev block
                · exact stays_bind (only.claimBuffer _ _ _) fun _ => stays_pure
            · rintro _ ⟨_, rfl, _⟩
              exact isHeld
      · exact stays_pure

end Locks

end Linux011.Fs

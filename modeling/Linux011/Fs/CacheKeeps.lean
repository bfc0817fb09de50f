import Linux011.Library.Hoare
import Linux011.Fs.CacheSearch

/-!
# What the functions of the cache keep

An assertion is kept by `getblk` and by all that it calls if each change of
the state in them keeps it.  It may single out buffers that are to be left
alone, and blocks that are not asked for.
-/

namespace Linux011.Fs

open Coop Prog

variable {fate : Fate} {env : Kernel → Kernel → Prop} {size : Nat}
  {holds : Kernel → Prop} {spare : Nat → Prop} {asked : Nat → Nat → Prop}

/-- What `get_super` returns. -/
def SuperFor (dev : Nat) (found : Option Nat) (kernel : Kernel) : Prop :=
  match found with
  | none => dev = 0 ∨ findSuper kernel.supers dev 0 nrSuper = none
  | some sb => dev ≠ 0 ∧ (kernel.supers sb).dev = dev

/-- `get_super` keeps what outlasts a sleep. -/
theorem getSuper_finds (spent : fate.spent)
    (lasts : ∀ kernel next, holds kernel → env kernel next → holds next)
    (dev fuel : Nat) :
    Hoare fate env holds (getSuper dev fuel).unmarked fun found next =>
      holds next ∧ SuperFor dev found next := by
  induction fuel with
  | zero => exact hoare_spent spent
  | succ fuel induction =>
      unfold getSuper
      split <;> rename_i hasDev
      · exact hoare_pure fun _ isHeld => ⟨isHeld, .inl hasDev⟩
      · apply hoare_unmarked_get
        intro kernel isHeld
        split <;> rename_i found
        · apply hoare_pure
          rintro state rfl
          exact ⟨isHeld, .inr found⟩
        · refine hoare_at isHeld (hoare_unmarked_bind
            (stays_waitUntil lasts) fun _ => ?_)
          apply hoare_unmarked_get
          intro kernel isHeld
          split <;> rename_i same
          · apply hoare_pure
            rintro state rfl
            exact ⟨isHeld, hasDev, same⟩
          · exact hoare_at isHeld induction

/-- The ways in which a function of the cache may stop the machine, as long
as the free list is in order. -/
def cachePanics : List String :=
  ["Trying to free free buffer", "trying to write inode without device",
    "unable to read i-node block"]

/-- An assertion that each step keeps.  The task changes and returns only
`spare` buffers, as long as it asks for blocks that are `asked`. -/
structure CacheKeeps (fate : Fate) (env : Kernel → Kernel → Prop) (size : Nat)
    (holds : Kernel → Prop) (spare : Nat → Prop) (asked : Nat → Nat → Prop) :
    Prop where
  spent : fate.spent
  panic : ∀ message ∈ cachePanics, fate.panic message
  lists : ∀ {kernel}, holds kernel → Lists kernel
  nrBuffers : ∀ {kernel}, holds kernel → kernel.nrBuffers = size
  lasts : ∀ {kernel next}, holds kernel → env kernel next → holds next
  inode : ∀ {kernel} index lock dirt, holds kernel →
    holds (kernel.setInode index { kernel.inodes index with lock, dirt })
  lock : ∀ {kernel} bh lock, holds kernel →
    holds (kernel.setBuffer bh { kernel.buffers bh with lock })
  file : ∀ {kernel} major slot bh rw, holds kernel → rw = .write ∨ spare bh →
    holds (addRequest major slot
      (kernel.setRequest slot (requestOf kernel bh rw)))
  found : ∀ {kernel dev block bh}, holds kernel → asked dev block →
    (kernel.buffers bh).dev = dev → (kernel.buffers bh).block = block → spare bh
  unused : ∀ {kernel bh}, holds kernel → (kernel.buffers bh).countByte = 0 →
    spare bh
  count : ∀ {kernel bh} count, holds kernel → spare bh →
    holds (kernel.setBuffer bh { kernel.buffers bh with count })
  store : ∀ {kernel bh} data dirt, holds kernel → spare bh →
    holds (kernel.setBuffer bh { kernel.buffers bh with data, dirt })
  claim : ∀ {kernel bh dev block}, holds kernel → spare bh →
    asked dev block → bh < size → findBuffer kernel dev block = none →
    holds (claim bh dev block kernel)
  locate : ∀ {kernel} fuel index, holds kernel →
    Hoare fate env (fun current => current = kernel)
      (getSuper (kernel.inodes index).dev fuel).unmarked
      fun found next => holds next ∧ ∀ sb, found = some sb →
        asked (next.inodes index).dev
          (inodeBlock (next.supers sb) (next.inodes index).num)

/-- The program keeps the assertion and returns a buffer, if any, that may be
changed. -/
abbrev KeepsSpare (fate : Fate) (env : Kernel → Kernel → Prop)
    (holds : Kernel → Prop) (spare : Nat → Prop) (program : Sys (Option Nat)) :
    Prop :=
  Hoare fate env holds program.unmarked fun found next =>
    (∀ bh, found = some bh → spare bh) ∧ holds next

namespace CacheKeeps

variable (keeps : CacheKeeps fate env size holds spare asked)

include keeps

theorem waitUntil (ready : Kernel → Bool) :
    Stays fate env holds (Prog.waitUntil ready) :=
  stays_waitUntil fun _ _ => keeps.lasts

theorem lockBuffer (bh : Nat) : Stays fate env holds (lockBuffer bh) :=
  stays_bind (keeps.waitUntil _) fun _ =>
    stays_modify fun _ => keeps.lock bh true

theorem unlockBuffer (bh : Nat) : Stays fate env holds (unlockBuffer bh) :=
  stays_modify fun _ => keeps.lock bh false

theorem lockInode (index : Nat) : Stays fate env holds (lockInode index) :=
  stays_bind (keeps.waitUntil _) fun _ =>
    stays_modify fun _ => keeps.inode index true _

theorem unlockInode (index : Nat) : Stays fate env holds (unlockInode index) :=
  stays_modify fun _ => keeps.inode index false _

theorem submit {rw : Rw} {bh : Nat} (may : rw = .write ∨ spare bh)
    (major : Nat) (ahead : Bool) :
    Stays fate env holds (submit major ahead rw bh) := by
  have files (slot : Nat) : Stays fate env holds (fileRequest major slot bh rw) :=
    stays_modify fun _ isHeld => keeps.file major slot bh rw isHeld may
  apply stays_read
  intro kernel
  split
  · exact keeps.unlockBuffer bh
  · split
    · exact files _
    · split
      · exact keeps.unlockBuffer bh
      · apply stays_bind (keeps.waitUntil _)
        intro _
        apply stays_read
        intro kernel
        split
        · exact files _
        · exact stays_spent keeps.spent

theorem llRwBlock {rw : Rw} {bh : Nat} (may : rw.plain = .write ∨ spare bh) :
    Stays fate env holds (llRwBlock rw bh) := by
  apply stays_read
  intro kernel
  dsimp only
  split
  · exact stays_pure
  · split
    · exact stays_pure
    · apply stays_read
      intro kernel
      split
      · exact stays_pure
      · exact stays_bind (keeps.lockBuffer bh) fun _ => keeps.submit may _ _

theorem takeReference {bh : Nat} (isSpare : spare bh) :
    Stays fate env holds (takeReference bh) := by
  have takes : Stays fate env holds (onBuffer bh fun buffer =>
      { buffer with count := buffer.count + 1 }) :=
    stays_modify fun _ isHeld => keeps.count _ isHeld isSpare
  apply stays_read
  intro kernel
  dsimp only
  split
  · exact stays_bind stays_cross fun _ => takes
  · exact takes

theorem dropCount {bh : Nat} (isSpare : spare bh) :
    Stays fate env holds (onBuffer bh Buffer.dropCount) :=
  stays_modify fun _ isHeld => keeps.count _ isHeld isSpare

theorem getHashTable {dev block : Nat} (isAsked : asked dev block)
    (fuel : Nat) :
    KeepsSpare fate env holds spare (getHashTable fuel dev block) := by
  induction fuel with
  | zero => exact hoare_spent keeps.spent
  | succ fuel induction =>
      apply hoare_unmarked_get
      intro kernel isHeld
      cases found : findBuffer kernel dev block with
      | none =>
          apply hoare_pure
          rintro state rfl
          refine ⟨?_, isHeld⟩
          rintro _ ⟨⟩
      | some bh =>
          obtain ⟨_, sameDev, sameBlock⟩ :=
            findBuffer_some (keeps.lists isHeld) found
          have isSpare := keeps.found isHeld isAsked sameDev sameBlock
          refine hoare_at isHeld (hoare_unmarked_bind
            (keeps.takeReference isSpare) fun _ => ?_)
          refine hoare_unmarked_bind (keeps.waitUntil _) fun _ => ?_
          apply hoare_unmarked_read
          intro kernel
          split
          · refine hoare_pure fun _ isHeld => ⟨?_, isHeld⟩
            rintro _ ⟨⟩
            exact isSpare
          · exact hoare_unmarked_bind (keeps.dropCount isSpare) fun _ =>
              induction

theorem brelse {bh : Nat} (isSpare : spare bh) :
    Stays fate env holds (brelse (some bh)) := by
  apply stays_bind (keeps.waitUntil _)
  intro _
  apply stays_read
  intro kernel
  split
  · exact stays_panic (keeps.panic _ (by decide))
  · exact keeps.dropCount isSpare

section Circle

variable {getblk : Nat → Nat → Sys Nat}
  (gets : ∀ {dev block}, asked dev block →
    Hoare fate env holds (getblk dev block).unmarked
      fun bh next => spare bh ∧ holds next)

include gets

theorem breadWith {dev block : Nat} (isAsked : asked dev block) :
    KeepsSpare fate env holds spare (breadWith getblk dev block) := by
  refine hoare_unmarked_bind (gets isAsked) fun bh => hoare_given fun isSpare => ?_
  have returns : Hoare fate env holds
      (pure (some bh) : Sys (Option Nat)).unmarked fun found next =>
        (∀ bh, found = some bh → spare bh) ∧ holds next := by
    refine hoare_pure fun _ isHeld => ⟨?_, isHeld⟩
    rintro _ ⟨⟩
    exact isSpare
  apply hoare_unmarked_read
  intro kernel
  split
  · exact returns
  · refine hoare_unmarked_bind (keeps.llRwBlock (.inr isSpare)) fun _ => ?_
    refine hoare_unmarked_bind (keeps.waitUntil _) fun _ => ?_
    apply hoare_unmarked_read
    intro kernel
    split
    · exact returns
    · refine hoare_unmarked_bind (keeps.brelse isSpare) fun _ => ?_
      refine hoare_pure fun _ isHeld => ⟨?_, isHeld⟩
      rintro _ ⟨⟩

theorem writeInodeWith (fuel index : Nat) :
    Stays fate env holds (writeInodeWith getblk fuel index) := by
  refine stays_bind (keeps.lockInode index) fun _ => ?_
  apply hoare_unmarked_get
  intro kernel isHeld
  split
  · exact hoare_at isHeld (keeps.unlockInode index)
  · refine hoare_unmarked_bind (keeps.locate fuel index isHeld) ?_
    rintro (_ | sb)
    · exact hoare_panic (keeps.panic _ (by decide))
    · apply hoare_unmarked_get
      rintro kernel ⟨isHeld, isAsked⟩
      refine hoare_at isHeld (hoare_unmarked_bind
        (keeps.breadWith gets (isAsked sb rfl)) ?_)
      rintro (_ | bh)
      · exact hoare_panic (keeps.panic _ (by decide))
      · refine hoare_given fun spares => ?_
        have isSpare := spares bh rfl
        refine stays_bind (stays_modify fun kernel isHeld => ?_) fun _ => ?_
        · exact keeps.inode index _ _ (keeps.store _ _ isHeld isSpare)
        · exact stays_bind (keeps.brelse isSpare) fun _ =>
            keeps.unlockInode index

omit gets in
theorem syncPass (dev bh : Nat) : Stays fate env holds (syncPass dev bh) := by
  apply stays_read
  intro kernel
  split
  · exact stays_pure
  · apply stays_bind (keeps.waitUntil _)
    intro _
    apply stays_read
    intro kernel
    split
    · exact keeps.llRwBlock (.inl rfl)
    · exact stays_pure

theorem syncDevWith (fuel dev : Nat) :
    Stays fate env holds (syncDevWith getblk fuel dev) := by
  have table : Stays fate env holds (syncInodesWith getblk fuel) := by
    apply stays_upTo
    intro index
    apply stays_bind (keeps.waitUntil _)
    intro _
    apply stays_read
    intro kernel
    split
    · exact keeps.writeInodeWith gets fuel index
    · exact stays_pure
  apply stays_read
  intro kernel
  apply stays_bind (stays_upTo fun bh => keeps.syncPass dev bh)
  intro _
  apply stays_bind table
  intro _
  exact stays_upTo fun bh => keeps.syncPass dev bh

theorem cleanWith (fuel bh rounds : Nat) :
    Stays fate env holds (cleanWith getblk fuel bh rounds) := by
  induction rounds with
  | zero => exact stays_spent keeps.spent
  | succ rounds induction =>
      apply stays_read
      intro kernel
      split
      · exact stays_pure
      · apply stays_bind (keeps.syncDevWith gets fuel _)
        intro _
        apply stays_bind (keeps.waitUntil _)
        intro _
        apply stays_read
        intro kernel
        split
        · exact stays_pure
        · exact induction

end Circle

/-- The end of `getblk`, in a state where the block is not cached. -/
theorem claimBuffer {kernel : Kernel} {bh dev block : Nat}
    (isHeld : holds kernel) (isSpare : spare bh) (isAsked : asked dev block)
    (isBuffer : bh < size) (missing : findBuffer kernel dev block = none) :
    Hoare fate env (fun current => current = kernel)
      (claimBuffer bh dev block).unmarked fun _ => holds := by
  constructor
  rintro state rfl
  have inRange : bh < state.nrBuffers := by
    rw [keeps.nrBuffers isHeld]
    exact isBuffer
  have claimed := @claimBuffer_eq bh dev block state (keeps.lists isHeld) inRange
  show (Fs.claimBuffer bh dev block state).unmarked.wp _ _ _
  rw [claimed]
  exact keeps.claim isHeld isSpare isAsked isBuffer missing

theorem getblk {dev block : Nat} (fuel : Nat) (isAsked : asked dev block) :
    Hoare fate env holds (getblk fuel dev block).unmarked
      fun bh next => spare bh ∧ holds next := by
  induction fuel generalizing dev block with
  | zero => exact hoare_spent keeps.spent
  | succ fuel induction =>
      have again := induction isAsked
      refine hoare_unmarked_bind (keeps.getHashTable isAsked fuel) ?_
      rintro (_ | bh)
      · refine hoare_given fun _ => ?_
        apply hoare_unmarked_get
        intro kernel isHeld
        cases scan : scanFree kernel kernel.nrBuffers kernel.freeList none with
        | none =>
            refine hoare_at isHeld (hoare_unmarked_bind
              (stays_sleep fun _ _ => keeps.lasts) fun _ => again)
        | some bh =>
            have isBuffer := (scanFree_some (keeps.lists isHeld) scan).1
            rw [keeps.nrBuffers isHeld] at isBuffer
            refine hoare_at isHeld (hoare_unmarked_bind
              (keeps.waitUntil _) fun _ => ?_)
            apply hoare_unmarked_get
            intro kernel isHeld
            split <;> rename_i used
            · exact hoare_at isHeld again
            · have isSpare := keeps.unused isHeld (not_not.mp used)
              refine hoare_at isHeld (hoare_unmarked_bind
                (keeps.cleanWith induction fuel bh fuel) fun clean => ?_)
              split
              · exact again
              · apply hoare_unmarked_get
                intro kernel isHeld
                cases missing : findBuffer kernel dev block with
                | some other => exact hoare_at isHeld again
                | none =>
                    refine hoare_unmarked_bind (keeps.claimBuffer isHeld
                      isSpare isAsked isBuffer missing) fun _ => ?_
                    exact hoare_pure fun _ isHeld => ⟨isSpare, isHeld⟩
      · refine hoare_given fun spares => ?_
        exact hoare_pure fun _ isHeld => ⟨spares bh rfl, isHeld⟩

theorem bread {dev block : Nat} (fuel : Nat) (isAsked : asked dev block) :
    KeepsSpare fate env holds spare (bread fuel dev block) :=
  keeps.breadWith (keeps.getblk fuel) isAsked

theorem writeInode (fuel index : Nat) :
    Stays fate env holds (writeInode fuel index) :=
  keeps.writeInodeWith (keeps.getblk fuel) fuel index

end CacheKeeps

end Linux011.Fs

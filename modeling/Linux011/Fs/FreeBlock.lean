import Linux011.Fs.InodeReferences
import Linux011.Fs.NewBlock

/-!
# The references that `free_block` takes

`free_block` looks its block up in the cache, which takes a reference to the
buffer.  Where it finds that it is not the only user it returns, and the
reference stays.
-/

namespace Linux011.Fs

open Coop Prog

/-- The block is not in the cache, or nobody holds its buffer. -/
def Kernel.Unused (kernel : Kernel) (dev block : Nat) : Prop :=
  ∀ bh, findBuffer kernel dev block = some bh →
    (kernel.buffers bh).countByte = 0

/-- The buffers are where they were, with these references more. -/
structure Gained (start : Kernel) (gain : Nat → Nat) (kernel : Kernel) :
    Prop where
  same : SameLists start kernel
  count : ∀ bh, (kernel.buffers bh).count = (start.buffers bh).count + gain bh

section Search

variable {kernel next : Kernel}

theorem findFrom_congr (same : SameLists kernel next) (dev block fuel : Nat)
    (start : Option Nat) :
    findFrom next dev block fuel start = findFrom kernel dev block fuel start := by
  induction fuel generalizing start with
  | zero => cases start <;> rfl
  | succ fuel induction =>
      cases start with
      | none => rfl
      | some tmp =>
          have sameNext : (next.buffers tmp).next = (kernel.buffers tmp).next :=
            congrFun same.nextLink tmp
          unfold findFrom
          rw [same.dev, same.block, sameNext, induction]

theorem findBuffer_congr (same : SameLists kernel next) (dev block : Nat) :
    findBuffer next dev block = findBuffer kernel dev block := by
  unfold findBuffer
  rw [same.nrBuffers, same.hashTable, findFrom_congr same]

theorem findFrom_isFor {dev block fuel bh : Nat} {start : Option Nat}
    (found : findFrom kernel dev block fuel start = some bh) :
    (kernel.buffers bh).dev = dev ∧ (kernel.buffers bh).block = block := by
  induction fuel generalizing start with
  | zero => cases start <;> cases found
  | succ fuel induction =>
      cases start with
      | none => cases found
      | some tmp =>
          unfold findFrom at found
          split at found <;> rename_i here
          · cases found
            exact here
          · exact induction found

end Search

namespace Gained

variable {start kernel next : Kernel} {gain : Nat → Nat}

theorem refl (kernel : Kernel) : Gained kernel 0 kernel :=
  ⟨SameLists.refl kernel, fun _ => rfl⟩

theorem quiet (gained : Gained start gain kernel) (quiet : Quiet kernel next) :
    Gained start gain next where
  same := gained.same.trans quiet.same
  count := fun bh => (quiet.count bh).trans (gained.count bh)

theorem interrupts (gained : Gained start gain kernel)
    (moved : Interrupts kernel next) : Gained start gain next :=
  gained.quiet moved.quiet

/-- A change of the count of one buffer. -/
theorem recount {bh count : Nat} {more : Nat → Nat}
    (gained : Gained start gain kernel)
    (own : count = (start.buffers bh).count + more bh)
    (others : ∀ other, other ≠ bh → more other = gain other) :
    Gained start more
      (kernel.setBuffer bh { kernel.buffers bh with count }) where
  same := gained.same.trans (sameLists_setBuffer rfl rfl rfl rfl rfl rfl)
  count := by
    intro other
    rw [Kernel.setBuffer_buffers]
    split <;> rename_i here
    · rw [here]
      exact own
    · rw [others other here]
      exact gained.count other

end Gained

/-! ## The parts of `free_block` -/

section Parts

variable {start : Kernel} {gain : Nat → Nat} {fate : Fate}

theorem gained_modify {change : Kernel → Kernel}
    (quiet : ∀ kernel, Quiet kernel (change kernel)) :
    Stays fate Interrupts (Gained start gain) (Prog.modify change) :=
  stays_modify fun kernel gained => gained.quiet (quiet kernel)

theorem gained_waitUntil (ready : Kernel → Bool) :
    Stays fate Interrupts (Gained start gain) (Prog.waitUntil ready) :=
  stays_waitUntil fun _ _ gained moved => gained.interrupts moved

theorem getSuper_gains (spent : fate.spent) (dev fuel : Nat) :
    Stays fate Interrupts (Gained start gain) (getSuper dev fuel) := by
  induction fuel with
  | zero => exact stays_spent spent
  | succ fuel induction =>
      unfold getSuper
      split
      · exact stays_pure
      · apply stays_read
        intro kernel
        split
        · exact stays_pure
        · apply stays_bind (gained_waitUntil _)
          intro _
          apply stays_read
          intro kernel
          split
          · exact stays_pure
          · exact induction

/-- The bit is cleared, and no reference is touched. -/
theorem releaseBit_gains (panics : ∀ message, fate.panic message)
    (map : Option Nat) (bit : Nat) (message : String) :
    Stays fate Interrupts (Gained start gain)
      (releaseBit map bit (Prog.panic message)) := by
  cases map with
  | none => exact stays_panic (panics _)
  | some bh =>
      apply stays_read
      intro kernel
      dsimp only
      refine stays_bind ?_ fun _ => gained_modify fun _ => Quiet.setBuffer
      split
      · exact stays_panic (panics _)
      · exact stays_pure

/-- Marked or not, one reference more. -/
theorem takeReference_gains (bh : Nat) :
    Hoare fate Interrupts (Gained start 0) (takeReference bh).unmarked
      fun _ => Gained start (one bh) := by
  have takes : Hoare fate Interrupts (Gained start 0)
      (onBuffer bh fun buffer =>
        { buffer with count := buffer.count + 1 }).unmarked
      fun _ => Gained start (one bh) := by
    refine ⟨fun kernel gained => ?_⟩
    refine gained.recount ?_ fun other different => one_other different
    rw [gained.count, one_same]
    rfl
  apply hoare_unmarked_read
  intro kernel
  dsimp only
  split
  · exact hoare_unmarked_cross takes
  · exact takes

theorem getHashTable_gains (spent : fate.spent) (fuel dev block : Nat) :
    Hoare fate Interrupts (Gained start 0) (getHashTable fuel dev block).unmarked
      fun found kernel => found = findBuffer start dev block ∧
        match found with
        | none => Gained start 0 kernel
        | some bh => Gained start (one bh) kernel := by
  cases fuel with
  | zero => exact hoare_spent spent
  | succ fuel =>
      apply hoare_unmarked_get
      intro kernel gained
      have sameFound := findBuffer_congr gained.same dev block
      rw [sameFound]
      cases found : findBuffer start dev block with
      | none => exact hoare_at gained (hoare_pure fun _ gained => ⟨rfl, gained⟩)
      | some bh =>
          dsimp only
          refine hoare_unmarked_bind (hoare_at gained (takeReference_gains bh)) ?_
          intro _
          refine hoare_unmarked_bind (gained_waitUntil _) ?_
          intro _
          apply hoare_unmarked_get
          intro later gained
          have isFor := findFrom_isFor found
          rw [gained.same.dev, gained.same.block, if_pos isFor]
          exact hoare_at gained (hoare_pure fun _ gained => ⟨rfl, gained⟩)

/-- A reference is given back, whatever the byte says of how many there
are. -/
theorem brelse_gives (bh : Nat) :
    Hoare .any Interrupts (Gained start (one bh)) (brelse (some bh)).unmarked
      fun _ => Gained start 0 := by
  refine hoare_unmarked_bind (gained_waitUntil _) fun _ => ?_
  apply hoare_unmarked_get
  intro kernel gained
  have count := gained.count bh
  rw [one_same] at count
  split <;> rename_i isHeld
  · exact hoare_panic trivial
  · refine ⟨fun state isNow => ?_⟩
    subst isNow
    have dropped : (state.buffers bh).dropCount =
        { state.buffers bh with count := (state.buffers bh).count - 1 } := by
      unfold Buffer.dropCount
      rw [if_neg isHeld]
    show Gained start 0 (state.setBuffer bh (state.buffers bh).dropCount)
    rw [dropped]
    apply gained.recount
    · rw [Pi.zero_apply]
      omega
    · exact fun other different => (one_other different).symm

end Parts

/-! ## `free_block` -/

/-- What `free_block` leaves of the counts, if it returns. -/
theorem freeBlock_counts (start : Kernel) (fuel dev block : Nat) :
    Hoare .any Interrupts (Gained start 0) (freeBlock fuel dev block).unmarked
      fun _ kernel =>
        (∀ bh, (kernel.buffers bh).count = (start.buffers bh).count) ↔
          start.Unused dev block := by
  have released (sb : Nat) : Stays .any Interrupts (Gained start 0) (do
      let kernel ← Prog.get
      let super := kernel.supers sb
      let nr := block + 1 - super.firstdatazone
      releaseBit (super.zmap (nr / 8192)) (nr % 8192)
        (Prog.panic "free_block: bit already cleared")) :=
    stays_read fun _ => releaseBit_gains (fun _ => trivial) _ _ _
  refine hoare_unmarked_bind (getSuper_gains trivial dev fuel) ?_
  rintro (_ | sb)
  · exact hoare_panic trivial
  · apply hoare_unmarked_read
    intro kernel
    split
    · exact hoare_panic trivial
    · have looks := @getHashTable_gains start .any trivial fuel dev block
      rw [← Prog.unmarked_unmarked] at looks
      refine hoare_unmarked_bind looks ?_
      rintro (_ | bh)
      · refine hoare_given fun missing => hoare_post (released sb) ?_
        intro _ final gained
        refine iff_of_true gained.count ?_
        intro bh isFound
        rw [← missing] at isFound
        cases isFound
      · apply hoare_unmarked_get
        rintro kernel ⟨found, gained⟩
        have count := gained.count bh
        rw [one_same] at count
        split <;> rename_i isUsed
        · refine ⟨fun state isNow => ?_⟩
          show (∀ bh, (state.buffers bh).count = (start.buffers bh).count) ↔
            start.Unused dev block
          rw [isNow]
          refine iff_of_false (fun same => ?_) fun unused => ?_
          · have own := same bh
            omega
          · have isFree := unused bh found.symm
            unfold Buffer.countByte at isFree isUsed
            omega
        · have isFree : (start.buffers bh).countByte = 0 := by
            unfold Buffer.countByte at isUsed ⊢
            omega
          refine hoare_unmarked_bind (hoare_at gained (gained_modify fun _ =>
            Quiet.setBuffer)) fun _ => ?_
          refine hoare_unmarked_bind (brelse_gives bh) fun _ => ?_
          refine hoare_post (released sb) ?_
          intro _ final gained
          refine iff_of_true gained.count ?_
          intro other isFound
          rw [← found] at isFound
          cases isFound
          exact isFree

/-- `free_block` leaves every reference count as it was if and only if its
block is unused; and so does `truncate`, where it frees no block that is
used. -/
theorem freeBlock_keepsCounts_iff (kernel final : Kernel) (fuel : Nat) :
    (∀ dev block,
      (freeBlock fuel dev block kernel).MayReturn True Interrupts () final →
        ((∀ bh, (final.buffers bh).count = (kernel.buffers bh).count) ↔
          kernel.Unused dev block)) ∧
    ∀ index, Lists kernel → HasRoom kernel →
      (truncate fuel index kernel).MayReturn False Interrupts () final →
        ∀ bh, (final.buffers bh).count = (kernel.buffers bh).count := by
  constructor
  · intro dev block returns
    exact returns.meets ((freeBlock_counts kernel fuel dev block).run kernel
      (.refl kernel))
  · intro index lists room returns bh
    have truncates := @truncate_returns kernel [] [] .any
      ⟨trivial, fun _ _ _ => trivial⟩ room trivial (by decide) fuel index
    have final := returns.meets_uncrossed
      (truncates.run kernel (Keeping.begin lists))
    exact final.buffer bh

/-- A machine with a device of 10 zones, the first of them zone 5 and all in
use, and a file that has zone 5. -/
def usedDevice : Kernel :=
  let kernel := bufferInit 2 idleKernel.buffers idleKernel
  { kernel.setBuffer 0
      { kernel.buffers 0 with
        data := fun offset => if offset = 0 then 127 else 0
        count := 1 } with
    supers := fun index =>
      if index = 0 then
        { kernel.supers 0 with
          dev := 769
          nzones := 10
          firstdatazone := 5
          zmap := fun index => if index = 0 then some 0 else none }
      else kernel.supers index
    inodes := fun index =>
      if index = 1 then
        { Inode.zero with
          mode := 0x8000
          dev := 769
          zone := fun entry => if entry = 0 then 5 else 0 }
      else kernel.inodes index }

theorem usedDevice_lists : Lists usedDevice := by
  have lists := @bufferInit_lists 2 (by decide) idleKernel.buffers idleKernel
  have mapped := lists.congr (@sameLists_setBuffer _ 0
    { data := fun offset => if offset = 0 then 127 else 0, block := 0, dev := 0,
      uptodate := false, dirt := false, count := 1, lock := false,
      prev := none, next := none, prevFree := some 1, nextFree := some 1 }
    rfl rfl rfl rfl rfl rfl)
  exact mapped.congr (SameLists.elsewhere rfl rfl rfl rfl)

theorem usedDevice_room : HasRoom usedDevice where
  buffer := by
    intro bh
    show (if bh = 0 then _ else _ : Buffer).count + 8 ≤ 255
    split
    · show 1 + 8 ≤ 255
      decide
    · show 0 + 8 ≤ 255
      decide
  inode := by
    intro slot
    show (if slot = 1 then _ else _ : Inode).count + 8 ≤ 65535
    split
    · show 0 + 8 ≤ 65535
      decide
    · show 0 + 8 ≤ 65535
      decide

/-- A zone that is not cached, alone and as the zone of a file. -/
theorem freeBlock_keepsCounts_uncached :
    (∃ final, freeBlock 3 769 5 usedDevice = .done () final ∧
      ∀ bh, (final.buffers bh).count = (usedDevice.buffers bh).count) ∧
    ∃ final, truncate 3 1 usedDevice = .done () final ∧
      ∀ bh, (final.buffers bh).count = (usedDevice.buffers bh).count := by
  constructor
  · obtain ⟨final, runs⟩ : ∃ final, freeBlock 3 769 5 usedDevice =
        .done () final := ⟨_, rfl⟩
    obtain ⟨counts, _⟩ := freeBlock_keepsCounts_iff usedDevice final 3
    refine ⟨final, runs, (counts 769 5 (runs ▸ ⟨rfl, rfl⟩)).mpr ?_⟩
    intro bh isFound
    cases isFound
  · obtain ⟨final, runs⟩ : ∃ final, truncate 3 1 usedDevice = .done () final :=
      ⟨_, rfl⟩
    obtain ⟨_, truncates⟩ := freeBlock_keepsCounts_iff usedDevice final 3
    exact ⟨final, runs, truncates 1 usedDevice_lists usedDevice_room
      (runs ▸ ⟨rfl, rfl⟩)⟩

/-- Somebody holds the buffer of zone 5 while it is freed. -/
theorem freeBlock_leaksReference :
    ∃ held final, getblk 3 769 5 usedDevice = .done 1 held ∧
      (freeBlock 3 769 5 held).MayReturn True Interrupts () final ∧
      (held.buffers 1).count = 1 ∧ (final.buffers 1).count = 2 :=
  ⟨_, _, rfl, ⟨trivial, rfl, rfl⟩, rfl, rfl⟩

end Linux011.Fs

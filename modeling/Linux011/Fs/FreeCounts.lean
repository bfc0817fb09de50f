import Mathlib.Data.Finset.Card
import Mathlib.Order.Interval.Finset.Nat
import Linux011.Fs.CacheTasks
import Linux011.Fs.Superblocks

/-!
# Counting what is free at boot

The end of `mount_root` counts the clear bits of both maps.  It numbers the
bits of the zone map from 0 to `s_nzones - 1`, where the allocator numbers
them from `s_firstdatazone - 1` on; the bits of the inode map are numbered
alike.
-/

namespace Linux011.Fs

open Coop

/-- `set_bit(i&8191,map[i>>13]->b_data)` of `super.c`, which only tests. -/
def testMap (map : Nat → Option Nat) (i : Nat) : Sys Bool :=
  match map (i / 8192) with
  | none => Prog.panic "NULL map block"
  | some bh => do
      let kernel ← Prog.get
      return bitOf (kernel.buffers bh).data (i % 8192)

/-- `while (-- i >= 0)`, from `free` on. -/
def countFree (map : Nat → Option Nat) : Nat → Nat → Sys Nat
  | 0, free => return free
  | i + 1, free => do
      let isSet ← testMap map i
      countFree map i (if isSet then free else free + 1)

/-- The two loops at the end of `mount_root`, and what they print. -/
def printFree (sb : Nat) : Sys (Nat × Nat) := do
  let kernel ← Prog.get
  let p := kernel.supers sb
  let blocks ← countFree p.zmap p.nzones 0
  let inodes ← countFree p.imap (p.ninodes + 1) 0
  return (blocks, inodes)

/-- `mount_root` of a hard disk. -/
def mountRoot (fuel rootDev : Nat) : Sys (Nat × Nat) := do
  Prog.modify fun kernel =>
    { kernel with supers := fun sb =>
        if sb < nrSuper then
          { kernel.supers sb with dev := 0, lock := false }
        else kernel.supers sb }
  match ← readSuper fuel rootDev with
  | none => Prog.panic "Unable to mount root"
  | some sb => do
      let mi ← iget fuel rootDev rootIno
      onInode mi fun inode => { inode with count := inode.count + 3 }
      onSuper sb fun super => { super with isup := some mi, imount := some mi }
      printFree sb

/-! ## What should be counted -/

/-- Bit `nr` of a map, if its block is loaded. -/
def mapBit (kernel : Kernel) (map : Nat → Option Nat) (nr : Nat) :
    Option Bool :=
  (map (nr / 8192)).map fun bh => bitOf (kernel.buffers bh).data (nr % 8192)

/-- The free zones, by the numbering of `new_block` and `free_block`. -/
def freeZones (kernel : Kernel) (super : Super) : Finset Nat :=
  (Finset.Ico super.firstdatazone super.nzones).filter fun zone =>
    mapBit kernel super.zmap (zone + 1 - super.firstdatazone) = some false

/-- The free inodes, by the numbering of `new_inode` and `free_inode`. -/
def freeInodes (kernel : Kernel) (super : Super) : Finset Nat :=
  (Finset.Icc 1 super.ninodes).filter fun nr =>
    mapBit kernel super.imap nr = some false

/-- A superblock with maps that cover its inodes and zones and have all been
read. -/
structure LoadedSuper (super : Super) : Prop where
  imapBlocks : 1 ≤ super.imapBlocks ∧ super.imapBlocks ≤ mapSlots
  zmapBlocks : 1 ≤ super.zmapBlocks ∧ super.zmapBlocks ≤ mapSlots
  inodes : super.ninodes + 1 ≤ super.imapBlocks * 8192
  zones : super.nzones + 1 ≤ super.zmapBlocks * 8192 + super.firstdatazone
  imap : ∀ i, (super.imap i).isSome ↔ i < super.imapBlocks
  zmap : ∀ i, (super.zmap i).isSome ↔ i < super.zmapBlocks

/-- Such a superblock as `read_super` leaves it. -/
structure ValidSuper (kernel : Kernel) (super : Super) : Prop extends
    LoadedSuper super where
  imapMarked : mapBit kernel super.imap 0 = some true
  zmapMarked : mapBit kernel super.zmap 0 = some true

variable {kernel : Kernel} {map : Nat → Option Nat} {super : Super} {sb : Nat}

theorem mapBit_loaded {nr : Nat} :
    mapBit kernel map nr ≠ none ↔ (map (nr / 8192)).isSome := by
  unfold mapBit
  cases map (nr / 8192) with
  | none => simp
  | some bh => simp

theorem testMap_runs {nr : Nat} :
    testMap map nr kernel = match mapBit kernel map nr with
      | none => .panic "NULL map block"
      | some isSet => .done isSet kernel := by
  unfold testMap mapBit
  cases map (nr / 8192) with
  | none => rfl
  | some bh => rfl

/-! ## What `read_super` leaves -/

/-! ## The loops -/

/-- The clear bits among the first `count`. -/
def clearBits (kernel : Kernel) (map : Nat → Option Nat) (count : Nat) :
    Finset Nat :=
  (Finset.range count).filter fun nr => mapBit kernel map nr = some false

theorem clearBits_succ (count : Nat) :
    (clearBits kernel map (count + 1)).card =
      (clearBits kernel map count).card +
        if mapBit kernel map count = some false then 1 else 0 := by
  unfold clearBits
  rw [Finset.range_add_one, Finset.filter_insert]
  split
  · apply Finset.card_insert_of_notMem
    simp
  · rfl

/-- A loop over loaded blocks counts the clear bits. -/
theorem countFree_counts {count free : Nat}
    (loaded : ∀ nr, nr < count → mapBit kernel map nr ≠ none) :
    countFree map count free kernel =
      .done (free + (clearBits kernel map count).card) kernel := by
  induction count generalizing free with
  | zero => rfl
  | succ count induction =>
      have isLoaded := loaded count (Nat.lt_succ_self count)
      have further (free : Nat) := @induction free fun nr below =>
        loaded nr (Nat.lt_succ_of_lt below)
      show (testMap map count kernel).bind _ = _
      rw [testMap_runs, clearBits_succ]
      cases isBit : mapBit kernel map count with
      | none => exact (isLoaded isBit).elim
      | some isSet =>
          cases isSet with
          | true =>
              show countFree map count free kernel = _
              rw [further]
              simp
          | false =>
              show countFree map count (free + 1) kernel = _
              rw [further]
              simp [Nat.add_assoc, Nat.add_comm]

/-- A loop that comes to a block that is not loaded goes no further. -/
theorem countFree_strays {count free nr : Nat} (below : nr < count)
    (missing : mapBit kernel map nr = none) :
    countFree map count free kernel = .panic "NULL map block" := by
  induction count generalizing free with
  | zero => exact absurd below (Nat.not_lt_zero nr)
  | succ count induction =>
      show (testMap map count kernel).bind _ = _
      rw [testMap_runs]
      cases isBit : mapBit kernel map count with
      | none => rfl
      | some isSet =>
          have different : nr ≠ count := by
            rintro rfl
            rw [missing] at isBit
            cases isBit
          exact induction
            (Nat.lt_of_le_of_ne (Nat.le_of_lt_succ below) different)

/-! ## The numbering of the zones -/

namespace ValidSuper

theorem imapLoaded (valid : ValidSuper kernel super) {nr : Nat}
    (inMap : nr < super.imapBlocks * 8192) :
    mapBit kernel super.imap nr ≠ none :=
  mapBit_loaded.mpr ((valid.imap _).mpr (by omega))

theorem zmapLoaded (valid : ValidSuper kernel super) {nr : Nat} :
    mapBit kernel super.zmap nr ≠ none ↔ nr < super.zmapBlocks * 8192 := by
  rw [mapBit_loaded, valid.zmap]
  omega

/-- The inodes are counted right. -/
theorem freeInodes_eq (valid : ValidSuper kernel super) :
    clearBits kernel super.imap (super.ninodes + 1) =
      freeInodes kernel super := by
  unfold clearBits freeInodes
  ext nr
  rw [Finset.mem_filter, Finset.mem_filter, Finset.mem_range, Finset.mem_Icc]
  constructor
  · rintro ⟨inRange, isClear⟩
    refine ⟨⟨?_, by omega⟩, isClear⟩
    rcases Nat.eq_zero_or_pos nr with rfl | positive
    · rw [valid.imapMarked] at isClear
      cases isClear
    · exact positive
  · rintro ⟨inRange, isClear⟩
    exact ⟨by omega, isClear⟩

end ValidSuper

/-- The bits of the free zones. -/
def zoneBits (kernel : Kernel) (super : Super) : Finset Nat :=
  (Finset.Ico 1 (super.nzones + 1 - super.firstdatazone)).filter fun nr =>
    mapBit kernel super.zmap nr = some false

theorem freeZones_card :
    (freeZones kernel super).card = (zoneBits kernel super).card := by
  apply Finset.card_nbij' (fun zone => zone + 1 - super.firstdatazone)
    (fun nr => nr + super.firstdatazone - 1)
  · intro zone member
    obtain ⟨inRange, isClear⟩ := Finset.mem_filter.mp member
    rw [Finset.mem_Ico] at inRange
    refine Finset.mem_filter.mpr ⟨Finset.mem_Ico.mpr ?_, isClear⟩
    dsimp only
    omega
  · intro nr member
    obtain ⟨inRange, isClear⟩ := Finset.mem_filter.mp member
    rw [Finset.mem_Ico] at inRange
    have back : nr + super.firstdatazone - 1 + 1 - super.firstdatazone = nr := by
      omega
    refine Finset.mem_filter.mpr ⟨Finset.mem_Ico.mpr ?_, ?_⟩
    · dsimp only
      omega
    · dsimp only
      rw [back]
      exact isClear
  · intro zone member
    obtain ⟨inRange, _⟩ := Finset.mem_filter.mp member
    rw [Finset.mem_Ico] at inRange
    dsimp only
    omega
  · intro nr member
    obtain ⟨inRange, _⟩ := Finset.mem_filter.mp member
    rw [Finset.mem_Ico] at inRange
    dsimp only
    omega

/-- The bits in which the two numberings differ are set. -/
def PaddingSet (kernel : Kernel) (super : Super) : Prop :=
  ∀ nr, 0 < nr →
    (nr < super.nzones ↔ ¬ nr < super.nzones + 1 - super.firstdatazone) →
      mapBit kernel super.zmap nr = some true

namespace ValidSuper

/-- One of the two sets of bits includes the other. -/
theorem zoneBits_subset (valid : ValidSuper kernel super) :
    zoneBits kernel super ⊆ clearBits kernel super.zmap super.nzones ∨
      clearBits kernel super.zmap super.nzones ⊆ zoneBits kernel super := by
  rcases Nat.eq_zero_or_pos super.firstdatazone with isZero | positive
  · right
    intro nr member
    obtain ⟨inRange, isClear⟩ := Finset.mem_filter.mp member
    rw [Finset.mem_range] at inRange
    refine Finset.mem_filter.mpr ⟨Finset.mem_Ico.mpr ⟨?_, by omega⟩, isClear⟩
    rcases Nat.eq_zero_or_pos nr with rfl | notZero
    · rw [valid.zmapMarked] at isClear
      cases isClear
    · exact notZero
  · left
    intro nr member
    obtain ⟨inRange, isClear⟩ := Finset.mem_filter.mp member
    rw [Finset.mem_Ico] at inRange
    exact Finset.mem_filter.mpr ⟨Finset.mem_range.mpr (by omega), isClear⟩

theorem zones_counted (valid : ValidSuper kernel super)
    (loaded : super.nzones ≤ super.zmapBlocks * 8192) :
    (clearBits kernel super.zmap super.nzones).card =
      (freeZones kernel super).card ↔ PaddingSet kernel super := by
  have zones := valid.zones
  rw [freeZones_card]
  have sameSets : (clearBits kernel super.zmap super.nzones).card =
      (zoneBits kernel super).card ↔
        clearBits kernel super.zmap super.nzones = zoneBits kernel super := by
    constructor
    · intro sameCards
      rcases valid.zoneBits_subset with below | above
      · exact (Finset.eq_of_subset_of_card_le below (le_of_eq sameCards)).symm
      · exact Finset.eq_of_subset_of_card_le above (ge_of_eq sameCards)
    · intro same
      rw [same]
  rw [sameSets]
  constructor
  · intro same nr positive differs
    have isLoaded : mapBit kernel super.zmap nr ≠ none :=
      valid.zmapLoaded.mpr (by omega)
    cases isBit : mapBit kernel super.zmap nr with
    | none => exact (isLoaded isBit).elim
    | some isSet =>
        cases isSet with
        | true => rfl
        | false =>
            have sameBit : nr ∈ clearBits kernel super.zmap super.nzones ↔
                nr ∈ zoneBits kernel super := by
              rw [same]
            unfold clearBits zoneBits at sameBit
            rw [Finset.mem_filter, Finset.mem_filter, Finset.mem_range,
              Finset.mem_Ico] at sameBit
            have sameRange : nr < super.nzones ↔
                nr < super.nzones + 1 - super.firstdatazone := by
              constructor
              · intro inRange
                exact (sameBit.mp ⟨inRange, isBit⟩).1.2
              · intro inRange
                exact (sameBit.mpr ⟨⟨positive, inRange⟩, isBit⟩).1
            omega
  · intro padding
    unfold clearBits zoneBits
    ext nr
    rw [Finset.mem_filter, Finset.mem_filter, Finset.mem_range,
      Finset.mem_Ico]
    have notBoth (isClear : mapBit kernel super.zmap nr = some false) :
        0 < nr ∧ (nr < super.nzones ↔
          nr < super.nzones + 1 - super.firstdatazone) := by
      constructor
      · rcases Nat.eq_zero_or_pos nr with rfl | positive
        · rw [valid.zmapMarked] at isClear
          cases isClear
        · exact positive
      · by_contra differs
        rcases Nat.eq_zero_or_pos nr with rfl | positive
        · rw [valid.zmapMarked] at isClear
          cases isClear
        · have isSet := padding nr positive (by omega)
          rw [isClear] at isSet
          cases isSet
    constructor
    · rintro ⟨inRange, isClear⟩
      obtain ⟨positive, same⟩ := notBoth isClear
      exact ⟨⟨positive, same.mp inRange⟩, isClear⟩
    · rintro ⟨inRange, isClear⟩
      exact ⟨(notBoth isClear).2.mpr inRange.2, isClear⟩

end ValidSuper

/-- The loops stay in the loaded blocks and count right exactly if the zone
map has a bit for every zone number and its padding is set. -/
theorem printFree_iff (valid : ValidSuper kernel (kernel.supers sb)) :
    printFree sb kernel =
        .done ((freeZones kernel (kernel.supers sb)).card,
          (freeInodes kernel (kernel.supers sb)).card) kernel ↔
      (kernel.supers sb).nzones ≤ (kernel.supers sb).zmapBlocks * 8192 ∧
        PaddingSet kernel (kernel.supers sb) := by
  have unfolded : printFree sb kernel =
      (countFree (kernel.supers sb).zmap (kernel.supers sb).nzones 0
        kernel).bind fun blocks =>
          countFree (kernel.supers sb).imap
            ((kernel.supers sb).ninodes + 1) 0 >>= fun inodes =>
              pure (blocks, inodes) := rfl
  rw [unfolded]
  by_cases loaded : (kernel.supers sb).nzones ≤
      (kernel.supers sb).zmapBlocks * 8192
  · have counted := @countFree_counts kernel (kernel.supers sb).zmap
      (kernel.supers sb).nzones 0 fun nr below =>
        valid.zmapLoaded.mpr (by omega)
    have inodes := @countFree_counts kernel (kernel.supers sb).imap
      ((kernel.supers sb).ninodes + 1) 0 fun nr below =>
        valid.imapLoaded (lt_of_lt_of_le below valid.inodes)
    rw [counted]
    show (countFree (kernel.supers sb).imap ((kernel.supers sb).ninodes + 1) 0
      kernel).bind _ = _ ↔ _
    rw [inodes, valid.freeInodes_eq, Nat.zero_add, Nat.zero_add]
    show Run.done _ kernel = _ ↔ _
    rw [← valid.zones_counted loaded, Run.done.injEq, Prod.mk.injEq]
    constructor
    · rintro ⟨⟨same, _⟩, _⟩
      exact ⟨loaded, same⟩
    · rintro ⟨_, same⟩
      exact ⟨⟨same, rfl⟩, rfl⟩
  · have strays := @countFree_strays kernel (kernel.supers sb).zmap
      (kernel.supers sb).nzones 0 ((kernel.supers sb).zmapBlocks * 8192)
      (by omega) (by
        by_contra isLoaded
        exact absurd (valid.zmapLoaded.mp isLoaded) (Nat.lt_irrefl _))
    rw [strays]
    constructor
    · intro impossible
      cases impossible
    · rintro ⟨isLoaded, _⟩
      exact absurd isLoaded loaded

section Example

/-- A map block with bits 1 to 3 clear. -/
def smallMap : Block := fun offset => if offset = 0 then 0xF1 else 0xFF

/-- A root with one block in each map. -/
def smallRoot (nzones : Nat) : Super where
  ninodes := 100
  nzones := nzones
  imapBlocks := 1
  zmapBlocks := 1
  firstdatazone := 10
  magic := superMagic
  imap := fun i => if i = 0 then some 0 else none
  zmap := fun i => if i = 0 then some 1 else none
  dev := 0x301
  isup := none
  imount := none
  lock := false

def rootKernel (nzones : Nat) : Kernel :=
  { idleKernel with
    buffers := fun bh => { idleKernel.buffers bh with data := smallMap }
    supers := fun _ => smallRoot nzones }

theorem rootKernel_valid {nzones : Nat} (fits : nzones < 8202) :
    ValidSuper (rootKernel nzones) ((rootKernel nzones).supers 0) where
  imapBlocks := show 1 ≤ 1 ∧ 1 ≤ mapSlots by decide
  zmapBlocks := show 1 ≤ 1 ∧ 1 ≤ mapSlots by decide
  inodes := show 100 + 1 ≤ 1 * 8192 by decide
  zones := by
    show nzones + 1 ≤ 1 * 8192 + 10
    omega
  imap := by
    intro i
    show (if i = 0 then some 0 else none).isSome ↔ i < 1
    split <;> simp_all
  zmap := by
    intro i
    show (if i = 0 then some 1 else none).isSome ↔ i < 1
    split <;> simp_all
  imapMarked := show some (bitOf smallMap 0) = some true by decide
  zmapMarked := show some (bitOf smallMap 0) = some true by decide

theorem printFree_hundred :
    printFree 0 (rootKernel 100) =
        .done ((freeZones (rootKernel 100) ((rootKernel 100).supers 0)).card,
          (freeInodes (rootKernel 100) ((rootKernel 100).supers 0)).card)
          (rootKernel 100) ↔
      100 ≤ 8192 ∧
        PaddingSet (rootKernel 100) ((rootKernel 100).supers 0) :=
  printFree_iff (rootKernel_valid (by decide))

/-- One map block is enough for 8200 zones, the first ten of which have no
bit; the loop looks for the last bits in the next block. -/
theorem printFree_strays :
    ValidSuper (rootKernel 8200) ((rootKernel 8200).supers 0) ∧
      printFree 0 (rootKernel 8200) = .panic "NULL map block" := by
  have valid := rootKernel_valid (show 8200 < 8202 by decide)
  refine ⟨valid, ?_⟩
  have strays := @countFree_strays (rootKernel 8200) (smallRoot 8200).zmap
    8200 0 8192 (by decide) rfl
  show (countFree (smallRoot 8200).zmap 8200 0 (rootKernel 8200)).bind
    (fun blocks => countFree (smallRoot 8200).imap 101 0 >>= fun inodes =>
      pure (blocks, inodes)) = _
  rw [strays]
  rfl

end Example

end Linux011.Fs

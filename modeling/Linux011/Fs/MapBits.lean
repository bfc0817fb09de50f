import Mathlib.Data.List.Range
import Linux011.Fs.FreeCounts

/-!
# The bits of the maps

`set_bit` and `clear_bit` change one bit, and `find_first_zero` finds the
first clear one: of a block, and by the loop of `new_inode` of all the blocks
of a map.
-/

namespace Linux011.Fs

/-! ## One block -/

variable {data : Block}

theorem testBit_mask (nr bit : Nat) (isBit : nr < 8) :
    (UInt8.ofNat (2 ^ nr)).toNat.testBit bit = decide (nr = bit) := by
  have small : 2 ^ nr < 256 := Nat.pow_lt_pow_right (by decide) isBit
  rw [UInt8.toNat_ofNat', Nat.mod_eq_of_lt small, Nat.testBit_two_pow]

theorem bitOf_setBit (nr other : Nat) :
    bitOf (setBit nr data) other = (decide (other = nr) || bitOf data other) := by
  unfold bitOf setBit
  split <;> rename_i sameByte
  · rw [UInt8.toNat_or, Nat.testBit_or,
      testBit_mask _ _ (Nat.mod_lt nr (by decide)), Bool.or_comm]
    congr 2
    apply propext
    omega
  · have different : other ≠ nr := fun same => sameByte (same ▸ rfl)
    simp [different]

theorem bitOf_clearBit (nr other : Nat) :
    bitOf (clearBit nr data) other =
      (decide (other ≠ nr) && bitOf data other) := by
  unfold bitOf clearBit
  split <;> rename_i sameByte
  · have isBit : other % 8 < 8 := Nat.mod_lt other (by decide)
    have cleared : (~~~UInt8.ofNat (2 ^ (nr % 8))).toNat.testBit (other % 8) =
        !decide (nr % 8 = other % 8) := by
      rw [← testBit_mask _ _ (Nat.mod_lt nr (by decide))]
      show (~~~(UInt8.ofNat (2 ^ (nr % 8))).toBitVec).getLsbD (other % 8) = _
      rw [BitVec.getLsbD_not, decide_eq_true isBit, Bool.true_and]
      rfl
    rw [UInt8.toNat_and, Nat.testBit_and, cleared, Bool.and_comm,
      ← decide_not]
    congr 2
    apply propext
    omega
  · have different : other ≠ nr := fun same => sameByte (same ▸ rfl)
    simp [different]

/-- A block is its bits. -/
theorem block_ext {left right : Block}
    (same : ∀ nr, bitOf left nr = bitOf right nr) : left = right := by
  funext offset
  apply UInt8.toNat_inj.mp
  apply Nat.eq_of_testBit_eq
  intro bit
  by_cases inByte : bit < 8
  · have bits := same (8 * offset + bit)
    unfold bitOf at bits
    rwa [show (8 * offset + bit) / 8 = offset by omega,
      show (8 * offset + bit) % 8 = bit by omega] at bits
  · have beyond (byte : UInt8) : byte.toNat.testBit bit = false := by
      apply Nat.testBit_lt_two_pow
      exact lt_of_lt_of_le byte.toNat_lt
        (Nat.pow_le_pow_right (by decide) (Nat.le_of_not_lt inByte))
    rw [beyond, beyond]

/-- What was set where it was clear can be cleared again. -/
theorem clearBit_setBit {nr : Nat} (isClear : bitOf data nr = false) :
    clearBit nr (setBit nr data) = data := by
  apply block_ext
  intro other
  rw [bitOf_clearBit, bitOf_setBit]
  by_cases here : other = nr
  · subst here
    simp [isClear]
  · simp [here]

theorem shortAt_testBit (offset : Nat) {bit : Nat} (isBit : bit < 16) :
    (shortAt data offset).testBit bit = bitOf data (8 * offset + bit) := by
  unfold shortAt bitOf
  rw [Nat.add_comm, show 256 = 2 ^ 8 from rfl,
    Nat.testBit_two_pow_mul_add _ (UInt8.toNat_lt _)]
  split <;> rename_i low
  · rw [show (8 * offset + bit) / 8 = offset by omega,
      show (8 * offset + bit) % 8 = bit by omega]
  · rw [show (8 * offset + bit) / 8 = offset + 1 by omega,
      show (8 * offset + bit) % 8 = bit - 8 by omega]

theorem longAt_testBit (offset : Nat) {bit : Nat} (isBit : bit < 32) :
    (longAt data offset).testBit bit = bitOf data (8 * offset + bit) := by
  have low : shortAt data offset < 2 ^ 16 := by
    have first := (data offset).toNat_lt
    have second := (data (offset + 1)).toNat_lt
    unfold shortAt
    omega
  unfold longAt
  rw [Nat.add_comm, show 65536 = 2 ^ 16 from rfl,
    Nat.testBit_two_pow_mul_add _ low]
  split <;> rename_i isLow
  · exact shortAt_testBit offset isLow
  · rw [shortAt_testBit _ (by omega)]
    congr 1
    omega

/-- `nr` is the first clear bit from `first` on, or `last` if all are set up
to there. -/
structure FirstClear (isSet : Nat → Bool) (first last nr : Nat) : Prop where
  upper : nr ≤ last
  before : ∀ other, first ≤ other → other < nr → isSet other = true
  clear : nr < last → isSet nr = false

theorem findZeroFrom_first (words index : Nat) :
    FirstClear (bitOf data) (32 * index) (32 * (index + words))
      (findZeroFrom data words index) := by
  induction words generalizing index with
  | zero =>
      refine ⟨le_refl _, fun other above below => ?_, fun below => ?_⟩
      · exact absurd (lt_of_le_of_lt above below) (lt_irrefl _)
      · exact absurd below (lt_irrefl _)
  | succ words induction =>
      unfold findZeroFrom
      have word (bit : Nat) (isBit : bit < 32) :
          (longAt data (4 * index)).testBit bit =
            bitOf data (32 * index + bit) := by
        rw [longAt_testBit _ isBit]
        congr 1
        omega
      split <;> rename_i found
      · rename_i bit
        unfold lowestClear at found
        rw [List.find?_range_eq_some, List.mem_range] at found
        obtain ⟨isClear, inWord, lower⟩ := found
        rw [Bool.not_eq_true', word bit inWord] at isClear
        refine ⟨by omega, fun other above below => ?_, fun _ => isClear⟩
        have isSet := lower (other - 32 * index) (by omega)
        rw [Bool.not_not, word _ (by omega)] at isSet
        rwa [show 32 * index + (other - 32 * index) = other by omega] at isSet
      · unfold lowestClear at found
        rw [List.find?_range_eq_none] at found
        obtain ⟨upper, before, clear⟩ := induction (index + 1)
        refine ⟨by omega, fun other above below => ?_, fun below => ?_⟩
        · by_cases here : other < 32 * (index + 1)
          · have isSet := found (other - 32 * index) (by omega)
            rw [Bool.not_eq_true', Bool.not_eq_false', word _ (by omega)]
              at isSet
            rwa [show 32 * index + (other - 32 * index) = other by omega]
              at isSet
          · exact before other (by omega) below
        · exact clear (by omega)

/-- `find_first_zero`. -/
theorem findFirstZero_first :
    FirstClear (bitOf data) 0 8192 (findFirstZero data) :=
  findZeroFrom_first 256 0

/-! ## A map -/

variable {kernel : Kernel} {map : Nat → Option Nat}

/-- No bit of a map is clear from `first` up to `last`; blocks that were
never loaded have none. -/
def NoneClear (kernel : Kernel) (map : Nat → Option Nat) (first last : Nat) :
    Prop :=
  ∀ nr, first ≤ nr → nr < last → mapBit kernel map nr ≠ some false

theorem NoneClear.append {first middle last : Nat}
    (left : NoneClear kernel map first middle)
    (right : NoneClear kernel map middle last) :
    NoneClear kernel map first last := by
  intro nr above below
  by_cases here : nr < middle
  · exact left nr above here
  · exact right nr (Nat.le_of_not_lt here) below

theorem mapBit_block {index bh bit : Nat} (loaded : map index = some bh)
    (isBit : bit < 8192) :
    mapBit kernel map (bit + index * 8192) =
      some (bitOf (kernel.buffers bh).data bit) := by
  unfold mapBit
  rw [show (bit + index * 8192) / 8192 = index by omega,
    show (bit + index * 8192) % 8192 = bit by omega, loaded]
  rfl

theorem noneClear_block {index bh last : Nat} (loaded : map index = some bh)
    (inBlock : last ≤ 8192)
    (isSet : ∀ bit, bit < last →
      bitOf (kernel.buffers bh).data bit = true) :
    NoneClear kernel map (index * 8192) (last + index * 8192) := by
  intro nr above below
  have bit := @mapBit_block kernel map _ _ (nr - index * 8192) loaded (by omega)
  rw [show nr - index * 8192 + index * 8192 = nr by omega] at bit
  rw [bit, isSet _ (by omega)]
  decide

theorem noneClear_absent {index : Nat} (absent : map index = none) :
    NoneClear kernel map (index * 8192) ((index + 1) * 8192) := by
  intro nr above below
  unfold mapBit
  rw [show nr / 8192 = index by omega, absent]
  exact nofun

/-- The loop finds the first clear bit. -/
theorem findMap_first {rest start index bh bit : Nat}
    (found : findMap kernel map rest start = some (index, bh, bit)) :
    map index = some bh ∧ bit < 8192 ∧ index < start + rest ∧
      bitOf (kernel.buffers bh).data bit = false ∧
      NoneClear kernel map (start * 8192) (bit + index * 8192) := by
  induction rest generalizing start with
  | zero => cases found
  | succ rest induction =>
      unfold findMap at found
      split at found
      · rename_i absent
        obtain ⟨loaded, isBit, inMap, isClear, before⟩ := induction found
        exact ⟨loaded, isBit, by omega, isClear,
          (noneClear_absent absent).append before⟩
      · rename_i other loaded
        have first := @findFirstZero_first (kernel.buffers other).data
        dsimp only at found
        split at found <;> rename_i hasClear
        · cases found
          exact ⟨loaded, hasClear, by omega, first.clear hasClear,
            noneClear_block loaded (le_of_lt hasClear)
              fun bit => first.before bit (Nat.zero_le bit)⟩
        · have isFull : findFirstZero (kernel.buffers other).data = 8192 :=
            le_antisymm first.upper (Nat.le_of_not_lt hasClear)
          obtain ⟨loaded', isBit, inMap, isClear, before⟩ := induction found
          refine ⟨loaded', isBit, by omega, isClear, ?_⟩
          refine NoneClear.append ?_ before
          rw [Nat.succ_mul, Nat.add_comm]
          apply noneClear_block loaded (le_refl _)
          intro bit isBit
          exact first.before bit (Nat.zero_le bit) (isFull ▸ isBit)

/-- Where the loop finds none there is none. -/
theorem findMap_none {rest start : Nat}
    (missing : findMap kernel map rest start = none) :
    NoneClear kernel map (start * 8192) ((start + rest) * 8192) := by
  induction rest generalizing start with
  | zero =>
      intro nr above below
      omega
  | succ rest induction =>
      unfold findMap at missing
      rw [show start + (rest + 1) = start + 1 + rest by omega]
      split at missing
      · rename_i absent
        exact (noneClear_absent absent).append (induction missing)
      · rename_i other loaded
        have first := @findFirstZero_first (kernel.buffers other).data
        dsimp only at missing
        split at missing <;> rename_i hasClear
        · cases missing
        · have isFull : findFirstZero (kernel.buffers other).data = 8192 :=
            le_antisymm first.upper (Nat.le_of_not_lt hasClear)
          refine NoneClear.append ?_ (induction missing)
          rw [Nat.succ_mul, Nat.add_comm]
          apply noneClear_block loaded (le_refl _)
          intro bit isBit
          exact first.before bit (Nat.zero_le bit) (isFull ▸ isBit)

end Linux011.Fs

import Mathlib.Data.BitVec

/-!
# Bytes in memory

The bytes of a 32-bit word, least significant first, and what it means that a
memory some of whose addresses can be read holds a list of bytes.
-/

namespace Bytes

abbrev Byte := BitVec 8

/-- Byte `index` of a word. -/
def byteOf (word : BitVec 32) (index : Nat) : Byte :=
  word.extractLsb' (8 * index) 8

/-- The word with byte `index` replaced. -/
def withByte (word : BitVec 32) (index : Nat) (byte : Byte) : BitVec 32 :=
  word &&& ~~~(255#32 <<< (8 * index)) ||| byte.setWidth 32 <<< (8 * index)

theorem getLsbD_byteMask (i : Nat) :
    (255#32).getLsbD i = decide (i < 8) := by
  rw [BitVec.getLsbD_ofNat, show 255 = 2 ^ 8 - 1 from rfl,
    Nat.testBit_two_pow_sub_one]
  by_cases below : i < 8
  · simp [below, show i < 32 by omega]
  · simp [below]

theorem byteOf_withByte {word : BitVec 32} {index other : Nat} {byte : Byte}
    (inWord : index < 4) (otherInWord : other < 4) :
    byteOf (withByte word index byte) other =
      if other = index then byte else byteOf word other := by
  apply BitVec.eq_of_getLsbD_eq
  intro i inByte
  have inside : 8 * other + i < 32 := by omega
  have bits (index : Nat) : (byteOf (withByte word index byte) other).getLsbD i =
      (word.getLsbD (8 * other + i) &&
          !(!decide (8 * other + i < 8 * index) &&
            decide (8 * other + i - 8 * index < 8)) ||
        !decide (8 * other + i < 8 * index) &&
          (decide (8 * other + i - 8 * index < 32) &&
            byte.getLsbD (8 * other + i - 8 * index))) := by
    unfold byteOf withByte
    simp only [BitVec.getLsbD_extractLsb', inByte, BitVec.getLsbD_or,
      BitVec.getLsbD_and, BitVec.getLsbD_not, BitVec.getLsbD_shiftLeft,
      getLsbD_byteMask, BitVec.getLsbD_setWidth, inside, decide_true,
      Bool.true_and]
  rw [bits]
  split <;> rename_i same
  · subst same
    rw [show 8 * other + i - 8 * other = i by omega]
    have notBelow : ¬ 8 * other + i < 8 * other := by omega
    have small : i < 32 := by omega
    simp [inByte, small, notBelow]
  · have sameByte : (byteOf word other).getLsbD i =
        word.getLsbD (8 * other + i) := by
      unfold byteOf
      rw [BitVec.getLsbD_extractLsb', decide_eq_true inByte, Bool.true_and]
    rw [sameByte]
    by_cases below : other < index
    · simp [show 8 * other + i < 8 * index by omega]
    · have beyond : ¬ 8 * other + i - 8 * index < 8 := by omega
      rw [BitVec.getLsbD_of_ge byte _ (by omega)]
      simp [beyond]

/-- The four bytes of a word as they lie in memory. -/
def longBytes (word : BitVec 32) : List Byte :=
  [byteOf word 0, byteOf word 1, byteOf word 2, byteOf word 3]

theorem longBytes_inj {word other : BitVec 32}
    (same : longBytes word = longBytes other) : word = other := by
  have bytes (index : Nat) (inWord : index < 4) :
      byteOf word index = byteOf other index := by
    have entry := congrArg (·[index]?) same
    unfold longBytes at entry
    match index, inWord with
    | 0, _ => exact Option.some.inj entry
    | 1, _ => exact Option.some.inj entry
    | 2, _ => exact Option.some.inj entry
    | 3, _ => exact Option.some.inj entry
  apply BitVec.eq_of_getLsbD_eq
  intro i inWord
  have bit := congrArg (·.getLsbD (i % 8)) (bytes (i / 8) (by omega))
  unfold byteOf at bit
  rw [BitVec.getLsbD_extractLsb', BitVec.getLsbD_extractLsb', Nat.div_add_mod,
    decide_eq_true (Nat.mod_lt i (by omega)), Bool.true_and, Bool.true_and]
    at bit
  exact bit

/-- The word with four bytes, the least significant first. -/
def ofBytes (first second third fourth : Byte) : BitVec 32 :=
  fourth ++ third ++ second ++ first

/-- The memory can be read at every address of the bytes, and holds them. -/
def Holds (memory : Nat → Option Byte) (address : Nat) (bytes : List Byte) :
    Prop :=
  ∀ i, i < bytes.length → memory (address + i) = bytes[i]?

variable {memory next : Nat → Option Byte} {address : Nat}
  {bytes rest : List Byte}

theorem holds_nil : Holds memory address [] := by
  intro i below
  cases below

theorem holds_cons {byte : Byte} : Holds memory address (byte :: rest) ↔
    memory address = some byte ∧ Holds memory (address + 1) rest := by
  constructor
  · intro holds
    refine ⟨holds 0 (Nat.succ_pos _), ?_⟩
    intro i below
    have later := holds (i + 1) (Nat.succ_lt_succ below)
    rwa [show address + (i + 1) = address + 1 + i by omega,
      List.getElem?_cons_succ] at later
  · rintro ⟨first, later⟩ i below
    cases i with
    | zero => exact first
    | succ i =>
        rw [show address + (i + 1) = address + 1 + i by omega,
          List.getElem?_cons_succ]
        exact later i (Nat.lt_of_succ_lt_succ below)

theorem holds_append : Holds memory address (bytes ++ rest) ↔
    Holds memory address bytes ∧
      Holds memory (address + bytes.length) rest := by
  induction bytes generalizing address with
  | nil =>
      simp only [List.nil_append, List.length_nil, Nat.add_zero]
      exact ⟨fun holds => ⟨holds_nil, holds⟩, fun holds => holds.2⟩
  | cons byte bytes induction =>
      rw [List.cons_append, holds_cons, holds_cons, induction, and_assoc,
        List.length_cons,
        show address + 1 + bytes.length = address + (bytes.length + 1) by omega]

/-- What is held stays where nothing is stored. -/
theorem Holds.stays (holds : Holds memory address bytes)
    (same : ∀ other byte, address ≤ other → other < address + bytes.length →
      memory other = some byte → next other = some byte) :
    Holds next address bytes := by
  intro i below
  have before := holds i below
  rw [List.getElem?_eq_getElem below] at before ⊢
  exact same _ _ (by omega) (by omega) before

end Bytes

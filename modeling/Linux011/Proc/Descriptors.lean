import Mathlib.Tactic.IntervalCases
import Linux011.Proc.Exec

/-!
# Segment descriptors

The macros of `sched.h` on the eight bytes of a descriptor, instruction by
instruction, and the descriptors that `copy_mem` and `change_ldt` make.
-/

namespace Linux011.Proc

open Bytes Linux011.Mm

/-- `desc_struct`, byte by byte. -/
@[ext] structure Descriptor where
  byte0 : Byte
  byte1 : Byte
  byte2 : Byte
  byte3 : Byte
  byte4 : Byte
  byte5 : Byte
  byte6 : Byte
  byte7 : Byte

namespace Descriptor

/-- `dl` and `dh` of `edx`, which together are `dx`. -/
def dl (edx : Word) : Byte := byteOf edx 0

def dh (edx : Word) : Byte := byteOf edx 1

/-- `rorl $16`. -/
def rorl16 (edx : Word) : Word := edx.rotateRight 16

/-! ## The macros -/

/-- `_set_base`. -/
def setBase (base : Word) (d : Descriptor) : Descriptor :=
  let edx := base
  let d := { d with byte2 := dl edx, byte3 := dh edx }
  let edx := rorl16 edx
  let d := { d with byte4 := dl edx }
  { d with byte7 := dh edx }

/-- `_set_limit`. -/
def setLimitField (limit : Word) (d : Descriptor) : Descriptor :=
  let edx := limit
  let d := { d with byte0 := dl edx, byte1 := dh edx }
  let edx := rorl16 edx
  let edx := withByte edx 1 d.byte6
  let edx := withByte edx 1 (dh edx &&& 0xf0)
  let edx := withByte edx 0 (dl edx ||| dh edx)
  { d with byte6 := dl edx }

/-- `set_limit`. -/
def setLimit (limit : Word) (d : Descriptor) : Descriptor :=
  d.setLimitField ((limit - 1) >>> 12)

/-- `_get_base`; `edx` is what the register holds before. -/
def getBase (edx : Word) (d : Descriptor) : Word :=
  let edx := withByte edx 1 d.byte7
  let edx := withByte edx 0 d.byte4
  let edx := edx <<< 16
  withByte (withByte edx 0 d.byte2) 1 d.byte3

/-- The 32 bits of the base. -/
def baseField (d : Descriptor) : Word :=
  d.byte7 ++ d.byte4 ++ d.byte3 ++ d.byte2

/-- The 20 bits of the limit. -/
def limitField (d : Descriptor) : BitVec 20 :=
  d.byte6.setWidth 4 ++ d.byte1 ++ d.byte0

/-- The limit counts pages. -/
def granular (d : Descriptor) : Bool := d.byte6.getLsbD 7

/-- `lsl`: the last byte of the segment. -/
def lsl (d : Descriptor) : Word :=
  if d.granular then d.limitField ++ 0xfff#12 else d.limitField.setWidth 32

/-- `get_limit`. -/
def getLimit (d : Descriptor) : Word := d.lsl + 1

/-! ## Bytes of a register -/

theorem byteOf_rorl16 (edx : Word) {index : Nat} (inWord : index < 2) :
    byteOf (rorl16 edx) index = byteOf edx (index + 2) := by
  apply BitVec.eq_of_getLsbD_eq
  intro i inByte
  unfold byteOf rorl16
  rw [BitVec.getLsbD_extractLsb', BitVec.getLsbD_extractLsb',
    BitVec.getLsbD_rotateRight,
    decide_eq_true (by omega : 8 * index + i < 32 - 16 % 32), cond_true]
  rw [show 16 % 32 + (8 * index + i) = 8 * (index + 2) + i by omega]

theorem byteOf_shiftLeft (edx : Word) {index : Nat} (low : 2 ≤ index)
    (inWord : index < 4) : byteOf (edx <<< 16) index = byteOf edx (index - 2) := by
  apply BitVec.eq_of_getLsbD_eq
  intro i inByte
  unfold byteOf
  rw [BitVec.getLsbD_extractLsb', BitVec.getLsbD_extractLsb',
    BitVec.getLsbD_shiftLeft, decide_eq_true (by omega : 8 * index + i < 32),
    decide_eq_false (by omega : ¬ 8 * index + i < 16)]
  rw [show 8 * index + i - 16 = 8 * (index - 2) + i by omega]
  simp

theorem word_ext {word other : Word}
    (bytes : ∀ index < 4, byteOf word index = byteOf other index) :
    word = other := by
  apply longBytes_inj
  unfold longBytes
  rw [bytes 0 (by decide), bytes 1 (by decide), bytes 2 (by decide),
    bytes 3 (by decide)]

/-! ## What the setters do to the bytes -/

theorem setBase_eq (base : Word) (d : Descriptor) :
    d.setBase base =
      { d with
        byte2 := byteOf base 0
        byte3 := byteOf base 1
        byte4 := byteOf base 2
        byte7 := byteOf base 3 } := by
  unfold setBase dl dh
  dsimp only
  rw [byteOf_rorl16 base (by decide), byteOf_rorl16 base (by decide)]

theorem setLimitField_eq (limit : Word) (d : Descriptor) :
    d.setLimitField limit =
      { d with
        byte0 := byteOf limit 0
        byte1 := byteOf limit 1
        byte6 := byteOf limit 2 ||| (d.byte6 &&& 0xf0) } := by
  unfold setLimitField dl dh
  simp only [byteOf_withByte (show 0 < 4 by decide) (show 0 < 4 by decide),
    byteOf_withByte (show 1 < 4 by decide) (show 0 < 4 by decide),
    byteOf_withByte (show 1 < 4 by decide) (show 1 < 4 by decide), if_true]
  rw [if_neg (by decide), if_neg (by decide), byteOf_rorl16 limit (by decide)]

/-- A word whose bytes are those of the descriptor's base. -/
theorem getBase_eq_of_bytes (edx : Word) (d : Descriptor) {base : Word}
    (byte2 : d.byte2 = byteOf base 0) (byte3 : d.byte3 = byteOf base 1)
    (byte4 : d.byte4 = byteOf base 2) (byte7 : d.byte7 = byteOf base 3) :
    d.getBase edx = base := by
  apply word_ext
  intro index inWord
  unfold getBase
  rw [byteOf_withByte (by decide) inWord, byteOf_withByte (by decide) inWord]
  match index, inWord with
  | 0, _ => exact byte2
  | 1, _ => exact byte3
  | 2, _ =>
      rw [if_neg (by decide), if_neg (by decide),
        byteOf_shiftLeft _ (by decide) (by decide),
        byteOf_withByte (by decide) (by decide), if_pos (by decide)]
      exact byte4
  | 3, _ =>
      rw [if_neg (by decide), if_neg (by decide),
        byteOf_shiftLeft _ (by decide) (by decide),
        byteOf_withByte (by decide) (by decide), if_neg (by decide),
        byteOf_withByte (by decide) (by decide), if_pos (by decide)]
      exact byte7

theorem byteOf_append (byte3 byte2 byte1 byte0 : Byte) :
    byteOf (byte3 ++ byte2 ++ byte1 ++ byte0) 0 = byte0 ∧
      byteOf (byte3 ++ byte2 ++ byte1 ++ byte0) 1 = byte1 ∧
      byteOf (byte3 ++ byte2 ++ byte1 ++ byte0) 2 = byte2 ∧
      byteOf (byte3 ++ byte2 ++ byte1 ++ byte0) 3 = byte3 := by
  unfold byteOf
  refine ⟨?_, ?_, ?_, ?_⟩ <;>
    apply BitVec.eq_of_getLsbD_eq <;>
    intro i inByte <;>
    rw [BitVec.getLsbD_extractLsb', decide_eq_true inByte, Bool.true_and,
      BitVec.getLsbD_append, BitVec.getLsbD_append, BitVec.getLsbD_append]
  · rw [if_pos (by omega), Nat.mul_zero, Nat.zero_add]
  · rw [if_neg (by omega), if_pos (by omega)]
    congr 1
    omega
  · rw [if_neg (by omega), if_neg (by omega), if_pos (by omega)]
    congr 1
    omega
  · rw [if_neg (by omega), if_neg (by omega), if_neg (by omega)]
    congr 1
    omega

/-- `_get_base` gives the base, whatever its register held. -/
theorem getBase_eq (edx : Word) (d : Descriptor) :
    d.getBase edx = d.baseField := by
  obtain ⟨first, second, third, fourth⟩ :=
    byteOf_append d.byte7 d.byte4 d.byte3 d.byte2
  exact getBase_eq_of_bytes edx d first.symm second.symm third.symm
    fourth.symm

theorem getBase_setBase (edx base : Word) (d : Descriptor) :
    (d.setBase base).getBase edx = base := by
  rw [setBase_eq]
  exact getBase_eq_of_bytes edx _ rfl rfl rfl rfl

theorem baseField_setBase (base : Word) (d : Descriptor) :
    (d.setBase base).baseField = base := by
  rw [← getBase_eq 0, getBase_setBase]

/-- Nothing but the base changes. -/
theorem setBase_frame (base : Word) (d : Descriptor) :
    (d.setBase base).byte0 = d.byte0 ∧ (d.setBase base).byte1 = d.byte1 ∧
      (d.setBase base).byte5 = d.byte5 ∧ (d.setBase base).byte6 = d.byte6 := by
  rw [setBase_eq]
  exact ⟨rfl, rfl, rfl, rfl⟩

theorem lsl_setBase (base : Word) (d : Descriptor) :
    (d.setBase base).lsl = d.lsl := by
  rw [setBase_eq]
  rfl

theorem setBase_setLimitField (base limit : Word) (d : Descriptor) :
    (d.setLimitField limit).setBase base =
      (d.setBase base).setLimitField limit := by
  rw [setBase_eq, setLimitField_eq, setBase_eq, setLimitField_eq]

/-! ## The limit -/

/-- The upper four bits of byte 6. -/
def flags (d : Descriptor) : BitVec 4 := d.byte6.extractLsb' 4 4

theorem getLsbD_f0 (i : Nat) (inByte : i < 8) :
    (0xf0 : Byte).getLsbD i = decide (4 ≤ i) := by
  interval_cases i <;> decide

theorem limitField_setLimitField (limit : Word) (d : Descriptor) :
    (d.setLimitField limit).limitField = limit.setWidth 20 := by
  apply BitVec.eq_of_getLsbD_eq
  intro i inField
  unfold limitField
  rw [setLimitField_eq]
  dsimp only
  rw [BitVec.getLsbD_append, BitVec.getLsbD_append, BitVec.getLsbD_setWidth,
    BitVec.getLsbD_setWidth, BitVec.getLsbD_or, BitVec.getLsbD_and]
  unfold byteOf
  rw [BitVec.getLsbD_extractLsb', BitVec.getLsbD_extractLsb',
    BitVec.getLsbD_extractLsb']
  rw [decide_eq_true inField, Bool.true_and]
  by_cases first : i < 8
  · rw [if_pos first, decide_eq_true first, Bool.true_and,
      show 8 * 0 + i = i by omega]
  · rw [if_neg first]
    by_cases second : i - 8 < 8
    · rw [if_pos second, decide_eq_true second, Bool.true_and,
        show 8 * 1 + (i - 8) = i by omega]
    · rw [if_neg second, getLsbD_f0 _ (by omega),
        decide_eq_false (by omega : ¬ 4 ≤ i - 8 - 8),
        decide_eq_true (by omega : i - 8 - 8 < 4),
        decide_eq_true (by omega : i - 8 - 8 < 8), Bool.and_false,
        Bool.or_false, Bool.true_and, Bool.true_and,
        show 8 * 2 + (i - 8 - 8) = i by omega]

section Limit

variable {limit : Word} (fits : limit.toNat < 2 ^ 20) (d : Descriptor)

include fits

theorem getLsbD_limit_high {i : Nat} (high : 20 ≤ i) :
    limit.getLsbD i = false := by
  unfold BitVec.getLsbD
  exact Nat.testBit_lt_two_pow
    (lt_of_lt_of_le fits (Nat.pow_le_pow_right (by decide) high))

/-- A limit of 20 bits leaves the flags beside it. -/
theorem flags_setLimitField : (d.setLimitField limit).flags = d.flags := by
  apply BitVec.eq_of_getLsbD_eq
  intro i inNibble
  unfold flags
  rw [setLimitField_eq]
  dsimp only
  rw [BitVec.getLsbD_extractLsb', BitVec.getLsbD_extractLsb',
    BitVec.getLsbD_or, BitVec.getLsbD_and, getLsbD_f0 _ (by omega)]
  unfold byteOf
  rw [BitVec.getLsbD_extractLsb', getLsbD_limit_high fits (by omega)]
  simp

end Limit

theorem granular_eq (d : Descriptor) : d.granular = d.flags.getLsbD 3 := by
  unfold granular flags
  rw [BitVec.getLsbD_extractLsb']
  rfl

theorem toNat_append_fff (field : BitVec 20) :
    (field ++ 0xfff#12).toNat = field.toNat * 4096 + 4095 := by
  rw [BitVec.toNat_append, ← Nat.shiftLeft_add_eq_or_of_lt (by decide),
    Nat.shiftLeft_eq]
  rfl

/-- The pages up to the last byte of the limit, less one. -/
theorem toNat_pages {limit : Word} (positive : 1 ≤ limit.toNat) :
    ((limit - 1) >>> 12).toNat = (limit.toNat - 1) / 4096 := by
  rw [BitVec.toNat_ushiftRight, Nat.shiftRight_eq_div_pow, BitVec.toNat_sub]
  have bound := limit.isLt
  show (2 ^ 32 - 1 + limit.toNat) % 2 ^ 32 / 2 ^ 12 = _
  omega

theorem lsl_setLimit {limit : Word} {d : Descriptor}
    (granular : d.granular = true) (positive : 1 ≤ limit.toNat) :
    (d.setLimit limit).lsl.toNat = (limit.toNat - 1) / 4096 * 4096 + 4095 := by
  have bound := limit.isLt
  have pages := toNat_pages positive
  have fits : ((limit - 1) >>> 12).toNat < 2 ^ 20 := by omega
  have granularAfter : (d.setLimit limit).granular = true := by
    rw [granular_eq] at granular ⊢
    unfold setLimit
    rw [flags_setLimitField fits, granular]
  unfold lsl
  rw [if_pos granularAfter, toNat_append_fff]
  unfold setLimit
  rw [limitField_setLimitField, BitVec.toNat_setWidth,
    Nat.mod_eq_of_lt fits, pages]

theorem setLimit_frame (limit : Word) (d : Descriptor) :
    (d.setLimit limit).baseField = d.baseField ∧
      (d.setLimit limit).byte5 = d.byte5 := by
  unfold setLimit
  rw [setLimitField_eq]
  exact ⟨rfl, rfl⟩

end Descriptor

/-! ## The descriptors of a task -/

/-- `ldt[1]` and `ldt[2]`. -/
structure Ldt where
  code : Descriptor
  data : Descriptor

/-- What `copy_mem` does to the copied descriptors of the new task. -/
def copyMemLdt (nr : Nat) (ldt : Ldt) : Ldt :=
  let newBase := BitVec.ofNat 32 (nr * 0x4000000)
  ⟨ldt.code.setBase newBase, ldt.data.setBase newBase⟩

/-- The linear addresses of the segment. -/
def Descriptor.Reaches (d : Descriptor) (address : Nat) : Prop :=
  d.baseField.toNat ≤ address ∧ address < d.baseField.toNat + d.lsl.toNat + 1

/-- The segment that the rest of the model has for the descriptor. -/
def Descriptor.segment (d : Descriptor) : Segment where
  base := d.baseField.toNat
  limit := d.lsl.toNat + 1

theorem toNat_windowBase {nr : Nat} (isSlot : nr ≤ 63) :
    (BitVec.ofNat 32 (nr * 0x4000000)).toNat = windowBase nr := by
  unfold windowBase
  rw [BitVec.toNat_ofNat, Nat.mod_eq_of_lt (by omega)]

theorem segment_setBase {nr : Nat} (isSlot : nr ≤ 63) (d : Descriptor) :
    (d.setBase (BitVec.ofNat 32 (nr * 0x4000000))).segment =
      { d.segment with base := windowBase nr } := by
  unfold Descriptor.segment
  rw [Descriptor.baseField_setBase, Descriptor.lsl_setBase,
    toNat_windowBase isSlot]

/-- The descriptors go with the segments that `copy_mem` stores. -/
theorem copyMemLdt_segments {nr : Nat} {ldt : Ldt} {p : TaskStruct}
    (isSlot : nr ≤ 63) (code : ldt.code.segment = p.codeSegment)
    (data : ldt.data.segment = p.dataSegment) :
    (copyMemLdt nr ldt).code.segment =
        (setBase (windowBase nr) p).codeSegment ∧
      (copyMemLdt nr ldt).data.segment =
        (setBase (windowBase nr) p).dataSegment := by
  unfold copyMemLdt setBase
  dsimp only
  rw [segment_setBase isSlot, segment_setBase isSlot, code, data]
  exact ⟨rfl, rfl⟩

/-- Each segment of a task that `copy_mem` has set up begins its slot's window
and keeps its limit. -/
theorem copyMemLdt_window {nr : Nat} (isSlot : nr ≤ 63) {ldt : Ldt}
    (codeNarrow : ldt.code.lsl.toNat + 1 ≤ 0x4000000)
    (dataNarrow : ldt.data.lsl.toNat + 1 ≤ 0x4000000) {d : Descriptor}
    (member : d ∈ [(copyMemLdt nr ldt).code, (copyMemLdt nr ldt).data]) :
    d.baseField.toNat = nr * 0x4000000 ∧ d.lsl.toNat + 1 ≤ 0x4000000 := by
  have base := toNat_windowBase isSlot
  rw [List.mem_pair] at member
  rcases member with rfl | rfl
  · unfold copyMemLdt
    dsimp only
    rw [Descriptor.baseField_setBase, Descriptor.lsl_setBase]
    exact ⟨base, codeNarrow⟩
  · unfold copyMemLdt
    dsimp only
    rw [Descriptor.baseField_setBase, Descriptor.lsl_setBase]
    exact ⟨base, dataNarrow⟩

/-! ## Consistency -/

/-- What the setters store the getters find, the setters leave each other's
bits and those of the access and the granularity alone, and the windows that
`copy_mem` sets for different slots are disjoint. -/
theorem descriptors_consistent :
    (∀ (d : Descriptor) (base edx : Word),
      (d.setBase base).getBase edx = base) ∧
    (∀ (d : Descriptor) (base : Word),
      (d.setBase base).limitField = d.limitField ∧
        (d.setBase base).byte5 = d.byte5 ∧
        (d.setBase base).byte6 = d.byte6) ∧
    (∀ (d : Descriptor) (limit : Word), d.granular = true →
      limit.toNat % 4096 = 0 → 4096 ≤ limit.toNat →
      (d.setLimit limit).getLimit = limit ∧
        (d.setLimit limit).lsl.toNat + 1 = limit.toNat) ∧
    (∀ (d : Descriptor) (limit : Word), limit.toNat % 4096 = 0 →
      4096 ≤ limit.toNat →
      (∀ edx, (d.setLimit limit).getBase edx = d.getBase edx) ∧
        (d.setLimit limit).flags = d.flags ∧
        (d.setLimit limit).byte5 = d.byte5) ∧
    (∀ (d : Descriptor) (base limit : Word),
      (d.setLimit limit).setBase base = (d.setBase base).setLimit limit) ∧
    ∀ nr m, 1 ≤ nr → nr ≤ 63 → 1 ≤ m → m ≤ 63 → nr ≠ m →
      ∀ (ldt ldt' : Ldt),
        (∀ d ∈ [ldt.code, ldt.data, ldt'.code, ldt'.data],
          d.lsl.toNat + 1 ≤ 0x4000000) →
        ∀ d ∈ [(copyMemLdt nr ldt).code, (copyMemLdt nr ldt).data],
        ∀ d' ∈ [(copyMemLdt m ldt').code, (copyMemLdt m ldt').data],
          d.baseField.toNat = nr * 0x4000000 ∧
          d.lsl.toNat + 1 ≤ 0x4000000 ∧
          ∀ address, ¬ (d.Reaches address ∧ d'.Reaches address) := by
  refine ⟨fun d base edx => d.getBase_setBase edx base, ?_, ?_, ?_, ?_, ?_⟩
  · intro d base
    obtain ⟨byte0, byte1, byte5, byte6⟩ := d.setBase_frame base
    refine ⟨?_, byte5, byte6⟩
    unfold Descriptor.limitField
    rw [byte0, byte1, byte6]
  · intro d limit granular pages positive
    have last := Descriptor.lsl_setLimit granular
      (show 1 ≤ limit.toNat by omega)
    have size : (d.setLimit limit).lsl.toNat + 1 = limit.toNat := by omega
    refine ⟨BitVec.eq_of_toNat_eq ?_, size⟩
    unfold Descriptor.getLimit
    rw [BitVec.toNat_add]
    show ((d.setLimit limit).lsl.toNat + 1) % 2 ^ 32 = _
    rw [size, Nat.mod_eq_of_lt limit.isLt]
  · intro d limit pages positive
    have bound := limit.isLt
    obtain ⟨base, access⟩ := d.setLimit_frame limit
    refine ⟨fun edx => ?_, ?_, access⟩
    · rw [Descriptor.getBase_eq, Descriptor.getBase_eq, base]
    · refine Descriptor.flags_setLimitField ?_ d
      rw [Descriptor.toNat_pages (by omega)]
      omega
  · intro d base limit
    exact d.setBase_setLimitField base _
  · intro nr m _ isSlot _ isSlot' different ldt ldt' narrow d member d' member'
    obtain ⟨base, size⟩ := copyMemLdt_window isSlot (narrow _ (by simp))
      (narrow _ (by simp)) member
    obtain ⟨base', size'⟩ := copyMemLdt_window isSlot' (narrow _ (by simp))
      (narrow _ (by simp)) member'
    refine ⟨base, size, fun address both => ?_⟩
    unfold Descriptor.Reaches at both
    omega

/-- The descriptors of the first task: 640 KB from address 0. -/
def initLdt : Ldt where
  code := ⟨0x9f, 0, 0, 0, 0, 0xfa, 0xc0, 0⟩
  data := ⟨0x9f, 0, 0, 0, 0, 0xf2, 0xc0, 0⟩

theorem descriptors_consistent_initLdt :
    (initLdt.code.setLimit 0x4000000#32).getLimit = 0x4000000#32 ∧
      (initLdt.code.setLimit 0x4000000#32).flags = initLdt.code.flags ∧
      ∀ address, ¬ ((copyMemLdt 1 initLdt).data.Reaches address ∧
        (copyMemLdt 63 initLdt).code.Reaches address) := by
  obtain ⟨-, -, limit, frame, -, windows⟩ := descriptors_consistent
  refine ⟨(limit _ _ (by decide) (by decide) (by decide)).1,
    (frame _ _ (by decide) (by decide)).2.1, ?_⟩
  exact (windows 1 63 (by decide) (by decide) (by decide) (by decide)
    (by decide) initLdt initLdt (by decide) _ (by simp) _ (by simp)).2.2

end Linux011.Proc

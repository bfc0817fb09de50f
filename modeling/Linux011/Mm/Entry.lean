import Mathlib.Data.BitVec
import Mathlib.Tactic.Ring

/-!
# Page-table words

A page-directory or page-table entry is a 32-bit word: bits 31..12 are the
frame number, bit 0 says present, bit 1 writable, bit 6 is the dirty bit the
CPU sets on a store.  The functions below read and edit words with the masks
of `mm/memory.c`; everything later reasons through the four projections.
-/

namespace Linux011.Mm

abbrev Word := BitVec 32

namespace Word

/-- `1 & word`. -/
def present (word : Word) : Bool := word &&& 1#32 != 0#32

/-- `2 & word`. -/
def writable (word : Word) : Bool := word &&& 2#32 != 0#32

/-- `0x40 & word`. -/
def dirty (word : Word) : Bool := word &&& 0x40#32 != 0#32

/-- `0xfffff000 & word`, as a frame number. -/
def page (word : Word) : Nat := (word >>> 12).toNat

/-- `page | 7` for the page with frame number `frame`. -/
def user (frame : Nat) : Word := (BitVec.ofNat 32 frame <<< 12) ||| 7#32

/-- `word & ~2`. -/
def protect (word : Word) : Word := word &&& ~~~2#32

/-- `word | 2`. -/
def unprotect (word : Word) : Word := word ||| 2#32

/-- What the CPU does to the entry a store goes through: accessed and dirty. -/
def stored (word : Word) : Word := word ||| 0x60#32

private theorem and_bit_ne_zero (word : Word) (bit : Nat) (small : bit < 32) :
    (word &&& (1#32 <<< bit) != 0#32) = word.getLsbD bit := by
  cases value : word.getLsbD bit with
  | true =>
      rw [bne_iff_ne]
      intro zero
      have atBit := congrArg (fun masked => BitVec.getLsbD masked bit) zero
      simp [small] at atBit
      rw [BitVec.getLsbD_eq_getElem small, atBit] at value
      cases value
  | false =>
      rw [bne_eq_false_iff_eq]
      ext index inRange
      by_cases same : index = bit
      · subst same
        simp [BitVec.getLsbD_eq_getElem inRange] at value
        simp [value]
      · simp only [BitVec.getElem_and, BitVec.getElem_shiftLeft,
          BitVec.getElem_zero, Bool.and_eq_false_imp]
        intro _
        by_cases before : index < bit
        · simp [before]
        · have positive : index - bit ≠ 0 := by omega
          simp [positive]

theorem present_eq (word : Word) : word.present = word.getLsbD 0 :=
  and_bit_ne_zero word 0 (by decide)

theorem writable_eq (word : Word) : word.writable = word.getLsbD 1 :=
  and_bit_ne_zero word 1 (by decide)

theorem page_eq (word : Word) : word.page = word.toNat / 4096 := by
  simp [page, Nat.shiftRight_eq_div_pow]

/-- Words that agree above bit 11 name the same page. -/
theorem page_congr {left right : Word}
    (agree : ∀ index, 12 ≤ index → left.getLsbD index = right.getLsbD index) :
    left.page = right.page := by
  unfold page
  congr 1
  ext index inRange
  simpa [BitVec.getLsbD_eq_getElem] using
    agree (12 + index) (Nat.le_add_right 12 index)

@[simp] theorem present_protect (word : Word) :
    (protect word).present = word.present := by
  simp [present_eq, protect]

@[simp] theorem writable_protect (word : Word) :
    (protect word).writable = false := by
  simp [writable_eq, protect]

@[simp] theorem protect_protect (word : Word) :
    protect (protect word) = protect word := by
  simp [protect, BitVec.and_assoc]

@[simp] theorem present_unprotect (word : Word) :
    (unprotect word).present = word.present := by
  simp [present_eq, unprotect]

@[simp] theorem writable_unprotect (word : Word) :
    (unprotect word).writable = true := by
  simp [writable_eq, unprotect]

@[simp] theorem present_stored (word : Word) :
    (stored word).present = word.present := by
  simp [present_eq, stored]

@[simp] theorem writable_stored (word : Word) :
    (stored word).writable = word.writable := by
  simp [writable_eq, stored]

private theorem getLsbD_mask (mask : Nat) {index : Nat} (small : mask < 4096)
    (high : 12 ≤ index) : (BitVec.ofNat 32 mask).getLsbD index = false := by
  rw [BitVec.getLsbD_ofNat]
  have bound : mask < 2 ^ index :=
    lt_of_lt_of_le small (Nat.pow_le_pow_right Nat.two_pos high)
  simp [Nat.testBit_lt_two_pow bound]

@[simp] theorem page_protect (word : Word) :
    (protect word).page = word.page := by
  apply page_congr
  intro index high
  rw [protect, BitVec.getLsbD_and, BitVec.getLsbD_not,
    getLsbD_mask 2 (by decide) high]
  by_cases inRange : index < 32
  · simp [inRange]
  · simp [BitVec.getLsbD_of_ge word index (by omega)]

@[simp] theorem page_unprotect (word : Word) :
    (unprotect word).page = word.page := by
  apply page_congr
  intro index high
  rw [unprotect, BitVec.getLsbD_or, getLsbD_mask 2 (by decide) high,
    Bool.or_false]

@[simp] theorem page_stored (word : Word) :
    (stored word).page = word.page := by
  apply page_congr
  intro index high
  rw [stored, BitVec.getLsbD_or, getLsbD_mask 0x60 (by decide) high,
    Bool.or_false]

@[simp] theorem present_user (frame : Nat) : (user frame).present = true := by
  simp [present_eq, user]

@[simp] theorem writable_user (frame : Nat) :
    (user frame).writable = true := by
  simp [writable_eq, user]

theorem page_user {frame : Nat} (small : frame < 2 ^ 20) :
    (user frame).page = frame := by
  have sameHigh : (user frame).page =
      page (BitVec.ofNat 32 frame <<< 12) := by
    apply page_congr
    intro index high
    rw [user, BitVec.getLsbD_or, getLsbD_mask 7 (by decide) high, Bool.or_false]
  rw [sameHigh, page_eq]
  simp [Nat.shiftLeft_eq]
  omega

@[simp] theorem present_zero : present 0#32 = false := by
  decide

/-- The test `this_page > LOW_MEM` on a present entry looks at the frame. -/
theorem lowMem_lt_iff {word : Word} (isPresent : word.present = true) :
    (0x100000#32 < word) ↔ 256 ≤ word.page := by
  rw [present_eq, BitVec.getLsbD, Nat.testBit_zero] at isPresent
  rw [page_eq, BitVec.lt_def]
  simp only [decide_eq_true_eq] at isPresent
  have bound : (0x100000#32).toNat = 1048576 := by decide
  omega

/-- `MAP_NR` of an entry that passed the `LOW_MEM` test. -/
theorem mapNr_eq {word : Word} (high : 256 ≤ word.page) :
    ((word - 0x100000#32) >>> 12).toNat = word.page - 256 := by
  rw [page_eq] at *
  have bound : (0x100000#32).toNat = 1048576 := by decide
  have size := word.isLt
  rw [BitVec.toNat_ushiftRight, BitVec.toNat_sub, bound,
    Nat.shiftRight_eq_div_pow]
  omega

end Word

end Linux011.Mm

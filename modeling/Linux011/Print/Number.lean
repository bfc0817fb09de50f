import Linux011.Library.ByteMemory
import Linux011.Library.Numerals
import Linux011.Sched.Schedule

/-!
# Number formatting

`do_div` and `number` of `vsprintf.c`.  An int is an integer that wraps; the
characters stored at `str` are the list that `number` gives.
-/

namespace Linux011.Print

open Bytes Numerals Linux011.Sched

def ch (character : Char) : Byte := BitVec.ofNat 8 character.toNat

/-! ## Flags -/

def zeropad : BitVec 32 := 1

def sign : BitVec 32 := 2

def plus : BitVec 32 := 4

def space : BitVec 32 := 8

def left : BitVec 32 := 16

def special : BitVec 32 := 32

def small : BitVec 32 := 64

/-- `type & flag`, as a condition. -/
def has (type flag : BitVec 32) : Bool := type &&& flag != 0

/-- `if (type & LEFT) type &= ~ZEROPAD;` -/
def dropZeropad (type : BitVec 32) : BitVec 32 :=
  if has type left then type &&& ~~~ zeropad else type

/-! ## Digits -/

def upperDigits : List Byte :=
  "0123456789ABCDEFGHIJKLMNOPQRSTUVWXYZ".toList.map ch

def lowerDigits : List Byte :=
  "0123456789abcdefghijklmnopqrstuvwxyz".toList.map ch

/-- The local `digits`. -/
def digitTable (type : BitVec 32) : List Byte :=
  if has type small then lowerDigits else upperDigits

/-- The value of a 32-bit register that holds the int. -/
def unsigned (num : Int) : Nat := (num % 4294967296).toNat

/-- `while (num != 0) tmp[i++] = digits[do_div(num, base)];` with `room` bytes
left in `tmp`; `none` where the loop would store behind it. -/
def digitLoop (digits : List Byte) (base : Nat) :
    Nat → Nat → Option (List Byte)
  | 0, num => if num = 0 then some [] else none
  | room + 1, num =>
      if num = 0 then some []
      else
        match digits[num % base]?, digitLoop digits base room (num / base) with
        | some digit, some rest => some (digit :: rest)
        | _, _ => none

/-! ## Padding loops -/

/-- At most `passes` passes of `while (low < counter--) *str++ = c;`. -/
def fillLoop (c : Byte) (low : Int) : Nat → Int → List Byte × Int
  | 0, counter => ([], long (counter - 1))
  | passes + 1, counter =>
      if low < counter then
        let rest := fillLoop c low passes (long (counter - 1))
        (c :: rest.1, rest.2)
      else ([], long (counter - 1))

/-- `while (low < counter--) *str++ = c;`, with the value of `counter` after
it.  The test `size-- > 0` is the one with 0 for `low`. -/
def fillWhile (c : Byte) (low counter : Int) : List Byte × Int :=
  fillLoop c low (counter - low).toNat counter

/-! ## `number` -/

/-- The local `sign`, the character; none is stored where it is 0. -/
def signChar (num : Int) (type : BitVec 32) : Option Byte :=
  if has type sign ∧ num < 0 then some (ch '-')
  else if has type plus then some (ch '+')
  else if has type space then some (ch ' ')
  else none

/-- `num` after `num = -num`. -/
def absolute (num : Int) (type : BitVec 32) : Int :=
  if has type sign ∧ num < 0 then long (-num) else num

/-- `size` less the sign and the prefix. -/
def sizeForDigits (num base size : Int) (type : BitVec 32) : Int :=
  let size := if (signChar num type).isSome then long (size - 1) else size
  if has type special then
    if base = 16 then long (size - 2)
    else if base = 8 then long (size - 1)
    else size
  else size

/-- `tmp`, the last digit first. -/
def tmpDigits (digits : List Byte) (num base : Int) : Option (List Byte) :=
  if num = 0 then some [ch '0']
  else digitLoop digits base.toNat 36 (unsigned num)

/-- The prefix that the flag SPECIAL asks for. -/
def prefixText (digits : List Byte) (base : Int) (type : BitVec 32) :
    List Byte :=
  if has type special then
    if base = 8 then [ch '0']
    else if base = 16 then [ch '0', digits.getD 33 0]
    else []
  else []

/-- The end of `number`: `tmp` holds `i` digits and `size` is what the field
has left when they and the precision are taken off. -/
def store (digits tmp : List Byte) (signed : Option Byte)
    (base size precision : Int) (type : BitVec 32) : List Byte :=
  let c := if has type zeropad then ch '0' else ch ' '
  let before :=
    if !has type (zeropad + left) then fillWhile (ch ' ') 0 size
    else ([], size)
  let middle :=
    if !has type left then fillWhile c 0 before.2 else ([], before.2)
  before.1 ++ signed.toList ++ prefixText digits base type ++ middle.1 ++
    (fillWhile (ch '0') tmp.length precision).1 ++ tmp.reverse ++
    (fillWhile (ch ' ') 0 middle.2).1

/-- What `number` does: it returns a null pointer, it stores characters, or it
would leave `tmp`. -/
inductive Number where
  | null
  | stored (text : List Byte)
  | beyondTmp

def number (num base size precision : Int) (type : BitVec 32) : Number :=
  let digits := digitTable type
  let type := dropZeropad type
  if base < 2 ∨ base > 36 then .null
  else
    let size := sizeForDigits num base size type
    match tmpDigits digits (absolute num type) base with
    | none => .beyondTmp
    | some tmp =>
        let precision :=
          if (tmp.length : Int) > precision then (tmp.length : Int)
          else precision
        .stored (store digits tmp (signChar num type) base
          (long (size - precision)) precision type)

/-! ## The flags after `ZEROPAD` is dropped -/

theorem has_twoPow (type : BitVec 32) (bit : Nat) (isBit : bit < 32) :
    has type (BitVec.twoPow 32 bit) = type.getLsbD bit := by
  unfold has
  rw [BitVec.and_twoPow]
  cases type.getLsbD bit with
  | false => rfl
  | true =>
      have nonzero : BitVec.twoPow 32 bit ≠ 0#32 := by
        intro zero
        have value := congrArg BitVec.toNat zero
        rw [BitVec.toNat_twoPow_of_lt isBit] at value
        exact absurd value (Nat.two_pow_pos bit).ne'
      simp [nonzero]

theorem has_dropZeropad (type : BitVec 32) {bit : Nat} (isBit : bit < 32) :
    has (dropZeropad type) (BitVec.twoPow 32 bit) =
      (has type (BitVec.twoPow 32 bit) &&
        !(has type left && decide (bit = 0))) := by
  rw [has_twoPow _ _ isBit, has_twoPow _ _ isBit]
  unfold dropZeropad
  cases has type left with
  | false => simp
  | true =>
      have mask : zeropad.getLsbD bit = decide (bit = 0) := by
        rw [show zeropad = BitVec.twoPow 32 0 from rfl,
          BitVec.getLsbD_twoPow]
        simp [eq_comm]
      rw [if_pos rfl, BitVec.getLsbD_and, BitVec.getLsbD_not, mask]
      simp [isBit]

theorem has_zeropad_left (type : BitVec 32) :
    has type (zeropad + left) = (has type zeropad || has type left) := by
  have both : zeropad + left = zeropad ||| left := by decide
  unfold has
  rw [both, BitVec.and_or_distrib_left, Bool.eq_iff_iff, Bool.or_eq_true,
    bne_iff_ne, bne_iff_ne, bne_iff_ne]
  exact (not_congr BitVec.or_eq_zero_iff).trans not_and_or

theorem has_dropZeropad_zeropad (type : BitVec 32) :
    has (dropZeropad type) zeropad =
      (has type zeropad && !has type left) := by
  have bits := has_dropZeropad type (show 0 < 32 by decide)
  rwa [decide_eq_true rfl, Bool.and_true] at bits

/-- The other flags stay. -/
theorem has_dropZeropad_of_pos (type : BitVec 32) (bit : Nat)
    (isBit : bit < 32) (other : bit ≠ 0) :
    has (dropZeropad type) (BitVec.twoPow 32 bit) =
      has type (BitVec.twoPow 32 bit) := by
  rw [has_dropZeropad type isBit]
  simp [other]

@[simp] theorem has_dropZeropad_sign (type : BitVec 32) :
    has (dropZeropad type) sign = has type sign :=
  has_dropZeropad_of_pos type 1 (by decide) (by decide)

@[simp] theorem has_dropZeropad_plus (type : BitVec 32) :
    has (dropZeropad type) plus = has type plus :=
  has_dropZeropad_of_pos type 2 (by decide) (by decide)

@[simp] theorem has_dropZeropad_space (type : BitVec 32) :
    has (dropZeropad type) space = has type space :=
  has_dropZeropad_of_pos type 3 (by decide) (by decide)

@[simp] theorem has_dropZeropad_left (type : BitVec 32) :
    has (dropZeropad type) left = has type left :=
  has_dropZeropad_of_pos type 4 (by decide) (by decide)

@[simp] theorem has_dropZeropad_special (type : BitVec 32) :
    has (dropZeropad type) special = has type special :=
  has_dropZeropad_of_pos type 5 (by decide) (by decide)

/-! ## The loops -/

/-- The equation of the loop itself: the passes that `fillWhile` allows are
never used up before its test fails. -/
theorem fillWhile_eq (c : Byte) {low counter : Int}
    (least : -2147483648 ≤ low) (greatest : counter ≤ 2147483647) :
    fillWhile c low counter =
      if low < counter then
        (c :: (fillWhile c low (long (counter - 1))).1,
          (fillWhile c low (long (counter - 1))).2)
      else ([], long (counter - 1)) := by
  unfold fillWhile
  by_cases below : low < counter
  · obtain ⟨passes, sum⟩ : ∃ passes : Nat, counter - low = passes + 1 :=
      ⟨(counter - low - 1).toNat, by omega⟩
    have first : (counter - low).toNat = passes + 1 := by omega
    have rest : (counter - 1 - low).toNat = passes := by omega
    rw [long_of_fits (by omega) (by omega), first, rest, if_pos below]
    simp only [fillLoop, if_pos below]
    rw [long_of_fits (by omega) (by omega)]
  · have none : (counter - low).toNat = 0 := by omega
    rw [none, if_neg below]
    rfl

theorem fillWhile_closed (c : Byte) {low counter : Int}
    (least : -2147483648 ≤ low) (greatest : counter ≤ 2147483647) :
    fillWhile c low counter =
      (List.replicate (counter - low).toNat c,
        if low < counter then long (low - 1) else long (counter - 1)) := by
  by_cases below : low < counter
  · obtain ⟨passes, sum⟩ : ∃ passes : Nat, counter = low + passes + 1 :=
      ⟨(counter - low - 1).toNat, by omega⟩
    rw [if_pos below]
    clear below
    induction passes generalizing counter with
    | zero =>
        have one : (counter - low).toNat = 1 := by omega
        rw [fillWhile_eq c least greatest, if_pos (by omega),
          long_of_fits (by omega) (by omega),
          fillWhile_eq c least (by omega), if_neg (by omega), one]
        refine Prod.ext rfl (congrArg long ?_)
        show counter - 1 - 1 = low - 1
        omega
    | succ passes induction =>
        have next : (counter - low).toNat = (counter - 1 - low).toNat + 1 := by
          omega
        rw [fillWhile_eq c least greatest, if_pos (by omega),
          long_of_fits (by omega) (by omega),
          induction (by omega) (by omega), next, List.replicate_succ]
  · have none : (counter - low).toNat = 0 := by omega
    rw [fillWhile_eq c least greatest, if_neg below, if_neg below, none]
    rfl

/-- With room for `base ^ room` values the digits of `Nat.digits` are
stored. -/
theorem digitLoop_eq {digits : List Byte} {base room num : Nat}
    (isBase : 1 < base) (table : base ≤ digits.length)
    (fits : num < base ^ room) :
    digitLoop digits base room num =
      some ((Nat.digits base num).map fun digit => digits.getD digit 0) := by
  induction room generalizing num with
  | zero =>
      have isZero : num = 0 := by
        rw [Nat.pow_zero] at fits
        omega
      subst isZero
      rw [Nat.digits_zero]
      rfl
  | succ room induction =>
      unfold digitLoop
      by_cases isZero : num = 0
      · subst isZero
        rw [Nat.digits_zero]
        rfl
      · have quotient : num / base < base ^ room := by
          rw [Nat.pow_succ] at fits
          exact Nat.div_lt_of_lt_mul (by rwa [Nat.mul_comm])
        have inTable : num % base < digits.length :=
          lt_of_lt_of_le (Nat.mod_lt num (by omega)) table
        rw [if_neg isZero, induction quotient,
          Nat.digits_def' isBase (Nat.pos_of_ne_zero isZero),
          List.getElem?_eq_getElem inTable]
        simp [List.getD_eq_getElem?_getD, inTable]

/-! ## What a directive asks for -/

/-- The number that the digits stand for. -/
def magnitude (num : Int) (type : BitVec 32) : Nat :=
  if has type sign ∧ num < 0 then num.natAbs else unsigned num

def digitChar (type : BitVec 32) (digit : Nat) : Byte :=
  (digitTable type).getD digit 0

/-- The digits without leading zeros. -/
def digitText (num base : Int) (type : BitVec 32) : List Byte :=
  (numeral base.toNat (magnitude num type)).map (digitChar type)

def signText (num : Int) (type : BitVec 32) : List Byte :=
  (signChar num type).toList

def radixPrefix (base : Int) (type : BitVec 32) : List Byte :=
  if has type special ∧ base = 8 then [ch '0']
  else if has type special ∧ base = 16 then
    [ch '0', if has type small then ch 'x' else ch 'X']
  else []

/-- The characters that are no padding of the field. -/
def needed (num base precision : Int) (type : BitVec 32) : Int :=
  (signText num type).length + (radixPrefix base type).length +
    max ((digitText num base type).length : Int) precision

/-- A character's value as a digit, of either case. -/
def digitValue (c : Byte) : Nat :=
  if c.toNat < 58 then c.toNat - 48
  else if c.toNat < 97 then c.toNat - 55
  else c.toNat - 87

/-- The number that the text denotes in the base. -/
def readBack (base : Int) (text : List Byte) : Nat :=
  value base.toNat (text.map digitValue)

theorem digitTable_length (type : BitVec 32) :
    (digitTable type).length = 36 := by
  unfold digitTable
  split <;> decide

theorem digitValue_digitChar (type : BitVec 32) {digit : Nat}
    (isDigit : digit < 36) : digitValue (digitChar type digit) = digit := by
  unfold digitChar digitTable
  cases has type small with
  | true =>
      have table : ∀ digit : Fin 36,
          digitValue (lowerDigits.getD digit.val 0) = digit.val := by decide
      exact table ⟨digit, isDigit⟩
  | false =>
      have table : ∀ digit : Fin 36,
          digitValue (upperDigits.getD digit.val 0) = digit.val := by decide
      exact table ⟨digit, isDigit⟩

theorem magnitude_lt {num : Int} (least : -2147483648 ≤ num)
    (type : BitVec 32) : magnitude num type < 4294967296 := by
  unfold magnitude unsigned
  split <;> omega

theorem unsigned_absolute {num : Int} (least : -2147483648 ≤ num)
    (type : BitVec 32) :
    unsigned (absolute num type) = magnitude num type := by
  unfold absolute magnitude
  split
  · next negative =>
      unfold unsigned long
      rw [show (4294967296 : Int) = (4294967296 : Nat) from rfl,
        Int.bmod_emod]
      omega
  · rfl

theorem absolute_eq_zero_iff {num : Int} (least : -2147483648 ≤ num)
    (greatest : num ≤ 2147483647) (type : BitVec 32) :
    absolute num type = 0 ↔ magnitude num type = 0 := by
  have lower : -2147483648 ≤ absolute num type := by
    have bound := @Int.le_bmod (-num) 4294967296 (by decide)
    unfold absolute long
    split <;> omega
  have upper : absolute num type ≤ 2147483647 := by
    have bound := long_le (-num)
    unfold absolute
    split <;> omega
  rw [← unsigned_absolute least type]
  unfold unsigned
  omega

section Base

variable {base : Int} (least : 2 ≤ base) (greatest : base ≤ 36)

include least greatest

/-- Leading zeros do not change what the digits denote. -/
theorem readBack_zeros_digitText (num : Int) (type : BitVec 32)
    (zeros : Nat) :
    readBack base (List.replicate zeros (ch '0') ++ digitText num base type) =
      magnitude num type := by
  have zero : digitValue (ch '0') = 0 := by decide
  have digits : (digitText num base type).map digitValue =
      numeral base.toNat (magnitude num type) := by
    unfold digitText
    rw [List.map_map]
    refine Eq.trans (List.map_congr_left fun digit member => ?_)
      (List.map_id' _)
    have isDigit := digit_lt (by omega) member
    exact digitValue_digitChar type (by omega)
  unfold readBack
  rw [List.map_append, List.map_replicate, zero, digits, value_zeros_append,
    value_numeral]

/-- There are at most 32 digits, whatever the base. -/
theorem digitText_length_le {num : Int} (numLeast : -2147483648 ≤ num)
    (type : BitVec 32) : (digitText num base type).length ≤ 32 := by
  have isBase : 2 ≤ base.toNat := by omega
  have fits : magnitude num type < base.toNat ^ 32 :=
    lt_of_lt_of_le (magnitude_lt numLeast type)
      (Nat.pow_le_pow_left isBase 32)
  unfold digitText
  rw [List.length_map]
  exact numeral_length_le isBase (by decide) fits

/-- `tmp` is never overrun. -/
theorem tmpDigits_eq {num : Int} (numLeast : -2147483648 ≤ num)
    (numGreatest : num ≤ 2147483647) (type : BitVec 32) :
    tmpDigits (digitTable type) (absolute num type) base =
      some (digitText num base type).reverse := by
  unfold tmpDigits digitText numeral
  by_cases isZero : magnitude num type = 0
  · have zeroChar : digitChar type 0 = ch '0' := by
      unfold digitChar digitTable
      cases has type small <;> decide
    rw [if_pos ((absolute_eq_zero_iff numLeast numGreatest type).mpr isZero),
      if_pos isZero, List.map_singleton, zeroChar, List.reverse_singleton]
  · have isBase : 2 ≤ base.toNat := by omega
    have fits : magnitude num type < base.toNat ^ 36 :=
      lt_of_lt_of_le (magnitude_lt numLeast type)
        (le_trans (by decide) (Nat.pow_le_pow_left isBase 36))
    rw [if_neg (mt (absolute_eq_zero_iff numLeast numGreatest type).mp isZero),
      if_neg isZero, unsigned_absolute numLeast type,
      digitLoop_eq isBase (by rw [digitTable_length]; omega) fits,
      List.map_reverse, List.reverse_reverse]
    rfl

end Base

@[simp] theorem signChar_dropZeropad (num : Int) (type : BitVec 32) :
    signChar num (dropZeropad type) = signChar num type := by
  simp [signChar]

@[simp] theorem absolute_dropZeropad (num : Int) (type : BitVec 32) :
    absolute num (dropZeropad type) = absolute num type := by
  simp [absolute]

theorem prefixText_eq (base : Int) (type : BitVec 32) :
    prefixText (digitTable type) base (dropZeropad type) =
      radixPrefix base type := by
  have letter : (digitTable type).getD 33 0 =
      if has type small then ch 'x' else ch 'X' := by
    unfold digitTable
    cases has type small <;> decide
  unfold prefixText radixPrefix
  rw [has_dropZeropad_special, letter]
  by_cases isSpecial : has type special <;> simp [isSpecial]

theorem sizeForDigits_eq (num : Int) {base size : Int} (type : BitVec 32)
    (least : -1073741824 < size) (greatest : size < 1073741824) :
    sizeForDigits num base size (dropZeropad type) =
      size - (signText num type).length - (radixPrefix base type).length := by
  unfold sizeForDigits signText
  rw [signChar_dropZeropad, has_dropZeropad_special]
  have signed : (if (signChar num type).isSome then long (size - 1)
      else size) = size - (signChar num type).toList.length := by
    cases signChar num type with
    | none => simp
    | some c =>
        simp only [Option.isSome_some, Option.toList_some]
        exact long_of_fits (by omega) (by omega)
  have short : (signChar num type).toList.length ≤ 1 :=
    Option.length_toList_le
  rw [signed]
  unfold radixPrefix
  by_cases isSpecial : has type special
  · by_cases sixteen : base = 16
    · subst sixteen
      simp only [isSpecial, if_true, true_and]
      rw [if_neg (by decide), long_of_fits (by omega) (by omega)]
      rfl
    · by_cases eight : base = 8
      · subst eight
        simp only [isSpecial, if_true, true_and]
        rw [if_neg (by decide), long_of_fits (by omega) (by omega)]
        rfl
      · simp [isSpecial, sixteen, eight]
  · simp [isSpecial]

/-! ## The padding loops of `number` -/

theorem fillWhile_zero (c : Byte) {counter : Int}
    (greatest : counter ≤ 2147483647) :
    (fillWhile c 0 counter).1 = List.replicate counter.toNat c := by
  rw [fillWhile_closed c (by decide) greatest, Int.sub_zero]

theorem fillWhile_spent (c : Byte) {counter : Int} (spent : counter ≤ 0) :
    (fillWhile c 0 counter).1 = [] := by
  rw [fillWhile_zero c (by omega), Int.toNat_of_nonpos spent]
  rfl

/-- A loop that has run leaves nothing for the next one. -/
theorem fillWhile_leaves (c : Byte) {counter : Int}
    (least : -2147483647 ≤ counter) (greatest : counter ≤ 2147483647) :
    (fillWhile c 0 counter).2 ≤ 0 ∧
      min (-1) (counter - 1) ≤ (fillWhile c 0 counter).2 := by
  rw [fillWhile_closed c (by decide) greatest]
  split
  · have last : long (0 - 1) = -1 := by decide
    dsimp only
    omega
  · rw [long_of_fits (by omega) (by omega)]
    dsimp only
    omega

/-- How often `number` tests `size` in vain before its last loop. -/
def paddingTests (type : BitVec 32) : Int :=
  if has type left then 0 else if has type zeropad then 1 else 2

theorem store_eq {digits tmp : List Byte} {signed : Option Byte}
    {base free precision : Int} {type : BitVec 32}
    (least : -2147483648 + paddingTests type ≤ free)
    (greatest : free ≤ 2147483647) (short : precision ≤ 2147483647) :
    store digits tmp signed base free precision (dropZeropad type) =
      List.replicate
          (if has type left ∨ has type zeropad then 0 else free.toNat)
          (ch ' ') ++
        signed.toList ++ prefixText digits base (dropZeropad type) ++
        List.replicate
          (if has type zeropad ∧ ¬ has type left then free.toNat else 0)
          (ch '0') ++
        List.replicate (precision - tmp.length).toNat (ch '0') ++
        tmp.reverse ++
        List.replicate (if has type left then free.toNat else 0)
          (ch ' ') := by
  have zeros : (fillWhile (ch '0') tmp.length precision).1 =
      List.replicate (precision - tmp.length).toNat (ch '0') := by
    rw [fillWhile_closed (ch '0') (by omega) short]
  unfold paddingTests at least
  unfold store
  rw [zeros, has_zeropad_left, has_dropZeropad_zeropad, has_dropZeropad_left]
  cases leftFlag : has type left with
  | true => simp [fillWhile_zero (ch ' ') greatest]
  | false =>
      cases zeropadFlag : has type zeropad with
      | true =>
          simp only [leftFlag, zeropadFlag, if_true, Bool.false_eq_true,
            if_false] at least
          have spent := (fillWhile_leaves (ch '0') (by omega) greatest).1
          simp [fillWhile_zero (ch '0') greatest, fillWhile_spent _ spent]
      | false =>
          simp only [leftFlag, zeropadFlag, Bool.false_eq_true,
            if_false] at least
          obtain ⟨spent, lower⟩ :=
            fillWhile_leaves (ch ' ') (by omega) greatest
          have againSpent := (fillWhile_leaves (ch ' ')
            (show -2147483647 ≤ (fillWhile (ch ' ') 0 free).2 by omega)
            (by omega)).1
          simp [fillWhile_zero (ch ' ') greatest, fillWhile_spent _ spent,
            fillWhile_spent _ againSpent]

/-! ## The formatted number -/

/-- `number` with its flags, digits and precision at hand. -/
theorem number_eq_store {num base size precision : Int} {type : BitVec 32}
    (numLeast : -2147483648 ≤ num) (numGreatest : num ≤ 2147483647)
    (baseLeast : 2 ≤ base) (baseGreatest : base ≤ 36)
    (sizeLeast : -1073741824 < size) (sizeGreatest : size < 1073741824) :
    number num base size precision type =
      .stored (store (digitTable type) (digitText num base type).reverse
        (signChar num type) base
        (long (size - needed num base precision type))
        (max ((digitText num base type).length : Int) precision)
        (dropZeropad type)) := by
  have larger : (if ((digitText num base type).length : Int) > precision then
      ((digitText num base type).length : Int) else precision) =
        max ((digitText num base type).length : Int) precision := by
    split <;> omega
  unfold number
  rw [if_neg (by omega), absolute_dropZeropad,
    tmpDigits_eq baseLeast baseGreatest numLeast numGreatest type]
  dsimp only
  rw [List.length_reverse, larger, signChar_dropZeropad,
    sizeForDigits_eq num type sizeLeast sizeGreatest]
  unfold needed
  congr 3
  omega

/-- Whatever the widths, `number` returns and keeps to `tmp`. -/
theorem number_stored {num base : Int} (numLeast : -2147483648 ≤ num)
    (numGreatest : num ≤ 2147483647) (baseLeast : 2 ≤ base)
    (baseGreatest : base ≤ 36) (size precision : Int) (type : BitVec 32) :
    ∃ text, number num base size precision type = .stored text := by
  unfold number
  rw [if_neg (by omega), absolute_dropZeropad,
    tmpDigits_eq baseLeast baseGreatest numLeast numGreatest type]
  exact ⟨_, rfl⟩

theorem signText_minus_iff (num : Int) (type : BitVec 32) :
    signText num type = [ch '-'] ↔ has type sign ∧ num < 0 := by
  unfold signText signChar
  split
  · next negative => exact ⟨fun _ => negative, fun _ => rfl⟩
  · next nonnegative =>
      refine ⟨fun minus => absurd minus ?_, fun negative =>
        absurd negative nonnegative⟩
      split
      · decide
      · split <;> decide

/-- The room of the field is filled in one of the three places. -/
theorem fill_once (type : BitVec 32) (room : Nat) :
    (if has type left ∨ has type zeropad then 0 else room) +
        (if has type zeropad ∧ ¬ has type left then room else 0) +
      (if has type left then room else 0) = room := by
  cases has type left <;> cases has type zeropad <;> simp

/-- The characters of the field, with as many fill characters as it has room
for, on the side and of the kind that the flags name; the digits denote the
number, with or without the zeros that the precision adds. -/
theorem number_exact {num base size precision : Int} {type : BitVec 32}
    (numLeast : -2147483648 ≤ num) (numGreatest : num ≤ 2147483647)
    (baseLeast : 2 ≤ base) (baseGreatest : base ≤ 36)
    (sizeLeast : -1073741824 < size) (sizeGreatest : size < 1073741824)
    (precisionGreatest : precision < 1073741824)
    (fits : -2147483648 + paddingTests type ≤
      size - needed num base precision type) :
    ∃ text zeros room,
      number num base size precision type = .stored text ∧
      text =
        List.replicate (if has type left ∨ has type zeropad then 0 else room)
            (ch ' ') ++
          signText num type ++ radixPrefix base type ++
          List.replicate
            (if has type zeropad ∧ ¬ has type left then room else 0)
            (ch '0') ++
          List.replicate zeros (ch '0') ++ digitText num base type ++
          List.replicate (if has type left then room else 0) (ch ' ') ∧
      (text.length : Int) =
        max size ((signText num type).length +
          (radixPrefix base type).length +
          max ((digitText num base type).length : Int) precision) ∧
      (zeros + (digitText num base type).length : Int) =
        max ((digitText num base type).length : Int) precision ∧
      readBack base (digitText num base type) =
        (if has type sign ∧ num < 0 then num.natAbs
          else (num % 4294967296).toNat) ∧
      readBack base (List.replicate zeros (ch '0') ++
        digitText num base type) = readBack base (digitText num base type) ∧
      (signText num type = [ch '-'] ↔ has type sign ∧ num < 0) := by
  have digits := digitText_length_le baseLeast baseGreatest numLeast type
  have field : needed num base precision type =
      (signText num type).length + (radixPrefix base type).length +
        max ((digitText num base type).length : Int) precision := rfl
  have roomGreatest :
      size - needed num base precision type ≤ 2147483647 := by omega
  have tests : 0 ≤ paddingTests type := by
    unfold paddingTests
    split
    · exact le_refl 0
    · split <;> decide
  have number_eq : number num base size precision type = _ :=
    number_eq_store numLeast numGreatest baseLeast baseGreatest sizeLeast
      sizeGreatest
  rw [long_of_fits (by omega) roomGreatest,
    store_eq fits roomGreatest (by omega), List.length_reverse,
    List.reverse_reverse, prefixText_eq,
    show (signChar num type).toList = signText num type from rfl] at number_eq
  refine ⟨_, _, _, number_eq, rfl, ?_, ?_, ?_, ?_,
    signText_minus_iff num type⟩
  · have fill := fill_once type (size - needed num base precision type).toNat
    simp only [List.length_append, List.length_replicate]
    omega
  · omega
  · exact readBack_zeros_digitText baseLeast baseGreatest num type 0
  · rw [readBack_zeros_digitText baseLeast baseGreatest num type]
    exact (readBack_zeros_digitText baseLeast baseGreatest num type 0).symm

/-- A hexadecimal number in a field that is filled on the right. -/
theorem number_hexadecimal :
    ∃ text, number 255 16 8 4 (special ||| left ||| zeropad) = .stored text ∧
      (text.length : Int) = 8 := by
  obtain ⟨text, zeros, room, stored, -, size, -⟩ :=
    @number_exact 255 16 8 4 (special ||| left ||| zeropad) (by decide)
      (by decide) (by decide) (by decide) (by decide) (by decide) (by decide)
      (by decide)
  exact ⟨text, stored, size.trans (by decide)⟩

/-- Two padding loops that find nothing to do take -2147483647 to the greatest
int, and the last one fills that many characters. -/
theorem store_wraps {digits tmp : List Byte} {signed : Option Byte}
    {base precision : Int} {type : BitVec 32}
    (noZeropad : has type zeropad = false) (noLeft : has type left = false)
    (short : precision ≤ 2147483647) :
    (store digits tmp signed base (-2147483647) precision type).length =
      signed.toList.length + (prefixText digits base type).length +
        (precision - tmp.length).toNat + tmp.length +
          (2147483647 : Int).toNat := by
  have first : fillWhile (ch ' ') 0 (-2147483647) = ([], -2147483648) := by
    decide
  have second : fillWhile (ch ' ') 0 (-2147483648) = ([], 2147483647) := by
    decide
  have zeros : (fillWhile (ch '0') tmp.length precision).1 =
      List.replicate (precision - tmp.length).toNat (ch '0') := by
    rw [fillWhile_closed (ch '0') (by omega) short]
  unfold store
  rw [has_zeropad_left, noZeropad, noLeft, zeros]
  simp only [Bool.or_false, Bool.not_false, if_true, Bool.false_eq_true,
    if_false, first, second]
  rw [fillWhile_zero (ch ' ') (by decide)]
  repeat rw [List.length_append]
  rw [List.length_replicate, List.length_replicate, List.length_reverse,
    List.length_nil]
  omega

/-- A field of -1073741823 and a precision of 1073741823 characters together
take `size` below the least int within the padding loops. -/
theorem number_wraps :
    ∃ text, number 0 10 (-1073741823) 1073741823 plus = .stored text ∧
      (text.length : Int) = 3221225471 ∧
      max (-1073741823) ((signText 0 plus).length +
        (radixPrefix 10 plus).length +
        max ((digitText 0 10 plus).length : Int) 1073741823) =
          1073741824 := by
  have digits : digitText 0 10 plus = [ch '0'] := by decide
  have free : needed 0 10 1073741823 plus = 1073741824 := by
    unfold needed
    rw [digits]
    decide
  refine ⟨_, number_eq_store (by decide) (by decide) (by decide) (by decide)
    (by decide) (by decide), ?_, ?_⟩
  · have size : long (-1073741823 - 1073741824) = -2147483647 := by decide
    have larger : max (([ch '0'].length : Nat) : Int) 1073741823 =
        1073741823 := by decide
    have signed : (signChar 0 plus).toList.length = 1 := by decide
    have prefixed : (prefixText (digitTable plus) 10
        (dropZeropad plus)).length = 0 := by decide
    have one : [ch '0'].reverse.length = 1 := rfl
    rw [free, digits, size, larger]
    have total := @store_wraps (digitTable plus) [ch '0'].reverse
      (signChar 0 plus) 10 1073741823 (dropZeropad plus) (by decide)
      (by decide) (by decide)
    omega
  · rw [digits]
    decide

end Linux011.Print

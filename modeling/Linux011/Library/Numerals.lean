import Mathlib.Data.Nat.Digits.Lemmas

/-!
# Numerals

A number written in a base, the most significant digit first, and the value of
a list of digits.
-/

namespace Numerals

/-- The digits of the number without leading zeros; zero has one digit. -/
def numeral (base number : Nat) : List Nat :=
  if number = 0 then [0] else (Nat.digits base number).reverse

/-- The value of the digits, read from left to right. -/
def value (base : Nat) (digits : List Nat) : Nat :=
  digits.foldl (fun read digit => read * base + digit) 0

theorem value_eq_ofDigits (base : Nat) (digits : List Nat) :
    value base digits = Nat.ofDigits base digits.reverse := by
  induction digits using List.reverseRecOn with
  | nil => rfl
  | append_singleton digits digit induction =>
      unfold value at induction ⊢
      rw [List.foldl_append, induction, List.reverse_append]
      show _ * base + digit = Nat.ofDigits base (digit :: digits.reverse)
      rw [Nat.ofDigits_cons]
      ring

theorem value_numeral (base number : Nat) :
    value base (numeral base number) = number := by
  unfold numeral
  split
  · next isZero =>
      subst isZero
      simp [value]
  · rw [value_eq_ofDigits, List.reverse_reverse, Nat.ofDigits_digits]

theorem value_zeros_append (base count : Nat) (digits : List Nat) :
    value base (List.replicate count 0 ++ digits) = value base digits := by
  rw [value_eq_ofDigits, value_eq_ofDigits, List.reverse_append,
    List.reverse_replicate, Nat.ofDigits_append_replicate_zero]

theorem digit_lt {base number digit : Nat} (isBase : 1 < base)
    (member : digit ∈ numeral base number) : digit < base := by
  unfold numeral at member
  split at member
  · rw [List.mem_singleton] at member
    omega
  · exact Nat.digits_lt_base isBase (List.mem_reverse.mp member)

theorem numeral_length_le {base number width : Nat} (isBase : 1 < base)
    (positive : 1 ≤ width) (fits : number < base ^ width) :
    (numeral base number).length ≤ width := by
  unfold numeral
  split
  · exact positive
  · rw [List.length_reverse]
    exact (Nat.digits_length_le_iff isBase number).mpr fits

end Numerals

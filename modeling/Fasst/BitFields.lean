import Mathlib.Data.Nat.Bitwise
import Mathlib.Tactic.Common

/-!
# Bit fields of a word

A field is a range of bits. Assigning to it cuts the value to the width of the
field and leaves the other bits of the word alone.
-/

namespace Fasst.BitFields

set_option autoImplicit false

variable {word shift width value : Nat}

def getField (word shift width : Nat) : Nat := word / 2 ^ shift % 2 ^ width

def setField (word shift width value : Nat) : Nat :=
  2 ^ shift * (2 ^ width * (word / 2 ^ (shift + width)) + value % 2 ^ width) + word % 2 ^ shift

theorem test_bit_get_field (word shift width bit : Nat) :
    (getField word shift width).testBit bit = (decide (bit < width) && word.testBit (shift + bit)) := by
  rw [getField, Nat.testBit_mod_two_pow, Nat.testBit_div_two_pow, Nat.add_comm bit shift]

theorem test_bit_set_field (word shift width value bit : Nat) :
    (setField word shift width value).testBit bit =
      if shift ≤ bit ∧ bit < shift + width then value.testBit (bit - shift)
      else word.testBit bit := by
  rw [setField, Nat.testBit_two_pow_mul_add _ (Nat.mod_lt word (Nat.two_pow_pos shift))]
  by_cases below : bit < shift
  · rw [if_pos below, if_neg (by omega), Nat.testBit_mod_two_pow, decide_eq_true below,
      Bool.true_and]
  · rw [if_neg below, Nat.testBit_two_pow_mul_add _ (Nat.mod_lt value (Nat.two_pow_pos width))]
    by_cases inside : bit - shift < width
    · rw [if_pos inside, if_pos (by omega), Nat.testBit_mod_two_pow, decide_eq_true inside,
        Bool.true_and]
    · have back : bit - shift - width + (shift + width) = bit := by omega
      rw [if_neg inside, if_neg (by omega), Nat.testBit_div_two_pow, back]

theorem get_set_same (word shift width value : Nat) :
    getField (setField word shift width value) shift width = value % 2 ^ width := by
  apply Nat.eq_of_testBit_eq
  intro bit
  rw [test_bit_get_field, test_bit_set_field, Nat.testBit_mod_two_pow]
  by_cases inside : bit < width
  · rw [if_pos (by omega), Nat.add_sub_cancel_left]
  · rw [decide_eq_false inside, Bool.false_and, Bool.false_and]

/-- The fields that share no bit with the assigned one. -/
theorem get_set_apart {other size : Nat} (apart : other + size ≤ shift ∨ shift + width ≤ other) :
    getField (setField word shift width value) other size = getField word other size := by
  apply Nat.eq_of_testBit_eq
  intro bit
  rw [test_bit_get_field, test_bit_get_field, test_bit_set_field]
  by_cases inside : bit < size
  · rw [if_neg (by omega)]
  · rw [decide_eq_false inside, Bool.false_and, Bool.false_and]

theorem set_field_lt {bits : Nat} (small : word < 2 ^ bits) (fits : shift + width ≤ bits) :
    setField word shift width value < 2 ^ bits := by
  apply Nat.lt_pow_two_of_testBit
  intro bit high
  rw [test_bit_set_field, if_neg (by omega)]
  exact Nat.testBit_lt_two_pow (Nat.lt_of_lt_of_le small (Nat.pow_le_pow_right Nat.two_pos high))

/-- A field above everything that is set. -/
theorem set_field_above (low : word < 2 ^ shift) (fits : value < 2 ^ width) :
    setField word shift width value = word + 2 ^ shift * value := by
  have zero : word / 2 ^ (shift + width) = 0 := by
    apply Nat.div_eq_of_lt
    exact Nat.lt_of_lt_of_le low (Nat.pow_le_pow_right Nat.two_pos (Nat.le_add_right shift width))
  rw [setField, zero, Nat.mul_zero, Nat.zero_add, Nat.mod_eq_of_lt fits, Nat.mod_eq_of_lt low,
    Nat.add_comm]

end Fasst.BitFields

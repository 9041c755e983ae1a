import Fasst.BitFields
import Mathlib.Data.Nat.Digits.Lemmas

/-!
# TATP subscriber numbers

A subscriber number is the key of a subscriber in the secondary table: the decimal
digits of its id, four bits each. `tatp_sub_nbr_t` is a union of sixteen such
fields, of four fields for three digits and of the key itself.
-/

namespace Fasst.TatpSubNbr

open Fasst.BitFields

set_option autoImplicit false

def tatpMaxSubscribers : Nat := 1000000000

section Model

/-- Assignment to `dec_i`. -/
def setDec (index digit word : Nat) : Nat := setField word (4 * index) 4 digit

/-- Assignment to `dec_0_1_2`, `dec_3_4_5` and so on, counted from 0. -/
def setDec3 (index digits word : Nat) : Nat := setField word (12 * index) 12 digits

/-- The loop of the constructor of `TATP`. -/
def map1000 : List Nat :=
  (List.range 1000).map fun i =>
    let dig1 := i / 1 % 10
    let dig2 := i / 10 % 10
    let dig3 := i / 100 % 10
    (dig3 <<< 8 ||| dig2 <<< 4 ||| dig1) % 2 ^ 16

def tatpSubNbrFromSidFast (sId : UInt32) : UInt64 :=
  let sId := sId.toNat
  let subNbr := setDec3 0 (map1000.getD (sId % 1000) 0) 0
  let sId := sId / 1000
  let subNbr := setDec3 1 (map1000.getD (sId % 1000) 0) subNbr
  let sId := sId / 1000
  let subNbr := setDec3 2 (map1000.getD (sId % 1000) 0) subNbr
  UInt64.ofNat subNbr

/-- The fields are written from `dec_0` on, with `update_sid()` behind each; `none`
is the failed assertion. -/
def writeDecs : List Nat → Nat → Nat → Option Nat
  | [], sId, subNbr => if sId = 0 then some subNbr else none
  | index :: rest, sId, subNbr =>
      let subNbr := setDec index (sId % 10) subNbr
      let sId := sId / 10
      if sId = 0 then some subNbr else writeDecs rest sId subNbr

/-- `dec_0` to `dec_10`. -/
def tatpSubNbrFromSid (sId : UInt32) : Option UInt64 :=
  (writeDecs (List.range 11) sId.toNat 0).map UInt64.ofNat

end Model

/-- The binary-coded decimal of a number. -/
def bcd (number : Nat) : Nat := Nat.ofDigits 16 (Nat.digits 10 number)

theorem bcd_zero : bcd 0 = 0 := by
  rw [bcd, Nat.digits_zero, Nat.ofDigits_nil]

theorem bcd_step (number : Nat) : bcd number = number % 10 + 16 * bcd (number / 10) := by
  rcases Nat.eq_zero_or_pos number with zero | positive
  · rw [zero, Nat.zero_mod, Nat.zero_div, bcd_zero]
  · rw [bcd, Nat.digits_def' (by decide) positive, Nat.ofDigits_cons]
    rfl

theorem digits_bcd (number : Nat) : Nat.digits 16 (bcd number) = Nat.digits 10 number := by
  apply Nat.digits_ofDigits 16 (by decide)
  · intro digit member
    have small := Nat.digits_lt_base (by decide) member
    omega
  · intro some_
    exact Nat.getLast_digit_ne_zero 10 (Nat.digits_ne_nil_iff_ne_zero.mp some_)

theorem bcd_injective : Function.Injective bcd := by
  intro left right same
  have digits := congrArg (Nat.digits 16) same
  rw [digits_bcd, digits_bcd] at digits
  exact Nat.digits_inj_iff.mp digits

theorem bcd_lt (count number : Nat) (small : number < 10 ^ count) : bcd number < 16 ^ count := by
  induction count generalizing number with
  | zero =>
      rw [Nat.pow_zero, Nat.lt_one_iff] at small
      rw [small, bcd_zero]
      exact Nat.one_pos
  | succ count ih =>
      rw [Nat.pow_succ'] at small ⊢
      have rest := ih (number / 10) (Nat.div_lt_of_lt_mul small)
      have digit := Nat.mod_lt number (show 0 < 10 by decide)
      rw [bcd_step]
      omega

/-- Three digits at a time. -/
theorem bcd_split (number : Nat) :
    bcd number = bcd (number % 1000) + 4096 * bcd (number / 1000) := by
  have low : bcd (number % 1000) =
      number % 10 + 16 * (number / 10 % 10 + 16 * (number / 100 % 10)) := by
    rw [bcd_step, bcd_step (number % 1000 / 10), bcd_step (number % 1000 / 10 / 10),
      show number % 1000 / 10 / 10 / 10 = 0 by omega, bcd_zero]
    omega
  have whole : bcd number = number % 10 + 16 * (number / 10 % 10 + 16 * (number / 100 % 10 +
      16 * bcd (number / 1000))) := by
    rw [bcd_step, bcd_step (number / 10), bcd_step (number / 10 / 10), Nat.div_div_eq_div_mul,
      Nat.div_div_eq_div_mul]
  rw [whole, low]
  omega

theorem map_1000_bcd (i : Nat) (inside : i < 1000) : map1000.getD i 0 = bcd i := by
  have entry : map1000.getD i 0 =
      ((i / 100 % 10) <<< 8 ||| (i / 10 % 10) <<< 4 ||| i / 1 % 10) % 2 ^ 16 := by
    rw [map1000, List.getD_eq_getElem?_getD, List.getElem?_map, List.getElem?_range inside]
    rfl
  have low : i % 10 < 2 ^ 4 := by omega
  have middle : 2 ^ 4 * (i / 10 % 10) + i % 10 < 2 ^ 8 := by omega
  have whole : 2 ^ 8 * (i / 100 % 10) + (2 ^ 4 * (i / 10 % 10) + i % 10) < 2 ^ 16 := by omega
  rw [entry, Nat.div_one, Nat.lor_assoc, Nat.shiftLeft_eq, Nat.shiftLeft_eq, Nat.mul_comm _ (2 ^ 4),
    Nat.mul_comm _ (2 ^ 8), ← Nat.two_pow_add_eq_or_of_lt low, ← Nat.two_pow_add_eq_or_of_lt middle,
    Nat.mod_eq_of_lt whole, bcd_step, bcd_step (i / 10), bcd_step (i / 10 / 10),
    show i / 10 / 10 / 10 = 0 by omega, bcd_zero, Nat.div_div_eq_div_mul]
  omega

theorem fast_is_bcd (sId : UInt32) (below : sId.toNat < tatpMaxSubscribers) :
    tatpSubNbrFromSidFast sId = UInt64.ofNat (bcd sId.toNat) := by
  simp only [tatpMaxSubscribers] at below
  simp only [tatpSubNbrFromSidFast]
  have read : ∀ number, map1000.getD (number % 1000) 0 = bcd (number % 1000) :=
    fun number => map_1000_bcd _ (Nat.mod_lt number (by decide))
  have field : ∀ number, bcd (number % 1000) < 2 ^ 12 :=
    fun number => bcd_lt 3 _ (Nat.mod_lt number (by decide))
  have first := field sId.toNat
  have second := field (sId.toNat / 1000)
  have third := field (sId.toNat / 1000 / 1000)
  simp only [read, setDec3]
  rw [set_field_above (by decide) first, set_field_above (by omega) second,
    set_field_above (by omega) third]
  congr 1
  have top : sId.toNat / 1000 / 1000 % 1000 = sId.toNat / 1000 / 1000 := by omega
  rw [top, bcd_split sId.toNat, bcd_split (sId.toNat / 1000)]
  omega

/-- The digits that are written above those of the word. -/
theorem write_decs_bcd (count index sId subNbr : Nat) (some_ : 0 < count)
    (small : sId < 10 ^ count) (low : subNbr < 2 ^ (4 * index)) :
    writeDecs (List.range' index count) sId subNbr =
      some (subNbr + 2 ^ (4 * index) * bcd sId) := by
  induction count generalizing index sId subNbr with
  | zero => exact absurd some_ (Nat.lt_irrefl 0)
  | succ count ih =>
      have digit : sId % 10 < 2 ^ 4 := by omega
      have raised : 2 ^ (4 * (index + 1)) = 2 ^ (4 * index) * 16 := by
        rw [Nat.mul_succ, Nat.pow_add]
      have written : subNbr + 2 ^ (4 * index) * (sId % 10) + 2 ^ (4 * (index + 1)) * bcd (sId / 10) =
          subNbr + 2 ^ (4 * index) * bcd sId := by
        rw [bcd_step sId, raised, Nat.mul_add, Nat.mul_assoc, Nat.add_assoc]
      rw [List.range'_succ, writeDecs, setDec, set_field_above low digit]
      split_ifs with last
      · rw [last, bcd_zero, Nat.mul_zero, Nat.add_zero] at written
        rw [written]
      · have more : 0 < count := by
          rcases Nat.eq_zero_or_pos count with none_ | more
          · rw [none_] at small
            omega
          · exact more
        have next : subNbr + 2 ^ (4 * index) * (sId % 10) < 2 ^ (4 * (index + 1)) := by
          have room : 2 ^ (4 * index) * (sId % 10) ≤ 2 ^ (4 * index) * 15 :=
            Nat.mul_le_mul_left _ (by omega)
          omega
        rw [Nat.pow_succ'] at small
        rw [ih (index + 1) (sId / 10) _ more (Nat.div_lt_of_lt_mul small) next, written]

theorem simple_is_bcd (sId : UInt32) :
    tatpSubNbrFromSid sId = some (UInt64.ofNat (bcd sId.toNat)) := by
  have small : sId.toNat < 10 ^ 11 := by
    have bound := sId.toNat_lt
    omega
  rw [tatpSubNbrFromSid, List.range_eq_range',
    write_decs_bcd 11 0 sId.toNat 0 (by decide) small (by decide), Option.map_some, Nat.zero_add,
    Nat.mul_zero, Nat.pow_zero, Nat.one_mul]

theorem bcd_key_value (sId : UInt32) :
    (UInt64.ofNat (bcd sId.toNat)).toNat = bcd sId.toNat := by
  have bound := sId.toNat_lt
  have small := bcd_lt 11 sId.toNat (by omega)
  rw [UInt64.toNat_ofNat', Nat.mod_eq_of_lt (by omega)]

/-- The key of a subscriber determines it. -/
theorem bcd_key_injective {left right : UInt32}
    (same : UInt64.ofNat (bcd left.toNat) = UInt64.ofNat (bcd right.toNat)) : left = right := by
  have words := congrArg UInt64.toNat same
  rw [bcd_key_value, bcd_key_value] at words
  exact UInt32.toNat_inj.mp (bcd_injective words)

end Fasst.TatpSubNbr

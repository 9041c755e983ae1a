import Mathlib.Algebra.Group.Nat.Defs
import Mathlib.Data.List.Basic
import Mathlib.Tactic.Common

/-!
# Little-endian words and byte buffers

A buffer is a function from offsets to bytes; a copy overwrites a range of it.
-/

namespace Fasst.Bytes

set_option autoImplicit false

/-- The low `width` bytes of a number, least significant first. -/
def leBytes : Nat → Nat → List UInt8
  | 0, _ => []
  | width + 1, value => UInt8.ofNat value :: leBytes width (value / 256)

def leValue : List UInt8 → Nat
  | [] => 0
  | byte :: rest => byte.toNat + 256 * leValue rest

@[simp] theorem le_bytes_length (width value : Nat) : (leBytes width value).length = width := by
  induction width generalizing value with
  | zero => rfl
  | succ width ih => rw [leBytes, List.length_cons, ih]

theorem le_value_bytes (width value : Nat) :
    leValue (leBytes width value) = value % 256 ^ width := by
  induction width generalizing value with
  | zero => simp [leBytes, leValue, Nat.mod_one]
  | succ width ih =>
      have digits : value % (256 * 256 ^ width) = value % 256 + 256 * (value / 256 % 256 ^ width) :=
        Nat.mod_mul
      rw [leBytes, leValue, ih, Nat.pow_succ', digits, UInt8.toNat_ofNat']

theorem le_value_lt (bytes : List UInt8) : leValue bytes < 256 ^ bytes.length := by
  induction bytes with
  | nil => simp [leValue]
  | cons byte rest ih =>
      have digit : byte.toNat < 256 := byte.toNat_lt
      rw [leValue, List.length_cons, Nat.pow_succ']
      omega

theorem le_bytes_value (bytes : List UInt8) : leBytes bytes.length (leValue bytes) = bytes := by
  induction bytes with
  | nil => rfl
  | cons byte rest ih =>
      have digit : byte.toNat < 256 := byte.toNat_lt
      have high : (byte.toNat + 256 * leValue rest) / 256 = leValue rest := by omega
      have low : UInt8.ofNat (byte.toNat + 256 * leValue rest) = byte := by
        apply UInt8.toNat_inj.mp
        rw [UInt8.toNat_ofNat']
        omega
      rw [List.length_cons, leValue, leBytes, high, ih, low]

abbrev Buffer := Nat → UInt8

def writeBytes (buffer : Buffer) (offset : Nat) (bytes : List UInt8) : Buffer := fun position =>
  if offset ≤ position then (bytes[position - offset]?).getD (buffer position) else buffer position

def readBytes (buffer : Buffer) (offset length : Nat) : List UInt8 :=
  (List.range length).map fun position => buffer (offset + position)

@[simp] theorem read_bytes_length (buffer : Buffer) (offset length : Nat) :
    (readBytes buffer offset length).length = length := by
  simp [readBytes]

theorem write_bytes_outside (buffer : Buffer) (offset position : Nat) (bytes : List UInt8)
    (outside : position < offset ∨ offset + bytes.length ≤ position) :
    writeBytes buffer offset bytes position = buffer position := by
  unfold writeBytes
  split_ifs with inside
  · rw [List.getElem?_eq_none (by omega)]
    rfl
  · rfl

theorem read_write_same (buffer : Buffer) (offset : Nat) (bytes : List UInt8) :
    readBytes (writeBytes buffer offset bytes) offset bytes.length = bytes := by
  apply List.ext_getElem
  · simp
  · intro index left right
    simp [readBytes, writeBytes, List.getElem?_eq_getElem right]

theorem le_value_write_same (buffer : Buffer) (offset width value : Nat) :
    leValue (readBytes (writeBytes buffer offset (leBytes width value)) offset width) =
      value % 256 ^ width := by
  have same := read_write_same buffer offset (leBytes width value)
  rw [le_bytes_length] at same
  rw [same, le_value_bytes]

theorem read_bytes_congr (left right : Buffer) (offset length : Nat)
    (same : ∀ position, offset ≤ position → position < offset + length →
      left position = right position) :
    readBytes left offset length = readBytes right offset length := by
  apply List.map_congr_left
  intro position member
  exact same (offset + position) (by omega) (by have := List.mem_range.mp member; omega)

theorem byte_of_read_bytes {left right : Buffer} {offset length position : Nat}
    (same : readBytes left offset length = readBytes right offset length)
    (lower : offset ≤ position) (upper : position < offset + length) :
    left position = right position := by
  have member : position - offset ∈ List.range length := List.mem_range.mpr (by omega)
  have byte := List.map_inj_left.mp same (position - offset) member
  rwa [Nat.add_sub_cancel' lower] at byte

theorem read_write_apart (buffer : Buffer) (offset start length : Nat) (bytes : List UInt8)
    (apart : start + length ≤ offset ∨ offset + bytes.length ≤ start) :
    readBytes (writeBytes buffer offset bytes) start length = readBytes buffer start length := by
  apply read_bytes_congr
  intro position lower upper
  exact write_bytes_outside buffer offset position bytes (by omega)

theorem read_bytes_add (buffer : Buffer) (offset first second : Nat) :
    readBytes buffer offset (first + second) =
      readBytes buffer offset first ++ readBytes buffer (offset + first) second := by
  unfold readBytes
  rw [List.range_add, List.map_append, List.map_map]
  congr 1
  apply List.map_congr_left
  intro position _
  rw [Function.comp_apply, Nat.add_assoc]

def Stored (buffer : Buffer) (offset : Nat) (bytes : List UInt8) : Prop :=
  readBytes buffer offset bytes.length = bytes

theorem stored_append (buffer : Buffer) (offset : Nat) (first second : List UInt8) :
    Stored buffer offset (first ++ second) ↔
      Stored buffer offset first ∧ Stored buffer (offset + first.length) second := by
  unfold Stored
  rw [List.length_append, read_bytes_add]
  constructor
  · intro joined
    exact List.append_inj joined (read_bytes_length _ _ _)
  · rintro ⟨left, right⟩
    rw [left, right]

theorem stored_write (buffer : Buffer) (offset : Nat) (bytes : List UInt8) :
    Stored (writeBytes buffer offset bytes) offset bytes :=
  read_write_same buffer offset bytes

/-- Bytes outside `[first, last)` are as they were. -/
def ChangedWithin (before after : Buffer) (first last : Nat) : Prop :=
  ∀ position, position < first ∨ last ≤ position → after position = before position

theorem changed_within_refl (buffer : Buffer) (first last : Nat) :
    ChangedWithin buffer buffer first last :=
  fun _ _ => rfl

theorem changed_within_write {before buffer : Buffer} {offset first last : Nat}
    {bytes : List UInt8} (earlier : ChangedWithin before buffer first last)
    (lower : first ≤ offset) (upper : offset + bytes.length ≤ last) :
    ChangedWithin before (writeBytes buffer offset bytes) first last := by
  intro position outside
  rw [write_bytes_outside buffer offset position bytes (by omega)]
  exact earlier position outside

/-- Any writes to a range are one copy to it. -/
theorem write_of_changed_within {before after : Buffer} {first length : Nat}
    (changed : ChangedWithin before after first (first + length)) :
    after = writeBytes before first (readBytes after first length) := by
  funext position
  by_cases inside : first ≤ position ∧ position < first + length
  · have index : position - first < length := by omega
    have back : first + (position - first) = position := by omega
    simp [writeBytes, readBytes, inside.1, index, back]
  · rw [write_bytes_outside, changed position (by omega)]
    rw [read_bytes_length]
    omega

theorem write_append_of_changed_within {before after : Buffer} {first length : Nat}
    {behind : List UInt8}
    (changed : ChangedWithin before after first (first + (length + behind.length)))
    (stored : Stored after (first + length) behind) :
    ∃ bytes, bytes.length = length ∧ after = writeBytes before first (bytes ++ behind) := by
  have copy := write_of_changed_within changed
  rw [read_bytes_add, stored] at copy
  exact ⟨readBytes after first length, read_bytes_length after first length, copy⟩

/-- When the second part of a copy leaves no trace. -/
theorem changed_within_first_iff (buffer : Buffer) (offset : Nat) (first second : List UInt8) :
    ChangedWithin buffer (writeBytes buffer offset (first ++ second)) offset
        (offset + first.length) ↔
      Stored buffer (offset + first.length) second := by
  have written : Stored (writeBytes buffer offset (first ++ second)) (offset + first.length)
      second :=
    ((stored_append _ offset first second).mp (stored_write buffer offset _)).2
  constructor
  · intro changed
    have same := read_bytes_congr (writeBytes buffer offset (first ++ second)) buffer
      (offset + first.length) second.length fun position lower _ => changed position (.inr lower)
    exact same.symm.trans written
  · intro stored position outside
    by_cases behind : position < offset ∨ offset + (first ++ second).length ≤ position
    · exact write_bytes_outside buffer offset position (first ++ second) behind
    · rw [List.length_append] at behind
      apply byte_of_read_bytes (written.trans stored.symm)
      · omega
      · omega

end Fasst.Bytes

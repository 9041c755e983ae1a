import Fasst.TatpModel
import Fasst.TxLocal

/-!
# The rows of TATP

Where the rows are, and what a row has to be. The keys of a table determine the
subscriber and the rest of what they are made of. A directory says which rows exist
all the time; call forwarding rows come and go, but only for special facilities of
the directory.
-/

namespace Fasst.TatpRows

open List Fasst.FixedTableModel Fasst.TxLocal Fasst.TatpSubNbr Fasst.TatpModel
open Fasst.TatpSecondary (SecSubVal tatpSecSubMagic)

set_option autoImplicit false

section Keys

theorem typed_key_value (sId : UInt32) (type : UInt8) :
    (typedKey sId type).toNat = type.toNat * 2 ^ 32 + sId.toNat := by
  have low := sId.toNat_lt
  have high := type.toNat_lt
  rw [typedKey, UInt64.toNat_or, UInt64.toNat_shiftLeft, UInt32.toNat_toUInt64,
    UInt8.toNat_toUInt64, show (32 : UInt64).toNat % 64 = 32 by decide,
    Nat.mod_eq_of_lt (by rw [Nat.shiftLeft_eq]; omega), Nat.lor_comm,
    ← Nat.shiftLeft_add_eq_or_of_lt low, Nat.shiftLeft_eq]

theorem callfwd_key_value (sId : UInt32) (sfType startTime : UInt8) :
    (callfwdKey sId sfType startTime).toNat =
      startTime.toNat * 2 ^ 40 + (sfType.toNat * 2 ^ 32 + sId.toNat) := by
  have low := sId.toNat_lt
  have middle := sfType.toNat_lt
  have high := startTime.toNat_lt
  rw [callfwdKey, UInt64.toNat_or, UInt64.toNat_shiftLeft, typed_key_value,
    UInt8.toNat_toUInt64, show (40 : UInt64).toNat % 64 = 40 by decide,
    Nat.mod_eq_of_lt (by rw [Nat.shiftLeft_eq]; omega), Nat.lor_comm,
    ← Nat.shiftLeft_add_eq_or_of_lt (by omega), Nat.shiftLeft_eq]

theorem sub_key_inj {left right : UInt32} (same : subKey left = subKey right) : left = right := by
  have words := congrArg UInt64.toNat same
  rw [subKey, subKey, UInt32.toNat_toUInt64, UInt32.toNat_toUInt64] at words
  exact UInt32.toNat_inj.mp words

theorem typed_key_inj {left right : UInt32} {leftType rightType : UInt8}
    (same : typedKey left leftType = typedKey right rightType) :
    left = right ∧ leftType = rightType := by
  have words := congrArg UInt64.toNat same
  rw [typed_key_value, typed_key_value] at words
  have leftLow := left.toNat_lt
  have rightLow := right.toNat_lt
  exact ⟨UInt32.toNat_inj.mp (by omega), UInt8.toNat_inj.mp (by omega)⟩

theorem callfwd_key_inj {left right : UInt32} {leftType rightType leftStart rightStart : UInt8}
    (same : callfwdKey left leftType leftStart = callfwdKey right rightType rightStart) :
    left = right ∧ leftType = rightType ∧ leftStart = rightStart := by
  have words := congrArg UInt64.toNat same
  rw [callfwd_key_value, callfwd_key_value] at words
  have leftLow := left.toNat_lt
  have rightLow := right.toNat_lt
  have leftMiddle := leftType.toNat_lt
  have rightMiddle := rightType.toNat_lt
  exact ⟨UInt32.toNat_inj.mp (by omega), UInt8.toNat_inj.mp (by omega),
    UInt8.toNat_inj.mp (by omega)⟩

theorem ne_invalid {key : UInt64} (small : key.toNat < 2 ^ 48) : key ≠ kFtInvalidKey := by
  rintro rfl
  have largest : kFtInvalidKey.toNat = 2 ^ 64 - 1 := by decide
  omega

theorem sub_key_small (sId : UInt32) : (subKey sId).toNat < 2 ^ 48 := by
  have low := sId.toNat_lt
  rw [subKey, UInt32.toNat_toUInt64]
  omega

theorem typed_key_small (sId : UInt32) (type : UInt8) : (typedKey sId type).toNat < 2 ^ 48 := by
  have low := sId.toNat_lt
  have high := type.toNat_lt
  rw [typed_key_value]
  omega

theorem callfwd_key_small (sId : UInt32) (sfType startTime : UInt8) :
    (callfwdKey sId sfType startTime).toNat < 2 ^ 48 := by
  have low := sId.toNat_lt
  have middle := sfType.toNat_lt
  have high := startTime.toNat_lt
  rw [callfwd_key_value]
  omega

theorem sub_nbr_small (sId : UInt32) : (UInt64.ofNat (bcd sId.toNat)).toNat < 2 ^ 48 := by
  have bound := sId.toNat_lt
  have small := bcd_lt 11 sId.toNat (by omega)
  rw [bcd_key_value]
  omega

end Keys

section Rows

def subLoc (sId : UInt32) : Loc := (rpcSubscriberReq, subKey sId)
def secSubLoc (sId : UInt32) : Loc := (rpcSecSubscriberReq, UInt64.ofNat (bcd sId.toNat))
def accinfLoc (sId : UInt32) (aiType : UInt8) : Loc := (rpcAccessInfoReq, typedKey sId aiType)
def specfacLoc (sId : UInt32) (sfType : UInt8) : Loc := (rpcSpecialFacilityReq, typedKey sId sfType)

def callfwdLoc (sId : UInt32) (sfType startTime : UInt8) : Loc :=
  (rpcCallForwardingReq, callfwdKey sId sfType startTime)

/-- The subscribers, and what belongs to them. -/
structure Directory where
  listed : UInt32 → Prop
  accesses : UInt32 → UInt8 → Prop
  facilities : UInt32 → UInt8 → Prop
  accessOf : ∀ sId aiType, accesses sId aiType → listed sId
  facilityOf : ∀ sId sfType, facilities sId sfType → listed sId

inductive RowOk (dir : Directory) (loc : Loc) (value : TatpVal) : Prop where
  | sub (sId : UInt32) (val : SubVal) (place : loc = subLoc sId) (shape : value = .sub val)
      (known : dir.listed sId) (magic : val.mscLocation = tatpSubMscLocationMagic)
  | secSub (sId : UInt32) (place : loc = secSubLoc sId)
      (shape : value = .secSub ⟨sId, tatpSecSubMagic⟩) (known : dir.listed sId)
  | accinf (sId : UInt32) (aiType : UInt8) (val : AccinfVal) (place : loc = accinfLoc sId aiType)
      (shape : value = .accinf val) (known : dir.accesses sId aiType)
      (magic : val.data1 = tatpAccinfData1Magic)
  | specfac (sId : UInt32) (sfType : UInt8) (val : SpecfacVal)
      (place : loc = specfacLoc sId sfType) (shape : value = .specfac val)
      (known : dir.facilities sId sfType) (magic : val.dataB0 = tatpSpecfacDataB0Magic)
  | callfwd (sId : UInt32) (sfType startTime : UInt8) (val : CallfwdVal)
      (place : loc = callfwdLoc sId sfType startTime) (shape : value = .callfwd val)
      (known : dir.facilities sId sfType) (times : startTime ∈ [0, 8, 16])
      (magic : val.numberx0 = tatpCallfwdNumberx0Magic)

/-- The rows that are always there. -/
inductive Present (dir : Directory) (loc : Loc) : Prop where
  | sub (sId : UInt32) (place : loc = subLoc sId) (known : dir.listed sId)
  | secSub (sId : UInt32) (place : loc = secSubLoc sId) (known : dir.listed sId)
  | accinf (sId : UInt32) (aiType : UInt8) (place : loc = accinfLoc sId aiType)
      (known : dir.accesses sId aiType)
  | specfac (sId : UInt32) (sfType : UInt8) (place : loc = specfacLoc sId sfType)
      (known : dir.facilities sId sfType)

def EntryOk (dir : Directory) (loc : Loc) (entry : Option TatpVal) : Prop :=
  (∀ value, entry = some value → RowOk dir loc value) ∧ (Present dir loc → entry ≠ none)

variable {dir : Directory} {loc : Loc} {value : TatpVal} {sId : UInt32} {sfType startTime : UInt8}

theorem sub_row (row : RowOk dir (subLoc sId) value) :
    dir.listed sId ∧ ∃ val, value = .sub val ∧ val.mscLocation = tatpSubMscLocationMagic := by
  cases row with
  | sub other val place shape known magic =>
      obtain rfl := sub_key_inj (Prod.mk.inj place).2
      exact ⟨known, val, shape, magic⟩
  | secSub _ place => cases (Prod.mk.inj place).1
  | accinf _ _ _ place => cases (Prod.mk.inj place).1
  | specfac _ _ _ place => cases (Prod.mk.inj place).1
  | callfwd _ _ _ _ place => cases (Prod.mk.inj place).1

theorem sec_sub_row (row : RowOk dir (secSubLoc sId) value) :
    value = .secSub ⟨sId, tatpSecSubMagic⟩ := by
  cases row with
  | secSub other place shape known =>
      obtain rfl := bcd_key_injective (Prod.mk.inj place).2
      exact shape
  | sub _ _ place => cases (Prod.mk.inj place).1
  | accinf _ _ _ place => cases (Prod.mk.inj place).1
  | specfac _ _ _ place => cases (Prod.mk.inj place).1
  | callfwd _ _ _ _ place => cases (Prod.mk.inj place).1

theorem accinf_row {aiType : UInt8} (row : RowOk dir (accinfLoc sId aiType) value) :
    dir.accesses sId aiType ∧ ∃ val, value = .accinf val ∧ val.data1 = tatpAccinfData1Magic := by
  cases row with
  | accinf other otherType val place shape known magic =>
      obtain ⟨rfl, rfl⟩ := typed_key_inj (Prod.mk.inj place).2
      exact ⟨known, val, shape, magic⟩
  | sub _ _ place => cases (Prod.mk.inj place).1
  | secSub _ place => cases (Prod.mk.inj place).1
  | specfac _ _ _ place => cases (Prod.mk.inj place).1
  | callfwd _ _ _ _ place => cases (Prod.mk.inj place).1

theorem specfac_row (row : RowOk dir (specfacLoc sId sfType) value) :
    dir.facilities sId sfType ∧
      ∃ val, value = .specfac val ∧ val.dataB0 = tatpSpecfacDataB0Magic := by
  cases row with
  | specfac other otherType val place shape known magic =>
      obtain ⟨rfl, rfl⟩ := typed_key_inj (Prod.mk.inj place).2
      exact ⟨known, val, shape, magic⟩
  | sub _ _ place => cases (Prod.mk.inj place).1
  | secSub _ place => cases (Prod.mk.inj place).1
  | accinf _ _ _ place => cases (Prod.mk.inj place).1
  | callfwd _ _ _ _ place => cases (Prod.mk.inj place).1

theorem callfwd_row (row : RowOk dir (callfwdLoc sId sfType startTime) value) :
    (dir.facilities sId sfType ∧ startTime ∈ [0, 8, 16]) ∧
      ∃ val, value = .callfwd val ∧ val.numberx0 = tatpCallfwdNumberx0Magic := by
  cases row with
  | callfwd other otherType otherStart val place shape known times magic =>
      obtain ⟨rfl, rfl, rfl⟩ := callfwd_key_inj (Prod.mk.inj place).2
      exact ⟨⟨known, times⟩, val, shape, magic⟩
  | sub _ _ place => cases (Prod.mk.inj place).1
  | secSub _ place => cases (Prod.mk.inj place).1
  | accinf _ _ _ place => cases (Prod.mk.inj place).1
  | specfac _ _ _ place => cases (Prod.mk.inj place).1

/-- Call forwarding rows may be absent. -/
theorem callfwd_not_present : ¬ Present dir (callfwdLoc sId sfType startTime) := by
  intro present
  cases present with
  | sub _ place => cases (Prod.mk.inj place).1
  | secSub _ place => cases (Prod.mk.inj place).1
  | accinf _ _ place => cases (Prod.mk.inj place).1
  | specfac _ _ place => cases (Prod.mk.inj place).1

end Rows

end Fasst.TatpRows

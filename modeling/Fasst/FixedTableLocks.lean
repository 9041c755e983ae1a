import Fasst.FixedTableModel
import Mathlib.Tactic.Cases

/-!
# The bucket lock word

The lock bit, the version counter and the canary share one 64-bit word, and
the owner and the number of its locks stand beside it. `lockOf` reads the pair
back as an optional owner with a count; `LockWf` says that the fields agree
with each other. The two pointer functions are then described by what they do
to `lockOf`, and every operation above them cites these two descriptions.
-/

namespace Fasst.FixedTableLocks

open Fasst.FixedTableModel

set_option autoImplicit false

theorem is_locked_iff (timestamp : UInt64) : isLocked timestamp ↔ timestamp.toNat % 2 = 1 := by
  unfold isLocked
  rw [← UInt64.toNat_inj]
  simp [UInt64.toNat_and, Nat.and_one_is_mod]

theorem is_unlocked_iff (timestamp : UInt64) :
    isUnlocked timestamp ↔ timestamp.toNat % 2 = 0 := by
  unfold isUnlocked
  rw [← UInt64.toNat_inj]
  simp [UInt64.toNat_and, Nat.and_one_is_mod]

theorem not_locked_iff (timestamp : UInt64) : ¬ isLocked timestamp ↔ isUnlocked timestamp := by
  rw [is_locked_iff, is_unlocked_iff]
  omega

/-- The guess of `lock_bucket_ptr` equals the word exactly when the word is even. -/
theorem cleared_word_iff (timestamp : UInt64) :
    timestamp = (timestamp &&& ~~~1) ↔ isUnlocked timestamp := by
  rw [is_unlocked_iff]
  constructor
  · intro same
    rw [same, Nat.mod_two_eq_zero_iff_testBit_zero, UInt64.toNat_and, UInt64.toNat_not]
    simp
  · intro even
    have low : timestamp.toBitVec.getLsbD 0 = false := by
      rw [Nat.mod_two_eq_zero_iff_testBit_zero] at even
      exact even
    apply UInt64.eq_of_toBitVec_eq
    rw [UInt64.toBitVec_and, UInt64.toBitVec_not]
    apply BitVec.eq_of_getLsbD_eq
    intro index bound
    rw [BitVec.getLsbD_and, BitVec.getLsbD_not]
    cases index with
    | zero => rw [low, Bool.false_and]
    | succ index => simp [bound]

theorem locked_word_value (timestamp : UInt64) (even : isUnlocked timestamp) :
    ((timestamp &&& ~~~1) ||| 1).toNat = timestamp.toNat + 1 := by
  rw [← (cleared_word_iff timestamp).mpr even]
  rw [is_unlocked_iff] at even
  have halved : (timestamp.toNat / 2) <<< 1 = timestamp.toNat := by
    rw [Nat.shiftLeft_eq]
    omega
  have joined := Nat.shiftLeft_add_eq_or_of_lt (i := 1) (b := 1) (by decide) (timestamp.toNat / 2)
  rw [halved] at joined
  rw [UInt64.toNat_or]
  exact joined.symm

variable {V : Type}

/-- The owner of a bucket and how often it holds the lock. -/
def lockOf (bucket : Bucket V) : Option (Nat × Nat) :=
  if isLocked bucket.timestamp then some (bucket.lockerId, bucket.numLocks) else none

def CallerOk (caller : Nat) : Prop := caller < 2 ^ kCallerIdBits ∧ caller ≠ kInvalidCallerId

instance (caller : Nat) : Decidable (CallerOk caller) := inferInstanceAs (Decidable (_ ∧ _))

/-- Agreement of the lock fields: an unlocked bucket names no owner and counts
no locks, a locked one names a caller and counts at least one. -/
def LockWf (bucket : Bucket V) : Prop :=
  match lockOf bucket with
  | none => bucket.lockerId = kInvalidCallerId ∧ bucket.numLocks = 0
  | some (owner, count) => CallerOk owner ∧ 0 < count ∧ count ≤ kMaxNumLocks

/-- The whole word as a function of the history of the bucket. -/
def WordOk (bucket : Bucket V) : Prop :=
  bucket.timestamp.toNat =
    (5 * 2 ^ 61 + 2 * bucket.finalUnlocks + (if isLocked bucket.timestamp then 1 else 0)) % 2 ^ 64

theorem lock_of_none_iff (bucket : Bucket V) :
    lockOf bucket = none ↔ isUnlocked bucket.timestamp := by
  unfold lockOf
  rw [← not_locked_iff]
  split_ifs with locked <;> simp [locked]

theorem lock_of_some (bucket : Bucket V) (owner count : Nat)
    (held : lockOf bucket = some (owner, count)) :
    isLocked bucket.timestamp ∧ bucket.lockerId = owner ∧ bucket.numLocks = count := by
  unfold lockOf at held
  split_ifs at held with locked
  simp only [Option.some.injEq, Prod.mk.injEq] at held
  exact ⟨locked, held.1, held.2⟩

def lockedOnce (bucket : Bucket V) (caller : Nat) : Bucket V :=
  { bucket with
    timestamp := (bucket.timestamp &&& ~~~1) ||| 1
    lockerId := caller % 2 ^ kCallerIdBits
    numLocks := 1 }

def lockedAgain (bucket : Bucket V) : Bucket V :=
  { bucket with numLocks := (bucket.numLocks + 1) % 2 ^ kNumLocksBits }

def unlockedLast (bucket : Bucket V) : Bucket V :=
  { bucket with
    lockerId := kInvalidCallerId
    numLocks := 0
    timestamp := bucket.timestamp + 1
    finalUnlocks := bucket.finalUnlocks + 1 }

def unlockedOne (bucket : Bucket V) : Bucket V :=
  { bucket with numLocks := bucket.numLocks - 1 }

theorem lock_of_locked_once (bucket : Bucket V) (caller : Nat) (callerOk : CallerOk caller)
    (free : lockOf bucket = none) : lockOf (lockedOnce bucket caller) = some (caller, 1) := by
  have even := (lock_of_none_iff bucket).mp free
  have odd : isLocked (lockedOnce bucket caller).timestamp := by
    rw [is_locked_iff, lockedOnce, locked_word_value _ even]
    rw [is_unlocked_iff] at even
    omega
  rw [lockOf, if_pos odd]
  simp [lockedOnce, Nat.mod_eq_of_lt callerOk.1]

theorem lock_of_locked_again (bucket : Bucket V) (owner count : Nat)
    (held : lockOf bucket = some (owner, count)) (room : count < kMaxNumLocks) :
    lockOf (lockedAgain bucket) = some (owner, count + 1) := by
  obtain ⟨locked, sameOwner, sameCount⟩ := lock_of_some bucket owner count held
  rw [lockOf, lockedAgain, if_pos locked, sameOwner, sameCount]
  rw [Nat.mod_eq_of_lt (by simp [kMaxNumLocks, kNumLocksBits] at room ⊢; omega)]

theorem lock_of_unlocked_last (bucket : Bucket V) (owner count : Nat)
    (held : lockOf bucket = some (owner, count)) : lockOf (unlockedLast bucket) = none := by
  obtain ⟨locked, _, _⟩ := lock_of_some bucket owner count held
  rw [is_locked_iff] at locked
  rw [lock_of_none_iff, is_unlocked_iff, unlockedLast, UInt64.toNat_add]
  simp only [UInt64.reduceToNat]
  omega

theorem lock_of_unlocked_one (bucket : Bucket V) (owner count : Nat)
    (held : lockOf bucket = some (owner, count + 1)) :
    lockOf (unlockedOne bucket) = some (owner, count) := by
  obtain ⟨locked, sameOwner, sameCount⟩ := lock_of_some bucket owner (count + 1) held
  rw [lockOf, unlockedOne, if_pos locked, sameOwner, sameCount]
  rfl

theorem lock_wf_locked_once (bucket : Bucket V) (caller : Nat) (callerOk : CallerOk caller)
    (free : lockOf bucket = none) : LockWf (lockedOnce bucket caller) := by
  rw [LockWf, lock_of_locked_once bucket caller callerOk free]
  exact ⟨callerOk, by decide, by decide⟩

theorem lock_wf_locked_again (bucket : Bucket V) (owner count : Nat) (wf : LockWf bucket)
    (held : lockOf bucket = some (owner, count)) (room : count < kMaxNumLocks) :
    LockWf (lockedAgain bucket) := by
  rw [LockWf, held] at wf
  rw [LockWf, lock_of_locked_again bucket owner count held room]
  exact ⟨wf.1, by omega, by omega⟩

theorem lock_wf_unlocked_last (bucket : Bucket V) (owner count : Nat)
    (held : lockOf bucket = some (owner, count)) : LockWf (unlockedLast bucket) := by
  rw [LockWf, lock_of_unlocked_last bucket owner count held]
  exact ⟨rfl, rfl⟩

theorem lock_wf_unlocked_one (bucket : Bucket V) (owner count : Nat) (wf : LockWf bucket)
    (held : lockOf bucket = some (owner, count + 1)) (more : 0 < count) :
    LockWf (unlockedOne bucket) := by
  rw [LockWf, held] at wf
  rw [LockWf, lock_of_unlocked_one bucket owner count held]
  exact ⟨wf.1, more, by omega⟩

theorem word_ok_locked_once (bucket : Bucket V) (caller : Nat) (word : WordOk bucket)
    (free : lockOf bucket = none) : WordOk (lockedOnce bucket caller) := by
  have even := (lock_of_none_iff bucket).mp free
  have value := locked_word_value bucket.timestamp even
  have unlocked : ¬ isLocked bucket.timestamp := (not_locked_iff _).mpr even
  rw [is_unlocked_iff] at even
  have odd : isLocked (lockedOnce bucket caller).timestamp := by
    rw [is_locked_iff, lockedOnce, value]
    omega
  rw [WordOk, if_neg unlocked] at word
  rw [WordOk, if_pos odd]
  simp only [lockedOnce]
  rw [value]
  omega

theorem word_ok_unlocked_last (bucket : Bucket V) (owner count : Nat) (word : WordOk bucket)
    (held : lockOf bucket = some (owner, count)) : WordOk (unlockedLast bucket) := by
  have free := (lock_of_none_iff _).mp (lock_of_unlocked_last bucket owner count held)
  rw [WordOk, if_pos (lock_of_some bucket owner count held).1] at word
  rw [WordOk, if_neg ((not_locked_iff _).mpr free)]
  simp only [unlockedLast, UInt64.toNat_add, UInt64.reduceToNat]
  omega

theorem check_pass (condition : Prop) [Decidable condition] (fault : Fault)
    (holds : condition) : check condition fault = .ok () := by
  rw [check, if_pos holds]

theorem check_fail (condition : Prop) [Decidable condition] (fault : Fault)
    (fails : ¬ condition) : check condition fault = .error fault := by
  rw [check, if_neg fails]

/-- What `lock_bucket_ptr` does, for each owner it can find. -/
theorem lock_bucket_free (table : FixedTable V) (caller node : Nat) (callerOk : CallerOk caller)
    (wf : LockWf (table.buckets node)) (free : lockOf (table.buckets node) = none) :
    lockBucketPtr table caller node =
      .ok (true, setBucket table node (lockedOnce (table.buckets node) caller)) := by
  have even := (cleared_word_iff _).mpr ((lock_of_none_iff _).mp free)
  rw [LockWf, free] at wf
  simp only [lockBucketPtr, check_pass _ _ callerOk.2, check_pass _ _ wf.1, check_pass _ _ wf.2]
  rw [if_pos even]
  rfl

theorem lock_bucket_own (table : FixedTable V) (caller node count : Nat)
    (wf : LockWf (table.buckets node))
    (held : lockOf (table.buckets node) = some (caller, count)) (room : count < kMaxNumLocks) :
    lockBucketPtr table caller node =
      .ok (true, setBucket table node (lockedAgain (table.buckets node))) := by
  obtain ⟨locked, sameOwner, sameCount⟩ := lock_of_some _ caller count held
  rw [LockWf, held] at wf
  have odd : ¬ (table.buckets node).timestamp = ((table.buckets node).timestamp &&& ~~~1) := by
    rw [cleared_word_iff, ← not_locked_iff, not_not]
    exact locked
  have counted : 0 < (table.buckets node).numLocks := sameCount ▸ wf.2.1
  have bounded : (table.buckets node).numLocks < kMaxNumLocks := sameCount ▸ room
  simp only [lockBucketPtr, check_pass _ _ wf.1.2]
  rw [if_neg odd, if_pos sameOwner]
  simp only [check_pass _ _ locked, check_pass _ _ counted, check_pass _ _ bounded]
  rfl

theorem lock_bucket_other (table : FixedTable V) (caller node owner count : Nat)
    (callerOk : CallerOk caller)
    (held : lockOf (table.buckets node) = some (owner, count)) (other : owner ≠ caller) :
    lockBucketPtr table caller node = .ok (false, table) := by
  obtain ⟨locked, sameOwner, _⟩ := lock_of_some _ owner count held
  have odd : ¬ (table.buckets node).timestamp = ((table.buckets node).timestamp &&& ~~~1) := by
    rw [cleared_word_iff, ← not_locked_iff, not_not]
    exact locked
  simp only [lockBucketPtr, check_pass _ _ callerOk.2]
  rw [if_neg odd, if_neg (sameOwner ▸ other)]
  rfl

theorem unlock_bucket_last (table : FixedTable V) (caller node : Nat)
    (wf : LockWf (table.buckets node))
    (held : lockOf (table.buckets node) = some (caller, 1)) :
    unlockBucketPtr table caller node =
      .ok (setBucket table node (unlockedLast (table.buckets node))) := by
  obtain ⟨locked, sameOwner, sameCount⟩ := lock_of_some _ caller 1 held
  rw [LockWf, held] at wf
  have counted : 0 < (table.buckets node).numLocks := sameCount ▸ wf.2.1
  simp only [unlockBucketPtr, check_pass _ _ wf.1.2, check_pass _ _ locked,
    check_pass _ _ sameOwner, check_pass _ _ counted]
  rw [if_pos sameCount]
  rfl

theorem unlock_bucket_one (table : FixedTable V) (caller node count : Nat)
    (wf : LockWf (table.buckets node))
    (held : lockOf (table.buckets node) = some (caller, count + 1)) (more : 0 < count) :
    unlockBucketPtr table caller node =
      .ok (setBucket table node (unlockedOne (table.buckets node))) := by
  obtain ⟨locked, sameOwner, sameCount⟩ := lock_of_some _ caller (count + 1) held
  rw [LockWf, held] at wf
  have counted : 0 < (table.buckets node).numLocks := sameCount ▸ wf.2.1
  simp only [unlockBucketPtr, check_pass _ _ wf.1.2, check_pass _ _ locked,
    check_pass _ _ sameOwner, check_pass _ _ counted]
  rw [if_neg (by omega)]
  rfl

end Fasst.FixedTableLocks

import Fasst.FixedTableStore
import Fasst.Outcomes
import Mathlib.Logic.Relation

/-!
# Operations of a FixedTable as sequences of elementary moves

Each public operation addresses one primary bucket and is a sequence of moves
there: taking the bucket lock, editing the items of the chain, releasing the
lock. An edit at a primary happens only under the lock. `run_op_reaches` states
this once for all operations, without assuming any lock discipline, and the
representation invariant is what it says about the shape.
-/

namespace Fasst.FixedTableOps

open Fasst.FixedTableModel Fasst.LinkedChain Fasst.FixedTableShape Fasst.FixedTableWalks
open Fasst.FixedTableEdits Fasst.FixedTableLocks Fasst.FixedTableExtra Fasst.FixedTableFill
open Fasst.FixedTableStore Fasst.Outcomes Relation

set_option autoImplicit false

inductive Op (V : Type) where
  | get (caller : Nat) (key : UInt64)
  | lockBktAndGet (caller : Nat) (key : UInt64)
  | lockBktForIns (caller : Nat) (key : UInt64)
  | lockBucketHash (caller : Nat) (keyHash : UInt64)
  | unlockBucketHash (caller : Nat) (keyHash : UInt64)
  | set (caller : Nat) (key : UInt64) (value : V)
  | setSpinlock (caller : Nat) (key : UInt64) (value : V)
  | del (caller : Nat) (key : UInt64)

variable {V : Type}

def plainReply (outcome : Result × FixedTable V) : ReadOut V × FixedTable V :=
  (⟨outcome.1, none, none⟩, outcome.2)

def runOp (hash : UInt64 → UInt64) (table : FixedTable V) :
    Op V → Except Fault (ReadOut V × FixedTable V)
  | .get caller key => do
      let reply ← FixedTableModel.get table caller (hash key) key
      .ok (reply, table)
  | .lockBktAndGet caller key => lockBktAndGet table caller (hash key) key
  | .lockBktForIns caller key => lockBktForIns table caller (hash key) key
  | .lockBucketHash caller keyHash => plainReply <$> lockBucketHash table caller keyHash
  | .unlockBucketHash caller keyHash => plainReply <$> unlockBucketHash table caller keyHash
  | .set caller key value => plainReply <$> FixedTableModel.set table caller (hash key) key value
  | .setSpinlock caller key value => plainReply <$> setSpinlock table caller (hash key) key value
  | .del caller key => plainReply <$> del table caller (hash key) key

def Op.key : Op V → Option UInt64
  | .get _ key | .lockBktAndGet _ key | .lockBktForIns _ key | .set _ key _
  | .setSpinlock _ key _ | .del _ key => some key
  | .lockBucketHash _ _ | .unlockBucketHash _ _ => none

def Op.keyHash (hash : UInt64 → UInt64) : Op V → UInt64
  | .get _ key | .lockBktAndGet _ key | .lockBktForIns _ key | .set _ key _
  | .setSpinlock _ key _ | .del _ key => hash key
  | .lockBucketHash _ keyHash | .unlockBucketHash _ keyHash => keyHash

def Op.caller : Op V → Nat
  | .get caller _ | .lockBktAndGet caller _ | .lockBktForIns caller _ | .set caller _ _
  | .setSpinlock caller _ _ | .del caller _ | .lockBucketHash caller _
  | .unlockBucketHash caller _ => caller

def Op.KeyValid (op : Op V) : Prop := op.key ≠ some kFtInvalidKey

/-- Assertions about indices, links and emptiness, and the walks that do not end. -/
def Structural (fault : Fault) : Prop :=
  fault ∈ [Fault.bucketIndexRange, .extraIndexZero, .extraIndexRange, .extraAlreadyChained,
    .extraNotChained, .extraNotTail, .extraNotEmpty, .diverge]

instance (fault : Fault) : Decidable (Structural fault) := inferInstanceAs (Decidable (_ ∈ _))

def LockFault (fault : Fault) : Prop := ¬ Structural fault

instance (fault : Fault) : Decidable (LockFault fault) := inferInstanceAs (Decidable (¬ _))

/-- What an operation can do to the bucket it addresses. -/
inductive Move (hash : UInt64 → UInt64) (node : Nat) : FixedTable V → FixedTable V → Prop where
  | lock (table after : FixedTable V) (caller : Nat)
      (run : lockBucketPtr table caller node = .ok (true, after))
      (unchanged : contents hash after = contents hash table) : Move hash node table after
  | unlock (table after : FixedTable V) (caller : Nat)
      (run : unlockBucketPtr table caller node = .ok after)
      (unchanged : contents hash after = contents hash table) : Move hash node table after
  | edit (table after : FixedTable V)
      (locked : table.isPrimary = true → isLocked (table.buckets node).timestamp)
      (frame : SameFrame table after)
      (local_ : ∀ key, homeOf hash table key ≠ node →
        contents hash after key = contents hash table key) : Move hash node table after

def Reaches (hash : UInt64 → UInt64) (node : Nat) (table after : FixedTable V) : Prop :=
  (∃ lists, Shape hash after lists none) ∧ ReflTransGen (Move hash node) table after

section Pieces

variable {hash : UInt64 → UInt64} {table : FixedTable V}

theorem check_ensures (condition : Prop) [Decidable condition] (fault : Fault)
    (harmless : LockFault fault) : Ensures LockFault (fun _ => condition) (check condition fault) := by
  by_cases holds : condition
  · rw [check_pass _ _ holds]
    exact holds
  · rw [check_fail _ _ holds]
    exact harmless

theorem set_bucket_same_items (table : FixedTable V) (node : Nat) (bucket : Bucket V)
    (links : bucket.nextExtraBucketIndex = (table.buckets node).nextExtraBucketIndex)
    (keys : bucket.keyArr = (table.buckets node).keyArr)
    (values : bucket.valArr = (table.buckets node).valArr) :
    SameItems table (setBucket table node bucket) := by
  refine ⟨⟨rfl, rfl, rfl, ?_, ?_⟩, ?_⟩ <;> intro other <;> rw [set_bucket_apply] <;>
    split_ifs with same
  · rw [same, links]
  · rfl
  · rw [same, keys]
  · rfl
  · rw [same, values]
  · rfl

theorem lock_bucket_items (table : FixedTable V) (caller node : Nat) :
    Ensures LockFault (fun outcome : Bool × FixedTable V =>
      SameItems table outcome.2 ∧ outcome.2.isPrimary = table.isPrimary ∧
        (outcome.1 = false → outcome.2 = table) ∧
        (outcome.1 = true → isLocked (outcome.2.buckets node).timestamp))
      (lockBucketPtr table caller node) := by
  unfold lockBucketPtr
  refine ensures_bind (check_ensures _ _ (by decide)) ?_
  intro _ _
  dsimp only
  split_ifs with even own
  · refine ensures_bind (check_ensures _ _ (by decide)) ?_
    intro _ _
    refine ensures_bind (check_ensures _ _ (by decide)) ?_
    intro _ _
    refine ⟨set_bucket_same_items table node _ rfl rfl rfl, rfl, (fun impossible => by cases impossible), ?_⟩
    intro _
    have word := locked_word_value _ ((cleared_word_iff _).mp even)
    rw [set_bucket_same, is_locked_iff, word]
    have unlocked := (cleared_word_iff _).mp even
    rw [is_unlocked_iff] at unlocked
    omega
  · refine ensures_bind (check_ensures _ _ (by decide)) ?_
    intro _ locked
    refine ensures_bind (check_ensures _ _ (by decide)) ?_
    intro _ _
    refine ensures_bind (check_ensures _ _ (by decide)) ?_
    intro _ _
    refine ⟨set_bucket_same_items table node _ rfl rfl rfl, rfl, (fun impossible => by cases impossible), ?_⟩
    intro _
    rw [set_bucket_same]
    exact locked
  · exact ⟨⟨⟨rfl, rfl, rfl, fun _ => rfl, fun _ => rfl⟩, fun _ => rfl⟩, rfl, fun _ => rfl,
      fun impossible => by cases impossible⟩

theorem unlock_bucket_items (table : FixedTable V) (caller node : Nat) :
    Ensures LockFault (fun after => SameItems table after) (unlockBucketPtr table caller node) := by
  unfold unlockBucketPtr
  refine ensures_bind (check_ensures _ _ (by decide)) ?_
  intro _ _
  refine ensures_bind (check_ensures _ _ (by decide)) ?_
  intro _ _
  refine ensures_bind (check_ensures _ _ (by decide)) ?_
  intro _ _
  refine ensures_bind (check_ensures _ _ (by decide)) ?_
  intro _ _
  split_ifs
  · exact set_bucket_same_items table node _ rfl rfl rfl
  · exact set_bucket_same_items table node _ rfl rfl rfl

theorem reaches_refl {lists : Lists} (node : Nat) (shape : Shape hash table lists none) :
    Reaches hash node table table :=
  ⟨⟨lists, shape⟩, .refl⟩

theorem lock_reaches {lists : Lists} (shape : Shape hash table lists none) (caller node : Nat) :
    Ensures LockFault (fun outcome : Bool × FixedTable V =>
      Reaches hash node table outcome.2 ∧ (outcome.1 = false → outcome.2 = table) ∧
        (outcome.1 = true → SameItems table outcome.2 ∧
          outcome.2.isPrimary = table.isPrimary ∧
          isLocked (outcome.2.buckets node).timestamp))
      (lockBucketPtr table caller node) := by
  refine ensures_mono (ensures_with_run (lock_bucket_items table caller node)) ?_
  rintro ⟨success, after⟩ ⟨⟨items, sameRole, failed, locked⟩, run⟩
  refine ⟨⟨⟨lists, shape_of_same hash table after lists none shape items.toSameShape⟩, ?_⟩, failed,
    fun succeeded => ⟨items, sameRole, locked succeeded⟩⟩
  cases success with
  | false =>
      have same : after = table := failed rfl
      rw [same]
  | true => exact .single (.lock table after caller run (contents_same_items shape items))

theorem unlock_reaches {start : FixedTable V} {node : Nat} (reached : Reaches hash node start table)
    (caller : Nat) :
    Ensures LockFault (Reaches hash node start) (unlockBucketPtr table caller node) := by
  obtain ⟨⟨lists, shape⟩, moves⟩ := reached
  refine ensures_mono (ensures_with_run (unlock_bucket_items table caller node)) ?_
  rintro after ⟨items, run⟩
  exact ⟨⟨lists, shape_of_same hash table after lists none shape items.toSameShape⟩,
    moves.tail (.unlock table after caller run (contents_same_items shape items))⟩

theorem unlock_if_primary_reaches {start : FixedTable V} {node : Nat}
    (reached : Reaches hash node start table) (caller : Nat) :
    Ensures LockFault (Reaches hash node start) (unlockIfPrimary table caller node) := by
  unfold unlockIfPrimary
  split_ifs
  · exact unlock_reaches reached caller
  · exact reached

theorem assert_holder_ensures (table : FixedTable V) (caller node : Nat) :
    Ensures LockFault
      (fun _ => table.isPrimary = true → isLocked (table.buckets node).timestamp)
      (assertHolder table caller node) := by
  unfold assertHolder
  split_ifs with role
  · refine ensures_bind (check_ensures _ _ (by decide)) ?_
    intro _ locked
    refine ensures_mono (check_ensures _ _ (by decide)) ?_
    intro _ _ _
    exact locked
  · intro primary
    exact absurd primary role

theorem get_bucket_ok {lists : Lists} (shape : Shape hash table lists none) (keyHash : UInt64) :
    getBucket table (calcBucketIndex table keyHash) = .ok (calcBucketIndex table keyHash) := by
  have bound := calc_bucket_index_lt table keyHash shape.positive
  rw [getBucket, check_pass _ _ (by omega)]
  rfl

/-- An edit that changes the map at one key. -/
theorem edit_reaches {start after : FixedTable V} {key : UInt64} {entry : Option V}
    (reached : Reaches hash (homeOf hash table key) start table)
    (locked : table.isPrimary = true →
      isLocked (table.buckets (homeOf hash table key)).timestamp)
    (shape : ∃ lists, Shape hash after lists none) (frame : SameFrame table after)
    (updated : contents hash after = Function.update (contents hash table) key entry) :
    Reaches hash (homeOf hash table key) start after := by
  refine ⟨shape, reached.2.tail (.edit table after locked frame ?_)⟩
  intro query elsewhere
  rw [updated, Function.update_of_ne]
  intro same
  exact elsewhere (by rw [same])

end Pieces

section Operations

variable {hash : UInt64 → UInt64} {table : FixedTable V} {lists : Lists}

/-- The answer of `get`, from the lock and the entry it meets. The timestamp
buffer is not written for an absent key under the caller's own lock. -/
def getReply (caller : Nat) (timestamp : UInt64) (lock : Option (Nat × Nat)) (entry : Option V) :
    ReadOut V :=
  match lock, entry with
  | none, some value => ⟨.kSuccess, some timestamp, some value⟩
  | none, none => ⟨.kNotFound, some timestamp, none⟩
  | some (owner, _), some value =>
      if owner = caller then ⟨.kSuccess, some timestamp, some value⟩ else ⟨.kLocked, none, none⟩
  | some (owner, _), none =>
      if owner = caller then ⟨.kNotFound, none, none⟩ else ⟨.kLocked, none, none⟩

theorem get_spec (shape : Shape hash table lists none) (caller : Nat) {key : UInt64}
    (valid : key ≠ kFtInvalidKey) (primary : table.isPrimary = true) :
    FixedTableModel.get table caller (hash key) key =
      .ok (getReply caller (table.buckets (homeOf hash table key)).timestamp
        (lockOf (table.buckets (homeOf hash table key))) (contents hash table key)) := by
  obtain ⟨outcome, run, _, entry⟩ := lookup_spec shape valid
  have lookup : findItemIndex table (calcBucketIndex table (hash key)) key = .ok outcome := run
  unfold FixedTableModel.get
  rw [check_pass _ _ primary, get_bucket_ok shape, entry]
  simp only [bind, Except.bind, readTimestamp, lookup, ne_eq, not_true_eq_false, if_false, check_pass]
  cases held : lockOf (table.buckets (homeOf hash table key)) with
  | none =>
      have unlocked := (lock_of_none_iff _).mp held
      rw [homeOf] at unlocked
      rw [if_pos unlocked]
      cases outcome <;> rfl
  | some pair =>
      obtain ⟨owner, count⟩ := pair
      obtain ⟨locked, sameOwner, _⟩ := lock_of_some _ owner count held
      rw [homeOf] at locked sameOwner
      rw [if_neg ((not_locked_iff _).not_right.mp locked), sameOwner]
      by_cases own : owner = caller <;> cases outcome <;> simp [getReply, own, homeOf, valAt]

theorem get_reaches (shape : Shape hash table lists none) (caller : Nat) {key : UInt64}
    (valid : key ≠ kFtInvalidKey) :
    Ensures LockFault (fun outcome => Reaches hash (homeOf hash table key) table outcome.2)
      (runOp hash table (.get caller key)) := by
  by_cases primary : table.isPrimary = true
  · rw [runOp, get_spec shape caller valid primary]
    exact reaches_refl _ shape
  · rw [runOp, FixedTableModel.get, check_fail _ _ primary]
    exact (by decide : LockFault .tableNotPrimary)

/-- The lock and the search that both locking reads begin with. -/
theorem lock_find_reaches (shape : Shape hash table lists none) (caller : Nat) {key : UInt64}
    (valid : key ≠ kFtInvalidKey) :
    Ensures LockFault (fun outcome : Bool × FixedTable V =>
      Reaches hash (homeOf hash table key) table outcome.2 ∧
        (outcome.1 = true →
          ∃ place, findItemIndex outcome.2 (homeOf hash table key) key = .ok place))
      (lockBucketPtr table caller (homeOf hash table key)) := by
  refine ensures_mono (lock_reaches shape caller _) ?_
  rintro ⟨success, locked⟩ ⟨reached, _, succeeded⟩
  refine ⟨reached, ?_⟩
  intro success
  obtain ⟨items, _, _⟩ := succeeded success
  obtain ⟨outcome, run, _, _⟩ :=
    lookup_spec (shape_of_same hash table locked lists none shape items.toSameShape) valid
  have home : homeOf hash locked key = homeOf hash table key :=
    calc_bucket_index_congr table locked items.numBuckets (hash key)
  rw [home] at run
  exact ⟨outcome, run⟩

theorem lock_bkt_if_reaches (shape : Shape hash table lists none) (caller : Nat) {key : UInt64}
    (valid : key ≠ kFtInvalidKey) (present : Bool) (missed : Result) :
    Ensures LockFault (fun outcome => Reaches hash (homeOf hash table key) table outcome.2)
      (lockBktIf present missed table caller (hash key) key) := by
  refine ensures_bind (check_ensures _ _ (by decide)) ?_
  intro _ _
  refine ensures_bind_ok (get_bucket_ok shape _) ?_
  refine ensures_bind (lock_find_reaches shape caller valid) ?_
  rintro ⟨success, locked⟩ ⟨reached, found⟩
  cases success with
  | false => exact reached
  | true =>
      obtain ⟨place, run⟩ := found rfl
      refine ensures_bind_ok run ?_
      dsimp only
      split_ifs
      · exact reached
      · exact ensures_bind (unlock_reaches reached caller) (fun _ after => after)

theorem lock_bucket_hash_reaches (shape : Shape hash table lists none) (caller : Nat)
    (keyHash : UInt64) :
    Ensures LockFault (fun outcome => Reaches hash (calcBucketIndex table keyHash) table outcome.2)
      (lockBucketHash table caller keyHash) := by
  refine ensures_bind (check_ensures _ _ (by decide)) ?_
  intro _ _
  refine ensures_bind_ok (get_bucket_ok shape _) ?_
  exact ensures_bind (lock_reaches shape caller _) (fun _ after => after.1)

theorem unlock_bucket_hash_reaches (shape : Shape hash table lists none) (caller : Nat)
    (keyHash : UInt64) :
    Ensures LockFault (fun outcome => Reaches hash (calcBucketIndex table keyHash) table outcome.2)
      (unlockBucketHash table caller keyHash) := by
  refine ensures_bind (check_ensures _ _ (by decide)) ?_
  intro _ _
  refine ensures_bind_ok (get_bucket_ok shape _) ?_
  exact ensures_bind (unlock_reaches (reaches_refl _ shape) caller) (fun _ after => after)

theorem set_reaches (shape : Shape hash table lists none) (caller : Nat) {key : UInt64}
    (valid : key ≠ kFtInvalidKey) (value : V) :
    Ensures LockFault (fun outcome => Reaches hash (homeOf hash table key) table outcome.2)
      (FixedTableModel.set table caller (hash key) key value) := by
  refine ensures_bind_ok (get_bucket_ok shape _) ?_
  refine ensures_bind (assert_holder_ensures table caller _) ?_
  intro _ locked
  have start := reaches_refl (homeOf hash table key) shape
  rcases place_item_spec shape valid value with
    ⟨located, slot, placed, newLists, run, stored, updated, frame⟩ | ⟨run, _, _⟩
  · refine ensures_bind_ok run ?_
    have reached := edit_reaches start locked ⟨newLists, stored⟩ frame updated
    exact ensures_bind (unlock_if_primary_reaches reached caller) (fun _ after => after)
  · refine ensures_bind_ok run ?_
    exact ensures_bind (unlock_reaches start caller) (fun _ after => after)

theorem set_spinlock_reaches (shape : Shape hash table lists none) (caller : Nat) {key : UInt64}
    (valid : key ≠ kFtInvalidKey) (value : V) :
    Ensures LockFault (fun outcome => Reaches hash (homeOf hash table key) table outcome.2)
      (setSpinlock table caller (hash key) key value) := by
  refine ensures_bind_ok (get_bucket_ok shape _) ?_
  refine ensures_bind (lock_reaches shape caller _) ?_
  rintro ⟨success, lockedTable⟩ ⟨reached, _, succeeded⟩
  cases success with
  | false => exact (by decide : LockFault .spin)
  | true =>
      obtain ⟨items, _, locked⟩ := succeeded rfl
      have home : homeOf hash lockedTable key = calcBucketIndex table (hash key) :=
        calc_bucket_index_congr table lockedTable items.numBuckets (hash key)
      have lockedShape := shape_of_same hash table lockedTable lists none shape items.toSameShape
      rcases place_item_spec lockedShape valid value with
        ⟨located, slot, placed, newLists, run, stored, updated, frame⟩ | ⟨run, _, _⟩ <;>
        rw [home] at run
      · refine ensures_bind_ok run ?_
        have edited := edit_reaches (by rw [home]; exact reached) (fun _ => by rw [home]; exact locked)
          ⟨newLists, stored⟩ frame updated
        rw [home] at edited
        exact ensures_bind (unlock_reaches edited caller) (fun _ after => after)
      · refine ensures_bind_ok run ?_
        exact ensures_bind (unlock_reaches reached caller) (fun _ after => after)

theorem del_reaches (shape : Shape hash table lists none) (caller : Nat) {key : UInt64}
    (valid : key ≠ kFtInvalidKey) :
    Ensures LockFault (fun outcome => Reaches hash (homeOf hash table key) table outcome.2)
      (del table caller (hash key) key) := by
  refine ensures_bind_ok (get_bucket_ok shape _) ?_
  refine ensures_bind (assert_holder_ensures table caller _) ?_
  intro _ locked
  obtain ⟨outcome, run, meaning, _⟩ := lookup_spec shape valid
  refine ensures_bind_ok run ?_
  cases outcome with
  | none => exact (by decide : LockFault .keyMissing)
  | some place =>
      obtain ⟨filled, newLists, filledRun, after, updated, frame⟩ :=
        remove_item_spec shape valid meaning.1 meaning.2
      refine ensures_bind_ok filledRun ?_
      have reached := edit_reaches (reaches_refl _ shape) locked ⟨newLists, after⟩ frame updated
      exact ensures_bind (unlock_if_primary_reaches reached caller) (fun _ unlocked => unlocked)

/-- One call: it ends, trips no structural assertion, and acts on its bucket by
elementary moves that leave a well-shaped table. -/
theorem run_op_reaches (shape : Shape hash table lists none) (op : Op V) (valid : op.KeyValid) :
    Ensures LockFault
      (fun outcome => Reaches hash (calcBucketIndex table (op.keyHash hash)) table outcome.2)
      (runOp hash table op) := by
  have keyOk : ∀ key, op.key = some key → key ≠ kFtInvalidKey := by
    intro key same invalid
    exact valid (by rw [same, invalid])
  cases op with
  | get caller key => exact get_reaches shape caller (keyOk key rfl)
  | lockBktAndGet caller key => exact lock_bkt_if_reaches shape caller (keyOk key rfl) _ _
  | lockBktForIns caller key => exact lock_bkt_if_reaches shape caller (keyOk key rfl) _ _
  | lockBucketHash caller keyHash =>
      exact ensures_map plainReply (lock_bucket_hash_reaches shape caller keyHash)
  | unlockBucketHash caller keyHash =>
      exact ensures_map plainReply (unlock_bucket_hash_reaches shape caller keyHash)
  | set caller key value => exact ensures_map plainReply (set_reaches shape caller (keyOk key rfl) value)
  | setSpinlock caller key value =>
      exact ensures_map plainReply (set_spinlock_reaches shape caller (keyOk key rfl) value)
  | del caller key => exact ensures_map plainReply (del_reaches shape caller (keyOk key rfl))

end Operations

end Fasst.FixedTableOps

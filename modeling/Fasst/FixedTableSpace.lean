import Fasst.FixedTableVersions

/-!
# A `set` that finds no room

The error exit of `set` releases a lock of the caller, whatever the role of the
table. At a primary the caller has one, and the exit does to the lock fields what
a successful `set` does. At a backup nobody holds a bucket between two calls, and
the assertions of `unlock_bucket_ptr` fail.
-/

namespace Fasst.FixedTableSpace

open Fasst.FixedTableModel Fasst.FixedTableShape Fasst.FixedTableEdits Fasst.FixedTableLocks
open Fasst.FixedTableStore Fasst.FixedTableOps Fasst.FixedTableInvariant Fasst.FixedTableVersions
open Fasst.Outcomes Relation

set_option autoImplicit false

variable {V : Type}

def lockFields (bucket : Bucket V) : Nat × Nat × UInt64 :=
  (bucket.lockerId, bucket.numLocks, bucket.timestamp)

def releasedFields (bucket : Bucket V) : Nat × Nat × UInt64 :=
  if bucket.numLocks = 1 then (kInvalidCallerId, 0, bucket.timestamp + 1)
  else (bucket.lockerId, bucket.numLocks - 1, bucket.timestamp)

def Counted (table : FixedTable V) : Prop :=
  ∀ node, isLocked (table.buckets node).timestamp → 0 < (table.buckets node).numLocks

section Counting

variable {hash : UInt64 → UInt64} {node : Nat} {table after : FixedTable V}

theorem counted_set_bucket (counted : Counted table) (node : Nat) {bucket : Bucket V}
    (positive : isLocked bucket.timestamp → 0 < bucket.numLocks) :
    Counted (setBucket table node bucket) := by
  intro other
  rw [set_bucket_apply]
  split_ifs
  · exact positive
  · exact counted other

theorem lock_counted (counted : Counted table) (caller node : Nat) :
    Ensures LockFault (fun outcome : Bool × FixedTable V => Counted outcome.2)
      (lockBucketPtr table caller node) := by
  unfold lockBucketPtr
  apply ensures_bind (check_ensures _ _ (by decide))
  intro _ _
  dsimp only
  split_ifs with even own
  · apply ensures_bind (check_ensures _ _ (by decide))
    intro _ _
    apply ensures_bind (check_ensures _ _ (by decide))
    intro _ _
    exact counted_set_bucket counted node fun _ => Nat.one_pos
  · apply ensures_bind (check_ensures _ _ (by decide))
    intro _ _
    apply ensures_bind (check_ensures _ _ (by decide))
    intro _ _
    apply ensures_bind (check_ensures _ _ (by decide))
    intro _ few
    apply counted_set_bucket counted node
    intro _
    simp only [kMaxNumLocks, kNumLocksBits] at few ⊢
    omega
  · exact counted

theorem unlocked_after_locked {timestamp : UInt64} (locked : isLocked timestamp) :
    isUnlocked (timestamp + 1) := by
  rw [is_locked_iff] at locked
  rw [is_unlocked_iff, UInt64.toNat_add]
  simp only [UInt64.reduceToNat]
  omega

theorem unlock_counted (counted : Counted table) (caller node : Nat) :
    Ensures LockFault Counted (unlockBucketPtr table caller node) := by
  unfold unlockBucketPtr
  apply ensures_bind (check_ensures _ _ (by decide))
  intro _ _
  apply ensures_bind (check_ensures _ _ (by decide))
  intro _ locked
  apply ensures_bind (check_ensures _ _ (by decide))
  intro _ _
  apply ensures_bind (check_ensures _ _ (by decide))
  intro _ some_
  split_ifs with last
  · apply counted_set_bucket counted node
    intro again
    exact absurd again ((not_locked_iff _).mpr (unlocked_after_locked locked))
  · apply counted_set_bucket counted node
    intro _
    simp only
    omega

theorem move_counted (counted : Counted table) (move : Move hash node table after) :
    Counted after := by
  cases move with
  | lock caller run unchanged =>
      have locked := ensures_elim (lock_counted counted caller node) run
      exact locked
  | unlock caller run unchanged => exact ensures_elim (unlock_counted counted caller node) run
  | edit locked frame only =>
      intro other
      obtain ⟨-, sameCount, sameTimestamp, -⟩ := frame.locks other
      rw [sameTimestamp, sameCount]
      exact counted other

theorem reaches_counted (counted : Counted table) (reached : Reaches hash node table after) :
    Counted after := by
  obtain ⟨-, moves⟩ := reached
  induction moves with
  | refl => exact counted
  | tail _ move ih => exact move_counted ih move

end Counting

/-- A point of a run of a new table. -/
theorem run_ops_counted (hash : UInt64 → UInt64) (isPrimary : Bool)
    (valSize numBuckets numExtraBuckets : Nat) (zero : V) (positive : 0 < numBuckets)
    (ops : List (Op V)) (valid : ∀ op ∈ ops, op.KeyValid) (table : FixedTable V)
    (run : runOps hash (construct isPrimary valSize numBuckets numExtraBuckets zero) ops =
      .ok table) : Counted table := by
  have start := construct_shape hash isPrimary valSize numBuckets numExtraBuckets zero positive
  have fresh : Counted (construct isPrimary valSize numBuckets numExtraBuckets zero) := by
    intro node locked
    have unlocked := construct_unlocked isPrimary valSize numBuckets numExtraBuckets zero node
    rw [lock_of_none_iff] at unlocked
    exact absurd locked ((not_locked_iff _).mpr unlocked)
  exact (ensures_elim (run_ops_ensures hash ops _ ⟨_, start⟩ valid Counted fresh
    fun _ _ _ => reaches_counted) run).2

/-- Between two calls nobody holds a bucket of a backup. -/
structure Idle (table : FixedTable V) : Prop where
  backup : table.isPrimary = false
  unlocked : ∀ node, isUnlocked (table.buckets node).timestamp

section Backups

variable {hash : UInt64 → UInt64} {table after : FixedTable V} {lists : Lists} {node : Nat}

theorem idle_of_frame (idle : Idle table) (frame : SameFrame table after) : Idle after := by
  refine ⟨frame.isPrimary.trans idle.backup, fun node => ?_⟩
  rw [(frame.locks node).2.2.1]
  exact idle.unlocked node

theorem primary_only_fails {Value : Type} {post : Value → Prop} {rest : Unit → Except Fault Value}
    (idle : Idle table) :
    Ensures LockFault post (check (table.isPrimary = true) .tableNotPrimary >>= rest) := by
  rw [check_fail _ _ (by rw [idle.backup]; exact Bool.false_ne_true)]
  exact (by decide : LockFault .tableNotPrimary)

structure HeldOnce (table : FixedTable V) (node : Nat) : Prop where
  backup : table.isPrimary = false
  count : (table.buckets node).numLocks = 1
  others : ∀ other, other ≠ node → isUnlocked (table.buckets other).timestamp

theorem held_of_frame (held : HeldOnce table node) (frame : SameFrame table after) :
    HeldOnce after node := by
  refine ⟨frame.isPrimary.trans held.backup, (frame.locks node).2.1.trans held.count, ?_⟩
  intro other different
  rw [(frame.locks other).2.2.1]
  exact held.others other different

theorem lock_held_once (idle : Idle table) (caller node : Nat) :
    Ensures LockFault (fun outcome : Bool × FixedTable V => HeldOnce outcome.2 node)
      (lockBucketPtr table caller node) := by
  unfold lockBucketPtr
  apply ensures_bind (check_ensures _ _ (by decide))
  intro _ _
  dsimp only
  rw [if_pos ((cleared_word_iff _).mpr (idle.unlocked node))]
  apply ensures_bind (check_ensures _ _ (by decide))
  intro _ _
  apply ensures_bind (check_ensures _ _ (by decide))
  intro _ _
  refine ⟨idle.backup, by rw [set_bucket_same], fun other different => ?_⟩
  rw [set_bucket_other _ _ _ _ different]
  exact idle.unlocked other

/-- Who may release a lock. -/
theorem unlock_holder (table : FixedTable V) (caller node : Nat) :
    Ensures LockFault (fun _ => caller ≠ kInvalidCallerId ∧ isLocked (table.buckets node).timestamp ∧
      (table.buckets node).lockerId = caller) (unlockBucketPtr table caller node) := by
  unfold unlockBucketPtr
  apply ensures_bind (check_ensures _ _ (by decide))
  intro _ callerOk
  apply ensures_bind (check_ensures _ _ (by decide))
  intro _ locked
  apply ensures_bind (check_ensures _ _ (by decide))
  intro _ holder
  apply ensures_bind (check_ensures _ _ (by decide))
  intro _ _
  split_ifs
  · exact ⟨callerOk, locked, holder⟩
  · exact ⟨callerOk, locked, holder⟩

theorem unlock_idle (held : HeldOnce table node) (caller : Nat) :
    Ensures LockFault Idle (unlockBucketPtr table caller node) := by
  unfold unlockBucketPtr
  apply ensures_bind (check_ensures _ _ (by decide))
  intro _ _
  apply ensures_bind (check_ensures _ _ (by decide))
  intro _ locked
  apply ensures_bind (check_ensures _ _ (by decide))
  intro _ _
  apply ensures_bind (check_ensures _ _ (by decide))
  intro _ _
  rw [if_pos held.count]
  refine ⟨held.backup, fun other => ?_⟩
  rw [set_bucket_apply]
  split_ifs with same
  · exact unlocked_after_locked locked
  · exact held.others other same

theorem set_idle (shape : Shape hash table lists none) (idle : Idle table) (caller : Nat)
    {key : UInt64} (valid : key ≠ kFtInvalidKey) (value : V) :
    Ensures LockFault (fun outcome => Idle outcome.2)
      (FixedTableModel.set table caller (hash key) key value) := by
  refine ensures_bind_ok (get_bucket_ok shape _) ?_
  refine ensures_bind (assert_holder_ensures table caller _) ?_
  intro _ _
  rcases place_item_spec shape valid value with
    ⟨located, slot, placed, _, run, _, _, frame⟩ | ⟨run, _, _⟩
  · refine ensures_bind_ok run ?_
    have stored := idle_of_frame idle frame
    simp only [unlockIfPrimary, stored.backup, Bool.false_eq_true, if_false]
    exact stored
  · refine ensures_bind_ok run ?_
    refine ensures_bind (unlock_holder table caller _) ?_
    intro _ holder
    exact absurd holder.2.1 ((not_locked_iff _).mpr (idle.unlocked _))

theorem set_spinlock_idle (shape : Shape hash table lists none) (idle : Idle table) (caller : Nat)
    {key : UInt64} (valid : key ≠ kFtInvalidKey) (value : V) :
    Ensures LockFault (fun outcome => Idle outcome.2)
      (setSpinlock table caller (hash key) key value) := by
  refine ensures_bind_ok (get_bucket_ok shape _) ?_
  refine ensures_bind (ensures_with_run (lock_held_once idle caller _)) ?_
  rintro ⟨success, locked⟩ ⟨held, run⟩
  have items := (ensures_elim (lock_bucket_items table caller _) run).1
  have home : homeOf hash locked key = calcBucketIndex table (hash key) :=
    calc_bucket_index_congr table locked items.numBuckets (hash key)
  have lockedShape := shape_of_same hash table locked lists none shape items.toSameShape
  cases success with
  | false => exact (by decide : LockFault .spin)
  | true =>
      rcases place_item_spec lockedShape valid value with
        ⟨located, slot, placed, _, run, _, _, frame⟩ | ⟨run, _, _⟩ <;> rw [home] at run
      · refine ensures_bind_ok run ?_
        exact ensures_bind (unlock_idle (held_of_frame held frame) caller) (fun _ after => after)
      · refine ensures_bind_ok run ?_
        exact ensures_bind (unlock_idle held caller) (fun _ after => after)

theorem del_idle (shape : Shape hash table lists none) (idle : Idle table) (caller : Nat)
    {key : UInt64} (valid : key ≠ kFtInvalidKey) :
    Ensures LockFault (fun outcome => Idle outcome.2) (del table caller (hash key) key) := by
  refine ensures_bind_ok (get_bucket_ok shape _) ?_
  refine ensures_bind (assert_holder_ensures table caller _) ?_
  intro _ _
  obtain ⟨outcome, run, meaning, _⟩ := lookup_spec shape valid
  refine ensures_bind_ok run ?_
  cases outcome with
  | none => exact (by decide : LockFault .keyMissing)
  | some place =>
      obtain ⟨filled, _, filledRun, _, _, frame⟩ := remove_item_spec shape valid meaning.1 meaning.2
      refine ensures_bind_ok filledRun ?_
      have removed := idle_of_frame idle frame
      simp only [unlockIfPrimary, removed.backup, Bool.false_eq_true, if_false]
      exact removed

theorem run_op_idle (shape : Shape hash table lists none) (idle : Idle table) (op : Op V)
    (valid : op.KeyValid) : Ensures LockFault (fun outcome => Idle outcome.2) (runOp hash table op) := by
  cases op with
  | get caller key =>
      have stopped : Ensures LockFault (fun _ => True) (FixedTableModel.get table caller (hash key) key) :=
        primary_only_fails idle
      exact ensures_bind stopped fun _ _ => idle
  | lockBktAndGet caller key | lockBktForIns caller key => exact primary_only_fails idle
  | lockBucketHash caller keyHash | unlockBucketHash caller keyHash =>
      exact ensures_map _ (primary_only_fails idle)
  | set caller key value =>
      exact ensures_map _ (set_idle shape idle caller (fun same => valid (congrArg some same)) value)
  | setSpinlock caller key value =>
      exact ensures_map _
        (set_spinlock_idle shape idle caller (fun same => valid (congrArg some same)) value)
  | del caller key =>
      exact ensures_map _ (del_idle shape idle caller fun same => valid (congrArg some same))

theorem run_ops_idle (hash : UInt64 → UInt64) (valSize numBuckets numExtraBuckets : Nat) (zero : V)
    (positive : 0 < numBuckets) (ops : List (Op V)) (valid : ∀ op ∈ ops, op.KeyValid)
    (table : FixedTable V)
    (run : runOps hash (construct false valSize numBuckets numExtraBuckets zero) ops = .ok table) :
    Idle table := by
  have fresh : Idle (construct false valSize numBuckets numExtraBuckets zero) :=
    ⟨rfl, fun node => (lock_of_none_iff _).mp
      (construct_unlocked false valSize numBuckets numExtraBuckets zero node)⟩
  have start := construct_shape hash false valSize numBuckets numExtraBuckets zero positive
  have kept : Ensures LockFault (fun current => (∃ lists, Shape hash current lists none) ∧ Idle current)
      (runOps hash (construct false valSize numBuckets numExtraBuckets zero) ops) := by
    apply ensures_foldlM ops _ ⟨⟨_, start⟩, fresh⟩
    rintro current ⟨⟨lists, shape⟩, idle⟩ op member
    apply ensures_map
    refine ensures_mono (ensures_with_run (run_op_reaches shape op (valid op member))) ?_
    rintro outcome ⟨reached, ran⟩
    have rests := ensures_elim (run_op_idle shape idle op (valid op member)) ran
    exact ⟨reached.1, rests⟩
  exact (ensures_elim kept run).2

end Backups

section Exits

variable {hash : UInt64 → UInt64} {table : FixedTable V} {caller node : Nat}

/-- The holder releases one lock. -/
theorem unlock_releases (counted : Counted table) (callerOk : caller ≠ kInvalidCallerId)
    (locked : isLocked (table.buckets node).timestamp)
    (holder : (table.buckets node).lockerId = caller) :
    ∃ bucket, unlockBucketPtr table caller node = .ok (setBucket table node bucket) ∧
      lockFields bucket = releasedFields (table.buckets node) ∧
      bucket.nextExtraBucketIndex = (table.buckets node).nextExtraBucketIndex ∧
      bucket.keyArr = (table.buckets node).keyArr ∧
      bucket.valArr = (table.buckets node).valArr := by
  simp only [unlockBucketPtr, check_pass _ _ callerOk, check_pass _ _ locked,
    check_pass _ _ holder, check_pass _ _ (counted node locked)]
  by_cases last : (table.buckets node).numLocks = 1
  · refine ⟨unlockedLast (table.buckets node), ?_, ?_, rfl, rfl, rfl⟩
    · rw [if_pos last]
      rfl
    · rw [releasedFields, if_pos last]
      rfl
  · refine ⟨unlockedOne (table.buckets node), ?_, ?_, rfl, rfl, rfl⟩
    · rw [if_neg last]
      rfl
    · rw [releasedFields, if_neg last]
      rfl

theorem assert_holder_ok (locked : isLocked (table.buckets node).timestamp)
    (holder : (table.buckets node).lockerId = caller) :
    assertHolder table caller node = .ok () := by
  unfold assertHolder
  split_ifs
  · rw [check_pass _ _ locked, check_pass _ _ holder]
    rfl
  · rfl

/-- An insertion for which `get_empty` finds no place leaves the table as it is. -/
theorem place_item_full {lists : Lists} (shape : Shape hash table lists none) {key : UInt64}
    (valid : key ≠ kFtInvalidKey) (value : V) (absent : contents hash table key = none)
    {grown : FixedTable V} (full : getEmpty table (homeOf hash table key) = .ok (none, grown)) :
    placeItem table (homeOf hash table key) key = .ok (none, table) := by
  obtain ⟨outcome, run, -, value_eq⟩ := lookup_spec shape valid
  rw [absent] at value_eq
  have missing : outcome = none := Option.map_eq_none_iff.mp value_eq.symm
  have direct : placeItem table (homeOf hash table key) key = .ok (none, grown) := by
    rw [placeItem, run, missing]
    exact full
  rcases place_item_spec shape valid value with ⟨located, slot, placed, -, found, -⟩ | ⟨same, -⟩
  · rw [direct] at found
    cases found
  · exact same

/-- The exit of `set` for want of room. -/
theorem set_full {lists : Lists} (shape : Shape hash table lists none) {key : UInt64}
    (valid : key ≠ kFtInvalidKey) (value : V) (absent : contents hash table key = none)
    {grown : FixedTable V} (full : getEmpty table (homeOf hash table key) = .ok (none, grown)) :
    FixedTableModel.set table caller (hash key) key value =
      (assertHolder table caller (homeOf hash table key) >>= fun _ =>
        unlockBucketPtr table caller (homeOf hash table key) >>= fun unlocked =>
          .ok (.kInsufficientSpaceIndex, unlocked)) := by
  have place := place_item_full shape valid value absent full
  unfold homeOf at *
  rw [FixedTableModel.set, get_bucket_ok shape]
  simp only [bind, Except.bind, place]

/-- The lock fields after a `set` that succeeded at a primary. -/
theorem set_success_fields {lists : Lists} (shape : Shape hash table lists none)
    (counted : Counted table) (primary : table.isPrimary = true) {key : UInt64}
    (valid : key ≠ kFtInvalidKey) {value : V} (callerOk : caller ≠ kInvalidCallerId)
    (locked : isLocked (table.buckets (homeOf hash table key)).timestamp)
    (holder : (table.buckets (homeOf hash table key)).lockerId = caller) {after : FixedTable V}
    (run : FixedTableModel.set table caller (hash key) key value = .ok (.kSuccess, after)) :
    lockFields (after.buckets (homeOf hash table key)) =
      releasedFields (table.buckets (homeOf hash table key)) := by
  rcases place_item_spec shape valid value with
    ⟨located, slot, placed, -, found, -, -, frame⟩ | ⟨none_, -⟩
  · have sameCount : Counted (setItem placed located slot key value) := by
      intro other
      obtain ⟨-, count, timestamp, -⟩ := frame.locks other
      rw [timestamp, count]
      exact counted other
    obtain ⟨sameOwner, count, timestamp, -⟩ := frame.locks (homeOf hash table key)
    obtain ⟨bucket, unlock, fields, -⟩ := unlock_releases sameCount callerOk
      (by rw [timestamp]; exact locked) (sameOwner.trans holder)
    have released : unlockIfPrimary (setItem placed located slot key value) caller
        (homeOf hash table key) = .ok (setBucket (setItem placed located slot key value)
          (homeOf hash table key) bucket) := by
      rw [unlockIfPrimary, frame.isPrimary, if_pos primary, unlock]
    unfold homeOf at *
    rw [FixedTableModel.set, get_bucket_ok shape] at run
    simp only [bind, Except.bind, assert_holder_ok locked holder, found, released, Except.ok.injEq,
      Prod.mk.injEq, true_and] at run
    rw [← run, set_bucket_same, fields, releasedFields, releasedFields, count, timestamp, sameOwner]
  · unfold homeOf at *
    rw [FixedTableModel.set, get_bucket_ok shape] at run
    simp only [bind, Except.bind, assert_holder_ok locked holder, none_] at run
    cases unlock : unlockBucketPtr table caller (calcBucketIndex table (hash key)) with
    | error fault =>
        rw [unlock] at run
        cases run
    | ok unlocked =>
        rw [unlock] at run
        cases run

def HoldsLock (table : FixedTable V) (caller node : Nat) : Prop :=
  caller ≠ kInvalidCallerId ∧ isLocked (table.buckets node).timestamp ∧
    (table.buckets node).lockerId = caller

instance (table : FixedTable V) (caller node : Nat) : Decidable (HoldsLock table caller node) :=
  inferInstanceAs (Decidable (_ ∧ _ ∧ _))

/-- The error is returned, only the lock fields of the bucket change, and they change
as for every `set` of this caller to this bucket that succeeds: one lock is released
at a primary, nothing happens at a backup. -/
def CleanError (hash : UInt64 → UInt64) (table : FixedTable V) (caller : Nat) (key : UInt64)
    (value : V) : Prop :=
  ∃ bucket,
    FixedTableModel.set table caller (hash key) key value =
      .ok (.kInsufficientSpaceIndex, setBucket table (homeOf hash table key) bucket) ∧
    contents hash (setBucket table (homeOf hash table key) bucket) = contents hash table ∧
    bucket.nextExtraBucketIndex =
      (table.buckets (homeOf hash table key)).nextExtraBucketIndex ∧
    bucket.keyArr = (table.buckets (homeOf hash table key)).keyArr ∧
    bucket.valArr = (table.buckets (homeOf hash table key)).valArr ∧
    lockFields bucket = (if table.isPrimary then releasedFields (table.buckets (homeOf hash table key))
      else lockFields (table.buckets (homeOf hash table key))) ∧
    ∀ other otherValue after, other ≠ kFtInvalidKey →
      homeOf hash table other = homeOf hash table key →
      FixedTableModel.set table caller (hash other) other otherValue = .ok (.kSuccess, after) →
        lockFields (after.buckets (homeOf hash table key)) = lockFields bucket

theorem holder_gets_clean_error {lists : Lists} (shape : Shape hash table lists none)
    (counted : Counted table) (primary : table.isPrimary = true) {key : UInt64}
    (valid : key ≠ kFtInvalidKey) (value : V) (absent : contents hash table key = none)
    {grown : FixedTable V} (full : getEmpty table (homeOf hash table key) = .ok (none, grown))
    (holds : HoldsLock table caller (homeOf hash table key)) :
    CleanError hash table caller key value := by
  obtain ⟨callerOk, locked, holder⟩ := holds
  obtain ⟨bucket, unlock, fields, links, keys, values⟩ :=
    unlock_releases counted callerOk locked holder
  refine ⟨bucket, ?_, ?_, links, keys, values, ?_, ?_⟩
  · rw [set_full shape valid value absent full, assert_holder_ok locked holder, unlock]
    rfl
  · exact contents_same_items shape (set_bucket_same_items table _ bucket links keys values)
  · rw [primary, if_pos rfl]
    exact fields
  · intro other otherValue after otherValid home success
    rw [← home] at locked holder fields ⊢
    rw [fields]
    exact set_success_fields shape counted primary otherValid callerOk locked holder success

/-- A `set` that returns from the exit has released a lock. -/
theorem clean_error_holder {lists : Lists} (shape : Shape hash table lists none) {key : UInt64}
    (valid : key ≠ kFtInvalidKey) {value : V} (absent : contents hash table key = none)
    {grown : FixedTable V} (full : getEmpty table (homeOf hash table key) = .ok (none, grown))
    (clean : CleanError hash table caller key value) :
    HoldsLock table caller (homeOf hash table key) := by
  obtain ⟨bucket, returned, _⟩ := clean
  have ensured : Ensures LockFault (fun _ => HoldsLock table caller (homeOf hash table key))
      (FixedTableModel.set table caller (hash key) key value) := by
    rw [set_full shape valid value absent full]
    refine ensures_bind (assert_holder_ensures table caller _) fun _ _ => ?_
    exact ensures_bind (unlock_holder table caller _) fun _ holds => holds
  have holds := ensures_elim ensured returned
  exact holds

end Exits

/-- In every reachable table of either role, a `set` of an absent key that finds no
room is a clean error if and only if the table is a primary and the caller holds the
lock of the bucket. -/
theorem set_without_room_clean_iff (hash : UInt64 → UInt64) (isPrimary : Bool)
    (valSize numBuckets numExtraBuckets : Nat) (zero : V) (positive : 0 < numBuckets)
    (ops : List (Op V)) (validOps : ∀ op ∈ ops, op.KeyValid) (table : FixedTable V)
    (run : runOps hash (construct isPrimary valSize numBuckets numExtraBuckets zero) ops = .ok table)
    (caller : Nat) (key : UInt64) (valid : key ≠ kFtInvalidKey) (value : V)
    (absent : contents hash table key = none) (grown : FixedTable V)
    (full : getEmpty table (homeOf hash table key) = .ok (none, grown)) :
    CleanError hash table caller key value ↔
      isPrimary = true ∧ HoldsLock table caller (homeOf hash table key) := by
  have start := construct_shape hash isPrimary valSize numBuckets numExtraBuckets zero positive
  obtain ⟨⟨lists, shape⟩, -⟩ := ensures_elim (run_ops_ensures hash ops _ ⟨_, start⟩ validOps
    (fun _ => True) trivial fun _ _ _ _ _ => trivial) run
  constructor
  · intro clean
    have holds := clean_error_holder shape valid absent full clean
    refine ⟨?_, holds⟩
    cases isPrimary with
    | true => rfl
    | false =>
        have idle := run_ops_idle hash valSize numBuckets numExtraBuckets zero positive ops validOps
          table run
        exact absurd holds.2.1 ((not_locked_iff _).mpr (idle.unlocked _))
  · rintro ⟨rfl, holds⟩
    have counted := run_ops_counted hash true valSize numBuckets numExtraBuckets zero positive ops
      validOps table run
    obtain ⟨-, primary, -⟩ := run_ops_word hash valSize numBuckets numExtraBuckets zero positive ops
      validOps table run
    exact holder_gets_clean_error shape counted primary valid value absent full holds

def fillBucket : List (Op Nat) :=
  (List.range kBucketCap).map fun i => .setSpinlock 3 (UInt64.ofNat i) i

def fullRun : List (Op Nat) := fillBucket ++ [.lockBucketHash 3 7]

theorem full_run_facts :
    ∃ table, runOps id (construct true 8 1 0 (0 : Nat)) fullRun = .ok table ∧
      isLocked (table.buckets (homeOf id table 7)).timestamp ∧
      (table.buckets (homeOf id table 7)).lockerId = 3 ∧ contents id table 7 = none ∧
      Ensures (fun _ => False) (fun found => found.1 = none)
        (getEmpty table (homeOf id table 7)) := by
  apply ensures_returns
  decide +kernel

theorem full_run_valid : ∀ op ∈ fullRun, op.KeyValid := by
  simp [fullRun, fillBucket, kBucketCap, List.range, List.range.loop, Op.KeyValid, Op.key,
    kFtInvalidKey]

theorem set_without_room_clean_iff_full_bucket :
    ∃ table bucket, runOps id (construct true 8 1 0 (0 : Nat)) fullRun = .ok table ∧
      FixedTableModel.set table 3 (id 7) 7 70 =
        .ok (.kInsufficientSpaceIndex, setBucket table (homeOf id table 7) bucket) ∧
      lockFields bucket = releasedFields (table.buckets (homeOf id table 7)) ∧
      ¬ CleanError id table 4 7 70 := by
  obtain ⟨table, run, locked, holder, absent, search⟩ := full_run_facts
  obtain ⟨⟨place, grown⟩, found, none_⟩ := ensures_returns search
  rw [show place = none from none_] at found
  have clean : ∀ caller, CleanError id table caller 7 70 ↔ _ := fun caller =>
    set_without_room_clean_iff id true 8 1 0 0 Nat.one_pos fullRun full_run_valid table run caller 7
      (by decide) 70 absent grown found
  obtain ⟨bucket, returned, -, -, -, -, fields, -⟩ := (clean 3).mpr ⟨rfl, by decide, locked, holder⟩
  obtain ⟨-, primary, -⟩ := run_ops_word id 8 1 0 (0 : Nat) Nat.one_pos fullRun full_run_valid table
    run
  rw [primary, if_pos rfl] at fields
  refine ⟨table, bucket, run, returned, fields, fun other => ?_⟩
  have same := ((clean 4).mp other).2.2.2
  rw [holder] at same
  cases same

/-- At a backup, a `set` of an eighth item stops at an assertion. -/
theorem set_without_room_stops_at_backup :
    Ensures (fun _ => False) (fun table : FixedTable Nat =>
      contents id table 7 = none ∧
        Ensures (fun _ => False) (fun found => found.1 = none)
          (getEmpty table (homeOf id table 7)) ∧
        Ensures (fun fault => fault = .bucketNotLocked) (fun _ => False)
          (FixedTableModel.set table 3 7 7 70))
      (runOps id (construct false 8 1 0 (0 : Nat)) fillBucket) := by
  decide +kernel

end Fasst.FixedTableSpace

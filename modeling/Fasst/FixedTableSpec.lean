import Fasst.FixedTableOps

/-!
# The abstract table

A table stands for a finite map, an owner and a count for each bucket, and a
version for each bucket. `specOp` is what each operation does to such a state
and what it answers; `run_op_refines` shows that the code does exactly this
under the lock discipline of its callers. The one freedom is whether a new item
finds room, which depends on the layout of the chains.
-/

namespace Fasst.FixedTableSpec

open Fasst.FixedTableModel Fasst.FixedTableShape Fasst.FixedTableEdits Fasst.FixedTableLocks
open Fasst.FixedTableStore Fasst.FixedTableOps

set_option autoImplicit false

variable {V : Type}

structure MapState (V : Type) where
  isPrimary : Bool
  numBuckets : Nat
  map : UInt64 → Option V
  lock : Nat → Option (Nat × Nat)
  version : Nat → Nat

namespace MapState

def bucketOf (state : MapState V) (keyHash : UInt64) : Nat :=
  keyHash.toNat % 2 ^ 32 &&& (state.numBuckets - 1)

/-- The timestamp word that a reader of the bucket sees. -/
def word (state : MapState V) (bucket : Nat) : UInt64 :=
  UInt64.ofNat (5 * 2 ^ 61 + 2 * state.version bucket + (if (state.lock bucket).isSome then 1 else 0))

def acquire (state : MapState V) (caller bucket : Nat) : MapState V :=
  match state.lock bucket with
  | none => { state with lock := Function.update state.lock bucket (some (caller, 1)) }
  | some (owner, count) =>
      { state with lock := Function.update state.lock bucket (some (owner, count + 1)) }

def release (state : MapState V) (bucket : Nat) : MapState V :=
  match state.lock bucket with
  | some (owner, count + 2) =>
      { state with lock := Function.update state.lock bucket (some (owner, count + 1)) }
  | _ =>
      { state with
        lock := Function.update state.lock bucket none
        version := Function.update state.version bucket (state.version bucket + 1) }

def store (state : MapState V) (key : UInt64) (entry : Option V) : MapState V :=
  { state with map := Function.update state.map key entry }

def releaseIfPrimary (state : MapState V) (bucket : Nat) : MapState V :=
  if state.isPrimary then state.release bucket else state

def HeldBy (state : MapState V) (caller bucket : Nat) : Prop :=
  ∃ count, state.lock bucket = some (caller, count)

def HeldByOther (state : MapState V) (caller bucket : Nat) : Prop :=
  ∃ owner count, state.lock bucket = some (owner, count) ∧ owner ≠ caller

instance (state : MapState V) (caller bucket : Nat) : Decidable (state.HeldByOther caller bucket) :=
  match held : state.lock bucket with
  | none => isFalse (by rintro ⟨owner, count, same, _⟩; rw [held] at same; cases same)
  | some (owner, count) =>
      if own : owner = caller then
        isFalse (by
          rintro ⟨other, number, same, different⟩
          rw [held] at same
          cases same
          exact different own)
      else isTrue ⟨owner, count, held, own⟩

end MapState

/-- What an operation answers and leaves behind; `room` is read only when a new
key is to be stored. -/
def specOp (hash : UInt64 → UInt64) (state : MapState V) (room : Bool) :
    Op V → ReadOut V × MapState V
  | .get caller key =>
      let bucket := state.bucketOf (hash key)
      (getReply caller (state.word bucket) (state.lock bucket) (state.map key), state)
  | .lockBktAndGet caller key =>
      let bucket := state.bucketOf (hash key)
      let locked := state.acquire caller bucket
      if state.HeldByOther caller bucket then (⟨.kLocked, none, none⟩, state)
      else match state.map key with
        | some value => (⟨.kSuccess, some (locked.word bucket), some value⟩, locked)
        | none => (⟨.kNotFound, none, none⟩, locked.release bucket)
  | .lockBktForIns caller key =>
      let bucket := state.bucketOf (hash key)
      let locked := state.acquire caller bucket
      if state.HeldByOther caller bucket then (⟨.kLocked, none, none⟩, state)
      else match state.map key with
        | none => (⟨.kSuccess, some (locked.word bucket), none⟩, locked)
        | some _ => (⟨.kExists, none, none⟩, locked.release bucket)
  | .lockBucketHash caller keyHash =>
      let bucket := state.bucketOf keyHash
      if state.HeldByOther caller bucket then (⟨.kLocked, none, none⟩, state)
      else (⟨.kSuccess, none, none⟩, state.acquire caller bucket)
  | .unlockBucketHash _ keyHash =>
      (⟨.kSuccess, none, none⟩, state.release (state.bucketOf keyHash))
  | .set _ key value =>
      let bucket := state.bucketOf (hash key)
      if state.map key = none ∧ room = false then
        (⟨.kInsufficientSpaceIndex, none, none⟩, state.release bucket)
      else (⟨.kSuccess, none, none⟩, (state.store key (some value)).releaseIfPrimary bucket)
  | .setSpinlock caller key value =>
      let bucket := state.bucketOf (hash key)
      let locked := state.acquire caller bucket
      if state.map key = none ∧ room = false then
        (⟨.kInsufficientSpaceIndex, none, none⟩, locked.release bucket)
      else (⟨.kSuccess, none, none⟩, (locked.store key (some value)).release bucket)
  | .del _ key =>
      let bucket := state.bucketOf (hash key)
      (⟨.kSuccess, none, none⟩, (state.store key none).releaseIfPrimary bucket)

def abstractOf (hash : UInt64 → UInt64) (table : FixedTable V) : MapState V where
  isPrimary := table.isPrimary
  numBuckets := table.numBuckets
  map := contents hash table
  lock bucket := lockOf (table.buckets bucket)
  version bucket := (table.buckets bucket).finalUnlocks

structure TableOk (hash : UInt64 → UInt64) (table : FixedTable V) : Prop where
  shaped : ∃ lists, Shape hash table lists none
  locks : ∀ bucket, LockWf (table.buckets bucket)
  words : ∀ bucket, WordOk (table.buckets bucket)

section Steps

variable {hash : UInt64 → UInt64} {table : FixedTable V}

theorem word_abstract_of (ok : TableOk hash table) (bucket : Nat) :
    (abstractOf hash table).word bucket = (table.buckets bucket).timestamp := by
  have word := ok.words bucket
  rw [WordOk] at word
  apply UInt64.toNat_inj.mp
  rw [word, MapState.word, abstractOf]
  simp only [lockOf, UInt64.toNat_ofNat']
  congr 2
  split_ifs <;> simp_all

theorem same_locks_lock_of {left right : Bucket V} (same : SameLocks left right) :
    lockOf right = lockOf left := by
  obtain ⟨sameOwner, sameCount, sameTimestamp, _⟩ := same
  rw [lockOf, lockOf, sameTimestamp, sameOwner, sameCount]

/-- A change of the lock fields of one bucket. -/
theorem set_lock_refines (ok : TableOk hash table) (node : Nat) (bucket : Bucket V)
    (links : bucket.nextExtraBucketIndex = (table.buckets node).nextExtraBucketIndex)
    (keys : bucket.keyArr = (table.buckets node).keyArr)
    (values : bucket.valArr = (table.buckets node).valArr)
    (lockWf : LockWf bucket) (word : WordOk bucket) :
    TableOk hash (setBucket table node bucket) ∧
      abstractOf hash (setBucket table node bucket) =
        { abstractOf hash table with
          lock := Function.update (abstractOf hash table).lock node (lockOf bucket)
          version := Function.update (abstractOf hash table).version node bucket.finalUnlocks } := by
  obtain ⟨lists, shape⟩ := ok.shaped
  have items := set_bucket_same_items table node bucket links keys values
  refine ⟨⟨⟨lists, shape_of_same hash table _ lists none shape items.toSameShape⟩, ?_, ?_⟩, ?_⟩
  · intro other
    rw [set_bucket_apply]
    split_ifs
    · exact lockWf
    · exact ok.locks other
  · intro other
    rw [set_bucket_apply]
    split_ifs
    · exact word
    · exact ok.words other
  · simp only [abstractOf, contents_same_items shape items, set_bucket_is_primary,
      set_bucket_num_buckets, MapState.mk.injEq, true_and]
    constructor <;> funext other <;> rw [set_bucket_apply, Function.update_apply] <;>
      split_ifs <;> rfl

theorem lock_refused {caller bucket : Nat} (callerOk : CallerOk caller)
    (held : (abstractOf hash table).HeldByOther caller bucket) :
    lockBucketPtr table caller bucket = .ok (false, table) := by
  obtain ⟨owner, count, lock, other⟩ := held
  exact lock_bucket_other table caller bucket owner count callerOk lock other

theorem lock_refines (ok : TableOk hash table) {caller bucket : Nat} (callerOk : CallerOk caller)
    (free : ¬ (abstractOf hash table).HeldByOther caller bucket)
    (few : ∀ count, (abstractOf hash table).lock bucket = some (caller, count) →
      count < kMaxNumLocks) :
    ∃ after, lockBucketPtr table caller bucket = .ok (true, after) ∧ TableOk hash after ∧
      abstractOf hash after = (abstractOf hash table).acquire caller bucket := by
  cases held : (abstractOf hash table).lock bucket with
  | none =>
      have unlocked : lockOf (table.buckets bucket) = none := held
      refine ⟨_, lock_bucket_free table caller bucket callerOk (ok.locks bucket) unlocked, ?_⟩
      obtain ⟨after, same⟩ := set_lock_refines ok bucket (lockedOnce (table.buckets bucket) caller)
        rfl rfl rfl (lock_wf_locked_once _ caller callerOk unlocked)
        (word_ok_locked_once _ caller (ok.words bucket) unlocked)
      refine ⟨after, ?_⟩
      rw [same, MapState.acquire, held, lock_of_locked_once _ caller callerOk unlocked]
      simp only [MapState.mk.injEq, true_and]
      exact Function.update_eq_self bucket _
  | some pair =>
      obtain ⟨owner, count⟩ := pair
      have own : owner = caller := by
        by_contra other
        exact free ⟨owner, count, held, other⟩
      subst owner
      have locked : lockOf (table.buckets bucket) = some (caller, count) := held
      have room := few count held
      refine ⟨_, lock_bucket_own table caller bucket count (ok.locks bucket) locked room, ?_⟩
      obtain ⟨after, same⟩ := set_lock_refines ok bucket (lockedAgain (table.buckets bucket))
        rfl rfl rfl (lock_wf_locked_again _ caller count (ok.locks bucket) locked room)
        (ok.words bucket)
      refine ⟨after, ?_⟩
      rw [same, MapState.acquire, held, lock_of_locked_again _ caller count locked room]
      simp only [MapState.mk.injEq, true_and]
      exact Function.update_eq_self bucket _

theorem unlock_refines (ok : TableOk hash table) (caller bucket : Nat)
    (held : (abstractOf hash table).HeldBy caller bucket) :
    ∃ after, unlockBucketPtr table caller bucket = .ok after ∧ TableOk hash after ∧
      abstractOf hash after = (abstractOf hash table).release bucket := by
  obtain ⟨count, lock⟩ := held
  have locked : lockOf (table.buckets bucket) = some (caller, count) := lock
  have wf := ok.locks bucket
  rw [LockWf, locked] at wf
  obtain ⟨_, positive, _⟩ := wf
  obtain ⟨rest, sameCount⟩ := Nat.exists_eq_succ_of_ne_zero positive.ne'
  subst count
  cases rest with
  | zero =>
      refine ⟨_, unlock_bucket_last table caller bucket (ok.locks bucket) locked, ?_⟩
      obtain ⟨after, same⟩ := set_lock_refines ok bucket (unlockedLast (table.buckets bucket))
        rfl rfl rfl (lock_wf_unlocked_last _ caller 1 locked)
        (word_ok_unlocked_last _ caller 1 (ok.words bucket) locked)
      refine ⟨after, ?_⟩
      rw [same, MapState.release, lock, lock_of_unlocked_last _ caller 1 locked]
      rfl
  | succ more =>
      refine ⟨_, unlock_bucket_one table caller bucket (more + 1) (ok.locks bucket) locked
        (Nat.succ_pos more), ?_⟩
      obtain ⟨after, same⟩ := set_lock_refines ok bucket (unlockedOne (table.buckets bucket))
        rfl rfl rfl
        (lock_wf_unlocked_one _ caller (more + 1) (ok.locks bucket) locked (Nat.succ_pos more))
        (ok.words bucket)
      refine ⟨after, ?_⟩
      rw [same, MapState.release, lock, lock_of_unlocked_one _ caller (more + 1) locked]
      simp only [MapState.mk.injEq, true_and]
      exact Function.update_eq_self bucket _

/-- A change of the items under unchanged lock fields. -/
theorem edit_refines (ok : TableOk hash table) {after : FixedTable V} {key : UInt64}
    {entry : Option V} (shaped : ∃ lists, Shape hash after lists none)
    (frame : SameFrame table after)
    (updated : contents hash after = Function.update (contents hash table) key entry) :
    TableOk hash after ∧ abstractOf hash after = (abstractOf hash table).store key entry := by
  have lockWf : ∀ bucket, LockWf (after.buckets bucket) := by
    intro bucket
    have same := frame.locks bucket
    have wf := ok.locks bucket
    rw [LockWf, same_locks_lock_of same, same.1, same.2.1]
    exact wf
  have words : ∀ bucket, WordOk (after.buckets bucket) := by
    intro bucket
    obtain ⟨_, _, sameTimestamp, sameCount⟩ := frame.locks bucket
    rw [WordOk, sameTimestamp, sameCount]
    exact ok.words bucket
  refine ⟨⟨shaped, lockWf, words⟩, ?_⟩
  simp only [abstractOf, MapState.store, MapState.mk.injEq]
  exact ⟨frame.isPrimary, frame.numBuckets, updated,
    funext fun bucket => same_locks_lock_of (frame.locks bucket),
    funext fun bucket => (frame.locks bucket).2.2.2⟩

end Steps

/-- The discipline of the callers: reads and lock calls go to primaries, at a
primary only the holder of the bucket stores, removes or unlocks, a key that is
removed is present, and nobody asks for a 32nd lock. -/
def Legal (hash : UInt64 → UInt64) (state : MapState V) (op : Op V) : Prop :=
  CallerOk op.caller ∧ op.KeyValid ∧
    (∀ count, state.lock (state.bucketOf (op.keyHash hash)) = some (op.caller, count) →
      count < kMaxNumLocks) ∧
    match op with
    | .get _ _ | .lockBktAndGet _ _ | .lockBktForIns _ _ | .lockBucketHash _ _ =>
        state.isPrimary = true
    | .unlockBucketHash caller keyHash =>
        state.isPrimary = true ∧ state.HeldBy caller (state.bucketOf keyHash)
    | .set caller key _ =>
        state.isPrimary = true → state.HeldBy caller (state.bucketOf (hash key))
    | .setSpinlock caller key _ => ¬ state.HeldByOther caller (state.bucketOf (hash key))
    | .del caller key =>
        (state.isPrimary = true → state.HeldBy caller (state.bucketOf (hash key))) ∧
          state.map key ≠ none

/-- The call returns what the specification says and leaves a table that stands
for the specified state. -/
def Refines (hash : UInt64 → UInt64) (table : FixedTable V) (op : Op V) (room : Bool) : Prop :=
  ∃ after, runOp hash table op = .ok ((specOp hash (abstractOf hash table) room op).1, after) ∧
    TableOk hash after ∧ abstractOf hash after = (specOp hash (abstractOf hash table) room op).2

section Operations

variable {hash : UInt64 → UInt64} {table : FixedTable V} {key : UInt64} {caller : Nat}

theorem acquire_same (state : MapState V) (caller bucket : Nat) :
    (state.acquire caller bucket).map = state.map ∧
      (state.acquire caller bucket).numBuckets = state.numBuckets ∧
      (state.acquire caller bucket).isPrimary = state.isPrimary := by
  unfold MapState.acquire
  split <;> exact ⟨rfl, rfl, rfl⟩

theorem acquire_held (state : MapState V) (caller bucket : Nat)
    (free : ¬ state.HeldByOther caller bucket) :
    (state.acquire caller bucket).HeldBy caller bucket := by
  unfold MapState.acquire
  cases held : state.lock bucket with
  | none => exact ⟨1, by simp⟩
  | some pair =>
      obtain ⟨owner, count⟩ := pair
      have own : owner = caller := by
        by_contra other
        exact free ⟨owner, count, held, other⟩
      exact ⟨count + 1, by simp [own]⟩

theorem get_refines (ok : TableOk hash table) (valid : key ≠ kFtInvalidKey)
    (primary : table.isPrimary = true) (room : Bool) :
    Refines hash table (.get caller key) room := by
  obtain ⟨lists, shape⟩ := ok.shaped
  refine ⟨table, ?_, ok, rfl⟩
  rw [runOp, get_spec shape caller valid primary, ← word_abstract_of ok]
  rfl

/-- The lock and the search that both locking reads begin with. -/
theorem lock_then_find (ok : TableOk hash table) (callerOk : CallerOk caller)
    (valid : key ≠ kFtInvalidKey)
    (free : ¬ (abstractOf hash table).HeldByOther caller (homeOf hash table key))
    (few : ∀ count, (abstractOf hash table).lock (homeOf hash table key) = some (caller, count) →
      count < kMaxNumLocks) :
    ∃ locked place, lockBucketPtr table caller (homeOf hash table key) = .ok (true, locked) ∧
      TableOk hash locked ∧
      abstractOf hash locked = (abstractOf hash table).acquire caller (homeOf hash table key) ∧
      findItemIndex locked (homeOf hash table key) key = .ok place ∧
      contents hash table key =
        place.map (fun located => (locked.buckets located.1).valArr located.2) := by
  obtain ⟨locked, run, lockedOk, same⟩ := lock_refines ok callerOk free few
  obtain ⟨lists, shape⟩ := lockedOk.shaped
  obtain ⟨place, find, _, entry⟩ := lookup_spec shape valid
  obtain ⟨sameMap, sameSize, _⟩ :=
    acquire_same (abstractOf hash table) caller (homeOf hash table key)
  have sizes : locked.numBuckets = table.numBuckets := by
    rw [← same] at sameSize
    exact sameSize
  have home : homeOf hash locked key = homeOf hash table key :=
    calc_bucket_index_congr table locked sizes (hash key)
  have contentsSame : contents hash locked = contents hash table := by
    rw [← same] at sameMap
    exact sameMap
  rw [home] at find
  rw [contentsSame] at entry
  exact ⟨locked, place, run, lockedOk, same, find, entry⟩

/-- What the two locking reads answer and leave behind. -/
def lockIf (state : MapState V) (present : Bool) (missed : Result) (caller bucket : Nat)
    (key : UInt64) : ReadOut V × MapState V :=
  let locked := state.acquire caller bucket
  if state.HeldByOther caller bucket then (⟨.kLocked, none, none⟩, state)
  else if (state.map key).isSome = present then
    (⟨.kSuccess, some (locked.word bucket), state.map key⟩, locked)
  else (⟨missed, none, none⟩, locked.release bucket)

theorem lock_bkt_if_refines (ok : TableOk hash table) (callerOk : CallerOk caller)
    (valid : key ≠ kFtInvalidKey) (primary : table.isPrimary = true)
    (few : ∀ count, (abstractOf hash table).lock (homeOf hash table key) = some (caller, count) →
      count < kMaxNumLocks) (present : Bool) (missed : Result) :
    let spec := lockIf (abstractOf hash table) present missed caller (homeOf hash table key) key
    ∃ after, lockBktIf present missed table caller (hash key) key = .ok (spec.1, after) ∧
      TableOk hash after ∧ abstractOf hash after = spec.2 := by
  obtain ⟨lists, shape⟩ := ok.shaped
  have found := get_bucket_ok shape (hash key)
  dsimp only
  by_cases other : (abstractOf hash table).HeldByOther caller (homeOf hash table key)
  · have refused := lock_refused callerOk other
    rw [homeOf] at refused
    rw [lockIf, if_pos other]
    refine ⟨table, ?_, ok, rfl⟩
    simp [lockBktIf, check_pass _ _ primary, found, refused, bind, Except.bind]
  · obtain ⟨locked, place, run, lockedOk, same, find, hit⟩ :=
      lock_then_find ok callerOk valid other few
    have word := word_abstract_of lockedOk (homeOf hash table key)
    obtain ⟨unlocked, unlock, unlockedOk, unlockedSame⟩ := unlock_refines lockedOk _ _
      (by rw [same]; exact acquire_held _ caller _ other)
    rw [same] at word unlockedSame
    have there : ((abstractOf hash table).map key).isSome = place.isSome := by
      rw [show (abstractOf hash table).map key = _ from hit, Option.isSome_map]
    rw [lockIf, if_neg other, there]
    rw [homeOf] at run find unlock
    by_cases wanted : place.isSome = present
    · rw [if_pos wanted]
      refine ⟨locked, ?_, lockedOk, same⟩
      rw [word, show (abstractOf hash table).map key = _ from hit]
      simp [lockBktIf, check_pass _ _ primary, found, run, find, wanted, homeOf, bind, Except.bind]
    · rw [if_neg wanted]
      refine ⟨unlocked, ?_, unlockedOk, unlockedSame⟩
      simp [lockBktIf, check_pass _ _ primary, found, run, find, wanted, unlock, bind, Except.bind]

theorem lock_bkt_and_get_refines (ok : TableOk hash table) (callerOk : CallerOk caller)
    (valid : key ≠ kFtInvalidKey) (primary : table.isPrimary = true)
    (few : ∀ count, (abstractOf hash table).lock (homeOf hash table key) = some (caller, count) →
      count < kMaxNumLocks) (room : Bool) :
    Refines hash table (.lockBktAndGet caller key) room := by
  have spec : specOp hash (abstractOf hash table) room (.lockBktAndGet caller key) =
      lockIf (abstractOf hash table) true .kNotFound caller (homeOf hash table key) key := by
    rw [specOp, lockIf]
    cases (abstractOf hash table).map key <;> rfl
  rw [Refines, spec]
  exact lock_bkt_if_refines ok callerOk valid primary few true .kNotFound

theorem lock_bkt_for_ins_refines (ok : TableOk hash table) (callerOk : CallerOk caller)
    (valid : key ≠ kFtInvalidKey) (primary : table.isPrimary = true)
    (few : ∀ count, (abstractOf hash table).lock (homeOf hash table key) = some (caller, count) →
      count < kMaxNumLocks) (room : Bool) :
    Refines hash table (.lockBktForIns caller key) room := by
  have spec : specOp hash (abstractOf hash table) room (.lockBktForIns caller key) =
      lockIf (abstractOf hash table) false .kExists caller (homeOf hash table key) key := by
    rw [specOp, lockIf]
    cases (abstractOf hash table).map key <;> rfl
  rw [Refines, spec]
  exact lock_bkt_if_refines ok callerOk valid primary few false .kExists

theorem lock_bucket_hash_refines (ok : TableOk hash table) (callerOk : CallerOk caller)
    (primary : table.isPrimary = true) (keyHash : UInt64)
    (few : ∀ count, (abstractOf hash table).lock ((abstractOf hash table).bucketOf keyHash) =
      some (caller, count) → count < kMaxNumLocks) (room : Bool) :
    Refines hash table (.lockBucketHash caller keyHash) room := by
  obtain ⟨lists, shape⟩ := ok.shaped
  have found := get_bucket_ok shape keyHash
  unfold Refines
  by_cases other : (abstractOf hash table).HeldByOther caller
      ((abstractOf hash table).bucketOf keyHash)
  · have refused : lockBucketPtr table caller (calcBucketIndex table keyHash) = _ :=
      lock_refused callerOk other
    rw [specOp, if_pos other]
    refine ⟨table, ?_, ok, rfl⟩
    simp [runOp, lockBucketHash, check_pass _ _ primary, found, refused, bind, Except.bind,
      plainReply]
  · obtain ⟨locked, run, lockedOk, same⟩ := lock_refines ok callerOk other few
    have run' : lockBucketPtr table caller (calcBucketIndex table keyHash) = _ := run
    rw [specOp, if_neg other]
    refine ⟨locked, ?_, lockedOk, same⟩
    simp [runOp, lockBucketHash, check_pass _ _ primary, found, run', bind, Except.bind, plainReply]

theorem unlock_bucket_hash_refines (ok : TableOk hash table) (primary : table.isPrimary = true)
    (keyHash : UInt64)
    (held : (abstractOf hash table).HeldBy caller ((abstractOf hash table).bucketOf keyHash))
    (room : Bool) : Refines hash table (.unlockBucketHash caller keyHash) room := by
  obtain ⟨lists, shape⟩ := ok.shaped
  have found := get_bucket_ok shape keyHash
  obtain ⟨unlocked, run, unlockedOk, same⟩ := unlock_refines ok _ _ held
  have run' : unlockBucketPtr table caller (calcBucketIndex table keyHash) = _ := run
  refine ⟨unlocked, ?_, unlockedOk, same⟩
  simp [runOp, specOp, unlockBucketHash, check_pass _ _ primary, found, run', bind, Except.bind,
    plainReply]

theorem assert_holder_pass (ok : table.isPrimary = true →
      (abstractOf hash table).HeldBy caller (homeOf hash table key)) :
    assertHolder table caller (calcBucketIndex table (hash key)) = .ok () := by
  unfold assertHolder
  split_ifs with primary
  · obtain ⟨count, held⟩ := ok primary
    obtain ⟨locked, owner, _⟩ := lock_of_some _ caller count held
    rw [homeOf] at locked owner
    rw [check_pass _ _ locked, check_pass _ _ owner]
    rfl
  · rfl

/-- The release at the end of `set` and `del`, after the items were edited. -/
theorem unlock_if_primary_refines (ok : TableOk hash table) (caller bucket : Nat)
    (held : table.isPrimary = true → (abstractOf hash table).HeldBy caller bucket) :
    ∃ after, unlockIfPrimary table caller bucket = .ok after ∧ TableOk hash after ∧
      abstractOf hash after = (abstractOf hash table).releaseIfPrimary bucket := by
  unfold unlockIfPrimary MapState.releaseIfPrimary
  by_cases primary : table.isPrimary = true
  · rw [if_pos primary, if_pos (show (abstractOf hash table).isPrimary = true from primary)]
    exact unlock_refines ok _ _ (held primary)
  · rw [if_neg primary, if_neg (show ¬ (abstractOf hash table).isPrimary = true from primary)]
    exact ⟨table, rfl, ok, rfl⟩

/-- `set`, with and without room. At a backup the exit without room unlocks a
bucket that nobody has locked. -/
theorem set_refines (ok : TableOk hash table) (callerOk : CallerOk caller)
    (valid : key ≠ kFtInvalidKey) (value : V)
    (held : table.isPrimary = true →
      (abstractOf hash table).HeldBy caller (homeOf hash table key)) :
    Refines hash table (.set caller key value) true ∨
      contents hash table key = none ∧ Exhausted hash table key ∧
        (if table.isPrimary then Refines hash table (.set caller key value) false
        else (abstractOf hash table).lock (homeOf hash table key) = none →
          runOp hash table (.set caller key value) = .error .bucketNotLocked) := by
  obtain ⟨lists, shape⟩ := ok.shaped
  have found := get_bucket_ok shape (hash key)
  have passed := assert_holder_pass held
  rcases place_item_spec shape valid value with
    ⟨located, slot, placed, newLists, place, stored, updated, frame⟩ | ⟨place, missing, exhausted⟩
  · left
    rw [homeOf] at place
    obtain ⟨storedOk, same⟩ := edit_refines ok ⟨newLists, stored⟩ frame updated
    obtain ⟨after, run, afterOk, afterSame⟩ := unlock_if_primary_refines storedOk caller
      (homeOf hash table key) (by
        intro primary
        rw [same]
        exact held (by rw [← frame.isPrimary]; exact primary))
    rw [homeOf] at run
    refine ⟨after, ?_, afterOk, ?_⟩
    · simp [runOp, specOp, FixedTableModel.set, found, passed, place, run, bind, Except.bind, plainReply]
    · rw [afterSame, same, specOp, if_neg (by simp)]
      rfl
  · right
    refine ⟨missing, exhausted, ?_⟩
    have absent : (abstractOf hash table).map key = none := missing
    rw [homeOf] at place
    split_ifs with primary
    · obtain ⟨after, run, afterOk, afterSame⟩ := unlock_refines ok _ _ (held primary)
      rw [homeOf] at run
      refine ⟨after, ?_, afterOk, ?_⟩
      · simp [runOp, specOp, absent, FixedTableModel.set, found, passed, place, run, bind,
          Except.bind, plainReply]
      · rw [afterSame, specOp, if_pos ⟨absent, rfl⟩]
        rfl
    · intro free
      have unlocked : ¬ isLocked (table.buckets (calcBucketIndex table (hash key))).timestamp :=
        (not_locked_iff _).mpr ((lock_of_none_iff _).mp free)
      have fails : unlockBucketPtr table caller (calcBucketIndex table (hash key)) =
          .error .bucketNotLocked := by
        simp only [unlockBucketPtr, check_pass _ _ callerOk.2, check_fail _ _ unlocked]
        rfl
      simp [runOp, FixedTableModel.set, found, passed, place, fails, bind, Except.bind]

theorem set_spinlock_refines (ok : TableOk hash table) (callerOk : CallerOk caller)
    (valid : key ≠ kFtInvalidKey) (value : V)
    (free : ¬ (abstractOf hash table).HeldByOther caller (homeOf hash table key))
    (few : ∀ count, (abstractOf hash table).lock (homeOf hash table key) = some (caller, count) →
      count < kMaxNumLocks) :
    Refines hash table (.setSpinlock caller key value) true ∨
      contents hash table key = none ∧ Exhausted hash table key ∧
        Refines hash table (.setSpinlock caller key value) false := by
  obtain ⟨lists, shape⟩ := ok.shaped
  have found := get_bucket_ok shape (hash key)
  obtain ⟨locked, run, lockedOk, same⟩ := lock_refines ok callerOk free few
  obtain ⟨sameMap, sameSize, sameRole⟩ :=
    acquire_same (abstractOf hash table) caller (homeOf hash table key)
  have held := acquire_held _ caller _ free
  rw [← same] at sameMap sameSize held
  obtain ⟨newLists, lockedShape⟩ := lockedOk.shaped
  have home : homeOf hash locked key = calcBucketIndex table (hash key) :=
    calc_bucket_index_congr table locked sameSize (hash key)
  rw [homeOf] at run
  rcases place_item_spec lockedShape valid value with
    ⟨located, slot, placed, newLists, place, stored, updated, frame⟩ | ⟨place, missing, exhausted⟩
  · left
    rw [home] at place
    obtain ⟨storedOk, storedSame⟩ := edit_refines lockedOk ⟨newLists, stored⟩ frame updated
    obtain ⟨after, unlock, afterOk, afterSame⟩ := unlock_refines storedOk caller
      (homeOf hash table key) (by rw [storedSame]; exact held)
    rw [homeOf] at unlock
    refine ⟨after, ?_, afterOk, ?_⟩
    · simp [runOp, specOp, setSpinlock, found, run, place, unlock, bind, Except.bind, plainReply]
    · rw [afterSame, storedSame, same, specOp, if_neg (by simp)]
      rfl
  · right
    rw [home] at place
    have absent : contents hash table key = none := by
      rw [← missing]
      exact (congrFun sameMap key).symm
    have absentSpec : (abstractOf hash table).map key = none := absent
    obtain ⟨after, unlock, afterOk, afterSame⟩ := unlock_refines lockedOk _ _ held
    rw [homeOf] at unlock
    refine ⟨absent, ?_, after, ?_, afterOk, ?_⟩
    · obtain ⟨items, _, _, _⟩ := Outcomes.ensures_elim (lock_bucket_items table caller _) run
      obtain ⟨head, full⟩ := exhausted
      refine ⟨items.freeListHead.symm.trans head, ?_⟩
      intro slot
      rw [home] at full
      rw [← same_shape_keys table locked items.toSameShape]
      exact full slot
    · simp [runOp, specOp, absentSpec, setSpinlock, found, run, place, unlock, bind, Except.bind,
        plainReply]
    · rw [afterSame, same, specOp, if_pos ⟨absentSpec, rfl⟩]
      rfl

theorem del_refines (ok : TableOk hash table) (valid : key ≠ kFtInvalidKey)
    (held : table.isPrimary = true →
      (abstractOf hash table).HeldBy caller (homeOf hash table key))
    (present : contents hash table key ≠ none) (room : Bool) :
    Refines hash table (.del caller key) room := by
  obtain ⟨lists, shape⟩ := ok.shaped
  have found := get_bucket_ok shape (hash key)
  have passed := assert_holder_pass held
  obtain ⟨place, find, meaning, entry⟩ := lookup_spec shape valid
  cases place with
  | none => exact absurd entry present
  | some located =>
      obtain ⟨filled, newLists, fill, filledShape, updated, frame⟩ :=
        remove_item_spec shape valid meaning.1 meaning.2
      obtain ⟨filledOk, same⟩ := edit_refines ok ⟨newLists, filledShape⟩ frame updated
      obtain ⟨after, run, afterOk, afterSame⟩ := unlock_if_primary_refines filledOk
        caller (homeOf hash table key) (by
          intro primary
          rw [same]
          exact held (by rw [← frame.isPrimary]; exact primary))
      rw [homeOf] at run find
      refine ⟨after, ?_, afterOk, by rw [afterSame, same]; rfl⟩
      simp [runOp, specOp, del, found, passed, find, fill, run, bind, Except.bind, plainReply]

/-- One legal call on a table whose locks, at a backup, are all free: it answers
and acts as specified, or it is a `set` without room at a backup. -/
theorem run_op_refines (ok : TableOk hash table) (op : Op V)
    (legal : Legal hash (abstractOf hash table) op)
    (quiet : table.isPrimary = false → ∀ bucket, (abstractOf hash table).lock bucket = none) :
    (∃ room, (room = false → ∀ key, op.key = some key → Exhausted hash table key) ∧
      Refines hash table op room) ∨
    (table.isPrimary = false ∧ ∃ caller key value, op = .set caller key value ∧
      contents hash table key = none ∧ Exhausted hash table key ∧
      runOp hash table op = .error .bucketNotLocked) := by
  obtain ⟨callerOk, keyValid, few, discipline⟩ := legal
  have keyOk : ∀ key, op.key = some key → key ≠ kFtInvalidKey := by
    intro key same invalid
    exact keyValid (by rw [same, invalid])
  have roomy : ∀ {op : Op V}, Refines hash table op true →
      ∃ room, (room = false → ∀ key, op.key = some key → Exhausted hash table key) ∧
        Refines hash table op room :=
    fun refined => ⟨true, (fun impossible => by cases impossible), refined⟩
  cases op with
  | get caller key => exact Or.inl (roomy (get_refines ok (keyOk key rfl) discipline true))
  | lockBktAndGet caller key =>
      exact Or.inl (roomy
        (lock_bkt_and_get_refines ok callerOk (keyOk key rfl) discipline few true))
  | lockBktForIns caller key =>
      exact Or.inl (roomy
        (lock_bkt_for_ins_refines ok callerOk (keyOk key rfl) discipline few true))
  | lockBucketHash caller keyHash =>
      exact Or.inl (roomy (lock_bucket_hash_refines ok callerOk discipline keyHash few true))
  | unlockBucketHash caller keyHash =>
      exact Or.inl (roomy
        (unlock_bucket_hash_refines ok discipline.1 keyHash discipline.2 true))
  | del caller key =>
      exact Or.inl (roomy (del_refines ok (keyOk key rfl) discipline.1 discipline.2 true))
  | setSpinlock caller key value =>
      rcases set_spinlock_refines ok callerOk (keyOk key rfl) value discipline few with
        refined | ⟨_, exhausted, refined⟩
      · exact Or.inl (roomy refined)
      · refine Or.inl ⟨false, ?_, refined⟩
        intro _ other same
        cases same
        exact exhausted
  | set caller key value =>
      rcases set_refines ok callerOk (keyOk key rfl) value discipline with
        refined | ⟨missing, exhausted, outcome⟩
      · exact Or.inl (roomy refined)
      · by_cases primary : table.isPrimary = true
        · rw [if_pos primary] at outcome
          refine Or.inl ⟨false, ?_, outcome⟩
          intro _ other same
          cases same
          exact exhausted
        · rw [if_neg primary] at outcome
          have backup : table.isPrimary = false := by simpa using primary
          exact Or.inr ⟨backup, caller, key, value, rfl, missing, exhausted,
            outcome (quiet backup _)⟩

end Operations

end Fasst.FixedTableSpec

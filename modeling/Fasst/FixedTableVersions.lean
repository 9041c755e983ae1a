import Fasst.FixedTableInvariant

/-!
# Bucket versions

The version of a bucket is the counter in bits 1 to 60 of its timestamp word.
A bucket's items change only under its lock, and the release of the last lock
is what advances the counter. `History` relates two points of a run through
the number of such releases; the word itself is a function of that number.
-/

namespace Fasst.FixedTableVersions

open Fasst.FixedTableModel Fasst.FixedTableShape Fasst.FixedTableEdits Fasst.FixedTableLocks
open Fasst.FixedTableOps Fasst.FixedTableInvariant Fasst.Outcomes Relation

set_option autoImplicit false

variable {V : Type}

def canaryOf (timestamp : UInt64) : Nat := timestamp.toNat / 2 ^ 61

def bucketContents (hash : UInt64 → UInt64) (table : FixedTable V) (bucket : Nat)
    (key : UInt64) : Option V :=
  if homeOf hash table key = bucket then contents hash table key else none

/-- What has become of a bucket since the table was `first`: its last lock was
released in the meantime, or it was not and then the items are the same unless
the bucket is locked. -/
def History (hash : UInt64 → UInt64) (bucket : Nat) (first current : FixedTable V) : Prop :=
  (first.buckets bucket).finalUnlocks < (current.buckets bucket).finalUnlocks ∨
    (first.buckets bucket).finalUnlocks = (current.buckets bucket).finalUnlocks ∧
      (isLocked (current.buckets bucket).timestamp ∨
        bucketContents hash current bucket = bucketContents hash first bucket)

/-- The effect of one move on the lock fields: only the addressed bucket is
concerned, and unless its last lock is released it is locked afterwards. -/
structure Effect (node : Nat) (table after : FixedTable V) : Prop where
  isPrimary : after.isPrimary = table.isPrimary
  numBuckets : after.numBuckets = table.numBuckets
  others : ∀ other, other ≠ node → SameLocks (table.buckets other) (after.buckets other)
  word : WordOk (table.buckets node) → WordOk (after.buckets node)
  progress : (after.buckets node).finalUnlocks = (table.buckets node).finalUnlocks + 1 ∨
    (after.buckets node).finalUnlocks = (table.buckets node).finalUnlocks ∧
      isLocked (after.buckets node).timestamp

theorem effect_set_bucket (table : FixedTable V) (node : Nat) (bucket : Bucket V)
    (word : WordOk (table.buckets node) → WordOk bucket)
    (progress : bucket.finalUnlocks = (table.buckets node).finalUnlocks + 1 ∨
      bucket.finalUnlocks = (table.buckets node).finalUnlocks ∧ isLocked bucket.timestamp) :
    Effect node table (setBucket table node bucket) := by
  refine ⟨rfl, rfl, ?_, ?_, ?_⟩
  · intro other different
    rw [set_bucket_other table node other bucket different]
    exact same_locks_refl _
  · rw [set_bucket_same]
    exact word
  · rw [set_bucket_same]
    exact progress

theorem lock_bucket_effect (table : FixedTable V) (caller node : Nat) :
    Ensures LockFault (fun outcome : Bool × FixedTable V =>
      outcome.1 = true → Effect node table outcome.2) (lockBucketPtr table caller node) := by
  unfold lockBucketPtr
  refine ensures_bind (check_ensures _ _ (by decide)) ?_
  intro _ _
  dsimp only
  split_ifs with even own
  · refine ensures_bind (check_ensures _ _ (by decide)) ?_
    intro _ _
    refine ensures_bind (check_ensures _ _ (by decide)) ?_
    intro _ _ _
    have unlocked := (cleared_word_iff _).mp even
    apply effect_set_bucket
    · intro word
      exact word_ok_locked_once (table.buckets node) caller word ((lock_of_none_iff _).mpr unlocked)
    · refine Or.inr ⟨rfl, ?_⟩
      rw [is_locked_iff, locked_word_value _ unlocked]
      rw [is_unlocked_iff] at unlocked
      omega
  · refine ensures_bind (check_ensures _ _ (by decide)) ?_
    intro _ locked
    refine ensures_bind (check_ensures _ _ (by decide)) ?_
    intro _ _
    refine ensures_bind (check_ensures _ _ (by decide)) ?_
    intro _ _ _
    exact effect_set_bucket table node _ (fun word => word) (Or.inr ⟨rfl, locked⟩)
  · intro impossible
    cases impossible

theorem unlock_bucket_effect (table : FixedTable V) (caller node : Nat) :
    Ensures LockFault (Effect node table) (unlockBucketPtr table caller node) := by
  unfold unlockBucketPtr
  refine ensures_bind (check_ensures _ _ (by decide)) ?_
  intro _ _
  refine ensures_bind (check_ensures _ _ (by decide)) ?_
  intro _ locked
  refine ensures_bind (check_ensures _ _ (by decide)) ?_
  intro _ _
  refine ensures_bind (check_ensures _ _ (by decide)) ?_
  intro _ _
  split_ifs with last
  · apply effect_set_bucket
    · intro word
      exact word_ok_unlocked_last (table.buckets node) _ _ word (by rw [lockOf, if_pos locked])
    · exact Or.inl rfl
  · exact effect_set_bucket table node _ (fun word => word) (Or.inr ⟨rfl, locked⟩)

theorem word_ok_same_locks {left right : Bucket V} (same : SameLocks left right)
    (word : WordOk left) : WordOk right := by
  obtain ⟨_, _, sameTimestamp, sameCount⟩ := same
  rw [WordOk, sameTimestamp, sameCount]
  exact word

section Moves

variable {hash : UInt64 → UInt64} {node bucket : Nat} {first current after : FixedTable V}

theorem move_effect (primary : current.isPrimary = true) (move : Move hash node current after) :
    Effect node current after ∧ ∀ key, homeOf hash current key ≠ node →
      contents hash after key = contents hash current key := by
  cases move with
  | lock caller run unchanged =>
      exact ⟨ensures_elim (lock_bucket_effect current caller node) run rfl,
        fun key _ => by rw [unchanged]⟩
  | unlock caller run unchanged =>
      exact ⟨ensures_elim (unlock_bucket_effect current caller node) run,
        fun key _ => by rw [unchanged]⟩
  | edit locked frame only =>
      refine ⟨⟨frame.isPrimary, frame.numBuckets, fun other _ => frame.locks other,
        word_ok_same_locks (frame.locks node), Or.inr ⟨(frame.locks node).2.2.2, ?_⟩⟩, only⟩
      rw [(frame.locks node).2.2.1]
      exact locked primary

theorem home_of_congr (sizes : after.numBuckets = current.numBuckets) (key : UInt64) :
    homeOf hash after key = homeOf hash current key :=
  calc_bucket_index_congr current after sizes (hash key)

theorem history_move (primary : current.isPrimary = true)
    (history : History hash bucket first current) (move : Move hash node current after) :
    History hash bucket first after := by
  obtain ⟨effect, elsewhere⟩ := move_effect primary move
  by_cases here : bucket = node
  · subst bucket
    rcases effect.progress with released | ⟨same, locked⟩
    · left
      rcases history with earlier | ⟨equal, _⟩ <;> omega
    · rcases history with earlier | ⟨equal, _⟩
      · left
        omega
      · exact Or.inr ⟨equal.trans same.symm, Or.inl locked⟩
  · obtain ⟨_, _, sameTimestamp, sameCount⟩ := effect.others bucket here
    have sameContents : bucketContents hash after bucket = bucketContents hash current bucket := by
      funext key
      rw [bucketContents, bucketContents, home_of_congr effect.numBuckets]
      split_ifs with home
      · exact elsewhere key (by rw [home]; exact here)
      · rfl
    rw [History, sameTimestamp, sameCount, sameContents]
    exact history

/-- What holds at every point of a run of a primary that began at `first`. -/
structure Progress (hash : UInt64 → UInt64) (first current : FixedTable V) : Prop where
  isPrimary : current.isPrimary = true
  numBuckets : current.numBuckets = first.numBuckets
  history : ∀ bucket, History hash bucket first current
  word : (∀ bucket, WordOk (first.buckets bucket)) → ∀ bucket, WordOk (current.buckets bucket)

theorem progress_refl (primary : first.isPrimary = true) : Progress hash first first :=
  ⟨primary, rfl, fun _ => Or.inr ⟨rfl, Or.inr rfl⟩, fun words => words⟩

theorem progress_move (progress : Progress hash first current)
    (move : Move hash node current after) : Progress hash first after := by
  obtain ⟨effect, _⟩ := move_effect progress.isPrimary move
  refine ⟨effect.isPrimary.trans progress.isPrimary, effect.numBuckets.trans progress.numBuckets,
    fun bucket => history_move progress.isPrimary (progress.history bucket) move, ?_⟩
  intro words bucket
  by_cases here : bucket = node
  · rw [here]
    exact effect.word (progress.word words node)
  · exact word_ok_same_locks (effect.others bucket here) (progress.word words bucket)

theorem progress_reaches (progress : Progress hash first current)
    (reached : Reaches hash node current after) : Progress hash first after := by
  have moves := reached.2
  clear reached
  induction moves with
  | refl => exact progress
  | tail _ move ih => exact progress_move ih move

end Moves

theorem version_of_word (bucket : Bucket V) (word : WordOk bucket)
    (few : bucket.finalUnlocks < 2 ^ 60) :
    versionOf bucket.timestamp = bucket.finalUnlocks ∧ canaryOf bucket.timestamp = 5 := by
  rw [WordOk] at word
  rw [versionOf, canaryOf, word]
  split_ifs <;> omega

/-- A point of a run of a new primary, with the words of all its buckets. -/
theorem run_ops_word (hash : UInt64 → UInt64) (valSize numBuckets numExtraBuckets : Nat) (zero : V)
    (positive : 0 < numBuckets) (ops : List (Op V)) (valid : ∀ op ∈ ops, op.KeyValid)
    (after : FixedTable V)
    (run : runOps hash (construct true valSize numBuckets numExtraBuckets zero) ops = .ok after) :
    (∃ lists, Shape hash after lists none) ∧ after.isPrimary = true ∧
      ∀ bucket, WordOk (after.buckets bucket) := by
  have start := construct_shape hash true valSize numBuckets numExtraBuckets zero positive
  obtain ⟨shaped, progress⟩ := ensures_elim (run_ops_ensures hash ops _ ⟨_, start⟩ valid
    (Progress hash (construct true valSize numBuckets numExtraBuckets zero)) (progress_refl rfl)
    (fun _ _ _ => progress_reaches)) run
  exact ⟨shaped, progress.isPrimary,
    progress.word (construct_word true valSize numBuckets numExtraBuckets zero)⟩

/-- At any two points of a run of a primary: the version has not decreased, the
canary is in place, equal timestamps read while the bucket is free mean equal
items, and other items mean a larger version. -/
theorem versions_identify_contents (hash : UInt64 → UInt64)
    (valSize numBuckets numExtraBuckets : Nat) (zero : V) (positive : 0 < numBuckets)
    (earlier later : List (Op V)) (validEarlier : ∀ op ∈ earlier, op.KeyValid)
    (validLater : ∀ op ∈ later, op.KeyValid) (first second : FixedTable V)
    (runFirst : runOps hash (construct true valSize numBuckets numExtraBuckets zero) earlier =
      .ok first)
    (runSecond : runOps hash first later = .ok second)
    (bucket : Nat) (few : (second.buckets bucket).finalUnlocks < 2 ^ 60) :
    versionOf (first.buckets bucket).timestamp ≤ versionOf (second.buckets bucket).timestamp ∧
    canaryOf (first.buckets bucket).timestamp = kTimestampCanary.toNat ∧
    canaryOf (second.buckets bucket).timestamp = kTimestampCanary.toNat ∧
    (lockOf (first.buckets bucket) = none → lockOf (second.buckets bucket) = none →
      (∀ caller key reply otherCaller otherKey otherReply,
        key ≠ kFtInvalidKey → homeOf hash first key = bucket →
        otherKey ≠ kFtInvalidKey → homeOf hash second otherKey = bucket →
        FixedTableModel.get first caller (hash key) key = .ok reply →
        FixedTableModel.get second otherCaller (hash otherKey) otherKey = .ok otherReply →
        reply.outTimestamp = otherReply.outTimestamp →
          bucketContents hash first bucket = bucketContents hash second bucket) ∧
      (bucketContents hash first bucket ≠ bucketContents hash second bucket →
        versionOf (first.buckets bucket).timestamp <
          versionOf (second.buckets bucket).timestamp)) := by
  obtain ⟨⟨lists, shape⟩, primary, words⟩ := run_ops_word hash valSize numBuckets numExtraBuckets
    zero positive earlier validEarlier first runFirst
  obtain ⟨⟨lists', shape'⟩, progress⟩ := ensures_elim (run_ops_ensures hash later first
    ⟨lists, shape⟩ validLater (Progress hash first) (progress_refl primary)
    (fun _ _ _ => progress_reaches)) runSecond
  have history := progress.history bucket
  have monotone : (first.buckets bucket).finalUnlocks ≤ (second.buckets bucket).finalUnlocks := by
    rcases history with less | ⟨same, _⟩ <;> omega
  obtain ⟨firstVersion, firstCanary⟩ := version_of_word (first.buckets bucket) (words bucket)
    (Nat.lt_of_le_of_lt monotone few)
  obtain ⟨secondVersion, secondCanary⟩ := version_of_word (second.buckets bucket)
    (progress.word words bucket) few
  refine ⟨by omega, firstCanary, secondCanary, ?_⟩
  intro free otherFree
  have identified : versionOf (first.buckets bucket).timestamp =
      versionOf (second.buckets bucket).timestamp →
        bucketContents hash first bucket = bucketContents hash second bucket := by
    intro same
    rcases history with less | ⟨_, locked | unchanged⟩
    · omega
    · have unlocked := (lock_of_none_iff _).mp otherFree
      exact absurd locked ((not_locked_iff _).mpr unlocked)
    · exact unchanged.symm
  constructor
  · intro caller key reply otherCaller otherKey otherReply keyValid home otherValid otherHome
      run otherRun sameTimestamp
    rw [get_spec shape caller keyValid primary, home, free] at run
    rw [get_spec shape' otherCaller otherValid progress.isPrimary, otherHome, otherFree] at otherRun
    have reported : reply.outTimestamp = some (first.buckets bucket).timestamp := by
      cases run
      cases contents hash first key <;> rfl
    have otherReported : otherReply.outTimestamp = some (second.buckets bucket).timestamp := by
      cases otherRun
      cases contents hash second otherKey <;> rfl
    rw [reported, otherReported] at sameTimestamp
    exact identified (by rw [Option.some.inj sameTimestamp])
  · intro different
    by_contra notLess
    exact different (identified (by omega))

theorem versions_identify_contents_failed_lookup :
    Ensures (fun _ => False) (fun first : FixedTable Nat =>
      Ensures (fun _ => False) (fun second : FixedTable Nat =>
        bucketContents id first 0 ≠ bucketContents id second 0 ∧
          versionOf (first.buckets 0).timestamp < versionOf (second.buckets 0).timestamp)
        (runOps id first [.lockBktAndGet 3 2, .setSpinlock 4 9 5]))
      (runOps id (construct true 8 1 0 (0 : Nat)) [.setSpinlock 3 1 10]) := by
  have facts : Ensures (fun _ => False) (fun first : FixedTable Nat =>
      Ensures (fun _ => False) (fun second : FixedTable Nat =>
        (second.buckets 0).finalUnlocks < 2 ^ 60 ∧ lockOf (first.buckets 0) = none ∧
          lockOf (second.buckets 0) = none ∧
          bucketContents id first 0 9 ≠ bucketContents id second 0 9)
        (runOps id first [.lockBktAndGet 3 2, .setSpinlock 4 9 5]))
      (runOps id (construct true 8 1 0 (0 : Nat)) [.setSpinlock 3 1 10]) := by
    decide +kernel
  refine ensures_mono (ensures_with_run facts) ?_
  rintro first ⟨inner, runFirst⟩
  refine ensures_mono (ensures_with_run inner) ?_
  rintro second ⟨⟨few, free, otherFree, different⟩, runSecond⟩
  have differs : bucketContents id first 0 ≠ bucketContents id second 0 := by
    intro same
    exact different (by rw [same])
  obtain ⟨_, _, _, rest⟩ := versions_identify_contents id 8 1 0 (0 : Nat) (by decide)
    [.setSpinlock 3 1 10] [.lockBktAndGet 3 2, .setSpinlock 4 9 5]
    (by simp [Op.KeyValid, Op.key, kFtInvalidKey]) (by simp [Op.KeyValid, Op.key, kFtInvalidKey])
    first second runFirst runSecond 0 few
  exact ⟨differs, (rest free otherFree).2 differs⟩

end Fasst.FixedTableVersions

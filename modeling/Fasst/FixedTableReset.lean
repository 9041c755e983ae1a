import Fasst.FixedTableSimilar
import Fasst.FixedTableSpace

/-!
# What `reset()` leaves

`reset()` writes every field of every bucket but the link of a primary bucket. A
table in which no primary bucket has an extra bucket is afterwards a new one, up
to values that are not read. A link that stays makes an extra bucket part of a
chain while it is also on the free list.
-/

namespace Fasst.FixedTableReset

open Fasst.FixedTableModel Fasst.FixedTableShape Fasst.FixedTableEdits Fasst.FixedTableOps
open Fasst.FixedTableInvariant Fasst.FixedTableSpace Fasst.FixedTableSimilar Fasst.Outcomes

set_option autoImplicit false

variable {V : Type}

def constructLike (table : FixedTable V) (zero : V) : FixedTable V :=
  construct table.isPrimary table.valSize table.numBuckets table.numExtraBuckets zero

section Unchained

variable {hash : UInt64 → UInt64} {table : FixedTable V} (zero : V)
  (unchained : ∀ primary, primary < table.numBuckets → ¬ hasExtraBucket (table.buckets primary))

include zero unchained

theorem reset_links (node : Nat) : ((reset table).buckets node).nextExtraBucketIndex =
    ((constructLike table zero).buckets node).nextExtraBucketIndex := by
  simp only [reset, constructLike, construct]
  split_ifs with primary
  · exact not_not.mp (unchained node primary)
  · rfl
  · rfl

theorem reset_similar : Similar (reset table) (constructLike table zero) := by
  constructor
  · rfl
  · intro node
    constructor
    · have link := reset_links zero unchained node
      have fields : { (reset table).buckets node with
          nextExtraBucketIndex := ((constructLike table zero).buckets node).nextExtraBucketIndex
          valArr := ((constructLike table zero).buckets node).valArr } =
          (constructLike table zero).buckets node := rfl
      rw [← link] at fields
      exact fields.symm
    · intro slot occupied
      exact absurd rfl occupied

theorem reset_shape (hash : UInt64 → UInt64) (positive : 0 < table.numBuckets) :
    Shape hash (reset table) (freshLists table.numBuckets table.numExtraBuckets) none := by
  apply shape_of_same hash (constructLike table zero) (reset table)
  · exact construct_shape hash _ _ _ _ zero positive
  · exact ⟨rfl, rfl, rfl, reset_links zero unchained, fun _ => rfl⟩

end Unchained

/-- The table is empty and unlocked, the extra buckets are on the free list and on no
chain, and every run of operations is answered as by a new table. -/
structure Emptied (hash : UInt64 → UInt64) (table : FixedTable V) (zero : V) : Prop where
  empty : ∀ key, contents hash table key = none
  unlocked : ∀ node, lockFields (table.buckets node) = (kInvalidCallerId, 0, kTimestampCanary <<< 61)
  chains : ∀ primary, primary < table.numBuckets →
    Follows table (table.buckets primary).nextExtraBucketIndex []
  free : Follows table table.freeListHead (List.range' 1 table.numExtraBuckets)
  answered : ∀ ops : List (Op V), (∀ op ∈ ops, op.KeyValid) →
    answers hash table ops = answers hash (constructLike table zero) ops

theorem reset_emptied {table : FixedTable V} (hash : UInt64 → UInt64) (zero : V)
    (positive : 0 < table.numBuckets)
    (unchained : ∀ primary, primary < table.numBuckets → ¬ hasExtraBucket (table.buckets primary)) :
    Emptied hash (reset table) zero := by
  have shape := reset_shape zero unchained hash positive
  have inv := rep_inv_of_shape shape
  refine ⟨?_, fun _ => rfl, inv.chains, ?_, ?_⟩
  · intro key
    by_cases valid : key = kFtInvalidKey
    · rw [valid, contents_invalid]
    · rw [contents_none_iff shape valid]
      intro node _ slot
      exact Ne.symm valid
  · have listed : indexList (reset table) (freshLists table.numBuckets table.numExtraBuckets) none =
        List.range' 1 table.numExtraBuckets := by
      have first : table.numBuckets - (table.numBuckets - 1) = 1 := Nat.sub_sub_self positive
      have index : (List.range' table.numBuckets table.numExtraBuckets 1).map
          (fun node => node - (table.numBuckets - 1)) = _ :=
        List.map_sub_range' (Nat.sub_le table.numBuckets 1) table.numExtraBuckets
      rw [first] at index
      exact index
    rw [show (reset table).numExtraBuckets = table.numExtraBuckets from rfl, ← listed]
    exact inv.freeList
  · intro ops valid
    exact similar_answers hash ops valid (reset_similar zero unchained)

/-- A table in whatever state: `reset()` empties it if and only if no primary bucket
has an extra bucket. -/
theorem reset_empties_iff (hash : UInt64 → UInt64) (table : FixedTable V) (zero : V)
    (positive : 0 < table.numBuckets) :
    Emptied hash (reset table) zero ↔
      ∀ primary, primary < table.numBuckets → ¬ hasExtraBucket (table.buckets primary) := by
  constructor
  · intro emptied primary bound chained
    have link : ((reset table).buckets primary).nextExtraBucketIndex =
        (table.buckets primary).nextExtraBucketIndex := if_pos bound
    have ends : ((reset table).buckets primary).nextExtraBucketIndex = 0 :=
      emptied.chains primary bound
    exact chained (link.symm.trans ends)
  · exact reset_emptied hash zero positive

/-- Items whose keys belong to the first of 16 buckets. -/
def firstBucket (count : Nat) : List (Op Nat) :=
  (List.range count).map fun i => .setSpinlock 3 (UInt64.ofNat (16 * i)) i

/-- Seven items, and an eighth that needs the extra bucket. -/
theorem reset_empties_iff_seven_and_eight :
    (∃ table, runOps id (construct true 8 16 1 (0 : Nat)) (firstBucket 7) = .ok table ∧
      contents id table 16 = some 1 ∧ Emptied id (reset table) 0) ∧
    ∃ table, runOps id (construct true 8 16 1 (0 : Nat)) (firstBucket 8) = .ok table ∧
      ¬ Emptied id (reset table) 0 := by
  have seven : ∃ table, runOps id (construct true 8 16 1 (0 : Nat)) (firstBucket 7) = .ok table ∧
      contents id table 16 = some 1 ∧ 0 < table.numBuckets ∧
      ∀ primary, primary < table.numBuckets → ¬ hasExtraBucket (table.buckets primary) := by
    apply ensures_returns
    decide +kernel
  have eight : ∃ table, runOps id (construct true 8 16 1 (0 : Nat)) (firstBucket 8) = .ok table ∧
      0 < table.numBuckets ∧ hasExtraBucket (table.buckets 0) := by
    apply ensures_returns
    decide +kernel
  obtain ⟨few, fewRun, present, fewPositive, unchained⟩ := seven
  obtain ⟨many, manyRun, manyPositive, chained⟩ := eight
  exact ⟨⟨few, fewRun, present, (reset_empties_iff id few 0 fewPositive).mpr unchained⟩, many, manyRun,
    fun emptied => (reset_empties_iff id many 0 manyPositive).mp emptied 0 manyPositive chained⟩

/-- After `reset()` the extra bucket is on the chain and on the free list. When the
table is filled again the chain becomes a loop, and a search does not end; a new
table answers all operations. -/
theorem reset_keeps_link :
    tableSizes 70 = (16, 1) ∧ ∃ table,
      runOps id (construct true 8 16 1 (0 : Nat)) (firstBucket 8) = .ok table ∧
      ((reset table).buckets 0).nextExtraBucketIndex = 1 ∧ (reset table).freeListHead = 1 ∧
      Ensures (fun fault => fault = .diverge) (fun _ => False)
        (runOps id (reset table) (firstBucket 15 ++ [.get 4 112])) ∧
      Ensures (fun _ => False) (fun _ => True)
        (runOps id (construct true 8 16 1 (0 : Nat)) (firstBucket 15 ++ [.get 4 112])) := by
  refine ⟨by decide, ?_⟩
  apply ensures_returns
  decide +kernel

end Fasst.FixedTableReset

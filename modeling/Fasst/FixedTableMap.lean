import Fasst.FixedTableInvariant
import Fasst.FixedTableSpec

/-!
# A FixedTable is a finite map

The specification runs beside the code from a new table on. As long as the
callers keep to `Legal`, every answer is the specified one and the items that a
search finds are the specified map, whatever chains they have moved through.
-/

namespace Fasst.FixedTableMap

open Fasst.FixedTableModel Fasst.FixedTableShape Fasst.FixedTableEdits Fasst.FixedTableLocks
open Fasst.FixedTableStore Fasst.FixedTableOps Fasst.FixedTableInvariant Fasst.FixedTableSpec

set_option autoImplicit false

variable {V : Type}

def emptyState (isPrimary : Bool) (numBuckets : Nat) : MapState V where
  isPrimary := isPrimary
  numBuckets := numBuckets
  map _ := none
  lock _ := none
  version _ := 0

/-- A `set` of a new key at a backup that has no slot left: its error exit
unlocks the bucket, which at a backup nobody has locked. -/
def StopsForSpace (hash : UInt64 → UInt64) (table : FixedTable V) (op : Op V) : Prop :=
  table.isPrimary = false ∧ ∃ caller key value, op = .set caller key value ∧
    contents hash table key = none ∧ Exhausted hash table key ∧
    runOp hash table op = .error .bucketNotLocked

/-- The code and the specification side by side. A legal operation answers as
specified for some `room`, which is false only if no slot is left. -/
def Agrees (hash : UInt64 → UInt64) : FixedTable V → MapState V → List (Op V) → Prop
  | table, state, [] => contents hash table = state.map
  | table, state, op :: rest => contents hash table = state.map ∧
      (Legal hash state op →
        StopsForSpace hash table op ∨
        ∃ room after, (room = false → ∀ key, op.key = some key → Exhausted hash table key) ∧
          runOp hash table op = .ok ((specOp hash state room op).1, after) ∧
          Agrees hash after (specOp hash state room op).2 rest)

/-- At a backup no operation that the discipline allows leaves a lock behind. -/
def Quiet (state : MapState V) : Prop :=
  state.isPrimary = false → ∀ bucket, state.lock bucket = none

theorem release_is_primary (state : MapState V) (bucket : Nat) :
    (state.release bucket).isPrimary = state.isPrimary := by
  unfold MapState.release
  split <;> rfl

theorem release_free (state : MapState V) (bucket other : Nat)
    (free : ∀ other, state.lock other = none) : (state.release bucket).lock other = none := by
  by_cases same : other = bucket <;> simp [MapState.release, free, same]

theorem acquire_release_quiet (state : MapState V) (caller bucket : Nat) (key : UInt64)
    (entry : Option V) (free : ∀ other, state.lock other = none) (other : Nat) :
    (((state.acquire caller bucket).release bucket).lock other = none) ∧
      (((state.acquire caller bucket).store key entry).release bucket).lock other = none := by
  have held : state.lock bucket = none := free bucket
  constructor <;> by_cases same : other = bucket <;>
    simp [MapState.acquire, MapState.release, MapState.store, held, same, free other]

theorem spec_quiet (hash : UInt64 → UInt64) (state : MapState V) (room : Bool) (op : Op V)
    (legal : Legal hash state op) (quiet : Quiet state) : Quiet (specOp hash state room op).2 := by
  obtain ⟨_, _, _, discipline⟩ := legal
  by_cases primary : state.isPrimary = true
  · intro backup
    have role : (specOp hash state room op).2.isPrimary = state.isPrimary := by
      cases op <;> simp only [specOp] <;> (repeat' split) <;>
        simp [release_is_primary, acquire_same, MapState.store, MapState.releaseIfPrimary, primary]
    rw [role, primary] at backup
    cases backup
  · have backup : state.isPrimary = false := by simpa using primary
    have free := quiet backup
    intro _ bucket
    cases op with
    | get caller key => exact absurd discipline primary
    | lockBktAndGet caller key => exact absurd discipline primary
    | lockBktForIns caller key => exact absurd discipline primary
    | lockBucketHash caller keyHash => exact absurd discipline primary
    | unlockBucketHash caller keyHash => exact absurd discipline.1 primary
    | del caller key =>
        simpa [specOp, MapState.releaseIfPrimary, MapState.store, backup] using free bucket
    | set caller key value =>
        simp only [specOp]
        split
        · exact release_free state (state.bucketOf (hash key)) bucket free
        · simpa [MapState.releaseIfPrimary, MapState.store, backup] using free bucket
    | setSpinlock caller key value =>
        obtain ⟨plain, edited⟩ := acquire_release_quiet state caller
          (state.bucketOf (hash key)) key (some value) free bucket
        simp only [specOp]
        split
        · exact plain
        · exact edited

theorem agrees_of_ok (hash : UInt64 → UInt64) (ops : List (Op V)) (table : FixedTable V)
    (ok : TableOk hash table) (quiet : Quiet (abstractOf hash table)) :
    Agrees hash table (abstractOf hash table) ops := by
  induction ops generalizing table with
  | nil => rfl
  | cons op rest ih =>
      refine ⟨rfl, ?_⟩
      intro legal
      rcases run_op_refines ok op legal quiet with ⟨room, full, after, run, afterOk, same⟩ | stopped
      · right
        refine ⟨room, after, full, run, ?_⟩
        rw [← same]
        apply ih after afterOk
        rw [same]
        exact spec_quiet hash _ room op legal quiet
      · exact Or.inl stopped

theorem construct_ok (hash : UInt64 → UInt64) (isPrimary : Bool)
    (valSize numBuckets numExtraBuckets : Nat) (zero : V) (positive : 0 < numBuckets) :
    TableOk hash (construct isPrimary valSize numBuckets numExtraBuckets zero) ∧
      abstractOf hash (construct isPrimary valSize numBuckets numExtraBuckets zero) =
        emptyState isPrimary numBuckets := by
  have shape := construct_shape hash isPrimary valSize numBuckets numExtraBuckets zero positive
  refine ⟨⟨⟨_, shape⟩, ?_, ?_⟩, ?_⟩
  · intro bucket
    rw [LockWf, construct_unlocked]
    exact ⟨rfl, rfl⟩
  · exact construct_word isPrimary valSize numBuckets numExtraBuckets zero
  · have nothing : contents hash (construct isPrimary valSize numBuckets numExtraBuckets zero) =
        fun _ => none := by
      funext key
      by_cases valid : key = kFtInvalidKey
      · rw [valid, contents_invalid]
      · rw [contents_none_iff shape valid]
        intro node _ slot
        exact Ne.symm valid
    simp only [abstractOf, nothing, construct_unlocked]
    rfl

/-- Any sequence of operations on a new table, primary or backup. -/
theorem fixed_table_implements_map (hash : UInt64 → UInt64) (isPrimary : Bool)
    (valSize numBuckets numExtraBuckets : Nat) (zero : V) (positive : 0 < numBuckets)
    (ops : List (Op V)) :
    Agrees hash (construct isPrimary valSize numBuckets numExtraBuckets zero)
      (emptyState isPrimary numBuckets) ops := by
  obtain ⟨ok, same⟩ :=
    construct_ok hash isPrimary valSize numBuckets numExtraBuckets zero positive
  rw [← same]
  apply agrees_of_ok hash ops _ ok
  rw [same]
  intro _ _
  rfl

theorem fixed_table_implements_map_insert_read :
    Legal id (emptyState true 2 : MapState Nat) (.setSpinlock 3 1 10) ∧
      Agrees id (construct true 8 2 0 (0 : Nat)) (emptyState true 2)
        [.setSpinlock 3 1 10, .get 4 1, .lockBktAndGet 3 1, .del 3 1, .get 4 1] := by
  refine ⟨⟨by decide, ?_, ?_, ?_⟩, fixed_table_implements_map id true 8 2 0 0 (by decide) _⟩
  · simp [Op.KeyValid, Op.key, kFtInvalidKey]
  · intro count held
    cases held
  · rintro ⟨owner, count, held, _⟩
    cases held

end Fasst.FixedTableMap

import Fasst.TxSteps
import Fasst.TxHandler

/-!
# Who holds the bucket locks

The lock fields of a primary bucket against the histories of the coroutines: a
bucket is held by the one coroutine that has unreleased locks on items of the
bucket, and it counts them. The invariant also says what the holder of a lock
may rely on, that the key is still there or still absent.
-/

namespace Fasst.TxLocks

open List Fasst.FixedTableModel Fasst.FixedTableLocks Fasst.FixedTableEdits Fasst.FixedTableSpec
open Fasst.Placement Fasst.TxModel Fasst.TxCluster Fasst.Aligned Fasst.TxLocal Fasst.TxCalls
open Fasst.TxHandler Fasst.TxSteps

set_option autoImplicit false

variable {V : Type} {cfg : Config} {sizes : Nat → Nat → Nat} {state : State V} {coro : CoroId}

section Callers

theorem caller_id_value (valid : cfg.Valid coro) :
    callerId coro = coro.coroId + 2 ^ hotsCoroIdBits * coro.wrkrGid ∧
      coro.coroId < 2 ^ hotsCoroIdBits ∧ coro.wrkrGid < 8192 := by
  obtain ⟨worker, _, bound⟩ := valid
  have coros := cfg.numCoroBound
  have workers := cfg.mappings.workersBound
  simp only [rpcMaxCoro, hotsMaxWorkers] at coros workers
  have smallCoro : coro.coroId < 2 ^ hotsCoroIdBits := by simp only [hotsCoroIdBits]; omega
  have smallWorker : coro.wrkrGid < 2 ^ (32 - hotsCoroIdBits) := by
    simp only [hotsCoroIdBits]
    omega
  rw [callerId, Nat.mod_eq_of_lt smallCoro, Nat.mod_eq_of_lt smallWorker]
  exact ⟨rfl, smallCoro, by omega⟩

/-- The identifier of a coroutine fits the field of the bucket and is not the
reserved one. -/
theorem caller_id_ok (valid : cfg.Valid coro) : CallerOk (callerId coro) := by
  obtain ⟨value, smallCoro, smallWorker⟩ := caller_id_value valid
  simp only [hotsCoroIdBits] at value smallCoro
  unfold CallerOk kInvalidCallerId kMaxCallerId kCallerIdBits kNumLocksBits
  omega

theorem caller_id_injective {other : CoroId} (valid : cfg.Valid coro) (otherValid : cfg.Valid other)
    (same : callerId coro = callerId other) : coro = other := by
  obtain ⟨value, smallCoro, _⟩ := caller_id_value valid
  obtain ⟨otherValue, otherSmall, _⟩ := caller_id_value otherValid
  simp only [hotsCoroIdBits] at value otherValue smallCoro otherSmall
  obtain ⟨gid, cid⟩ := coro
  obtain ⟨otherGid, otherCid⟩ := other
  simp only at value otherValue smallCoro otherSmall
  have sameCoro : cid = otherCid := by omega
  have sameWorker : gid = otherGid := by omega
  rw [sameCoro, sameWorker]

end Callers

structure Place where
  machine : Nat
  reqtype : Nat
  bucket : Nat
  deriving DecidableEq

def primaryOf (cfg : Config) (loc : Loc) : Nat := cfg.mappings.getPrimaryMn (dsKeyhash cfg loc.2)

/-- The primary bucket of a key, in tables of the given sizes. -/
def placeOf (cfg : Config) (sizes : Nat → Nat → Nat) (loc : Loc) : Place where
  machine := primaryOf cfg loc
  reqtype := loc.1
  bucket := (dsKeyhash cfg loc.2).toNat % 2 ^ 32 &&& (sizes (primaryOf cfg loc) loc.1 - 1)

/-- How many locks of the transaction on items of a bucket are unreleased. -/
def lockCount (cfg : Config) (sizes : Nat → Nat → Nat) (tx : TxState V) (place : Place) : Nat :=
  (tx.writeSet.map RwsetItem.loc).countP fun loc =>
    holds tx loc && decide (placeOf cfg sizes loc = place)

/-- The lock of one bucket against the counts of all coroutines. -/
def LockedBy (cfg : Config) (lock : Option (Nat × Nat)) (count : CoroId → Nat) : Prop :=
  match lock with
  | none => ∀ coro, count coro = 0
  | some (owner, number) => ∃ coro, cfg.Valid coro ∧ owner = callerId coro ∧
      number = count coro ∧ ∀ other, other ≠ coro → count other = 0

section Counting

variable {tx next : TxState V}

theorem holds_same (handled : next.handled = tx.handled) (loc : Loc) :
    holds next loc = holds tx loc := by
  rw [holds, holds, granted_same handled, unlocked_same handled, apply_count_same handled]

theorem holds_granted {loc : Loc} (held : holds tx loc = true) : granted tx loc = true := by
  simp only [holds, Bool.and_eq_true] at held
  exact held.1.1

/-- Items that were added since hold no lock. -/
theorem lock_count_continues (inv : TxInv cfg coro tx) (nextInv : TxInv cfg coro next)
    (continues : Continues tx next) (place : Place) :
    lockCount cfg sizes next place = lockCount cfg sizes tx place := by
  obtain ⟨handled, ⟨kept, fresh, items, same⟩, _⟩ := continues
  have locs : next.writeSet.map RwsetItem.loc =
      tx.writeSet.map RwsetItem.loc ++ fresh.map RwsetItem.loc := by
    rw [items, map_append, locs_same same]
  have nodup := nextInv.writeNodup
  rw [locs] at nodup
  unfold lockCount
  simp only [locs, countP_append, holds_same handled]
  have unheld : (fresh.map RwsetItem.loc).countP
      (fun loc => holds tx loc && decide (placeOf cfg sizes loc = place)) = 0 := by
    rw [countP_eq_zero]
    intro loc member passed
    rw [Bool.and_eq_true] at passed
    have old := inv.grantedFrom loc (holds_granted passed.1)
    exact (nodup_append.mp nodup).2.2 loc old loc member rfl
  rw [unheld]
  rfl

theorem lock_count_congr {index : Nat} {req : Request V} {resp : Resp V}
    (same : ∀ loc ∈ tx.writeSet.map RwsetItem.loc, holds (tx.respond index req resp) loc = holds tx loc)
    (place : Place) :
    lockCount cfg sizes (tx.respond index req resp) place = lockCount cfg sizes tx place := by
  apply countP_congr
  intro loc member
  rw [same loc member]

/-- The lock of one item is gained. -/
theorem lock_count_gain (inv : TxInv cfg coro tx) {index : Nat} {req : Request V} {resp : Resp V}
    {item : RwsetItem V} (member : item ∈ tx.writeSet)
    (others : ∀ loc ∈ tx.writeSet.map RwsetItem.loc, loc ≠ item.loc →
      holds (tx.respond index req resp) loc = holds tx loc)
    (off : holds tx item.loc = false) (on : holds (tx.respond index req resp) item.loc = true)
    (place : Place) :
    lockCount cfg sizes (tx.respond index req resp) place =
      lockCount cfg sizes tx place + if placeOf cfg sizes item.loc = place then 1 else 0 := by
  split_ifs with here
  · apply countP_flip inv.writeNodup (mem_map_of_mem member)
    · intro loc inside different
      rw [others loc inside different]
    · rw [off, Bool.false_and]
    · rw [on, Bool.true_and, decide_eq_true here]
  · apply countP_congr
    intro loc inside
    by_cases same : loc = item.loc
    · simp [same, here]
    · rw [others loc inside same]

/-- The lock of one item is given back. -/
theorem lock_count_loss (inv : TxInv cfg coro tx) {index : Nat} {req : Request V} {resp : Resp V}
    {item : RwsetItem V} (member : item ∈ tx.writeSet)
    (others : ∀ loc ∈ tx.writeSet.map RwsetItem.loc, loc ≠ item.loc →
      holds (tx.respond index req resp) loc = holds tx loc)
    (on : holds tx item.loc = true) (off : holds (tx.respond index req resp) item.loc = false)
    (place : Place) :
    lockCount cfg sizes tx place =
      lockCount cfg sizes (tx.respond index req resp) place +
        if placeOf cfg sizes item.loc = place then 1 else 0 := by
  split_ifs with here
  · apply countP_flip inv.writeNodup (mem_map_of_mem member)
    · intro loc inside different
      rw [others loc inside different]
    · rw [off, Bool.false_and]
    · rw [on, Bool.true_and, decide_eq_true here]
  · apply countP_congr
    intro loc inside
    by_cases same : loc = item.loc
    · simp [same, here]
    · rw [others loc inside same]

theorem lock_count_le (inv : TxInv cfg coro tx) (place : Place) :
    lockCount cfg sizes tx place ≤ rpcMaxMsgCoro := by
  have whole : lockCount cfg sizes tx place ≤ (tx.writeSet.map RwsetItem.loc).length :=
    countP_le_length
  have size := inv.size
  rw [length_map] at whole
  omega

theorem lock_count_pos {item : RwsetItem V} (member : item ∈ tx.writeSet)
    (held : holds tx item.loc = true) :
    0 < lockCount cfg sizes tx (placeOf cfg sizes item.loc) := by
  apply countP_pos_iff.mpr
  exact ⟨item.loc, mem_map_of_mem member, by simp [held]⟩

end Counting

section Holding

variable {tx : TxState V} {index : Nat} {item : RwsetItem V} {resp : Resp V}

theorem holds_quiet {req : Request V} (noGrant : ∀ loc, grants loc (req, resp) = false)
    (noUnlock : ∀ loc, unlocks loc (req, resp) = false)
    (noApply : ∀ loc, applies loc (req, resp) = false) (loc : Loc) :
    holds (tx.respond index req resp) loc = holds tx loc := by
  rw [holds, holds, granted_respond, unlocked_respond, apply_count_respond, noGrant, noUnlock,
    noApply, Bool.or_false, Bool.or_false]
  rfl

theorem holds_lock_self (fresh : granted tx item.loc = false) (noUnlock : NoUnlock tx)
    (noApply : NoApply tx) :
    holds (tx.respond index (lockReq coro item) resp) item.loc = itemGranted item resp := by
  rw [holds, granted_respond, unlocked_respond, apply_count_respond, grants_lock, unlocks_lock,
    applies_lock, fresh, noUnlock, noApply]
  simp

theorem holds_lock_other {loc : Loc} (different : loc ≠ item.loc) :
    holds (tx.respond index (lockReq coro item) resp) loc = holds tx loc := by
  rw [holds, holds, granted_respond, unlocked_respond, apply_count_respond, grants_lock,
    unlocks_lock, applies_lock, decide_eq_false different.symm]
  simp

theorem holds_unlock_self :
    holds (tx.respond index (unlockReq coro item) resp) item.loc = false := by
  rw [holds, unlocked_respond, unlocks_unlock, decide_eq_true rfl]
  simp

theorem holds_unlock_other {loc : Loc} (different : loc ≠ item.loc) :
    holds (tx.respond index (unlockReq coro item) resp) loc = holds tx loc := by
  rw [holds, holds, granted_respond, unlocked_respond, apply_count_respond, grants_unlock,
    unlocks_unlock, applies_unlock, decide_eq_false different.symm]
  simp

theorem holds_update_self {replI : Nat} {loc : Loc} (here : replicaLoc replI item.loc = loc) :
    holds (tx.respond index (updateReq coro replI item) resp) loc = false := by
  rw [holds, apply_count_respond, applies_update, decide_eq_true here]
  simp

theorem holds_update_other {replI : Nat} {loc : Loc} (elsewhere : replicaLoc replI item.loc ≠ loc) :
    holds (tx.respond index (updateReq coro replI item) resp) loc = holds tx loc := by
  rw [holds, holds, granted_respond, unlocked_respond, apply_count_respond, grants_update,
    unlocks_update, applies_update, decide_eq_false elsewhere]
  simp

end Holding

section Abstract

variable {before : MapState V} {bucket : Nat} {count after : CoroId → Nat}

theorem locked_by_positive {lock : Option (Nat × Nat)} (locked : LockedBy cfg lock count)
    (positive : 0 < count coro) :
    cfg.Valid coro ∧ lock = some (callerId coro, count coro) ∧
      ∀ other, other ≠ coro → count other = 0 := by
  unfold LockedBy at locked
  split at locked
  · have zero := locked coro
    omega
  · rename_i owner number
    obtain ⟨holder, valid, same, total, others⟩ := locked
    have own : holder = coro := by
      by_contra different
      have zero := others coro (Ne.symm different)
      omega
    subst own
    rw [same, total]
    exact ⟨valid, rfl, others⟩

theorem locked_by_acquire (locked : LockedBy cfg (before.lock bucket) count)
    (valid : cfg.Valid coro) (free : ¬ before.HeldByOther (callerId coro) bucket)
    (more : after coro = count coro + 1) (others : ∀ other, other ≠ coro → after other = count other) :
    LockedBy cfg ((before.acquire (callerId coro) bucket).lock bucket) after := by
  unfold MapState.acquire
  cases held : before.lock bucket with
  | none =>
      rw [held] at locked
      simp only [Function.update_self]
      refine ⟨coro, valid, rfl, ?_, ?_⟩
      · rw [more, locked coro]
      · intro other different
        rw [others other different, locked other]
  | some pair =>
      obtain ⟨owner, number⟩ := pair
      rw [held] at locked
      obtain ⟨holder, holderValid, same, total, rest⟩ := locked
      have own : holder = coro := by
        by_contra different
        apply free
        refine ⟨owner, number, held, ?_⟩
        rw [same]
        exact fun equal => different (caller_id_injective holderValid valid equal)
      subst own
      simp only [Function.update_self]
      refine ⟨holder, valid, same, ?_, ?_⟩
      · rw [more, total]
      · intro other different
        rw [others other different, rest other different]

theorem locked_by_release (locked : LockedBy cfg (before.lock bucket) count)
    (less : count coro = after coro + 1) (others : ∀ other, other ≠ coro → after other = count other) :
    LockedBy cfg ((before.release bucket).lock bucket) after := by
  obtain ⟨valid, held, rest⟩ := locked_by_positive locked (show 0 < count coro by omega)
  unfold MapState.release
  cases left : after coro with
  | zero =>
      have one : count coro = 1 := by omega
      rw [one] at held
      simp only [held, Function.update_self]
      intro other
      by_cases same : other = coro
      · rw [same, left]
      · rw [others other same, rest other same]
  | succ fewer =>
      have several : count coro = fewer + 2 := by omega
      rw [several] at held
      simp only [held, Function.update_self]
      refine ⟨coro, valid, rfl, left.symm, ?_⟩
      intro other different
      rw [others other different, rest other different]

theorem acquire_elsewhere {other : Nat} (caller : Nat) (different : other ≠ bucket) :
    (before.acquire caller bucket).lock other = before.lock other := by
  unfold MapState.acquire
  split <;> exact Function.update_of_ne different _ _

theorem release_elsewhere {other : Nat} (different : other ≠ bucket) :
    (before.release bucket).lock other = before.lock other := by
  unfold MapState.release
  split <;> exact Function.update_of_ne different _ _

theorem release_same (before : MapState V) (bucket : Nat) :
    (before.release bucket).map = before.map ∧
      (before.release bucket).numBuckets = before.numBuckets ∧
      (before.release bucket).isPrimary = before.isPrimary := by
  unfold MapState.release
  split <;> exact ⟨rfl, rfl, rfl⟩

/-- A lock that is taken and given back at once leaves the owner and the count
as they were. -/
theorem acquire_release_lock (before : MapState V) (caller bucket : Nat)
    (positive : ∀ owner count, before.lock bucket = some (owner, count) → 0 < count) (other : Nat) :
    ((before.acquire caller bucket).release bucket).lock other = before.lock other := by
  by_cases same : other = bucket
  · subst same
    unfold MapState.acquire
    cases held : before.lock other with
    | none => simp [MapState.release]
    | some pair =>
        obtain ⟨owner, count⟩ := pair
        obtain ⟨fewer, shape⟩ := Nat.exists_eq_succ_of_ne_zero (positive owner count held).ne'
        subst shape
        simp [MapState.release]
  · rw [release_elsewhere same, acquire_elsewhere caller same]

/-- An update gives back one lock at a primary and none at a backup. -/
theorem store_release_lock (before : MapState V) (key : UInt64) (entry : Option V) (bucket : Nat) :
    ((before.store key entry).releaseIfPrimary bucket).lock =
      if before.isPrimary then (before.release bucket).lock else before.lock := by
  unfold MapState.releaseIfPrimary MapState.release MapState.store
  by_cases primary : before.isPrimary = true
  · simp only [primary, if_true]
    split <;> rfl
  · simp only [primary]
    rfl

end Abstract

end Fasst.TxLocks

import Fasst.TxInvariant

/-!
# Lock ownership over whole runs

What the invariant of the swarm says in terms of the buckets themselves, and
two consequences: no assertion of a primary table fails, and the updates in
flight to one bucket of a backup all come from one coroutine.
-/

namespace Fasst.TxOwnership

open List Fasst.FixedTableModel Fasst.FixedTableLocks Fasst.FixedTableEdits Fasst.FixedTableSpec
open Fasst.Placement Fasst.TxModel Fasst.TxCluster Fasst.Aligned Fasst.TxLocal Fasst.TxCalls
open Fasst.TxHandler Fasst.TxSteps Fasst.TxLocks Fasst.TxInvariant

set_option autoImplicit false

variable {V : Type} {cfg : Config} {init state : State V} {coro : CoroId}

/-- The items of the current write set in a bucket whose lock was granted and
has not been released by a put, del or unlock request. -/
def lockedItems (state : State V) (coro : CoroId) (machine reqtype bucket : Nat) : Nat :=
  (state.tx coro).writeSet.countP fun item =>
    holds (state.tx coro) item.loc &&
      decide (item.primaryMn = machine ∧ item.rpcReqtype = reqtype ∧
        calcBucketIndex (state.tables machine reqtype) item.keyhash = bucket)

theorem locked_items_count {sizes : Nat → Nat → Nat} (inv : ClusterInv cfg sizes state)
    (coro : CoroId) (machine reqtype bucket : Nat) :
    lockedItems state coro machine reqtype bucket =
      lockCount cfg sizes (state.tx coro) ⟨machine, reqtype, bucket⟩ := by
  unfold lockedItems lockCount
  rw [countP_map]
  apply countP_congr
  intro item member
  have ok := (inv.txInv coro).writeOk item member
  have place := place_of_item inv ok
  simp only [Function.comp_apply, place, Place.mk.injEq, Bool.and_eq_true, decide_eq_true_eq]
  constructor
  · rintro ⟨held, sameMachine, sameType, sameBucket⟩
    rw [ok.keyhash] at sameBucket
    subst sameMachine sameType
    exact ⟨held, rfl, rfl, sameBucket⟩
  · rintro ⟨held, sameMachine, sameType, sameBucket⟩
    subst sameMachine sameType
    rw [ok.keyhash]
    exact ⟨held, rfl, rfl, sameBucket⟩

/-- The lock fields of a bucket: held by one coroutine that has as many locked
items in it as the bucket counts, or free and nobody's. -/
def Owned (cfg : Config) (state : State V) (machine reqtype bucket : Nat) : Prop :=
  let entry := (state.tables machine reqtype).buckets bucket
  (isLocked entry.timestamp ↔ 0 < entry.numLocks) ∧ entry.numLocks < kMaxNumLocks ∧
    (¬ isLocked entry.timestamp → ∀ coro, lockedItems state coro machine reqtype bucket = 0) ∧
    (isLocked entry.timestamp → ∃ coro, cfg.Valid coro ∧ entry.lockerId = callerId coro ∧
      entry.numLocks = lockedItems state coro machine reqtype bucket ∧
      (∀ other, cfg.Valid other → entry.lockerId = callerId other → other = coro) ∧
      ∀ other, other ≠ coro → lockedItems state other machine reqtype bucket = 0)

/-- `hots_glbl_crid_t` packs the two identifiers without loss, and the 27 bits
of the locker field keep all of it. -/
def CallerIdExact (coro : CoroId) : Prop :=
  callerId coro = coro.coroId + 2 ^ hotsCoroIdBits * coro.wrkrGid ∧
    callerId coro % 2 ^ kCallerIdBits = callerId coro ∧ callerId coro ≠ kInvalidCallerId

theorem owned_of_inv {sizes : Nat → Nat → Nat} (inv : ClusterInv cfg sizes state)
    (machine reqtype bucket : Nat) : Owned cfg state machine reqtype bucket := by
  have locked := inv.locks ⟨machine, reqtype, bucket⟩
  have wf := (inv.tableOk machine reqtype).locks bucket
  have counts := fun coro => locked_items_count inv coro machine reqtype bucket
  rw [LockWf] at wf
  unfold Owned
  simp only [counts]
  cases lock : lockOf ((state.tables machine reqtype).buckets bucket) with
  | none =>
      simp only [lock] at locked wf
      have free := (not_locked_iff _).mpr ((lock_of_none_iff _).mp lock)
      refine ⟨?_, ?_, fun _ => locked, fun taken => absurd taken free⟩
      · rw [wf.2]
        exact ⟨fun taken => absurd taken free, fun positive => absurd positive (Nat.lt_irrefl 0)⟩
      · rw [wf.2]
        decide
  | some pair =>
      obtain ⟨owner, count⟩ := pair
      obtain ⟨taken, sameOwner, sameCount⟩ := lock_of_some _ owner count lock
      have few := few_locks inv machine reqtype bucket owner count lock
      simp only [lock] at locked wf
      obtain ⟨holder, valid, isHolder, total, others⟩ := locked
      rw [sameOwner, sameCount]
      refine ⟨⟨fun _ => wf.2.1, fun _ => taken⟩, ?_, fun free => absurd taken free, fun _ => ?_⟩
      · simp only [rpcMaxMsgCoro] at few
        simp only [kMaxNumLocks, kNumLocksBits]
        omega
      · refine ⟨holder, valid, isHolder, total, ?_, others⟩
        intro other otherValid same
        exact caller_id_injective otherValid valid (same.symm.trans isHolder)

theorem caller_id_exact (valid : cfg.Valid coro) : CallerIdExact coro := by
  obtain ⟨value, _, _⟩ := caller_id_value valid
  obtain ⟨small, notInvalid⟩ := caller_id_ok valid
  exact ⟨value, Nat.mod_eq_of_lt small, notInvalid⟩

/-- At a primary a handler can only end its process by `exit`, for want of space. -/
theorem no_assertion_at_primary {sizes : Nat → Nat → Nat} (inv : ClusterInv cfg sizes state)
    (valid : cfg.Valid coro) {index : Nat} {req : DsReq V} (stale : UInt64)
    (found : (state.tx coro).batch[index]? = some ⟨.ds req, none⟩)
    (primary : (state.tables req.machine req.rpcReqtype).isPrimary = true) (fault : Fault) :
    dsFixedtableRpcHandler (state.tables req.machine req.rpcReqtype) req stale ≠
      .error (.assertion fault) := by
  intro stopped
  rcases handler_effect (inv.tableOk _ _) (open_req_ok inv valid found) stale with
    ⟨resp, after, ran, _⟩ | ⟨_, ran⟩ | ⟨removal, missing, ran⟩
  · rw [stopped] at ran
    cases ran
  · rw [stopped, if_pos primary] at ran
    cases ran
  · -- The key of a removal is present: its lock was granted on that condition.
    have role := inv.role req.machine req.rpcReqtype
    rw [primary] at role
    have kind := (decide_eq_true_eq.mp role.symm)
    cases open_slot (inv.txInv coro) found rfl with
    | read item member same =>
        rw [ds_of_generic same] at removal
        cases removal
    | lock item member same =>
        rw [ds_of_generic same] at removal
        simp only at removal
        split_ifs at removal
    | unlock item member same =>
        rw [ds_of_generic same] at removal
        cases removal
    | update replI item member same vec rest at_ inside bound held =>
        have ok := (inv.txInv coro).writeOk item member
        have shape := Request.ds.inj same
        rw [shape] at removal kind missing
        rcases Nat.eq_zero_or_pos replI with zero | positive
        · subst zero
          simp only at removal missing
          rw [replica_mn_zero, replica_reqtype_small ok bound, Nat.add_zero] at missing
          have insert := (inv.modes coro item member held).mp missing
          rw [insert] at removal
          cases removal
        · exact absurd kind (replica_is_backup ok bound positive)
    | log backI record bound same => cases same

/-- Bucket locks in every reachable state: they are owned and balanced, no
assertion of a primary fails, and a finished transaction holds none. -/
theorem bucket_locks_owned_and_balanced (initial : Initial cfg init)
    (reached : Reachable cfg init state) :
    (∀ machine reqtype bucket, (state.tables machine reqtype).isPrimary = true →
      Owned cfg state machine reqtype bucket) ∧
    (∀ coro, cfg.Valid coro → CallerIdExact coro) ∧
    (∀ (coro : CoroId) (index : Nat) (req : DsReq V) (stale : UInt64) (fault : Fault),
      cfg.Valid coro →
      (state.tx coro).batch[index]? = some ⟨.ds req, none⟩ →
      (state.tables req.machine req.rpcReqtype).isPrimary = true →
      dsFixedtableRpcHandler (state.tables req.machine req.rpcReqtype) req stale ≠
        .error (.assertion fault)) ∧
    (∀ coro, cfg.Valid coro → (state.tx coro).pc = .app →
      (state.tx coro).status = .committed ∨ (state.tx coro).status = .aborted →
      ∀ machine reqtype bucket,
        isLocked ((state.tables machine reqtype).buckets bucket).timestamp →
          ((state.tables machine reqtype).buckets bucket).lockerId ≠ callerId coro) := by
  have inv := reachable_inv initial reached
  refine ⟨fun machine reqtype bucket _ => owned_of_inv inv machine reqtype bucket,
    fun coro valid => caller_id_exact valid, ?_, ?_⟩
  · intro coro index req stale fault valid found primary
    exact no_assertion_at_primary inv valid stale found primary fault
  · intro coro valid at_ ended machine reqtype bucket taken same
    obtain ⟨positive, _, _, owner⟩ := owned_of_inv inv machine reqtype bucket
    obtain ⟨holder, _, _, total, unique, _⟩ := owner taken
    have mine := unique coro valid same
    have count := positive.mp taken
    rw [total, ← mine] at count
    obtain ⟨item, member, passed⟩ := countP_pos_iff.mp count
    rw [finished_holds (inv.txInv coro) at_ ended] at passed
    cases passed

def oneMachine : Config where
  mappings := ⟨1, 1, 0, false, by decide, one_thread_fits, Nat.zero_le hotsMaxBackups, by decide⟩
  lockServerOff := rfl
  numCoro := 3
  numCoroBound := three_coros_fit
  hash := id

/-- A coroutine has locked a bucket to insert a key. -/
theorem bucket_locks_owned_and_balanced_insert :
    ∃ state, runLabels oneMachine (newSwarm 8 1 0 (0 : Nat))
        [.start ⟨0, 1⟩, .addToWriteSet ⟨0, 1⟩ 20 5 0 ⟨8, 0, 7⟩ .insert, .doRead ⟨0, 1⟩,
          .handle ⟨0, 1⟩ 0 0] = some state ∧
      isLocked ((state.tables 0 20).buckets 0).timestamp ∧ Owned oneMachine state 0 20 0 := by
  have observed : (runLabels oneMachine (newSwarm 8 1 0 (0 : Nat))
      [.start ⟨0, 1⟩, .addToWriteSet ⟨0, 1⟩ 20 5 0 ⟨8, 0, 7⟩ .insert, .doRead ⟨0, 1⟩,
        .handle ⟨0, 1⟩ 0 0]).map (fun state =>
          ((state.tables 0 20).isPrimary, ((state.tables 0 20).buckets 0).timestamp &&& 1)) =
      some (true, 1) := by
    decide +kernel
  obtain ⟨state, ran, same⟩ := Option.map_eq_some_iff.mp observed
  obtain ⟨primary, locked⟩ := Prod.mk.inj same
  have initial := new_swarm_initial oneMachine 8 1 0 (0 : Nat) (by decide)
  have reached := run_labels_reachable _ .refl ran
  exact ⟨state, ran, locked, (bucket_locks_owned_and_balanced initial reached).1 0 20 0 primary⟩

section Backups

/-- Every table has as many buckets as each of its backups. -/
def SameSizes (cfg : Config) (sizes : Nat → Nat → Nat) : Prop :=
  ∀ primaryMn reqtype backI, primaryMn < cfg.mappings.numMachines →
    reqtype % rpcPrimaryDsReqSpacing = 0 → backI < cfg.mappings.numBackups →
      sizes (cfg.mappings.getBackupMnFromPrimary primaryMn backI) (reqtype + (backI + 1)) =
        sizes primaryMn reqtype

def isUpdate : DsReqtype V → Bool
  | .put _ | .del => true
  | _ => false

def updatesBucket (state : State V) (machine reqtype bucket : Nat) : Request V → Bool
  | .ds req => isUpdate req.reqType && decide (req.machine = machine ∧ req.rpcReqtype = reqtype ∧
      calcBucketIndex (state.tables machine reqtype) req.keyhash = bucket)
  | .log _ _ _ => false

/-- The coroutine has sent an update to this bucket and has not yet taken note
of the response. -/
def Outstanding (state : State V) (coro : CoroId) (machine reqtype bucket : Nat) : Prop :=
  ((state.tx coro).batch.any fun slot => updatesBucket state machine reqtype bucket slot.req) = true

theorem outstanding_slot {machine reqtype bucket : Nat}
    (sent : Outstanding state coro machine reqtype bucket) :
    ∃ slot ∈ (state.tx coro).batch, ∃ req, slot.req = .ds req ∧ isUpdate req.reqType = true ∧
      req.machine = machine ∧ req.rpcReqtype = reqtype ∧
      calcBucketIndex (state.tables machine reqtype) req.keyhash = bucket := by
  obtain ⟨slot, member, passed⟩ := any_eq_true.mp sent
  cases kind : slot.req with
  | log machine wrkrLid record =>
      rw [kind] at passed
      cases passed
  | ds req =>
      rw [kind, updatesBucket, Bool.and_eq_true, decide_eq_true_eq] at passed
      exact ⟨slot, member, req, kind, passed⟩

/-- Updates are in flight only in the last phase of a commit. Those at backups
are sent while the primary bucket is locked. -/
theorem outstanding_update {tx : TxState V} (inv : TxInv cfg coro tx) {slot : ReqSlot V}
    {req : DsReq V} (member : slot ∈ tx.batch) (same : slot.req = .ds req)
    (update : isUpdate req.reqType = true) :
    ∃ replI item, item ∈ tx.writeSet ∧ Request.ds req = updateReq coro replI item ∧
      replI ≤ cfg.mappings.numBackups ∧ (0 < replI → holds tx item.loc = true) := by
  have stage := inv.stage
  have notGeneric : ∀ {reqType : DsReqtype V} {item : RwsetItem V},
      slot.req = genericGetReq coro reqType item → isUpdate reqType = true := by
    intro reqType item generic
    rw [same] at generic
    rw [ds_of_generic generic] at update
    exact update
  unfold StageInv at stage
  split at stage
  case h_1 => rw [stage.1] at member; cases member
  case h_2 =>
      obtain ⟨_, _, _, _, reads, writes, split, readSlots, lockSlots⟩ := stage
      rw [split] at member
      rcases mem_append.mp member with inReads | inWrites
      · obtain ⟨item, _, isRead⟩ := forall₂_mem_right readSlots inReads
        cases notGeneric isRead
      · obtain ⟨item, _, isLock, _⟩ := forall₂_mem_right lockSlots inWrites
        have kind := notGeneric isLock
        split_ifs at kind <;> cases kind
  case h_3 =>
      obtain ⟨_, _, _, _, _, readSlots⟩ := stage
      obtain ⟨item, _, isRead⟩ := forall₂_mem_right readSlots member
      cases notGeneric isRead
  case h_4 =>
      obtain ⟨_, _, _, unlockSlots⟩ := stage
      obtain ⟨item, _, isUnlock, _⟩ := forall₂_mem_right unlockSlots member
      cases notGeneric isUnlock
  case h_5 =>
      obtain ⟨_, _, _, _, _, _, record, _, reqs⟩ := stage
      have listed : slot.req ∈ logReqs cfg coro record := by
        rw [← reqs]
        exact mem_map_of_mem member
      obtain ⟨_, _, isLog⟩ := mem_map.mp listed
      rw [same] at isLog
      cases isLog
  case h_6 vec rest at_ =>
      obtain ⟨_, noUnlock, locked, _, done, split, _, later, slots⟩ := stage
      obtain ⟨⟨replI, item⟩, inside, isUpdate, _⟩ := forall₂_mem_right slots member
      obtain ⟨inVec, inSet⟩ := List.mem_product.mp inside
      rw [same] at isUpdate
      refine ⟨replI, item, inSet, isUpdate, all_vecs_bound split inVec, ?_⟩
      intro backup
      rcases all_vecs_split split with ⟨_, inRest⟩ | ⟨last, _, _⟩
      · have unapplied := later 0 inRest item inSet
        rw [replica_loc_zero (inv.writeOk item inSet)] at unapplied
        exact holds_of (locked item inSet).2 (noUnlock item.loc) unapplied
      · rw [last, mem_singleton] at inVec
        omega

/-- The primary bucket that mirrors the bucket of an update at a backup. -/
theorem backup_place {sizes : Nat → Nat → Nat} (inv : ClusterInv cfg sizes state)
    (sameSizes : SameSizes cfg sizes) {replI : Nat} {item : RwsetItem V} (ok : ItemOk cfg item)
    (bound : replI ≤ cfg.mappings.numBackups) (backup : 0 < replI) :
    ∃ primaryMn, primaryMn < cfg.mappings.numMachines ∧
      replicaMn item replI = cfg.mappings.getBackupMnFromPrimary primaryMn (replI - 1) ∧
      placeOf cfg sizes item.loc =
        ⟨primaryMn, item.rpcReqtype, calcBucketIndex (state.tables (replicaMn item replI)
          (replicaReqtype item.rpcReqtype replI)) item.keyhash⟩ := by
  have inRing : item.primaryMn < cfg.mappings.numMachines := by
    rw [ok.primaryMn]
    exact primary_lt cfg.mappings cfg.lockServerOff _
  have machine : replicaMn item replI =
      cfg.mappings.getBackupMnFromPrimary item.primaryMn (replI - 1) := by
    rw [replicaMn, if_neg (by omega), ok.backupMn]
    simp [getElem?_range (show replI - 1 < cfg.mappings.numBackups by omega)]
  refine ⟨item.primaryMn, inRing, machine, ?_⟩
  have size := sameSizes item.primaryMn item.rpcReqtype (replI - 1) inRing ok.spacing (by omega)
  rw [show item.rpcReqtype + (replI - 1 + 1) = item.rpcReqtype + replI by omega,
    ← replica_reqtype_small ok bound, ← machine] at size
  rw [place_of_item inv ok, MapState.bucketOf, mapAt, abstractOf, calcBucketIndex, ok.keyhash,
    inv.size, inv.size, size]

/-- The updates in flight to one bucket of a backup come from one coroutine. -/
theorem backup_updates_from_one_coroutine (initial : Initial cfg init)
    (sameSizes : SameSizes cfg (tableSizes init)) (reached : Reachable cfg init state)
    (machine reqtype bucket : Nat) (backup : reqtype % rpcPrimaryDsReqSpacing ≠ 0)
    (coro other : CoroId) (sent : Outstanding state coro machine reqtype bucket)
    (otherSent : Outstanding state other machine reqtype bucket) : coro = other := by
  have inv := reachable_inv initial reached
  obtain ⟨slot, member, req, same, update, sameMachine, sameType, sameBucket⟩ :=
    outstanding_slot sent
  obtain ⟨otherSlot, otherMember, otherReq, otherSame, otherUpdate, otherMachine, otherType,
    otherBucket⟩ := outstanding_slot otherSent
  obtain ⟨replI, item, inSet, shape, bound, holding⟩ :=
    outstanding_update (inv.txInv coro) member same update
  obtain ⟨otherI, target, targetIn, otherShape, otherBound, otherHolding⟩ :=
    outstanding_update (inv.txInv other) otherMember otherSame otherUpdate
  have ok := (inv.txInv coro).writeOk item inSet
  have targetOk := (inv.txInv other).writeOk target targetIn
  rw [Request.ds.inj shape] at sameMachine sameType sameBucket
  rw [Request.ds.inj otherShape] at otherMachine otherType otherBucket
  simp only at sameMachine sameType sameBucket otherMachine otherType otherBucket
  -- The request type gives the replica number and the table.
  have spacing := ok.spacing
  have targetSpacing := targetOk.spacing
  have backups := cfg.mappings.backupsBound
  have types := sameType.trans otherType.symm
  rw [replica_reqtype_small ok bound, replica_reqtype_small targetOk otherBound] at types
  rw [← sameType, replica_reqtype_small ok bound] at backup
  simp only [rpcPrimaryDsReqSpacing, hotsMaxBackups] at spacing targetSpacing backups backup
  have sameRepl : replI = otherI := by omega
  have sameTable : item.rpcReqtype = target.rpcReqtype := by omega
  have positive : 0 < replI := by omega
  subst sameRepl
  obtain ⟨primaryMn, inRing, ring, place⟩ := backup_place inv sameSizes ok bound positive
  obtain ⟨otherMn, otherInRing, otherRing, otherPlace⟩ :=
    backup_place inv sameSizes targetOk bound positive
  -- The ring gives the primary.
  have samePrimary : primaryMn = otherMn := by
    apply backup_injective cfg.mappings cfg.lockServerOff primaryMn otherMn (replI - 1) inRing
      otherInRing
    rw [← ring, ← otherRing, sameMachine, otherMachine]
  rw [sameMachine, sameType, sameBucket] at place
  rw [otherMachine, otherType, otherBucket] at otherPlace
  apply holder_unique inv targetIn (otherHolding positive) inSet (holding positive)
  rw [place, otherPlace, samePrimary, sameTable]

/-- Two machines, each the backup of the other. -/
def twoMachines : Config where
  mappings := ⟨2, 1, 1, false, two_workers_fit, one_thread_fits, by decide, by decide⟩
  lockServerOff := rfl
  numCoro := 3
  numCoroBound := three_coros_fit
  hash := id

/-- A run of one insertion, up to the batch for the backup. -/
def insertRun : List (Label Nat) :=
  [.start ⟨0, 1⟩, .addToWriteSet ⟨0, 1⟩ 20 5 0 ⟨8, 0, 7⟩ .insert, .doRead ⟨0, 1⟩,
    .handle ⟨0, 1⟩ 0 0, .resume ⟨0, 1⟩, .commit ⟨0, 1⟩, .handle ⟨0, 1⟩ 0 0, .resume ⟨0, 1⟩]

theorem backup_updates_from_one_coroutine_insert :
    ∃ state, runLabels twoMachines (newSwarm 8 1 0 (0 : Nat)) insertRun = some state ∧
      Outstanding state ⟨0, 1⟩ 1 21 0 ∧
      ∀ other, Outstanding state other 1 21 0 → ⟨0, 1⟩ = other := by
  have observed : (runLabels twoMachines (newSwarm 8 1 0 (0 : Nat)) insertRun).map (fun state =>
      (state.tx ⟨0, 1⟩).batch.any fun slot => updatesBucket state 1 21 0 slot.req) = some true := by
    decide +kernel
  obtain ⟨state, ran, sent⟩ := Option.map_eq_some_iff.mp observed
  have initial := new_swarm_initial twoMachines 8 1 0 (0 : Nat) (by decide)
  have reached := run_labels_reachable _ .refl ran
  refine ⟨state, ran, sent, fun other otherSent => ?_⟩
  exact backup_updates_from_one_coroutine initial (fun _ _ _ _ _ _ => rfl) reached 1 21 0
    (by decide) ⟨0, 1⟩ other sent otherSent

end Backups

end Fasst.TxOwnership

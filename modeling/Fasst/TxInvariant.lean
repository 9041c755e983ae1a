import Fasst.TxLocks
import Fasst.FixedTableMap

/-!
# The invariant of the swarm
-/

namespace Fasst.TxInvariant

open List Fasst.FixedTableModel Fasst.FixedTableLocks Fasst.FixedTableEdits Fasst.FixedTableSpec
open Fasst.Placement Fasst.TxModel Fasst.TxCluster Fasst.Aligned Fasst.TxLocal Fasst.TxCalls
open Fasst.TxHandler Fasst.TxSteps Fasst.TxLocks Fasst.FixedTableInvariant Fasst.FixedTableMap

set_option autoImplicit false

variable {V : Type} {cfg : Config} {sizes : Nat → Nat → Nat} {state : State V} {coro : CoroId}

structure ClusterInv (cfg : Config) (sizes : Nat → Nat → Nat) (state : State V) : Prop where
  txInv : ∀ coro, TxInv cfg coro (state.tx coro)
  tableOk : ∀ machine reqtype, TableOk (dsKeyhash cfg) (state.tables machine reqtype)
  role : ∀ machine reqtype,
    (state.tables machine reqtype).isPrimary = decide (reqtype % rpcPrimaryDsReqSpacing = 0)
  size : ∀ machine reqtype, (state.tables machine reqtype).numBuckets = sizes machine reqtype
  locks : ∀ place : Place,
    LockedBy cfg (lockOf ((state.tables place.machine place.reqtype).buckets place.bucket))
      fun coro => lockCount cfg sizes (state.tx coro) place
  modes : ∀ coro, ∀ item ∈ (state.tx coro).writeSet, holds (state.tx coro) item.loc = true →
    (contents (dsKeyhash cfg) (state.tables item.primaryMn item.rpcReqtype) item.key = none ↔
      item.writeMode = .insert)

def mapAt (cfg : Config) (state : State V) (machine reqtype : Nat) : MapState V :=
  abstractOf (dsKeyhash cfg) (state.tables machine reqtype)

/-- The entry that an item of the write set is to have after the commit. -/
def entryOf (item : RwsetItem V) : Option V :=
  if item.writeMode = .del then none else some item.obj.val

section Places

theorem place_of_item (inv : ClusterInv cfg sizes state) {item : RwsetItem V} (ok : ItemOk cfg item) :
    placeOf cfg sizes item.loc =
      ⟨item.primaryMn, item.rpcReqtype,
        (mapAt cfg state item.primaryMn item.rpcReqtype).bucketOf (dsKeyhash cfg item.key)⟩ := by
  have primary : primaryOf cfg item.loc = item.primaryMn := ok.primaryMn.symm
  rw [placeOf, primary, MapState.bucketOf, mapAt, abstractOf, ← inv.size]
  rfl

/-- A coroutine that holds the lock of an item owns the bucket. -/
theorem owner_of_holds (inv : ClusterInv cfg sizes state) {item : RwsetItem V}
    (member : item ∈ (state.tx coro).writeSet) (held : holds (state.tx coro) item.loc = true) :
    ∃ count, (mapAt cfg state item.primaryMn item.rpcReqtype).lock
      ((mapAt cfg state item.primaryMn item.rpcReqtype).bucketOf (dsKeyhash cfg item.key)) =
        some (callerId coro, count) := by
  have ok := (inv.txInv coro).writeOk item member
  have positive : 0 < lockCount cfg sizes (state.tx coro) (placeOf cfg sizes item.loc) :=
    lock_count_pos member held
  have locked := inv.locks (placeOf cfg sizes item.loc)
  obtain ⟨_, lock, _⟩ := locked_by_positive locked positive
  rw [place_of_item inv ok] at lock
  exact ⟨_, lock⟩

/-- Two coroutines do not hold locks in one bucket. -/
theorem holder_unique (inv : ClusterInv cfg sizes state) {other : CoroId} {item target : RwsetItem V}
    (member : item ∈ (state.tx coro).writeSet) (held : holds (state.tx coro) item.loc = true)
    (targetMember : target ∈ (state.tx other).writeSet)
    (targetHeld : holds (state.tx other) target.loc = true)
    (same : placeOf cfg sizes target.loc = placeOf cfg sizes item.loc) : other = coro := by
  have positive : 0 < lockCount cfg sizes (state.tx coro) (placeOf cfg sizes item.loc) :=
    lock_count_pos member held
  have otherPositive : 0 < lockCount cfg sizes (state.tx other) (placeOf cfg sizes target.loc) :=
    lock_count_pos targetMember targetHeld
  obtain ⟨_, _, others⟩ := locked_by_positive (inv.locks (placeOf cfg sizes item.loc)) positive
  by_contra different
  rw [same] at otherPositive
  have zero := others other different
  omega

theorem few_locks (inv : ClusterInv cfg sizes state) (machine reqtype bucket owner count : Nat)
    (lock : lockOf ((state.tables machine reqtype).buckets bucket) = some (owner, count)) :
    count ≤ rpcMaxMsgCoro := by
  have locked := inv.locks ⟨machine, reqtype, bucket⟩
  simp only [lock] at locked
  obtain ⟨holder, _, _, total, _⟩ := locked
  rw [total]
  exact lock_count_le (inv.txInv holder) _

/-- Nobody locks a bucket of a backup. -/
theorem backup_free (inv : ClusterInv cfg sizes state) (machine reqtype bucket : Nat)
    (backup : reqtype % rpcPrimaryDsReqSpacing ≠ 0) :
    lockOf ((state.tables machine reqtype).buckets bucket) = none := by
  cases lock : lockOf ((state.tables machine reqtype).buckets bucket) with
  | none => rfl
  | some pair =>
      obtain ⟨owner, count⟩ := pair
      have locked := inv.locks ⟨machine, reqtype, bucket⟩
      have wf := (inv.tableOk machine reqtype).locks bucket
      simp only [lock] at locked
      rw [LockWf, lock] at wf
      obtain ⟨holder, _, _, total, _⟩ := locked
      have positive : 0 < lockCount cfg sizes (state.tx holder) ⟨machine, reqtype, bucket⟩ :=
        Nat.lt_of_lt_of_eq wf.2.1 total
      obtain ⟨loc, member, passed⟩ := countP_pos_iff.mp positive
      obtain ⟨item, inSet, same⟩ := mem_map.mp member
      rw [Bool.and_eq_true, decide_eq_true_eq] at passed
      have sameType : loc.1 = reqtype := congrArg Place.reqtype passed.2
      apply absurd ((inv.txInv holder).writeOk item inSet).spacing
      rw [show item.rpcReqtype = loc.1 from congrArg Prod.fst same, sameType]
      exact backup

end Places

section Requests

/-- What a datastore request asks for, by the item it is about. -/
theorem ds_of_generic {reqType : DsReqtype V} {item : RwsetItem V} {req : DsReq V}
    (same : Request.ds req = genericGetReq coro reqType item) :
    req = ⟨item.primaryMn, item.rpcReqtype, callerId coro, reqType, item.key, item.keyhash⟩ :=
  Request.ds.inj same

theorem replica_mn_zero (item : RwsetItem V) : replicaMn item 0 = item.primaryMn := rfl

theorem entry_of_update (item : RwsetItem V) :
    DsReqtype.entry (if item.writeMode = .del then .del else .put item.obj.val) =
      some (entryOf item) := by
  unfold entryOf
  split_ifs <;> rfl

theorem replica_is_backup {item : RwsetItem V} (ok : ItemOk cfg item) {replI : Nat}
    (bound : replI ≤ cfg.mappings.numBackups) (positive : 0 < replI) :
    replicaReqtype item.rpcReqtype replI % rpcPrimaryDsReqSpacing ≠ 0 := by
  have spacing := ok.spacing
  have backups := cfg.mappings.backupsBound
  rw [replica_reqtype_small ok bound]
  simp only [rpcPrimaryDsReqSpacing, hotsMaxBackups] at spacing backups ⊢
  omega

/-- A request to the primary of an item meets the discipline of the table, if
its sender holds the lock it is about to use. -/
theorem primary_req_ok (inv : ClusterInv cfg sizes state) (valid : cfg.Valid coro)
    {item : RwsetItem V} (ok : ItemOk cfg item) (reqType : DsReqtype V)
    (held : (reqType = .unlock ∨ ∃ entry, DsReqtype.entry reqType = some entry) →
      item ∈ (state.tx coro).writeSet ∧ holds (state.tx coro) item.loc = true) :
    ReqOk (dsKeyhash cfg) (mapAt cfg state item.primaryMn item.rpcReqtype)
      ⟨item.primaryMn, item.rpcReqtype, callerId coro, reqType, item.key, item.keyhash⟩ := by
  have primary : (mapAt cfg state item.primaryMn item.rpcReqtype).isPrimary = true := by
    rw [mapAt, abstractOf, inv.role, ok.spacing]
    rfl
  constructor
  · exact ok.keyhash
  · exact ok.keyValid
  · exact caller_id_ok valid
  · intro count lock
    have bound := few_locks inv _ _ _ _ _ lock
    simp only [rpcMaxMsgCoro] at bound
    simp only [kMaxNumLocks, kNumLocksBits]
    omega
  · exact Or.inl primary
  · intro _ kind
    obtain ⟨member, holding⟩ := held kind
    exact owner_of_holds inv member holding
  · intro backup
    rw [primary] at backup
    cases backup

/-- So does an update at a backup. -/
theorem backup_req_ok (inv : ClusterInv cfg sizes state) (valid : cfg.Valid coro)
    {item : RwsetItem V} (ok : ItemOk cfg item) {replI : Nat}
    (bound : replI ≤ cfg.mappings.numBackups) (positive : 0 < replI) (machine : Nat)
    (reqType : DsReqtype V) (entry : Option V) (kind : DsReqtype.entry reqType = some entry) :
    ReqOk (dsKeyhash cfg) (mapAt cfg state machine (replicaReqtype item.rpcReqtype replI))
      ⟨machine, replicaReqtype item.rpcReqtype replI, callerId coro, reqType, item.key,
        item.keyhash⟩ := by
  have backup := replica_is_backup ok bound positive
  have free := fun bucket => backup_free inv machine _ bucket backup
  have role : (mapAt cfg state machine (replicaReqtype item.rpcReqtype replI)).isPrimary = false := by
    rw [mapAt, abstractOf, inv.role]
    exact decide_eq_false backup
  constructor
  · exact ok.keyhash
  · exact ok.keyValid
  · exact caller_id_ok valid
  · intro count lock
    have unlocked := (free _).symm.trans lock
    cases unlocked
  · exact Or.inr ⟨entry, kind⟩
  · intro primary
    rw [role] at primary
    cases primary
  · exact fun _ => free

/-- Every request that waits for its handler meets the discipline of the table. -/
theorem open_req_ok (inv : ClusterInv cfg sizes state) (valid : cfg.Valid coro) {index : Nat}
    {req : DsReq V} (found : (state.tx coro).batch[index]? = some ⟨.ds req, none⟩) :
    ReqOk (dsKeyhash cfg) (mapAt cfg state req.machine req.rpcReqtype) req := by
  have txInv := inv.txInv coro
  cases open_slot txInv found rfl with
  | read item member same =>
      rw [ds_of_generic same]
      apply primary_req_ok inv valid (txInv.readOk item member)
      simp [DsReqtype.entry]
  | lock item member same =>
      rw [ds_of_generic same]
      apply primary_req_ok inv valid (txInv.writeOk item member)
      split_ifs <;> simp [DsReqtype.entry]
  | unlock item member same at_ held =>
      rw [ds_of_generic same]
      exact primary_req_ok inv valid (txInv.writeOk item member) .unlock (fun _ => ⟨member, held⟩)
  | update replI item member same vec rest at_ inside bound held =>
      have ok := txInv.writeOk item member
      rw [Request.ds.inj same]
      rcases Nat.eq_zero_or_pos replI with zero | positive
      · subst zero
        rw [replica_mn_zero, replica_reqtype_small ok bound, Nat.add_zero]
        exact primary_req_ok inv valid ok _ (fun _ => ⟨member, held⟩)
      · exact backup_req_ok inv valid ok bound positive _ _ _ (entry_of_update item)
  | log backI record bound same => cases same

end Requests

/-- What an executed datastore request was and did, by the item it is about.
`before` and `after` are the abstract table of the request. -/
inductive DsCase (cfg : Config) (coro : CoroId) (tx : TxState V) (req : DsReq V) (resp : Resp V)
    (before after : MapState V) : Prop where
  | read (item : RwsetItem V) (member : item ∈ tx.readSet) (same : .ds req = readReq coro item)
      (unchanged : after = before) (at_ : tx.pc = .doRead ∨ tx.pc = .validate)
      (effect : Effect (dsKeyhash cfg) before req resp before)
  | denied (item : RwsetItem V) (member : item ∈ tx.writeSet) (same : .ds req = lockReq coro item)
      (refused : itemGranted item resp = false)
      (now : after = before ∨
        (¬ before.HeldByOther (callerId coro) (before.bucketOf (dsKeyhash cfg item.key)) ∧
          after = (before.acquire (callerId coro)
            (before.bucketOf (dsKeyhash cfg item.key))).release
              (before.bucketOf (dsKeyhash cfg item.key))))
      (at_ : tx.pc = .doRead)
  | granted (item : RwsetItem V) (member : item ∈ tx.writeSet) (same : .ds req = lockReq coro item)
      (accepted : itemGranted item resp = true) (fresh : granted tx item.loc = false)
      (noUnlock : NoUnlock tx) (noApply : NoApply tx)
      (free : ¬ before.HeldByOther (callerId coro) (before.bucketOf (dsKeyhash cfg item.key)))
      (now : after = before.acquire (callerId coro) (before.bucketOf (dsKeyhash cfg item.key)))
      (entry : if item.writeMode = .insert then before.map item.key = none
        else ∃ value, before.map item.key = some value ∧ resp.val = some value)
      (at_ : tx.pc = .doRead)
  | unlocked (item : RwsetItem V) (member : item ∈ tx.writeSet)
      (same : .ds req = unlockReq coro item) (held : holds tx item.loc = true)
      (noApply : NoApply tx) (now : after = before.release (before.bucketOf (dsKeyhash cfg item.key)))
      (at_ : tx.pc = .abort)
  | applied (replI : Nat) (item : RwsetItem V) (member : item ∈ tx.writeSet)
      (same : .ds req = updateReq coro replI item) (vec : List Nat) (rest : List (List Nat))
      (at_ : tx.pc = .update vec rest) (inside : replI ∈ vec)
      (bound : replI ≤ cfg.mappings.numBackups) (held : holds tx item.loc = true)
      (fresh : applyCount tx (replicaLoc replI item.loc) = 0)
      (now : after = (before.store item.key (entryOf item)).releaseIfPrimary
        (before.bucketOf (dsKeyhash cfg item.key)))

theorem ds_case (inv : ClusterInv cfg sizes state) {index : Nat} {req : DsReq V} {resp : Resp V}
    {after : MapState V} (found : (state.tx coro).batch[index]? = some ⟨.ds req, none⟩)
    (effect : Effect (dsKeyhash cfg) (mapAt cfg state req.machine req.rpcReqtype) req resp after) :
    DsCase cfg coro (state.tx coro) req resp (mapAt cfg state req.machine req.rpcReqtype) after := by
  cases open_slot (inv.txInv coro) found rfl with
  | read item member same at_ =>
      have kind : req.reqType = .getRdonly := by rw [ds_of_generic same]
      have unchanged : after = mapAt cfg state req.machine req.rpcReqtype := by
        cases effect with
        | found => rfl
        | absent => rfl
        | readLocked => rfl
        | refused => rfl
        | missed _ other => rcases other with ⟨other, _⟩ | ⟨other, _⟩ <;> simp [kind] at other
        | lockedUpd _ other => simp [kind] at other
        | lockedIns other => simp [kind] at other
        | unlocked other => simp [kind] at other
        | stored _ other => simp [kind, DsReqtype.entry] at other
      rw [unchanged] at effect
      exact .read item member same unchanged at_ effect
  | lock item member same at_ fresh noUnlock noApply =>
      have shape := ds_of_generic same
      have kind : req.reqType = if item.writeMode = .insert then .lockForIns else .getForUpd := by
        rw [shape]
      have key : req.key = item.key := by rw [shape]
      have caller : req.callerId = callerId coro := by rw [shape]
      cases effect with
      | found _ other => split_ifs at kind <;> simp [kind] at other
      | absent _ other => split_ifs at kind <;> simp [kind] at other
      | readLocked other => split_ifs at kind <;> simp [kind] at other
      | refused _ outcome =>
          refine .denied item member same ?_ (Or.inl rfl) at_
          unfold itemGranted
          split_ifs at kind ⊢ <;> rcases outcome with ⟨other, type⟩ | ⟨other, type⟩ <;>
            simp [kind, type] at other ⊢
      | missed free outcome =>
          rw [key, caller] at free
          refine .denied item member same ?_ (Or.inr ⟨free, by rw [key, caller]⟩) at_
          unfold itemGranted
          split_ifs at kind ⊢ <;> rcases outcome with ⟨other, type⟩ | ⟨other, type⟩ <;>
            simp [kind, type] at other ⊢
      | lockedUpd value other free entry type val =>
          rw [key, caller] at free
          rw [key] at entry
          have update : item.writeMode ≠ .insert := by
            intro insert
            simp [kind, insert] at other
          refine .granted item member same ?_ fresh noUnlock noApply free (by rw [key, caller]) ?_ at_
          · simp [itemGranted, update, type]
          · rw [if_neg update]
            exact ⟨value, entry, val⟩
      | lockedIns other free entry type =>
          rw [key, caller] at free
          rw [key] at entry
          have insert : item.writeMode = .insert := by
            by_contra update
            simp [kind, update] at other
          refine .granted item member same ?_ fresh noUnlock noApply free (by rw [key, caller]) ?_ at_
          · simp [itemGranted, insert, type]
          · rw [if_pos insert]
            exact entry
      | unlocked other => split_ifs at kind <;> simp [kind] at other
      | stored _ other => split_ifs at kind <;> simp [kind, DsReqtype.entry] at other
  | unlock item member same at_ held noApply =>
      have shape := ds_of_generic same
      have kind : req.reqType = .unlock := by rw [shape]
      have key : req.key = item.key := by rw [shape]
      refine .unlocked item member same held noApply ?_ at_
      cases effect with
      | found _ other => simp [kind] at other
      | absent _ other => simp [kind] at other
      | readLocked other => simp [kind] at other
      | refused _ other => rcases other with ⟨other, _⟩ | ⟨other, _⟩ <;> simp [kind] at other
      | missed _ other => rcases other with ⟨other, _⟩ | ⟨other, _⟩ <;> simp [kind] at other
      | lockedUpd _ other => simp [kind] at other
      | lockedIns other => simp [kind] at other
      | unlocked => rw [key]
      | stored _ other => simp [kind, DsReqtype.entry] at other
  | update replI item member same vec rest at_ inside bound held fresh =>
      have kind : DsReqtype.entry req.reqType = some (entryOf item) := by
        rw [Request.ds.inj same]
        exact entry_of_update item
      have key : req.key = item.key := by rw [Request.ds.inj same]
      refine .applied replI item member same vec rest at_ inside bound held fresh ?_
      cases effect with
      | found _ other => simp [other, DsReqtype.entry] at kind
      | absent _ other => simp [other, DsReqtype.entry] at kind
      | readLocked other => simp [other, DsReqtype.entry] at kind
      | refused _ other =>
          rcases other with ⟨other, _⟩ | ⟨other, _⟩ <;> simp [other, DsReqtype.entry] at kind
      | missed _ other =>
          rcases other with ⟨other, _⟩ | ⟨other, _⟩ <;> simp [other, DsReqtype.entry] at kind
      | lockedUpd _ other => simp [other, DsReqtype.entry] at kind
      | lockedIns other => simp [other, DsReqtype.entry] at kind
      | unlocked other => simp [other, DsReqtype.entry] at kind
      | stored entry other =>
          rw [key, Option.some.inj (kind.symm.trans other)]
  | log backI record bound same => cases same

section Executed

variable {index : Nat} {req : DsReq V} {resp : Resp V} {table : FixedTable V}

/-- A handler that ran to its end had one of the effects. -/
theorem ds_run (inv : ClusterInv cfg sizes state) (valid : cfg.Valid coro) {stale : UInt64}
    (found : (state.tx coro).batch[index]? = some ⟨.ds req, none⟩)
    (run : dsFixedtableRpcHandler (state.tables req.machine req.rpcReqtype) req stale =
      .ok (resp, table)) :
    TableOk (dsKeyhash cfg) table ∧
      Effect (dsKeyhash cfg) (mapAt cfg state req.machine req.rpcReqtype) req resp
        (abstractOf (dsKeyhash cfg) table) := by
  rcases handler_effect (inv.tableOk _ _) (open_req_ok inv valid found) stale with
    ⟨answer, after, ran, ok, effect⟩ | ⟨_, ran⟩ | ⟨_, _, ran⟩
  · rw [run] at ran
    obtain ⟨sameResp, sameTable⟩ := Prod.mk.inj (Except.ok.inj ran)
    rw [sameResp, sameTable]
    exact ⟨ok, effect⟩
  · rw [run] at ran
    cases ran
  · rw [run] at ran
    cases ran

theorem map_at_ds_state (machine reqtype : Nat) :
    mapAt cfg (dsState state coro index req resp table) machine reqtype =
      if machine = req.machine ∧ reqtype = req.rpcReqtype then abstractOf (dsKeyhash cfg) table
      else mapAt cfg state machine reqtype := by
  unfold mapAt dsState
  rw [tables_set_tx, tables_set_table]
  split_ifs <;> rfl

theorem tx_ds_state (other : CoroId) :
    (dsState state coro index req resp table).tx other =
      if other = coro then (state.tx coro).respond index (.ds req) resp else state.tx other := by
  unfold dsState
  rw [tx_set_tx, tx_set_table]

theorem release_if_primary_same (before : MapState V) (bucket : Nat) :
    (before.releaseIfPrimary bucket).map = before.map ∧
      (before.releaseIfPrimary bucket).numBuckets = before.numBuckets ∧
      (before.releaseIfPrimary bucket).isPrimary = before.isPrimary := by
  unfold MapState.releaseIfPrimary
  split
  · exact release_same before bucket
  · exact ⟨rfl, rfl, rfl⟩

variable {tx : TxState V} {before after : MapState V}

theorem ds_case_frame (case_ : DsCase cfg coro tx req resp before after) :
    after.numBuckets = before.numBuckets ∧ after.isPrimary = before.isPrimary := by
  have acquired := fun bucket => acquire_same before (callerId coro) bucket
  cases case_ with
  | read _ _ _ unchanged => rw [unchanged]; exact ⟨rfl, rfl⟩
  | denied item _ _ _ now =>
      rcases now with now | ⟨_, now⟩
      · rw [now]; exact ⟨rfl, rfl⟩
      · rw [now]
        exact ⟨(release_same _ _).2.1.trans (acquired _).2.1,
          (release_same _ _).2.2.trans (acquired _).2.2⟩
  | granted item _ _ _ _ _ _ _ now => rw [now]; exact (acquired _).2
  | unlocked item _ _ _ _ now => rw [now]; exact (release_same _ _).2
  | applied replI item _ _ _ _ _ _ _ _ _ now => rw [now]; exact (release_if_primary_same _ _).2

/-- Only an update changes an entry, and only that of its key. -/
theorem ds_case_map (case_ : DsCase cfg coro tx req resp before after) :
    after.map = before.map ∨ ∃ replI item, item ∈ tx.writeSet ∧
      Request.ds req = updateReq coro replI item ∧ replI ≤ cfg.mappings.numBackups ∧
      holds tx item.loc = true ∧ applyCount tx (replicaLoc replI item.loc) = 0 ∧
      after.map = Function.update before.map item.key (entryOf item) := by
  have acquired := fun bucket => acquire_same before (callerId coro) bucket
  cases case_ with
  | read _ _ _ unchanged => exact Or.inl (by rw [unchanged])
  | denied item _ _ _ now =>
      left
      rcases now with now | ⟨_, now⟩
      · rw [now]
      · rw [now]
        exact (release_same _ _).1.trans (acquired _).1
  | granted item _ _ _ _ _ _ _ now => exact Or.inl (by rw [now]; exact (acquired _).1)
  | unlocked item _ _ _ _ now => exact Or.inl (by rw [now]; exact (release_same _ _).1)
  | applied replI item member same _ _ _ _ bound held fresh now =>
      refine Or.inr ⟨replI, item, member, same, bound, held, fresh, ?_⟩
      rw [now]
      exact (release_if_primary_same _ _).1

/-- What an executed request does to the locks: nothing, or its item gains or
gives back one lock of its bucket. -/
inductive LockEffect (cfg : Config) (sizes : Nat → Nat → Nat) (coro : CoroId) (tx next : TxState V)
    (before after : MapState V) (machine reqtype : Nat) : Prop where
  | none (locks : ∀ bucket, after.lock bucket = before.lock bucket)
      (counts : ∀ place, lockCount cfg sizes next place = lockCount cfg sizes tx place)
  | gain (bucket : Nat) (free : ¬ before.HeldByOther (callerId coro) bucket)
      (locks : after.lock = (before.acquire (callerId coro) bucket).lock)
      (counts : ∀ place, lockCount cfg sizes next place = lockCount cfg sizes tx place +
        if ⟨machine, reqtype, bucket⟩ = place then 1 else 0)
  | loss (bucket : Nat) (locks : after.lock = (before.release bucket).lock)
      (counts : ∀ place, lockCount cfg sizes tx place = lockCount cfg sizes next place +
        if ⟨machine, reqtype, bucket⟩ = place then 1 else 0)

theorem lock_effect (inv : ClusterInv cfg sizes state)
    (case_ : DsCase cfg coro (state.tx coro) req resp
      (mapAt cfg state req.machine req.rpcReqtype) after) :
    LockEffect cfg sizes coro (state.tx coro) ((state.tx coro).respond index (.ds req) resp)
      (mapAt cfg state req.machine req.rpcReqtype) after req.machine req.rpcReqtype := by
  have txInv := inv.txInv coro
  have positive : ∀ bucket owner count,
      (mapAt cfg state req.machine req.rpcReqtype).lock bucket = some (owner, count) →
        0 < count := by
    intro bucket owner count lock
    have wf := (inv.tableOk req.machine req.rpcReqtype).locks bucket
    rw [LockWf, show lockOf _ = _ from lock] at wf
    exact wf.2.1
  -- The bucket of the request is the place of its item.
  have home : ∀ {item : RwsetItem V} {reqType : DsReqtype V}, item ∈ (state.tx coro).writeSet →
      .ds req = genericGetReq coro reqType item → placeOf cfg sizes item.loc =
        ⟨req.machine, req.rpcReqtype,
          (mapAt cfg state req.machine req.rpcReqtype).bucketOf (dsKeyhash cfg item.key)⟩ := by
    intro item reqType member same
    rw [ds_of_generic same]
    exact place_of_item inv (txInv.writeOk item member)
  cases case_ with
  | read item member same unchanged =>
      rw [same]
      refine .none (fun _ => by rw [unchanged]) (lock_count_congr fun loc _ => ?_)
      exact holds_quiet (by simp) (by simp) (by simp) loc
  | denied item member same refused now =>
      rw [same]
      refine .none ?_ (lock_count_congr fun loc _ => ?_)
      · intro bucket
        rcases now with now | ⟨_, now⟩
        · rw [now]
        · rw [now]
          exact acquire_release_lock _ _ _ (positive _) bucket
      · exact holds_quiet (by simp [grants_lock, refused]) (by simp) (by simp) loc
  | granted item member same accepted fresh noUnlock noApply free now =>
      have place := home member same
      rw [same]
      refine .gain _ free (by rw [now]) ?_
      rw [← place]
      refine lock_count_gain txInv member (fun loc _ different => holds_lock_other different) ?_ ?_
      · rw [holds, fresh]
        rfl
      · rw [holds_lock_self fresh noUnlock noApply, accepted]
  | unlocked item member same held _ now =>
      have place := home member same
      rw [same]
      refine .loss _ (by rw [now]) ?_
      rw [← place]
      exact lock_count_loss txInv member (fun loc _ different => holds_unlock_other different) held
        holds_unlock_self
  | applied replI item member same vec rest at_ inside bound held fresh now =>
      have ok := txInv.writeOk item member
      rcases Nat.eq_zero_or_pos replI with zero | replica
      · subst zero
        have toPrimary : .ds req = genericGetReq coro
            (if item.writeMode = .del then .del else .put item.obj.val) item := by
          rw [same, updateReq, genericGetReq, replica_mn_zero, replica_reqtype_small ok bound]
          rfl
        have place := home member toPrimary
        have primary : (mapAt cfg state req.machine req.rpcReqtype).isPrimary = true := by
          rw [ds_of_generic toPrimary, mapAt, abstractOf, inv.role, ok.spacing]
          rfl
        rw [same]
        refine .loss ((mapAt cfg state req.machine req.rpcReqtype).bucketOf
          (dsKeyhash cfg item.key)) ?_ ?_
        · rw [now, store_release_lock, if_pos primary]
        · rw [← place]
          refine lock_count_loss txInv member ?_ held (holds_update_self (replica_loc_zero ok))
          intro loc _ different
          exact holds_update_other (by rw [replica_loc_zero ok]; exact different.symm)
      · have backup := replica_is_backup ok bound replica
        have role : (mapAt cfg state req.machine req.rpcReqtype).isPrimary = false := by
          rw [Request.ds.inj same, mapAt, abstractOf, inv.role]
          exact decide_eq_false backup
        rw [same]
        refine .none ?_ (lock_count_congr ?_)
        · intro bucket
          rw [now, store_release_lock, if_neg (by rw [role]; decide)]
        · intro loc inSet
          obtain ⟨other, otherIn, sameLoc⟩ := mem_map.mp inSet
          have otherOk := txInv.writeOk other otherIn
          apply holds_update_other
          intro equal
          rw [← sameLoc, ← replica_loc_zero otherOk] at equal
          have none_left := (replica_loc_injective ok otherOk bound (Nat.zero_le _) equal).1
          omega

theorem locks_kept (inv : ClusterInv cfg sizes state)
    (effect : LockEffect cfg sizes coro (state.tx coro)
      ((state.tx coro).respond index (.ds req) resp)
      (mapAt cfg state req.machine req.rpcReqtype) (abstractOf (dsKeyhash cfg) table)
      req.machine req.rpcReqtype) (valid : cfg.Valid coro) (place : Place) :
    LockedBy cfg ((mapAt cfg (dsState state coro index req resp table) place.machine
        place.reqtype).lock place.bucket)
      fun other => lockCount cfg sizes ((dsState state coro index req resp table).tx other) place := by
  have old := inv.locks place
  have others : ∀ other, other ≠ coro →
      lockCount cfg sizes ((dsState state coro index req resp table).tx other) place =
        lockCount cfg sizes (state.tx other) place := by
    intro other different
    rw [tx_ds_state, if_neg different]
  have own : lockCount cfg sizes ((dsState state coro index req resp table).tx coro) place =
      lockCount cfg sizes ((state.tx coro).respond index (.ds req) resp) place := by
    rw [tx_ds_state, if_pos rfl]
  have unchanged : lockCount cfg sizes ((state.tx coro).respond index (.ds req) resp) place =
      lockCount cfg sizes (state.tx coro) place →
      (fun other => lockCount cfg sizes ((dsState state coro index req resp table).tx other) place) =
        fun other => lockCount cfg sizes (state.tx other) place := by
    intro same
    funext other
    by_cases mine : other = coro
    · rw [mine, own, same]
    · exact others other mine
  rw [map_at_ds_state]
  by_cases here : place.machine = req.machine ∧ place.reqtype = req.rpcReqtype
  · rw [if_pos here]
    obtain ⟨machine, reqtype, bucket⟩ := place
    obtain ⟨sameMachine, sameType⟩ := here
    simp only at sameMachine sameType
    subst sameMachine sameType
    cases effect with
    | none locks counts =>
        rw [locks, unchanged (counts _)]
        exact old
    | gain target free locks counts =>
        have count := counts ⟨req.machine, req.rpcReqtype, bucket⟩
        rw [locks]
        by_cases same : target = bucket
        · subst same
          rw [if_pos rfl] at count
          exact locked_by_acquire old valid free (own.trans count) others
        · rw [if_neg (fun equal => same (congrArg Place.bucket equal))] at count
          simp only
          rw [acquire_elsewhere _ (Ne.symm same), unchanged count]
          exact old
    | loss target locks counts =>
        have count := counts ⟨req.machine, req.rpcReqtype, bucket⟩
        rw [locks]
        by_cases same : target = bucket
        · subst same
          rw [if_pos rfl] at count
          refine locked_by_release old ?_ others
          rw [own]
          exact count
        · rw [if_neg (fun equal => same (congrArg Place.bucket equal))] at count
          simp only
          rw [release_elsewhere (Ne.symm same), unchanged count.symm]
          exact old
  · have elsewhere : ∀ bucket, (⟨req.machine, req.rpcReqtype, bucket⟩ : Place) ≠ place := by
      intro bucket same
      rw [← same] at here
      exact here ⟨rfl, rfl⟩
    rw [if_neg here]
    cases effect with
    | none locks counts =>
        rw [unchanged (counts place)]
        exact old
    | gain target free locks counts =>
        have count := counts place
        rw [if_neg (elsewhere target)] at count
        rw [unchanged count]
        exact old
    | loss target locks counts =>
        have count := counts place
        rw [if_neg (elsewhere target)] at count
        rw [unchanged count.symm]
        exact old

/-- A lock that is held after the step was held before it, or was granted by it
for a key that is present or absent as its item wants. -/
theorem holds_after (case_ : DsCase cfg coro tx req resp before after) {loc : Loc}
    (held : holds (tx.respond index (.ds req) resp) loc = true) :
    holds tx loc = true ∨ ∃ item ∈ tx.writeSet, item.loc = loc ∧
      .ds req = lockReq coro item ∧ itemGranted item resp = true ∧
      if item.writeMode = .insert then before.map item.key = none
      else ∃ value, before.map item.key = some value ∧ resp.val = some value := by
  cases case_ with
  | read item member same unchanged =>
      rw [same, holds_quiet (by simp) (by simp) (by simp)] at held
      exact Or.inl held
  | denied item member same refused now =>
      rw [same, holds_quiet (by simp [grants_lock, refused]) (by simp) (by simp)] at held
      exact Or.inl held
  | granted item member same accepted fresh noUnlock noApply free now entry =>
      by_cases here : loc = item.loc
      · exact Or.inr ⟨item, member, here.symm, same, accepted, entry⟩
      · rw [same, holds_lock_other here] at held
        exact Or.inl held
  | unlocked item member same _ _ now =>
      by_cases here : loc = item.loc
      · rw [same, here, holds_unlock_self] at held
        cases held
      · rw [same, holds_unlock_other here] at held
        exact Or.inl held
  | applied replI item member same vec rest at_ inside bound _ fresh now =>
      by_cases here : replicaLoc replI item.loc = loc
      · rw [same, holds_update_self here] at held
        cases held
      · rw [same, holds_update_other here] at held
        exact Or.inl held

/-- The primary entry of a locked key changes only when the lock is given back. -/
theorem held_entry_kept (inv : ClusterInv cfg sizes state)
    (case_ : DsCase cfg coro (state.tx coro) req resp (mapAt cfg state req.machine req.rpcReqtype)
      (abstractOf (dsKeyhash cfg) table)) {other : CoroId} {target : RwsetItem V}
    (member : target ∈ (state.tx other).writeSet)
    (held : holds ((dsState state coro index req resp table).tx other) target.loc = true) :
    (mapAt cfg (dsState state coro index req resp table) target.primaryMn target.rpcReqtype).map
      target.key = (mapAt cfg state target.primaryMn target.rpcReqtype).map target.key := by
  rw [map_at_ds_state]
  split_ifs with here
  · rcases ds_case_map case_ with same | ⟨replI, item, inSet, same, bound, holding, _, now⟩
    · rw [same, here.1, here.2]
    · have ok := (inv.txInv coro).writeOk item inSet
      have targetOk := (inv.txInv other).writeOk target member
      rw [now, here.1, here.2]
      apply Function.update_of_ne
      intro sameKey
      have shape := Request.ds.inj same
      rw [shape] at here
      have sameLoc : replicaLoc replI item.loc = target.loc :=
        Prod.ext here.2.symm sameKey.symm
      have equal := sameLoc
      rw [← replica_loc_zero targetOk] at equal
      obtain ⟨isPrimary, locs⟩ := replica_loc_injective ok targetOk bound (Nat.zero_le _) equal
      rw [tx_ds_state] at held
      split_ifs at held with mine
      · rw [same, holds_update_self sameLoc] at held
        cases held
      · apply mine
        exact holder_unique inv inSet holding member held (by rw [locs])
  · rfl

theorem modes_kept (inv : ClusterInv cfg sizes state)
    (case_ : DsCase cfg coro (state.tx coro) req resp (mapAt cfg state req.machine req.rpcReqtype)
      (abstractOf (dsKeyhash cfg) table)) {other : CoroId} {target : RwsetItem V}
    (member : target ∈ (state.tx other).writeSet)
    (held : holds ((dsState state coro index req resp table).tx other) target.loc = true) :
    (mapAt cfg (dsState state coro index req resp table) target.primaryMn target.rpcReqtype).map
      target.key = none ↔ target.writeMode = .insert := by
  rw [held_entry_kept inv case_ member held]
  rw [tx_ds_state] at held
  split_ifs at held with mine
  · subst mine
    rcases holds_after case_ held with before | ⟨item, inSet, sameLoc, same, _, entry⟩
    · exact inv.modes other target member before
    · have sameItem := inj_on_of_nodup_map (inv.txInv other).writeNodup inSet member sameLoc
      subst sameItem
      rw [ds_of_generic same] at entry
      split_ifs at entry with insert
      · simp [entry, insert]
      · obtain ⟨value, found, _⟩ := entry
        simp [found, insert]
  · exact inv.modes other target member held

theorem ds_inv (inv : ClusterInv cfg sizes state) (valid : cfg.Valid coro) {stale : UInt64}
    (found : (state.tx coro).batch[index]? = some ⟨.ds req, none⟩)
    (run : dsFixedtableRpcHandler (state.tables req.machine req.rpcReqtype) req stale =
      .ok (resp, table)) : ClusterInv cfg sizes (dsState state coro index req resp table) := by
  obtain ⟨ok, effect⟩ := ds_run inv valid found run
  have case_ := ds_case inv found effect
  obtain ⟨sameSize, sameRole⟩ := ds_case_frame case_
  have atPlace : ∀ machine reqtype,
      (dsState state coro index req resp table).tables machine reqtype =
        if machine = req.machine ∧ reqtype = req.rpcReqtype then table
        else state.tables machine reqtype :=
    tables_set_table state req.machine req.rpcReqtype table
  constructor
  · intro other
    rw [tx_ds_state]
    split_ifs with mine
    · rw [mine]
      exact respond_inv (inv.txInv coro) found rfl (effect_resp_ok effect)
    · exact inv.txInv other
  · intro machine reqtype
    rw [atPlace]
    split_ifs
    · exact ok
    · exact inv.tableOk machine reqtype
  · intro machine reqtype
    rw [atPlace]
    split_ifs with here
    · rw [here.2, ← inv.role req.machine req.rpcReqtype]
      exact sameRole
    · exact inv.role machine reqtype
  · intro machine reqtype
    rw [atPlace]
    split_ifs with here
    · rw [here.1, here.2, ← inv.size req.machine req.rpcReqtype]
      exact sameSize
    · exact inv.size machine reqtype
  · exact locks_kept inv (lock_effect inv case_) valid
  · intro other target member held
    have inSet : target ∈ (state.tx other).writeSet := by
      rw [tx_ds_state] at member
      split_ifs at member with mine
      · rw [mine]
        exact member
      · exact member
    exact modes_kept inv case_ inSet held

end Executed

section Runs

/-- A step that changes only the local state of a coroutine and no lock of it. -/
theorem quiet_inv {next : State V} (mover : CoroId) (inv : ClusterInv cfg sizes state)
    (tables : next.tables = state.tables) (others : ∀ other, other ≠ mover → next.tx other = state.tx other)
    (txInv : TxInv cfg mover (next.tx mover))
    (counts : ∀ place, lockCount cfg sizes (next.tx mover) place =
      lockCount cfg sizes (state.tx mover) place)
    (items : ∀ item ∈ (next.tx mover).writeSet, holds (next.tx mover) item.loc = true →
      ∃ old ∈ (state.tx mover).writeSet, holds (state.tx mover) old.loc = true ∧
        SameItem old item) : ClusterInv cfg sizes next := by
  constructor
  · intro other
    by_cases mine : other = mover
    · rw [mine]
      exact txInv
    · rw [others other mine]
      exact inv.txInv other
  · rw [tables]
    exact inv.tableOk
  · rw [tables]
    exact inv.role
  · rw [tables]
    exact inv.size
  · intro place
    rw [tables]
    have same : (fun other => lockCount cfg sizes (next.tx other) place) =
        fun other => lockCount cfg sizes (state.tx other) place := by
      funext other
      by_cases mine : other = mover
      · rw [mine]
        exact counts place
      · rw [others other mine]
    rw [same]
    exact inv.locks place
  · intro other item member held
    rw [tables]
    by_cases mine : other = mover
    · rw [mine] at member held
      obtain ⟨old, inSet, oldHeld, same⟩ := items item member held
      rw [same.primaryMn, same.rpcReqtype, same.key, same.writeMode]
      exact inv.modes mover old inSet oldHeld
    · rw [others other mine] at member held
      exact inv.modes other item member held

theorem continues_cluster_inv (inv : ClusterInv cfg sizes state) {tx : TxState V}
    (txInv : TxInv cfg coro tx) (continues : Continues (state.tx coro) tx) :
    ClusterInv cfg sizes ((state.stage cfg coro tx).setTx coro tx) := by
  refine quiet_inv coro inv ?_ ?_ ?_ ?_ ?_
  · rw [tables_set_tx, tables_stage]
  · intro other different
    rw [tx_set_tx, if_neg different, tx_stage]
  · rw [tx_set_tx_self]
    exact txInv
  · intro place
    rw [tx_set_tx_self]
    exact lock_count_continues (inv.txInv coro) txInv continues place
  · rw [tx_set_tx_self]
    intro item member held
    obtain ⟨handled, ⟨kept, fresh, items, same⟩, _⟩ := continues
    rw [holds_same handled] at held
    have old := (inv.txInv coro).grantedFrom item.loc (holds_granted held)
    have nodup := txInv.writeNodup
    rw [items, map_append, locs_same same] at nodup
    rw [items] at member
    rcases mem_append.mp member with inKept | inFresh
    · obtain ⟨before, inSet, sameItem⟩ := forall₂_mem_right same inKept
      exact ⟨before, inSet, by rw [← loc_same sameItem]; exact held, sameItem⟩
    · exact absurd rfl ((nodup_append.mp nodup).2.2 item.loc old item.loc (mem_map_of_mem inFresh))

theorem move_cluster_inv (inv : ClusterInv cfg sizes state) {tx : TxState V}
    (moved : LocalMove cfg coro (state.oldWord cfg coro) (state.tx coro) tx) :
    ClusterInv cfg sizes ((state.stage cfg coro tx).setTx coro tx) := by
  obtain ⟨txInv, continues⟩ := move_inv (inv.txInv coro) moved
  exact continues_cluster_inv inv txInv continues

/-- A transaction that is over holds no lock. -/
theorem finished_holds {tx : TxState V} (inv : TxInv cfg coro tx) (at_ : tx.pc = .app)
    (ended : tx.status = .committed ∨ tx.status = .aborted) (loc : Loc) : holds tx loc = false := by
  refine Bool.eq_false_iff.mpr fun held => ?_
  have grant := holds_granted held
  obtain ⟨item, member, same⟩ := mem_map.mp (inv.grantedFrom loc grant)
  have stage := inv.stage
  simp only [holds, Bool.and_eq_true, decide_eq_true_eq, Bool.not_eq_true'] at held
  rcases ended with committed | aborted
  · simp only [StageInv, at_, committed] at stage
    have applied := stage.2 item member 0 (Nat.zero_le _)
    rw [replica_loc_zero (inv.writeOk item member), same, held.2] at applied
    cases applied
  · simp only [StageInv, at_, aborted] at stage
    have released := stage.2.2 item member (by rw [same]; exact grant)
    rw [same, held.1.2] at released
    cases released

theorem start_cluster_inv (inv : ClusterInv cfg sizes state) (at_ : (state.tx coro).pc = .app)
    (ended : (state.tx coro).status = .committed ∨ (state.tx coro).status = .aborted) :
    ClusterInv cfg sizes (startState state coro) := by
  have own : (startState state coro).tx coro = .start := by rw [tx_start_state, if_pos rfl]
  refine quiet_inv coro inv rfl ?_ ?_ ?_ ?_
  · intro other different
    rw [tx_start_state, if_neg different]
  · rw [own]
    exact start_inv cfg coro .inProgress (Or.inl rfl)
  · intro place
    have zero : lockCount cfg sizes (state.tx coro) place = 0 := by
      rw [lockCount, countP_eq_zero]
      intro loc _
      rw [finished_holds (inv.txInv coro) at_ ended loc, Bool.false_and]
      exact Bool.false_ne_true
    rw [own, zero]
    rfl
  · rw [own]
    intro item member
    cases member

theorem log_cluster_inv (inv : ClusterInv cfg sizes state) {index machine wrkrLid : Nat}
    {record : List UInt8}
    (found : (state.tx coro).batch[index]? = some ⟨.log machine wrkrLid record, none⟩) :
    ClusterInv cfg sizes (logState cfg state coro index machine wrkrLid record) := by
  have quiet : ∀ loc, holds ((state.tx coro).respond index (.log machine wrkrLid record)
      ⟨.loggerSuccess, 0, none, none⟩) loc = holds (state.tx coro) loc :=
    holds_quiet (by simp) (by simp) (by simp)
  have own : (logState cfg state coro index machine wrkrLid record).tx coro =
      (state.tx coro).respond index (.log machine wrkrLid record) ⟨.loggerSuccess, 0, none, none⟩ :=
    tx_set_tx_self _ _ _
  refine quiet_inv coro inv rfl ?_ ?_ ?_ ?_
  · intro other different
    unfold logState
    rw [tx_set_tx, if_neg different]
    rfl
  · rw [own]
    exact respond_inv (inv.txInv coro) found rfl rfl
  · intro place
    rw [own]
    exact lock_count_congr (fun loc _ => quiet loc) place
  · rw [own]
    intro item member held
    rw [quiet] at held
    exact ⟨item, member, held, same_item_refl item⟩

/-- Tables as they are after loading, with no lock held, and no transaction yet. -/
structure Initial (cfg : Config) (state : State V) : Prop where
  cur : ∀ coro, state.cur coro = 0
  txns : ∀ coro number, state.txns coro number = .construct
  tableOk : ∀ machine reqtype, TableOk (dsKeyhash cfg) (state.tables machine reqtype)
  role : ∀ machine reqtype,
    (state.tables machine reqtype).isPrimary = decide (reqtype % rpcPrimaryDsReqSpacing = 0)
  free : ∀ machine reqtype bucket,
    lockOf ((state.tables machine reqtype).buckets bucket) = none

def newSwarm (valSize numBuckets numExtraBuckets : Nat) (zero : V) : State V where
  tables _ reqtype :=
    construct (decide (reqtype % rpcPrimaryDsReqSpacing = 0)) valSize numBuckets numExtraBuckets zero
  loggers _ _ _ _ := 0
  cur _ := 0
  txns _ _ := .construct

theorem new_swarm_initial (cfg : Config) (valSize numBuckets numExtraBuckets : Nat) (zero : V)
    (positive : 0 < numBuckets) :
    Initial cfg (newSwarm valSize numBuckets numExtraBuckets zero) := by
  constructor
  · exact fun _ => rfl
  · exact fun _ _ => rfl
  · exact fun _ reqtype => (construct_ok (dsKeyhash cfg) _ valSize numBuckets numExtraBuckets zero
      positive).1
  · exact fun _ _ => rfl
  · exact fun _ _ bucket => construct_unlocked _ _ _ _ _ bucket

def tableSizes (state : State V) (machine reqtype : Nat) : Nat :=
  (state.tables machine reqtype).numBuckets

theorem initial_inv (initial : Initial cfg state) : ClusterInv cfg (tableSizes state) state := by
  have idle : ∀ coro, state.tx coro = .construct := fun coro => initial.txns coro _
  constructor
  · intro coro
    rw [idle coro]
    exact start_inv cfg coro .aborted (Or.inr rfl)
  · exact initial.tableOk
  · exact initial.role
  · exact fun _ _ => rfl
  · intro place
    rw [initial.free]
    intro coro
    change lockCount cfg (tableSizes state) (state.tx coro) place = 0
    rw [idle coro]
    rfl
  · intro coro item member
    rw [idle coro] at member
    cases member

theorem step_inv {label : Label V} {next : State V} (inv : ClusterInv cfg sizes state)
    (ran : step cfg state label = some (.ok next)) : ClusterInv cfg sizes next := by
  obtain ⟨valid, case_⟩ := step_cases (inv.txInv label.coro) ran
  cases case_ with
  | start at_ ended => exact start_cluster_inv inv at_ ended
  | move tx moved => exact move_cluster_inv inv moved
  | ds index req stale resp table found run => exact ds_inv inv valid found run
  | log index machine wrkrLid record found => exact log_cluster_inv inv found

theorem reachable_inv {init : State V} (initial : Initial cfg init)
    (reached : Reachable cfg init state) : ClusterInv cfg (tableSizes init) state :=
  Runs.reachable_invariant (initial_inv initial) (fun _ _ _ inv ran => step_inv inv ran) reached

end Runs

end Fasst.TxInvariant

import Fasst.TxCluster
import Fasst.Aligned
import Mathlib.Data.List.Nodup
import Mathlib.Data.List.ProdSigma

/-!
# What a coroutine knows about its own transaction

Three kinds of executed requests matter to the rest of the swarm: a lock that
was granted, an unlock, and an update at a replica. `TxInv` says, for every
point of the protocol at which a coroutine can wait, which of them have
happened. It is an invariant of the local transitions alone, whatever the
handlers answer.
-/

namespace Fasst.TxLocal

open List Fasst.FixedTableModel Fasst.Placement Fasst.TxModel Fasst.TxCluster Fasst.Aligned

set_option autoImplicit false

variable {V : Type}

abbrev Loc := Nat × UInt64

def DsReq.loc (req : DsReq V) : Loc := (req.rpcReqtype, req.key)

def grants (loc : Loc) : Request V × Resp V → Bool
  | (.ds req, resp) => decide (DsReq.loc req = loc) &&
      match req.reqType with
      | .getForUpd => decide (resp.respType = .getForUpdSuccess)
      | .lockForIns => decide (resp.respType = .lockForInsSuccess)
      | _ => false
  | (.log _ _ _, _) => false

def unlocks (loc : Loc) : Request V × Resp V → Bool
  | (.ds req, _) => decide (DsReq.loc req = loc) &&
      match req.reqType with
      | .unlock => true
      | _ => false
  | (.log _ _ _, _) => false

/-- An update or a removal at the replica with this request type. -/
def applies (loc : Loc) : Request V × Resp V → Bool
  | (.ds req, _) => decide (DsReq.loc req = loc) &&
      match req.reqType with
      | .put _ | .del => true
      | _ => false
  | (.log _ _ _, _) => false

def granted (tx : TxState V) (loc : Loc) : Bool := tx.handled.any (grants loc)

def unlocked (tx : TxState V) (loc : Loc) : Bool := tx.handled.any (unlocks loc)

def applyCount (tx : TxState V) (loc : Loc) : Nat := tx.handled.countP (applies loc)

/-- The lock of an item has been granted and no put, del or unlock request for
it has been executed at its primary. -/
def holds (tx : TxState V) (loc : Loc) : Bool :=
  granted tx loc && !unlocked tx loc && decide (applyCount tx loc = 0)

theorem holds_of {tx : TxState V} {loc : Loc} (grant : granted tx loc = true)
    (kept : unlocked tx loc = false) (unapplied : applyCount tx loc = 0) : holds tx loc = true := by
  rw [holds, grant, kept, decide_eq_true unapplied]
  rfl

def replicaLoc (replI : Nat) (loc : Loc) : Loc := (replicaReqtype loc.1 replI, loc.2)

/-- Responses that the handlers can give to a request. -/
def RespOk : Request V → Resp V → Prop
  | .ds req, resp => match req.reqType with
      | .getRdonly => resp.respType = .getRdonlySuccess ∨ resp.respType = .getRdonlyNotFound ∨
          resp.respType = .getRdonlyLocked
      | .getForUpd => resp.respType = .getForUpdSuccess ∨ resp.respType = .getForUpdNotFound ∨
          resp.respType = .getForUpdLocked
      | .lockForIns => resp.respType = .lockForInsSuccess ∨ resp.respType = .lockForInsExists ∨
          resp.respType = .lockForInsLocked
      | .unlock => resp.respType = .unlockSuccess
      | .put _ => resp.respType = .putSuccess
      | .del => resp.respType = .delSuccess
  | .log _ _ _, resp => resp.respType = .loggerSuccess

/-- The fields of an item that never change after it has been added. -/
structure ItemOk (cfg : Config) (item : RwsetItem V) : Prop where
  spacing : item.rpcReqtype % rpcPrimaryDsReqSpacing = 0
  base : rpcMicaReqBase ≤ item.rpcReqtype
  small : item.rpcReqtype < 2 ^ 8
  keyValid : item.key ≠ kFtInvalidKey
  keyhash : item.keyhash = dsKeyhash cfg item.key
  primaryMn : item.primaryMn = cfg.mappings.getPrimaryMn (dsKeyhash cfg item.key)
  backupMn : item.backupMn = (range cfg.mappings.numBackups).map fun backI =>
    cfg.mappings.getBackupMnFromPrimary item.primaryMn backI

structure SameItem (left right : RwsetItem V) : Prop where
  rpcReqtype : right.rpcReqtype = left.rpcReqtype
  key : right.key = left.key
  writeMode : right.writeMode = left.writeMode
  keyhash : right.keyhash = left.keyhash
  primaryMn : right.primaryMn = left.primaryMn
  backupMn : right.backupMn = left.backupMn

theorem same_item_refl (item : RwsetItem V) : SameItem item item := ⟨rfl, rfl, rfl, rfl, rfl, rfl⟩

theorem item_ok_same {cfg : Config} {left right : RwsetItem V} (same : SameItem left right)
    (ok : ItemOk cfg left) : ItemOk cfg right := by
  constructor
  · rw [same.rpcReqtype]; exact ok.spacing
  · rw [same.rpcReqtype]; exact ok.base
  · rw [same.rpcReqtype]; exact ok.small
  · rw [same.key]; exact ok.keyValid
  · rw [same.keyhash, same.key]; exact ok.keyhash
  · rw [same.primaryMn, same.key]; exact ok.primaryMn
  · rw [same.backupMn, same.primaryMn]; exact ok.backupMn

theorem loc_same {left right : RwsetItem V} (same : SameItem left right) : right.loc = left.loc := by
  rw [RwsetItem.loc, RwsetItem.loc, same.rpcReqtype, same.key]

theorem read_response_same (item : RwsetItem V) (resp : Resp V) :
    SameItem item (readResponse item resp).1 := by
  unfold readResponse
  cases resp.respType <;> exact ⟨rfl, rfl, rfl, rfl, rfl, rfl⟩

theorem new_item_ok (cfg : Config) (rpcReqtype : Nat) (key objAddr : UInt64) (obj : HotsObj V)
    (writeMode : TxWriteMode) (spacing : rpcReqtype % rpcPrimaryDsReqSpacing = 0)
    (base : rpcMicaReqBase ≤ rpcReqtype) (small : rpcReqtype < 2 ^ 8)
    (keyValid : key ≠ kFtInvalidKey) :
    ItemOk cfg (newItem cfg rpcReqtype key objAddr obj writeMode) :=
  ⟨spacing, base, small, keyValid, rfl, rfl, rfl⟩

theorem replica_reqtype_small {cfg : Config} {item : RwsetItem V} (ok : ItemOk cfg item)
    {replI : Nat} (bound : replI ≤ cfg.mappings.numBackups) :
    replicaReqtype item.rpcReqtype replI = item.rpcReqtype + replI := by
  have spacing := ok.spacing
  have small := ok.small
  have backups := cfg.mappings.backupsBound
  simp only [rpcPrimaryDsReqSpacing, hotsMaxBackups] at spacing backups
  rw [replicaReqtype, Nat.mod_eq_of_lt (by omega)]

theorem replica_loc_zero {cfg : Config} {item : RwsetItem V} (ok : ItemOk cfg item) :
    replicaLoc 0 item.loc = item.loc := by
  rw [replicaLoc, RwsetItem.loc, replica_reqtype_small ok (Nat.zero_le _)]
  rfl

/-- The replica number and the item can be read off the place of an update. -/
theorem replica_loc_injective {cfg : Config} {item other : RwsetItem V} (ok : ItemOk cfg item)
    (otherOk : ItemOk cfg other) {replI otherI : Nat} (bound : replI ≤ cfg.mappings.numBackups)
    (otherBound : otherI ≤ cfg.mappings.numBackups)
    (same : replicaLoc replI item.loc = replicaLoc otherI other.loc) :
    replI = otherI ∧ item.loc = other.loc := by
  have types := congrArg Prod.fst same
  have keys := congrArg Prod.snd same
  simp only [replicaLoc, RwsetItem.loc] at types keys
  rw [replica_reqtype_small ok bound, replica_reqtype_small otherOk otherBound] at types
  have spacing := ok.spacing
  have otherSpacing := otherOk.spacing
  have backups := cfg.mappings.backupsBound
  simp only [rpcPrimaryDsReqSpacing, hotsMaxBackups] at spacing otherSpacing backups
  have sameType : item.rpcReqtype = other.rpcReqtype := by omega
  refine ⟨by omega, ?_⟩
  rw [RwsetItem.loc, RwsetItem.loc, sameType, keys]

def itemGranted (item : RwsetItem V) (resp : Resp V) : Bool :=
  if item.writeMode = .insert then decide (resp.respType = .lockForInsSuccess)
  else decide (resp.respType = .getForUpdSuccess)

section Events

variable (coro : CoroId) (item : RwsetItem V) (resp : Resp V) (loc : Loc)

@[simp] theorem grants_read : grants loc (readReq coro item, resp) = false := by
  simp [grants, readReq, genericGetReq]

@[simp] theorem unlocks_read : unlocks loc (readReq coro item, resp) = false := by
  simp [unlocks, readReq, genericGetReq]

@[simp] theorem applies_read : applies loc (readReq coro item, resp) = false := by
  simp [applies, readReq, genericGetReq]

theorem grants_lock :
    grants loc (lockReq coro item, resp) = (decide (item.loc = loc) && itemGranted item resp) := by
  simp only [grants, lockReq, genericGetReq, DsReq.loc, RwsetItem.loc, itemGranted]
  split_ifs <;> rfl

@[simp] theorem unlocks_lock : unlocks loc (lockReq coro item, resp) = false := by
  simp only [unlocks, lockReq, genericGetReq]
  split_ifs <;> simp

@[simp] theorem applies_lock : applies loc (lockReq coro item, resp) = false := by
  simp only [applies, lockReq, genericGetReq]
  split_ifs <;> simp

@[simp] theorem grants_unlock : grants loc (unlockReq coro item, resp) = false := by
  simp [grants, unlockReq, genericGetReq]

@[simp] theorem unlocks_unlock :
    unlocks loc (unlockReq coro item, resp) = decide (item.loc = loc) := by
  simp only [unlocks, unlockReq, genericGetReq, Bool.and_true]
  rfl

@[simp] theorem applies_unlock : applies loc (unlockReq coro item, resp) = false := by
  simp [applies, unlockReq, genericGetReq]

@[simp] theorem grants_update (replI : Nat) :
    grants loc (updateReq coro replI item, resp) = false := by
  simp only [grants, updateReq]
  split_ifs <;> simp

@[simp] theorem unlocks_update (replI : Nat) :
    unlocks loc (updateReq coro replI item, resp) = false := by
  simp only [unlocks, updateReq]
  split_ifs <;> simp

@[simp] theorem applies_update (replI : Nat) :
    applies loc (updateReq coro replI item, resp) = decide (replicaLoc replI item.loc = loc) := by
  simp only [applies, updateReq]
  split_ifs <;> simp only [Bool.and_true] <;> rfl

@[simp] theorem grants_log (machine wrkrLid : Nat) (record : List UInt8) :
    grants loc ((.log machine wrkrLid record : Request V), resp) = false := rfl

@[simp] theorem unlocks_log (machine wrkrLid : Nat) (record : List UInt8) :
    unlocks loc ((.log machine wrkrLid record : Request V), resp) = false := rfl

@[simp] theorem applies_log (machine wrkrLid : Nat) (record : List UInt8) :
    applies loc ((.log machine wrkrLid record : Request V), resp) = false := rfl

variable (tx : TxState V) (index : Nat) (req : Request V)

theorem granted_respond :
    granted (tx.respond index req resp) loc = (granted tx loc || grants loc (req, resp)) := by
  simp [granted, TxState.respond]

theorem unlocked_respond :
    unlocked (tx.respond index req resp) loc = (unlocked tx loc || unlocks loc (req, resp)) := by
  simp [unlocked, TxState.respond]

theorem apply_count_respond :
    applyCount (tx.respond index req resp) loc =
      applyCount tx loc + if applies loc (req, resp) = true then 1 else 0 := by
  simp [applyCount, TxState.respond, countP_append]

end Events

def NoApply (tx : TxState V) : Prop := ∀ loc, applyCount tx loc = 0

def NoUnlock (tx : TxState V) : Prop := ∀ loc, unlocked tx loc = false

/-- Every one of these items is locked, and marked as locked. -/
def Locked (tx : TxState V) (items : List (RwsetItem V)) : Prop :=
  ∀ item ∈ items, item.execWsLocked = true ∧ granted tx item.loc = true

def ReadSlot (coro : CoroId) (item : RwsetItem V) (slot : ReqSlot V) : Prop :=
  slot.req = readReq coro item

def LockSlot (coro : CoroId) (tx : TxState V) (item : RwsetItem V) (slot : ReqSlot V) : Prop :=
  slot.req = lockReq coro item ∧
    granted tx item.loc = match slot.resp with
      | none => false
      | some resp => itemGranted item resp

def UnlockSlot (coro : CoroId) (tx : TxState V) (item : RwsetItem V) (slot : ReqSlot V) : Prop :=
  slot.req = unlockReq coro item ∧ unlocked tx item.loc = slot.resp.isSome

def UpdateSlot (coro : CoroId) (tx : TxState V) (pair : Nat × RwsetItem V) (slot : ReqSlot V) :
    Prop :=
  slot.req = updateReq coro pair.1 pair.2 ∧
    applyCount tx (replicaLoc pair.1 pair.2.loc) = if slot.resp.isSome then 1 else 0

/-- The batches of a whole commit, as lists of replica numbers. -/
def allVecs (cfg : Config) (tx : TxState V) : List (List Nat) :=
  backupVecs cfg tx.writeSet.length ++ [[0]]

/-- What has happened by the time the coroutine is at its program point. -/
def StageInv (cfg : Config) (coro : CoroId) (tx : TxState V) : Prop :=
  match tx.pc with
  | .app => tx.batch = [] ∧ match tx.status with
      | .inProgress => NoUnlock tx ∧ NoApply tx ∧ Locked tx (tx.writeSet.take tx.wsIndex) ∧
          ∀ item ∈ tx.writeSet.drop tx.wsIndex, granted tx item.loc = false
      | .mustAbort => NoUnlock tx ∧ NoApply tx ∧ AllRead tx ∧
          ∀ item ∈ tx.writeSet, granted tx item.loc = item.execWsLocked
      | .committed => ∀ item ∈ tx.writeSet, ∀ replI, replI ≤ cfg.mappings.numBackups →
          applyCount tx (replicaLoc replI item.loc) = 1
      | .aborted => NoApply tx ∧
          ∀ item ∈ tx.writeSet, granted tx item.loc = true → unlocked tx item.loc = true
  | .doRead => tx.status = .inProgress ∧ NoUnlock tx ∧ NoApply tx ∧
      Locked tx (tx.writeSet.take tx.wsIndex) ∧
      ∃ reads writes, tx.batch = reads ++ writes ∧
        Forall₂ (ReadSlot coro) (tx.readSet.drop tx.rsIndex) reads ∧
        Forall₂ (LockSlot coro tx) (tx.writeSet.drop tx.wsIndex) writes
  | .validate => tx.status = .inProgress ∧ NoUnlock tx ∧ NoApply tx ∧ AllRead tx ∧
      Locked tx tx.writeSet ∧ Forall₂ (ReadSlot coro) tx.readSet tx.batch
  | .abort => tx.status = .aborted ∧ NoApply tx ∧
      (∀ item ∈ tx.writeSet, granted tx item.loc = item.execWsLocked) ∧
      Forall₂ (UnlockSlot coro tx) (tx.writeSet.filter fun item => item.execWsLocked) tx.batch
  | .log => tx.status = .inProgress ∧ NoUnlock tx ∧ NoApply tx ∧ Locked tx tx.writeSet ∧
      tx.writeSet ≠ [] ∧ 0 < cfg.mappings.numBackups ∧
      ∃ record, tx.logRecord = some record ∧ tx.batch.map ReqSlot.req = logReqs cfg coro record
  | .update vec rest => tx.status = .inProgress ∧ NoUnlock tx ∧ Locked tx tx.writeSet ∧
      tx.writeSet ≠ [] ∧
      ∃ done, done ++ vec :: rest = allVecs cfg tx ∧
        (∀ replI ∈ done.flatten, ∀ item ∈ tx.writeSet,
          applyCount tx (replicaLoc replI item.loc) = 1) ∧
        (∀ replI ∈ rest.flatten, ∀ item ∈ tx.writeSet,
          applyCount tx (replicaLoc replI item.loc) = 0) ∧
        Forall₂ (UpdateSlot coro tx) (vec.product tx.writeSet) tx.batch

structure TxInv (cfg : Config) (coro : CoroId) (tx : TxState V) : Prop where
  nodup : ((tx.readSet ++ tx.writeSet).map RwsetItem.loc).Nodup
  readOk : ∀ item ∈ tx.readSet, ItemOk cfg item
  writeOk : ∀ item ∈ tx.writeSet, ItemOk cfg item
  modes : ∀ item ∈ tx.writeSet, item.writeMode ≠ .ignore
  size : tx.readSet.length + tx.writeSet.length ≤ rpcMaxMsgCoro
  rsBound : tx.rsIndex ≤ tx.readSet.length
  wsBound : tx.wsIndex ≤ tx.writeSet.length
  grantedFrom : ∀ loc, granted tx loc = true → loc ∈ tx.writeSet.map RwsetItem.loc
  appliedFrom : ∀ event ∈ tx.handled, ∀ loc, applies loc event = true →
    ∃ item ∈ tx.writeSet, ∃ replI, replI ≤ cfg.mappings.numBackups ∧
      event.1 = updateReq coro replI item
  respOk : ∀ slot ∈ tx.batch, ∀ resp, slot.resp = some resp → RespOk slot.req resp
  stage : StageInv cfg coro tx

theorem TxInv.writeNodup {cfg : Config} {coro : CoroId} {tx : TxState V} (inv : TxInv cfg coro tx) :
    (tx.writeSet.map RwsetItem.loc).Nodup := by
  have nodup := inv.nodup
  rw [map_append] at nodup
  exact (nodup_append.mp nodup).2.1

section Vecs

variable {cfg : Config} {tx : TxState V}

theorem backup_vecs_range (cfg : Config) (writes : Nat) {vec : List Nat}
    (member : vec ∈ backupVecs cfg writes) {replI : Nat} (inside : replI ∈ vec) :
    1 ≤ replI ∧ replI ≤ cfg.mappings.numBackups := by
  unfold backupVecs at member
  split_ifs at member
  · cases member
  · rw [mem_singleton] at member
    rw [member] at inside
    obtain ⟨index, bound, same⟩ := mem_map.mp inside
    rw [mem_range] at bound
    omega
  · obtain ⟨only, inRange, same⟩ := mem_map.mp member
    obtain ⟨index, bound, sameOnly⟩ := mem_map.mp inRange
    rw [← same, mem_singleton] at inside
    rw [mem_range] at bound
    omega

theorem backup_vecs_cover (cfg : Config) (writes : Nat) {replI : Nat} (lower : 1 ≤ replI)
    (upper : replI ≤ cfg.mappings.numBackups) : replI ∈ (backupVecs cfg writes).flatten := by
  have listed : replI ∈ (range cfg.mappings.numBackups).map fun index => index + 1 :=
    mem_map.mpr ⟨replI - 1, mem_range.mpr (by omega), by omega⟩
  have some_backup : ¬ cfg.mappings.numBackups = 0 := by omega
  unfold backupVecs
  rw [if_neg some_backup]
  split_ifs
  · simpa using listed
  · rw [mem_flatten]
    exact ⟨[replI], mem_map.mpr ⟨replI, listed, rfl⟩, by simp⟩

theorem backup_vecs_nodup (cfg : Config) (writes : Nat) {vec : List Nat}
    (member : vec ∈ backupVecs cfg writes) : vec.Nodup := by
  unfold backupVecs at member
  split_ifs at member
  · cases member
  · rw [mem_singleton] at member
    rw [member]
    exact nodup_range.map (fun _ _ same => Nat.succ.inj same)
  · obtain ⟨only, _, same⟩ := mem_map.mp member
    rw [← same]
    exact nodup_singleton only

/-- The batch in flight is either one to the backups, with the primary still to
come, or the one to the primary, after all backups. -/
theorem all_vecs_split {done rest : List (List Nat)} {vec : List Nat}
    (split : done ++ vec :: rest = allVecs cfg tx) :
    (vec ∈ backupVecs cfg tx.writeSet.length ∧ 0 ∈ rest.flatten) ∨
      (vec = [0] ∧ rest = [] ∧ done = backupVecs cfg tx.writeSet.length) := by
  rcases eq_nil_or_concat rest with empty | ⟨front, last, concat⟩
  · right
    rw [empty] at split
    obtain ⟨sameDone, sameVec⟩ := append_inj' split rfl
    exact ⟨(cons.inj sameVec).1, empty, sameDone⟩
  · left
    rw [concat_eq_append] at concat
    have shifted : (done ++ vec :: front) ++ [last] = backupVecs cfg tx.writeSet.length ++ [[0]] := by
      have whole : done ++ vec :: rest = backupVecs cfg tx.writeSet.length ++ [[0]] := split
      rw [← whole, concat]
      simp
    obtain ⟨sameFront, sameLast⟩ := append_inj' shifted rfl
    refine ⟨by rw [← sameFront]; simp, ?_⟩
    rw [concat, (cons.inj sameLast).1]
    simp

theorem all_vecs_bound {done rest : List (List Nat)} {vec : List Nat}
    (split : done ++ vec :: rest = allVecs cfg tx) {replI : Nat} (inside : replI ∈ vec) :
    replI ≤ cfg.mappings.numBackups := by
  rcases all_vecs_split split with ⟨member, _⟩ | ⟨same, _, _⟩
  · exact (backup_vecs_range cfg _ member inside).2
  · rw [same, mem_singleton] at inside
    omega

theorem all_vecs_flatten (cfg : Config) (tx : TxState V) :
    (allVecs cfg tx).flatten = (range cfg.mappings.numBackups).map (fun index => index + 1) ++ [0] := by
  unfold allVecs backupVecs
  split_ifs with none_left
  · simp [none_left]
  · simp
  · rw [flatten_append, ← flatMap_def, flatMap_singleton']
    rfl

/-- Each replica has its place in one batch. -/
theorem all_vecs_disjoint {done rest : List (List Nat)} {vec : List Nat}
    (split : done ++ vec :: rest = allVecs cfg tx) :
    (done.flatten ++ (vec ++ rest.flatten)).Nodup ∧
      ∀ replI ∈ done.flatten ++ (vec ++ rest.flatten), replI ≤ cfg.mappings.numBackups := by
  have flat := congrArg List.flatten split
  rw [flatten_append, flatten_cons, all_vecs_flatten] at flat
  rw [flat]
  constructor
  · refine nodup_append.mpr ⟨nodup_range.map (fun _ _ same => Nat.succ.inj same),
      nodup_singleton 0, ?_⟩
    intro left member right other
    obtain ⟨index, _, same⟩ := mem_map.mp member
    rw [mem_singleton] at other
    omega
  · intro replI member
    rcases mem_append.mp member with inRange | last
    · obtain ⟨index, bound, same⟩ := mem_map.mp inRange
      rw [mem_range] at bound
      omega
    · rw [mem_singleton] at last
      omega

theorem all_vecs_nodup {done rest : List (List Nat)} {vec : List Nat}
    (split : done ++ vec :: rest = allVecs cfg tx) : vec.Nodup := by
  rcases all_vecs_split split with ⟨member, _⟩ | ⟨same, _, _⟩
  · exact backup_vecs_nodup cfg _ member
  · rw [same]
    exact nodup_singleton 0

end Vecs

section Respond

variable {cfg : Config} {coro : CoroId} {tx : TxState V}

/-- The places that a batch of updates writes are pairwise different. -/
theorem update_locs_nodup (inv : TxInv cfg coro tx) {vec : List Nat} (nodup : vec.Nodup)
    (bound : ∀ replI ∈ vec, replI ≤ cfg.mappings.numBackups) :
    ((vec.product tx.writeSet).map fun pair => replicaLoc pair.1 pair.2.loc).Nodup := by
  have items := inv.writeNodup.of_map
  apply Nodup.map_on _ (nodup.product items)
  rintro ⟨left, item⟩ member ⟨right, other⟩ otherMember same
  obtain ⟨leftIn, itemIn⟩ := List.mem_product.mp member
  obtain ⟨rightIn, otherIn⟩ := List.mem_product.mp otherMember
  obtain ⟨sameRepl, sameLoc⟩ := replica_loc_injective (inv.writeOk item itemIn)
    (inv.writeOk other otherIn) (bound left leftIn) (bound right rightIn) same
  have sameItem := inj_on_of_nodup_map inv.writeNodup itemIn otherIn sameLoc
  rw [sameRepl, sameItem]

/-- A request that waits for its handler, with what has happened to its item. -/
inductive OpenSlot (cfg : Config) (coro : CoroId) (tx : TxState V) (req : Request V) : Prop where
  | read (item : RwsetItem V) (member : item ∈ tx.readSet) (same : req = readReq coro item)
      (at_ : tx.pc = .doRead ∨ tx.pc = .validate)
  | lock (item : RwsetItem V) (member : item ∈ tx.writeSet) (same : req = lockReq coro item)
      (at_ : tx.pc = .doRead) (fresh : granted tx item.loc = false) (noUnlock : NoUnlock tx)
      (noApply : NoApply tx)
  | unlock (item : RwsetItem V) (member : item ∈ tx.writeSet) (same : req = unlockReq coro item)
      (at_ : tx.pc = .abort) (held : holds tx item.loc = true) (noApply : NoApply tx)
  | update (replI : Nat) (item : RwsetItem V) (member : item ∈ tx.writeSet)
      (same : req = updateReq coro replI item) (vec : List Nat) (rest : List (List Nat))
      (at_ : tx.pc = .update vec rest) (inside : replI ∈ vec)
      (bound : replI ≤ cfg.mappings.numBackups) (held : holds tx item.loc = true)
      (fresh : applyCount tx (replicaLoc replI item.loc) = 0)
  | log (backI : Nat) (record : List UInt8) (bound : backI < cfg.mappings.numBackups)
      (same : req = .log (cfg.mappings.getLogMn (cfg.mappings.machineId coro.wrkrGid) backI)
        (cfg.mappings.wrkrLid coro.wrkrGid) record)
      (at_ : tx.pc = .log) (recorded : tx.logRecord = some record)

theorem open_slot (inv : TxInv cfg coro tx) {index : Nat} {slot : ReqSlot V}
    (found : tx.batch[index]? = some slot) (waiting : slot.resp = none) :
    OpenSlot cfg coro tx slot.req := by
  have stage := inv.stage
  have member := mem_of_getElem? found
  unfold StageInv at stage
  split at stage
  case h_1 => rw [stage.1] at member; cases member
  case h_2 at_ =>
      obtain ⟨_, noUnlock, noApply, _, reads, writes, split, readSlots, lockSlots⟩ := stage
      rw [split] at member
      rcases mem_append.mp member with inReads | inWrites
      · obtain ⟨item, inside, same⟩ := forall₂_mem_right readSlots inReads
        exact .read item (mem_of_mem_drop inside) same (Or.inl at_)
      · obtain ⟨item, inside, same, status⟩ := forall₂_mem_right lockSlots inWrites
        rw [waiting] at status
        exact .lock item (mem_of_mem_drop inside) same at_ status noUnlock noApply
  case h_3 at_ =>
      obtain ⟨_, _, _, _, _, readSlots⟩ := stage
      obtain ⟨item, inside, same⟩ := forall₂_mem_right readSlots member
      exact .read item inside same (Or.inr at_)
  case h_4 at_ =>
      obtain ⟨_, noApply, flags, unlockSlots⟩ := stage
      obtain ⟨item, inside, same, status⟩ := forall₂_mem_right unlockSlots member
      rw [waiting] at status
      obtain ⟨inSet, flag⟩ := mem_filter.mp inside
      have grant : granted tx item.loc = true := (flags item inSet).trans flag
      exact .unlock item inSet same at_ (holds_of grant status (noApply item.loc)) noApply
  case h_5 at_ =>
      obtain ⟨_, _, _, _, _, _, record, recorded, reqs⟩ := stage
      have listed : slot.req ∈ logReqs cfg coro record := by
        rw [← reqs]
        exact mem_map_of_mem member
      obtain ⟨backI, bound, same⟩ := mem_map.mp listed
      exact .log backI record (mem_range.mp bound) same.symm at_ recorded
  case h_6 vec rest at_ =>
      obtain ⟨_, noUnlock, locked, _, done, split, _, later, slots⟩ := stage
      obtain ⟨⟨replI, item⟩, inside, same, status⟩ := forall₂_mem_right slots member
      obtain ⟨inVec, inSet⟩ := List.mem_product.mp inside
      rw [waiting] at status
      have primaryLast : applyCount tx (replicaLoc 0 item.loc) = 0 := by
        rcases all_vecs_split split with ⟨_, inRest⟩ | ⟨last, _, _⟩
        · exact later 0 inRest item inSet
        · rw [last, mem_singleton] at inVec
          rw [inVec] at status
          exact status
      rw [replica_loc_zero (inv.writeOk item inSet)] at primaryLast
      exact .update replI item inSet same vec rest at_ inVec (all_vecs_bound split inVec)
        (holds_of (locked item inSet).2 (noUnlock item.loc) primaryLast) status

theorem locked_respond {items : List (RwsetItem V)} (locked : Locked tx items) (index : Nat)
    (req : Request V) (resp : Resp V) : Locked (tx.respond index req resp) items := by
  intro item member
  obtain ⟨flag, grant⟩ := locked item member
  exact ⟨flag, by rw [granted_respond, grant]; rfl⟩

theorem no_unlock_respond (noUnlock : NoUnlock tx) (index : Nat) (req : Request V) (resp : Resp V)
    (quiet : ∀ loc, unlocks loc (req, resp) = false) : NoUnlock (tx.respond index req resp) := by
  intro loc
  rw [unlocked_respond, noUnlock loc, quiet loc]
  rfl

theorem no_apply_respond (noApply : NoApply tx) (index : Nat) (req : Request V) (resp : Resp V)
    (quiet : ∀ loc, applies loc (req, resp) = false) : NoApply (tx.respond index req resp) := by
  intro loc
  rw [apply_count_respond, noApply loc, quiet loc]
  rfl

theorem granted_quiet (tx : TxState V) (index : Nat) (req : Request V) (resp : Resp V)
    (quiet : ∀ loc, grants loc (req, resp) = false) (loc : Loc) :
    granted (tx.respond index req resp) loc = granted tx loc := by
  rw [granted_respond, quiet loc, Bool.or_false]

/-- A response in the batch of `do_read`. -/
theorem respond_do_read (inv : TxInv cfg coro tx) {index : Nat} {slot : ReqSlot V} {resp : Resp V}
    (at_ : tx.pc = .doRead) (found : tx.batch[index]? = some slot) (waiting : slot.resp = none) :
    StageInv cfg coro (tx.respond index slot.req resp) := by
  have stage := inv.stage
  simp only [StageInv, at_] at stage
  obtain ⟨running, noUnlock, noApply, locked, reads, writes, split, readSlots, lockSlots⟩ := stage
  have pcSame : (tx.respond index slot.req resp).pc = .doRead := at_
  simp only [StageInv, pcSame]
  rw [split] at found
  by_cases inReads : index < reads.length
  · rw [getElem?_append_left inReads] at found
    obtain ⟨item, itemFound, same⟩ := forall₂_getElem readSlots index found
    rw [same]
    have unchanged := granted_quiet tx index (readReq coro item) resp (by simp)
    refine ⟨running, no_unlock_respond noUnlock _ _ _ (by simp),
      no_apply_respond noApply _ _ _ (by simp), locked_respond locked _ _ _,
      reads.set index ⟨readReq coro item, some resp⟩, writes, ?_, ?_, ?_⟩
    · simp only [TxState.respond, split, set_append_left _ _ inReads]
    · apply forall₂_set readSlots index
      · exact fun _ _ _ _ _ _ related => related
      · intro other otherFound
        rw [Option.some.inj (otherFound.symm.trans itemFound)]
        rfl
    · apply forall₂_imp_mem lockSlots
      rintro other _ entry _ ⟨sameReq, status⟩
      exact ⟨sameReq, by rw [unchanged]; exact status⟩
  · rw [getElem?_append_right (Nat.le_of_not_lt inReads)] at found
    obtain ⟨item, itemFound, same, status⟩ := forall₂_getElem lockSlots _ found
    rw [waiting] at status
    rw [same]
    have nodup : ((tx.writeSet.drop tx.wsIndex).map RwsetItem.loc).Nodup := by
      rw [map_drop]
      exact inv.writeNodup.sublist (drop_sublist _ _)
    refine ⟨running, no_unlock_respond noUnlock _ _ _ (by simp),
      no_apply_respond noApply _ _ _ (by simp), locked_respond locked _ _ _,
      reads, writes.set (index - reads.length) ⟨lockReq coro item, some resp⟩, ?_, readSlots, ?_⟩
    · simp only [TxState.respond, split, set_append_right _ _ (Nat.le_of_not_lt inReads)]
    · apply forall₂_set lockSlots
      · intro position other entry different otherFound _ related
        have apart := nodup_map_ne nodup different otherFound itemFound
        refine ⟨related.1, ?_⟩
        rw [granted_respond, grants_lock, decide_eq_false apart.symm, Bool.false_and, Bool.or_false]
        exact related.2
      · intro other otherFound
        rw [Option.some.inj (otherFound.symm.trans itemFound)]
        refine ⟨rfl, ?_⟩
        rw [granted_respond, grants_lock, status, decide_eq_true rfl, Bool.true_and, Bool.false_or]

theorem respond_validate (inv : TxInv cfg coro tx) {index : Nat} {slot : ReqSlot V}
    {resp : Resp V} (at_ : tx.pc = .validate) (found : tx.batch[index]? = some slot) :
    StageInv cfg coro (tx.respond index slot.req resp) := by
  have stage := inv.stage
  simp only [StageInv, at_] at stage
  obtain ⟨running, noUnlock, noApply, allRead, locked, readSlots⟩ := stage
  have pcSame : (tx.respond index slot.req resp).pc = .validate := at_
  simp only [StageInv, pcSame]
  obtain ⟨item, itemFound, same⟩ := forall₂_getElem readSlots index found
  rw [same]
  refine ⟨running, no_unlock_respond noUnlock _ _ _ (by simp),
    no_apply_respond noApply _ _ _ (by simp), allRead, locked_respond locked _ _ _, ?_⟩
  apply forall₂_set readSlots index
  · exact fun _ _ _ _ _ _ related => related
  · intro other otherFound
    rw [Option.some.inj (otherFound.symm.trans itemFound)]
    rfl

theorem respond_abort (inv : TxInv cfg coro tx) {index : Nat} {slot : ReqSlot V}
    {resp : Resp V} (at_ : tx.pc = .abort) (found : tx.batch[index]? = some slot) :
    StageInv cfg coro (tx.respond index slot.req resp) := by
  have stage := inv.stage
  simp only [StageInv, at_] at stage
  obtain ⟨aborted, noApply, flags, unlockSlots⟩ := stage
  have pcSame : (tx.respond index slot.req resp).pc = .abort := at_
  simp only [StageInv, pcSame]
  obtain ⟨item, itemFound, same, _⟩ := forall₂_getElem unlockSlots index found
  rw [same]
  have nodup : ((tx.writeSet.filter fun item => item.execWsLocked).map RwsetItem.loc).Nodup :=
    inv.writeNodup.sublist (filter_sublist.map _)
  refine ⟨aborted, no_apply_respond noApply _ _ _ (by simp), ?_, ?_⟩
  · intro other member
    rw [granted_quiet _ _ _ _ (by simp)]
    exact flags other member
  · apply forall₂_set unlockSlots index
    · intro position other entry different otherFound _ related
      have apart := nodup_map_ne nodup different otherFound itemFound
      refine ⟨related.1, ?_⟩
      rw [unlocked_respond, unlocks_unlock, decide_eq_false apart.symm, Bool.or_false]
      exact related.2
    · intro other otherFound
      rw [Option.some.inj (otherFound.symm.trans itemFound)]
      refine ⟨rfl, ?_⟩
      rw [unlocked_respond, unlocks_unlock, decide_eq_true rfl, Bool.or_true]
      rfl

theorem respond_log (inv : TxInv cfg coro tx) {index : Nat} {slot : ReqSlot V} {resp : Resp V}
    (at_ : tx.pc = .log) (found : tx.batch[index]? = some slot) :
    StageInv cfg coro (tx.respond index slot.req resp) := by
  have stage := inv.stage
  simp only [StageInv, at_] at stage
  obtain ⟨running, noUnlock, noApply, locked, nonempty, backups, record, recorded, reqs⟩ := stage
  have pcSame : (tx.respond index slot.req resp).pc = .log := at_
  have listed : slot.req ∈ logReqs cfg coro record := by
    rw [← reqs]
    exact mem_map_of_mem (mem_of_getElem? found)
  obtain ⟨backI, _, same⟩ := mem_map.mp listed
  have sameReqs : (tx.batch.set index ⟨slot.req, some resp⟩).map ReqSlot.req =
      tx.batch.map ReqSlot.req := by
    rw [map_set]
    apply set_of_getElem?
    rw [getElem?_map, found]
    rfl
  simp only [StageInv, pcSame]
  refine ⟨running, no_unlock_respond noUnlock _ _ _ (by simp [← same]),
    no_apply_respond noApply _ _ _ (by simp [← same]), locked_respond locked _ _ _, nonempty, backups,
    record, recorded, sameReqs.trans reqs⟩

theorem respond_update (inv : TxInv cfg coro tx) {index : Nat} {slot : ReqSlot V} {resp : Resp V}
    {vec : List Nat} {rest : List (List Nat)} (at_ : tx.pc = .update vec rest)
    (found : tx.batch[index]? = some slot) (waiting : slot.resp = none) :
    StageInv cfg coro (tx.respond index slot.req resp) := by
  have stage := inv.stage
  simp only [StageInv, at_] at stage
  obtain ⟨running, noUnlock, locked, nonempty, done, split, before, after, slots⟩ := stage
  have pcSame : (tx.respond index slot.req resp).pc = .update vec rest := at_
  simp only [StageInv, pcSame]
  obtain ⟨⟨replI, item⟩, itemFound, same, status⟩ := forall₂_getElem slots index found
  rw [waiting] at status
  obtain ⟨inVec, inSet⟩ := List.mem_product.mp (mem_of_getElem? itemFound)
  have nodup := update_locs_nodup inv (all_vecs_nodup split)
    (fun replI inside => all_vecs_bound split inside)
  obtain ⟨disjoint, bounds⟩ := all_vecs_disjoint split
  -- An update at another replica leaves the count of this place alone.
  have elsewhere : ∀ other, other ∈ done.flatten ∨ other ∈ rest.flatten → ∀ target ∈ tx.writeSet,
      applyCount (tx.respond index slot.req resp) (replicaLoc other target.loc) =
        applyCount tx (replicaLoc other target.loc) := by
    intro other place target targetIn
    have different : replI ≠ other := by
      intro equal
      rcases place with inDone | inRest
      · exact (nodup_append.mp disjoint).2.2 other inDone replI (mem_append_left _ inVec) equal.symm
      · have tail := (nodup_append.mp disjoint).2.1
        exact (nodup_append.mp tail).2.2 replI inVec other inRest equal
    have otherBound : other ≤ cfg.mappings.numBackups := by
      apply bounds other
      rcases place with inDone | inRest
      · exact mem_append_left _ inDone
      · exact mem_append_right _ (mem_append_right _ inRest)
    have apart : replicaLoc replI item.loc ≠ replicaLoc other target.loc := by
      intro equal
      exact different (replica_loc_injective (inv.writeOk item inSet) (inv.writeOk target targetIn)
        (all_vecs_bound split inVec) otherBound equal).1
    rw [apply_count_respond, same, applies_update, decide_eq_false apart]
    rfl
  refine ⟨running, no_unlock_respond noUnlock _ _ _ (by simp [same]), locked_respond locked _ _ _,
    nonempty, done, split, ?_, ?_, ?_⟩
  · intro other inDone target targetIn
    rw [elsewhere other (Or.inl inDone) target targetIn]
    exact before other inDone target targetIn
  · intro other inRest target targetIn
    rw [elsewhere other (Or.inr inRest) target targetIn]
    exact after other inRest target targetIn
  · apply forall₂_set slots index
    · rintro position ⟨other, target⟩ entry differentIndex otherFound _ related
      have apart := nodup_map_ne nodup differentIndex otherFound itemFound
      refine ⟨related.1, ?_⟩
      rw [apply_count_respond, same, applies_update, decide_eq_false (Ne.symm apart)]
      exact related.2
    · intro pair otherFound
      rw [Option.some.inj (otherFound.symm.trans itemFound)]
      refine ⟨same, ?_⟩
      rw [apply_count_respond, same, applies_update, decide_eq_true rfl, status]
      rfl

/-- Whatever a handler answers, the local invariant survives. -/
theorem respond_inv (inv : TxInv cfg coro tx) {index : Nat} {slot : ReqSlot V} {resp : Resp V}
    (found : tx.batch[index]? = some slot) (waiting : slot.resp = none)
    (respOk : RespOk slot.req resp) : TxInv cfg coro (tx.respond index slot.req resp) := by
  have waitingFor := open_slot inv found waiting
  constructor
  · exact inv.nodup
  · exact inv.readOk
  · exact inv.writeOk
  · exact inv.modes
  · exact inv.size
  · exact inv.rsBound
  · exact inv.wsBound
  · intro loc grant
    rw [granted_respond, Bool.or_eq_true] at grant
    rcases grant with earlier | now
    · exact inv.grantedFrom loc earlier
    · cases waitingFor with
      | read item _ same => simp [same] at now
      | lock item member same =>
          rw [same, grants_lock, Bool.and_eq_true, decide_eq_true_eq] at now
          exact mem_map.mpr ⟨item, member, now.1⟩
      | unlock item _ same => simp [same] at now
      | update replI item _ same => simp [same] at now
      | log backI record _ same => simp [same] at now
  · intro event member loc applied
    rcases mem_append.mp member with earlier | now
    · exact inv.appliedFrom event earlier loc applied
    · rw [mem_singleton] at now
      rw [now] at applied ⊢
      cases waitingFor with
      | read item _ same => simp [same] at applied
      | lock item _ same => simp [same] at applied
      | unlock item _ same => simp [same] at applied
      | update replI item inSet same vec rest at_ inVec bound => exact ⟨item, inSet, replI, bound, same⟩
      | log backI record _ same => simp [same] at applied
  · intro other member answer answered
    rcases mem_or_eq_of_mem_set member with earlier | now
    · exact inv.respOk other earlier answer answered
    · rw [now] at answered ⊢
      rw [← Option.some.inj answered]
      exact respOk
  · cases at_ : tx.pc with
    | app =>
        have stage := inv.stage
        simp only [StageInv, at_] at stage
        rw [stage.1] at found
        cases found
    | doRead => exact respond_do_read inv at_ found waiting
    | validate => exact respond_validate inv at_ found
    | abort => exact respond_abort inv at_ found
    | log => exact respond_log inv at_ found
    | update vec rest => exact respond_update inv at_ found waiting

end Respond

end Fasst.TxLocal

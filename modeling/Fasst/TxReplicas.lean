import Fasst.TxOwnership

/-!
# Primaries and backups agree

A backup has the entry of its primary, except while a commit is on its way from
the backups to the primary: then it has the entry that the primary is about to
get, and the primary bucket is locked.
-/

namespace Fasst.TxReplicas

open List Fasst.FixedTableModel Fasst.FixedTableLocks Fasst.FixedTableEdits Fasst.FixedTableSpec
open Fasst.Placement Fasst.TxModel Fasst.TxCluster Fasst.Aligned Fasst.TxLocal Fasst.TxCalls
open Fasst.TxHandler Fasst.TxSteps Fasst.TxLocks Fasst.TxInvariant Fasst.TxOwnership
open Fasst.FixedTableMap

set_option autoImplicit false

variable {V : Type} {cfg : Config} {sizes : Nat → Nat → Nat} {state : State V} {coro : CoroId}

def primaryEntry (cfg : Config) (state : State V) (loc : Loc) : Option V :=
  (mapAt cfg state (primaryOf cfg loc) loc.1).map loc.2

def backupEntry (cfg : Config) (state : State V) (backI : Nat) (loc : Loc) : Option V :=
  (mapAt cfg state (cfg.mappings.getBackupMnFromPrimary (primaryOf cfg loc) backI)
    (loc.1 + (backI + 1))).map loc.2

/-- The holder of the lock of a key has updated the backup already. -/
def Ahead (state : State V) (backI : Nat) (loc : Loc) : Prop :=
  ∃ coro, ∃ item ∈ (state.tx coro).writeSet, item.loc = loc ∧ holds (state.tx coro) loc = true ∧
    applyCount (state.tx coro) (replicaLoc (backI + 1) loc) ≠ 0

structure ReplicaInv (cfg : Config) (state : State V) : Prop where
  ahead : ∀ coro, ∀ item ∈ (state.tx coro).writeSet, ∀ backI, backI < cfg.mappings.numBackups →
    holds (state.tx coro) item.loc = true →
    applyCount (state.tx coro) (replicaLoc (backI + 1) item.loc) ≠ 0 →
    backupEntry cfg state backI item.loc = entryOf item
  agreed : ∀ loc : Loc, loc.1 % rpcPrimaryDsReqSpacing = 0 →
    ∀ backI, backI < cfg.mappings.numBackups → ¬ Ahead state backI loc →
    backupEntry cfg state backI loc = primaryEntry cfg state loc

section Quiet

/-- A step that changes no entry and not the keys for which the coroutine that
takes it is ahead. -/
theorem quiet_replicas {next : State V} (mover : CoroId) (inv : ReplicaInv cfg state)
    (maps : ∀ machine reqtype, (mapAt cfg next machine reqtype).map =
      (mapAt cfg state machine reqtype).map)
    (others : ∀ other, other ≠ mover → next.tx other = state.tx other)
    (after : ∀ item ∈ (next.tx mover).writeSet, ∀ backI, holds (next.tx mover) item.loc = true →
      applyCount (next.tx mover) (replicaLoc (backI + 1) item.loc) ≠ 0 →
      item ∈ (state.tx mover).writeSet ∧ holds (state.tx mover) item.loc = true ∧
        applyCount (state.tx mover) (replicaLoc (backI + 1) item.loc) ≠ 0)
    (before : ∀ item ∈ (state.tx mover).writeSet, ∀ backI,
      holds (state.tx mover) item.loc = true →
      applyCount (state.tx mover) (replicaLoc (backI + 1) item.loc) ≠ 0 →
      ∃ kept ∈ (next.tx mover).writeSet, kept.loc = item.loc ∧
        holds (next.tx mover) item.loc = true ∧
        applyCount (next.tx mover) (replicaLoc (backI + 1) item.loc) ≠ 0) :
    ReplicaInv cfg next := by
  have primary : ∀ loc, primaryEntry cfg next loc = primaryEntry cfg state loc := by
    intro loc
    rw [primaryEntry, maps, primaryEntry]
  have backup : ∀ backI loc, backupEntry cfg next backI loc = backupEntry cfg state backI loc := by
    intro backI loc
    rw [backupEntry, maps, backupEntry]
  constructor
  · intro other item member backI bound held applied
    rw [backup]
    by_cases mine : other = mover
    · subst mine
      obtain ⟨inSet, wasHeld, wasApplied⟩ := after item member backI held applied
      exact inv.ahead other item inSet backI bound wasHeld wasApplied
    · rw [others other mine] at member held applied
      exact inv.ahead other item member backI bound held applied
  · intro loc spacing backI bound notAhead
    rw [backup, primary]
    apply inv.agreed loc spacing backI bound
    rintro ⟨other, item, member, sameLoc, held, applied⟩
    apply notAhead
    by_cases mine : other = mover
    · subst mine
      rw [← sameLoc] at held applied ⊢
      obtain ⟨kept, inSet, sameKept, nowHeld, nowApplied⟩ := before item member backI held applied
      exact ⟨other, kept, inSet, sameKept, nowHeld, nowApplied⟩
    · refine ⟨other, item, ?_, sameLoc, ?_, ?_⟩
      · rw [others other mine]
        exact member
      · rw [others other mine]
        exact held
      · rw [others other mine]
        exact applied

theorem move_replicas (cluster : ClusterInv cfg sizes state) (inv : ReplicaInv cfg state)
    {tx : TxState V} (moved : LocalMove cfg coro (state.oldWord cfg coro) (state.tx coro) tx) :
    ReplicaInv cfg ((state.stage cfg coro tx).setTx coro tx) := by
  obtain ⟨_, handled, _, applied⟩ := move_inv (cluster.txInv coro) moved
  refine quiet_replicas coro inv ?_ ?_ ?_ ?_
  · intro machine reqtype
    rw [mapAt, tables_set_tx, tables_stage, mapAt]
  · intro other different
    rw [tx_set_tx, if_neg different, tx_stage]
  · intro item member backI held count
    rw [tx_set_tx_self] at member held count
    rw [holds_same handled] at held
    rw [apply_count_same handled] at count
    rcases applied with noApply | same
    · exact absurd (noApply _) count
    · exact ⟨by rw [← same]; exact member, held, count⟩
  · intro item member backI held count
    rw [tx_set_tx_self, holds_same handled, apply_count_same handled]
    rcases applied with noApply | same
    · exact absurd (noApply _) count
    · exact ⟨item, by rw [same]; exact member, rfl, held, count⟩

theorem start_replicas (cluster : ClusterInv cfg sizes state) (inv : ReplicaInv cfg state)
    (at_ : (state.tx coro).pc = .app)
    (ended : (state.tx coro).status = .committed ∨ (state.tx coro).status = .aborted) :
    ReplicaInv cfg (startState state coro) := by
  have own : (startState state coro).tx coro = .start := by rw [tx_start_state, if_pos rfl]
  refine quiet_replicas coro inv (fun _ _ => rfl) ?_ ?_ ?_
  · intro other different
    rw [tx_start_state, if_neg different]
  · intro item member
    rw [own] at member
    cases member
  · intro item member backI held
    rw [finished_holds (cluster.txInv coro) at_ ended] at held
    cases held

theorem log_replicas (inv : ReplicaInv cfg state) (index machine wrkrLid : Nat)
    (record : List UInt8) :
    ReplicaInv cfg (logState cfg state coro index machine wrkrLid record) := by
  have own : (logState cfg state coro index machine wrkrLid record).tx coro =
      (state.tx coro).respond index (.log machine wrkrLid record) ⟨.loggerSuccess, 0, none, none⟩ :=
    tx_set_tx_self _ _ _
  have quiet : ∀ loc, holds ((state.tx coro).respond index (.log machine wrkrLid record)
      ⟨.loggerSuccess, 0, none, none⟩) loc = holds (state.tx coro) loc :=
    holds_quiet (by simp) (by simp) (by simp)
  have counts : ∀ loc, applyCount ((state.tx coro).respond index (.log machine wrkrLid record)
      ⟨.loggerSuccess, 0, none, none⟩) loc = applyCount (state.tx coro) loc := by
    intro loc
    rw [apply_count_respond, applies_log]
    rfl
  refine quiet_replicas coro inv (fun _ _ => rfl) ?_ ?_ ?_
  · intro other different
    unfold logState
    rw [tx_set_tx, if_neg different]
    rfl
  · intro item member backI held count
    rw [own] at member held count
    rw [quiet] at held
    rw [counts] at count
    exact ⟨member, held, count⟩
  · intro item member backI held count
    rw [own, quiet, counts]
    exact ⟨item, member, rfl, held, count⟩

end Quiet

section Executed

variable {index : Nat} {req : DsReq V} {resp : Resp V} {table : FixedTable V}

/-- By the time a primary is updated, all backups of all items have been. -/
theorem primary_after_backups {tx : TxState V} (inv : TxInv cfg coro tx) {vec : List Nat}
    {rest : List (List Nat)} (at_ : tx.pc = .update vec rest) (last : 0 ∈ vec)
    {item : RwsetItem V} (member : item ∈ tx.writeSet) {replI : Nat} (positive : 0 < replI)
    (bound : replI ≤ cfg.mappings.numBackups) : applyCount tx (replicaLoc replI item.loc) = 1 := by
  have stage := inv.stage
  simp only [StageInv, at_] at stage
  obtain ⟨_, _, _, _, done, split, before, _⟩ := stage
  rcases all_vecs_split split with ⟨backups, _⟩ | ⟨_, _, all⟩
  · have range := backup_vecs_range cfg _ backups last
    omega
  · apply before replI _ item member
    rw [all]
    exact backup_vecs_cover cfg _ positive bound

/-- A request that is no update. -/
theorem ds_quiet_replicas (inv : ReplicaInv cfg state)
    (maps : (abstractOf (dsKeyhash cfg) table).map =
      (mapAt cfg state req.machine req.rpcReqtype).map)
    (counts : ∀ loc, applies loc ((.ds req : Request V), resp) = false)
    (holding : NoApply (state.tx coro) ∨ ∀ loc,
      holds ((state.tx coro).respond index (.ds req) resp) loc = holds (state.tx coro) loc) :
    ReplicaInv cfg (dsState state coro index req resp table) := by
  have own : (dsState state coro index req resp table).tx coro =
      (state.tx coro).respond index (.ds req) resp := by
    rw [tx_ds_state, if_pos rfl]
  have sameCounts : ∀ loc, applyCount ((state.tx coro).respond index (.ds req) resp) loc =
      applyCount (state.tx coro) loc := by
    intro loc
    rw [apply_count_respond, counts]
    rfl
  refine quiet_replicas coro inv ?_ ?_ ?_ ?_
  · intro machine reqtype
    rw [map_at_ds_state]
    split_ifs with here
    · rw [maps, here.1, here.2]
    · rfl
  · intro other different
    rw [tx_ds_state, if_neg different]
  · intro item member backI held count
    rw [own] at member held count
    rw [sameCounts] at count
    rcases holding with noApply | same
    · exact absurd (noApply _) count
    · rw [same] at held
      exact ⟨member, held, count⟩
  · intro item member backI held count
    rw [own, sameCounts]
    rcases holding with noApply | same
    · exact absurd (noApply _) count
    · rw [same]
      exact ⟨item, member, rfl, held, count⟩

variable {replI : Nat} {item : RwsetItem V}

/-- Where an update for an item is executed, and what is there afterwards. -/
theorem update_map (ok : ItemOk cfg item) (bound : replI ≤ cfg.mappings.numBackups)
    (same : .ds req = updateReq coro replI item)
    (now : (abstractOf (dsKeyhash cfg) table).map =
      Function.update (mapAt cfg state req.machine req.rpcReqtype).map item.key (entryOf item))
    (machine reqtype : Nat) (key : UInt64) :
    (mapAt cfg (dsState state coro index req resp table) machine reqtype).map key =
      if machine = replicaMn item replI ∧ reqtype = item.rpcReqtype + replI ∧ key = item.key
      then entryOf item else (mapAt cfg state machine reqtype).map key := by
  have shape := Request.ds.inj same
  have atMachine : req.machine = replicaMn item replI := by rw [shape]
  have atType : req.rpcReqtype = item.rpcReqtype + replI := by
    rw [shape]
    exact replica_reqtype_small ok bound
  rw [map_at_ds_state, atMachine, atType]
  by_cases here : machine = replicaMn item replI ∧ reqtype = item.rpcReqtype + replI
  · rw [if_pos here, now, Function.update_apply, atMachine, atType, here.1, here.2]
    simp only [true_and]
  · rw [if_neg here, if_neg fun all => here ⟨all.1, all.2.1⟩]

theorem replica_mn_succ (ok : ItemOk cfg item) {backI : Nat} (bound : backI < cfg.mappings.numBackups) :
    replicaMn item (backI + 1) =
      cfg.mappings.getBackupMnFromPrimary (primaryOf cfg item.loc) backI := by
  rw [replicaMn, if_neg (Nat.succ_ne_zero backI), ok.backupMn, ok.primaryMn]
  simp [getElem?_range bound]
  rfl

theorem primary_entry_update (ok : ItemOk cfg item) (bound : replI ≤ cfg.mappings.numBackups)
    (same : .ds req = updateReq coro replI item)
    (now : (abstractOf (dsKeyhash cfg) table).map =
      Function.update (mapAt cfg state req.machine req.rpcReqtype).map item.key (entryOf item))
    {loc : Loc} (spacing : loc.1 % rpcPrimaryDsReqSpacing = 0) :
    primaryEntry cfg (dsState state coro index req resp table) loc =
      if replI = 0 ∧ loc = item.loc then entryOf item else primaryEntry cfg state loc := by
  have itemSpacing := ok.spacing
  have backups := cfg.mappings.backupsBound
  simp only [rpcPrimaryDsReqSpacing, hotsMaxBackups] at spacing itemSpacing backups
  rw [primaryEntry, update_map ok bound same now, primaryEntry]
  apply ite_congr _ (fun _ => rfl) (fun _ => rfl)
  rw [eq_iff_iff]
  constructor
  · rintro ⟨_, sameType, sameKey⟩
    exact ⟨by omega, Prod.ext (by rw [RwsetItem.loc]; omega) sameKey⟩
  · rintro ⟨zero, sameLoc⟩
    rw [zero, sameLoc, replica_mn_zero, ok.primaryMn]
    exact ⟨rfl, rfl, rfl⟩

theorem backup_entry_update (ok : ItemOk cfg item) (bound : replI ≤ cfg.mappings.numBackups)
    (same : .ds req = updateReq coro replI item)
    (now : (abstractOf (dsKeyhash cfg) table).map =
      Function.update (mapAt cfg state req.machine req.rpcReqtype).map item.key (entryOf item))
    {loc : Loc} (spacing : loc.1 % rpcPrimaryDsReqSpacing = 0) {backI : Nat}
    (inRange : backI < cfg.mappings.numBackups) :
    backupEntry cfg (dsState state coro index req resp table) backI loc =
      if replI = backI + 1 ∧ loc = item.loc then entryOf item
      else backupEntry cfg state backI loc := by
  have itemSpacing := ok.spacing
  have backups := cfg.mappings.backupsBound
  simp only [rpcPrimaryDsReqSpacing, hotsMaxBackups] at spacing itemSpacing backups
  rw [backupEntry, update_map ok bound same now, backupEntry]
  apply ite_congr _ (fun _ => rfl) (fun _ => rfl)
  rw [eq_iff_iff]
  constructor
  · rintro ⟨_, sameType, sameKey⟩
    exact ⟨by omega, Prod.ext (by rw [RwsetItem.loc]; omega) sameKey⟩
  · rintro ⟨replica, sameLoc⟩
    rw [replica, sameLoc, replica_mn_succ ok inRange]
    exact ⟨rfl, rfl, rfl⟩

/-- The locks and the update counts after an update, for a key of a primary table. -/
theorem update_history (state : State V) (index : Nat) (resp : Resp V) (ok : ItemOk cfg item)
    (same : .ds req = updateReq coro replI item)
    (bound : replI ≤ cfg.mappings.numBackups) {other : RwsetItem V} (otherOk : ItemOk cfg other)
    (backI : Nat) (inRange : backI < cfg.mappings.numBackups) :
    (holds ((state.tx coro).respond index (.ds req) resp) other.loc =
      if replI = 0 ∧ other.loc = item.loc then false else holds (state.tx coro) other.loc) ∧
    applyCount ((state.tx coro).respond index (.ds req) resp) (replicaLoc (backI + 1) other.loc) =
      applyCount (state.tx coro) (replicaLoc (backI + 1) other.loc) +
        if replI = backI + 1 ∧ other.loc = item.loc then 1 else 0 := by
  have places : ∀ {target : Nat}, target ≤ cfg.mappings.numBackups →
      (replicaLoc replI item.loc = replicaLoc target other.loc ↔
        replI = target ∧ other.loc = item.loc) := by
    intro target inside
    constructor
    · intro equal
      obtain ⟨sameRepl, sameLoc⟩ := replica_loc_injective ok otherOk bound inside equal
      exact ⟨sameRepl, sameLoc.symm⟩
    · rintro ⟨sameRepl, sameLoc⟩
      rw [sameRepl, sameLoc]
  constructor
  · have place := places (Nat.zero_le _)
    rw [replica_loc_zero otherOk] at place
    rw [same]
    split_ifs with here
    · exact holds_update_self (place.mpr here)
    · exact holds_update_other fun equal => here (place.mp equal)
  · rw [apply_count_respond, same, applies_update]
    simp only [decide_eq_true_eq, places inRange]

theorem ds_update_replicas (cluster : ClusterInv cfg sizes state) (inv : ReplicaInv cfg state)
    (member : item ∈ (state.tx coro).writeSet) (bound : replI ≤ cfg.mappings.numBackups)
    (same : .ds req = updateReq coro replI item) {vec : List Nat} {rest : List (List Nat)}
    (at_ : (state.tx coro).pc = .update vec rest) (inside : replI ∈ vec)
    (held : holds (state.tx coro) item.loc = true)
    (now : (abstractOf (dsKeyhash cfg) table).map =
      Function.update (mapAt cfg state req.machine req.rpcReqtype).map item.key (entryOf item)) :
    ReplicaInv cfg (dsState state coro index req resp table) := by
  have txInv := cluster.txInv coro
  have ok := txInv.writeOk item member
  have own : (dsState state coro index req resp table).tx coro =
      (state.tx coro).respond index (.ds req) resp := by
    rw [tx_ds_state, if_pos rfl]
  have others : ∀ other, other ≠ coro →
      (dsState state coro index req resp table).tx other = state.tx other := by
    intro other different
    rw [tx_ds_state, if_neg different]
  constructor
  · intro other target targetIn backI inRange holding applied
    by_cases mine : other = coro
    · subst mine
      rw [own] at targetIn holding applied
      have targetOk := txInv.writeOk target targetIn
      obtain ⟨nowHeld, nowCount⟩ :=
        update_history state index resp ok same bound targetOk backI inRange
      rw [backup_entry_update ok bound same now targetOk.spacing inRange]
      split_ifs with here
      · rw [inj_on_of_nodup_map txInv.writeNodup targetIn member here.2]
      · rw [nowCount, if_neg here] at applied
        rw [nowHeld] at holding
        split_ifs at holding
        exact inv.ahead other target targetIn backI inRange holding applied
    · rw [others other mine] at targetIn holding applied
      have targetOk := (cluster.txInv other).writeOk target targetIn
      rw [backup_entry_update ok bound same now targetOk.spacing inRange, if_neg]
      · exact inv.ahead other target targetIn backI inRange holding applied
      · rintro ⟨_, sameLoc⟩
        exact mine (holder_unique cluster member held targetIn holding (by rw [sameLoc]))
  · intro loc spacing backI inRange notAhead
    have history := fun {other : RwsetItem V} (otherOk : ItemOk cfg other) =>
      update_history state index resp ok same bound otherOk backI inRange
    -- Who was ahead still is, unless this very update changes it.
    have carried : ¬ (replI = 0 ∧ loc = item.loc) → ¬ (replI = backI + 1 ∧ loc = item.loc) →
        ¬ Ahead state backI loc := by
      rintro notPrimary notThis ⟨other, target, targetIn, sameLoc, holding, applied⟩
      subst sameLoc
      have targetOk := (cluster.txInv other).writeOk target targetIn
      apply notAhead
      by_cases mine : other = coro
      · subst mine
        refine ⟨other, target, ?_, rfl, ?_, ?_⟩
        · rw [own]
          exact targetIn
        · rw [own, (history targetOk).1, if_neg notPrimary]
          exact holding
        · rw [own, (history targetOk).2, if_neg notThis]
          exact applied
      · refine ⟨other, target, ?_, rfl, ?_, ?_⟩
        · rw [others other mine]
          exact targetIn
        · rw [others other mine]
          exact holding
        · rw [others other mine]
          exact applied
    rw [backup_entry_update ok bound same now spacing inRange,
      primary_entry_update ok bound same now spacing]
    split_ifs with thisOne atPrimary atPrimary
    · omega
    · refine absurd ⟨coro, item, ?_, thisOne.2.symm, ?_, ?_⟩ notAhead
      · rw [own]
        exact member
      · rw [own, thisOne.2, (history ok).1, if_neg (by omega)]
        exact held
      · rw [own, thisOne.2, (history ok).2, if_pos ⟨thisOne.1, rfl⟩]
        exact Nat.succ_ne_zero _
    · -- The primary follows its backups.
      have counted := primary_after_backups txInv at_ (atPrimary.1 ▸ inside) member
        (Nat.zero_lt_succ backI) inRange
      rw [atPrimary.2]
      exact inv.ahead coro item member backI inRange held (by rw [counted]; exact Nat.one_ne_zero)
    · exact inv.agreed loc spacing backI inRange (carried atPrimary thisOne)

theorem ds_replicas (cluster : ClusterInv cfg sizes state) (inv : ReplicaInv cfg state)
    (case_ : DsCase cfg coro (state.tx coro) req resp (mapAt cfg state req.machine req.rpcReqtype)
      (abstractOf (dsKeyhash cfg) table)) :
    ReplicaInv cfg (dsState state coro index req resp table) := by
  have acquired := fun bucket =>
    acquire_same (mapAt cfg state req.machine req.rpcReqtype) (callerId coro) bucket
  cases case_ with
  | read item member same unchanged =>
      refine ds_quiet_replicas inv (by rw [unchanged]) (by simp [same]) (Or.inr fun loc => ?_)
      rw [same]
      exact holds_quiet (by simp) (by simp) (by simp) loc
  | denied item member same refused now =>
      refine ds_quiet_replicas inv ?_ (by simp [same]) (Or.inr fun loc => ?_)
      · rcases now with now | ⟨_, now⟩
        · rw [now]
        · rw [now]
          exact (release_same _ _).1.trans (acquired _).1
      · rw [same]
        exact holds_quiet (by simp [grants_lock, refused]) (by simp) (by simp) loc
  | granted item member same accepted fresh noUnlock noApply free now =>
      exact ds_quiet_replicas inv (by rw [now]; exact (acquired _).1) (by simp [same])
        (Or.inl noApply)
  | unlocked item member same held noApply now =>
      exact ds_quiet_replicas inv (by rw [now]; exact (release_same _ _).1) (by simp [same])
        (Or.inl noApply)
  | applied replI item member same vec rest at_ inside bound held fresh now =>
      refine ds_update_replicas cluster inv member bound same at_ inside held ?_
      rw [now]
      exact (release_if_primary_same _ _).1

end Executed

section Runs

variable {init : State V}

/-- All replicas of every table have the same entries. -/
def ReplicasAgree (cfg : Config) (state : State V) : Prop :=
  ∀ loc : Loc, loc.1 % rpcPrimaryDsReqSpacing = 0 →
    ∀ backI, backI < cfg.mappings.numBackups →
      backupEntry cfg state backI loc = primaryEntry cfg state loc

theorem reachable_replicas (initial : Initial cfg init) (agree : ReplicasAgree cfg init)
    (reached : Reachable cfg init state) : ReplicaInv cfg state := by
  induction reached with
  | refl =>
      constructor
      · intro coro item member
        rw [State.tx, initial.txns] at member
        cases member
      · exact fun loc spacing backI bound _ => agree loc spacing backI bound
  | @step before next label reached ran ih =>
      have cluster := reachable_inv initial reached
      obtain ⟨valid, case_⟩ := step_cases (cluster.txInv label.coro) ran
      cases case_ with
      | start at_ ended => exact start_replicas cluster ih at_ ended
      | move tx moved => exact move_replicas cluster ih moved
      | ds index req stale resp table found run =>
          exact ds_replicas cluster ih (ds_case cluster found (ds_run cluster valid found run).2)
      | log index machine wrkrLid record found => exact log_replicas ih index machine wrkrLid record

/-- A key whose lock nobody holds is not ahead at any backup. -/
theorem not_ahead_of_unlocked (cluster : ClusterInv cfg sizes state) {loc : Loc}
    (unlocked : isUnlocked ((state.tables (primaryOf cfg loc) loc.1).buckets
      (calcBucketIndex (state.tables (primaryOf cfg loc) loc.1) (dsKeyhash cfg loc.2))).timestamp)
    (backI : Nat) : ¬ Ahead state backI loc := by
  rintro ⟨coro, item, member, sameLoc, held, _⟩
  subst sameLoc
  have ok := (cluster.txInv coro).writeOk item member
  obtain ⟨count, lock⟩ := owner_of_holds cluster member held
  have free := (lock_of_none_iff _).mpr unlocked
  have primary : primaryOf cfg item.loc = item.primaryMn := ok.primaryMn.symm
  rw [primary] at free
  have both := free.symm.trans lock
  cases both

/-- Where the key of an update or a removal is missing, the transaction inserts it. -/
theorem missing_key_inserted (cluster : ClusterInv cfg sizes state) (inv : ReplicaInv cfg state)
    {index : Nat} {req : DsReq V} (found : (state.tx coro).batch[index]? = some ⟨.ds req, none⟩)
    (writes : req.reqType = .del ∨ ∃ val, req.reqType = .put val)
    (missing : contents (dsKeyhash cfg) (state.tables req.machine req.rpcReqtype) req.key = none) :
    ∃ item ∈ (state.tx coro).writeSet, item.key = req.key ∧ item.writeMode = .insert ∧
      req.reqType = .put item.obj.val ∧ primaryEntry cfg state item.loc = none ∧
      ∃ vec rest, (state.tx coro).pc = .update vec rest := by
  have txInv := cluster.txInv coro
  cases open_slot txInv found rfl with
  | read item member same =>
      rw [ds_of_generic same] at writes
      simp at writes
  | lock item member same =>
      rw [ds_of_generic same] at writes
      simp only at writes
      split_ifs at writes <;> simp at writes
  | unlock item member same =>
      rw [ds_of_generic same] at writes
      simp at writes
  | update replI item member same vec rest at_ inside bound held fresh =>
      have ok := txInv.writeOk item member
      have shape := Request.ds.inj same
      rw [shape] at missing ⊢
      simp only at missing ⊢
      have primary : primaryOf cfg item.loc = item.primaryMn := ok.primaryMn.symm
      have absent : primaryEntry cfg state item.loc = none := by
        cases replI with
        | zero =>
            rw [replica_mn_zero, replica_reqtype_small ok bound, Nat.add_zero] at missing
            rw [primaryEntry, primary]
            exact missing
        | succ backI =>
            have notAhead : ¬ Ahead state backI item.loc := by
              rintro ⟨other, target, targetIn, sameLoc, holding, applied⟩
              rw [← sameLoc] at holding
              have mine := holder_unique cluster member held targetIn holding (by rw [sameLoc])
              rw [mine] at applied
              exact applied fresh
            rw [replica_reqtype_small ok bound, replica_mn_succ ok bound] at missing
            exact (inv.agreed item.loc ok.spacing backI bound notAhead).symm.trans missing
      have insert : item.writeMode = .insert := by
        refine (cluster.modes coro item member held).mp ?_
        rw [primaryEntry, primary] at absent
        exact absent
      exact ⟨item, member, rfl, insert, by rw [insert]; rfl, absent, vec, rest, at_⟩
  | log backI record bound same => cases same

/-- The key of a removal on its way is there. -/
theorem removal_finds (cluster : ClusterInv cfg sizes state) (inv : ReplicaInv cfg state)
    {index : Nat} {req : DsReq V} (found : (state.tx coro).batch[index]? = some ⟨.ds req, none⟩)
    (removal : req.reqType = .del) :
    contents (dsKeyhash cfg) (state.tables req.machine req.rpcReqtype) req.key ≠ none := by
  intro missing
  obtain ⟨_, _, _, _, put, _⟩ := missing_key_inserted cluster inv found (Or.inl removal) missing
  rw [removal] at put
  cases put

/-- Replicas that agree at the start agree on every key whose primary bucket is
unlocked, in every reachable state, and `del` never misses its key at a backup. -/
theorem primary_and_backups_agree (initial : Initial cfg init) (agree : ReplicasAgree cfg init)
    (reached : Reachable cfg init state) :
    (∀ (reqtype : Nat) (key : UInt64), reqtype % rpcPrimaryDsReqSpacing = 0 →
      let primaryMn := cfg.mappings.getPrimaryMn (dsKeyhash cfg key)
      let primary := state.tables primaryMn reqtype
      isUnlocked (primary.buckets (calcBucketIndex primary (dsKeyhash cfg key))).timestamp →
      ∀ backI, 1 ≤ backI → backI ≤ cfg.mappings.numBackups →
        contents (dsKeyhash cfg)
          (state.tables (cfg.mappings.getBackupMnFromPrimary primaryMn (backI - 1))
            (reqtype + backI)) key = contents (dsKeyhash cfg) primary key) ∧
    (∀ (coro : CoroId) (index : Nat) (req : DsReq V) (stale : UInt64), cfg.Valid coro →
      (state.tx coro).batch[index]? = some ⟨.ds req, none⟩ →
      req.rpcReqtype % rpcPrimaryDsReqSpacing ≠ 0 → req.reqType = .del →
      contents (dsKeyhash cfg) (state.tables req.machine req.rpcReqtype) req.key ≠ none ∧
        dsFixedtableRpcHandler (state.tables req.machine req.rpcReqtype) req stale ≠
          .error (.assertion .keyMissing)) := by
  have cluster := reachable_inv initial reached
  have inv := reachable_replicas initial agree reached
  constructor
  · intro reqtype key spacing
    dsimp only
    intro unlocked backI lower upper
    have notAhead := not_ahead_of_unlocked cluster (show isUnlocked ((state.tables
      (primaryOf cfg (reqtype, key)) (reqtype, key).1).buckets _).timestamp from unlocked)
    have agreed := inv.agreed (reqtype, key) spacing (backI - 1) (by omega) (notAhead _)
    rw [backupEntry, show (reqtype, key).1 + (backI - 1 + 1) = reqtype + backI by
      simp only; omega] at agreed
    exact agreed
  · intro coro index req stale valid found _ removal
    have present := removal_finds cluster inv found removal
    refine ⟨present, fun stopped => ?_⟩
    rcases handler_effect (cluster.tableOk _ _) (open_req_ok cluster valid found) stale with
      ⟨_, _, ran, _⟩ | ⟨⟨⟨val, isPut⟩, _⟩, _⟩ | ⟨_, missing, _⟩
    · rw [stopped] at ran
      cases ran
    · rw [removal] at isPut
      cases isPut
    · exact present missing

/-- After an insertion both replicas have the new entry. -/
theorem primary_and_backups_agree_insert :
    ∃ state, runLabels twoMachines (newSwarm 8 1 0 (0 : Nat)) (insertRun ++
        [.handle ⟨0, 1⟩ 0 0, .resume ⟨0, 1⟩, .handle ⟨0, 1⟩ 0 0, .resume ⟨0, 1⟩]) = some state ∧
      contents (dsKeyhash twoMachines) (state.tables 0 20) 5 = some 7 ∧
      contents (dsKeyhash twoMachines) (state.tables 1 21) 5 = some 7 := by
  have observed : (runLabels twoMachines (newSwarm 8 1 0 (0 : Nat)) (insertRun ++
      [.handle ⟨0, 1⟩ 0 0, .resume ⟨0, 1⟩, .handle ⟨0, 1⟩ 0 0, .resume ⟨0, 1⟩])).map (fun state =>
        (((state.tables 0 20).buckets (calcBucketIndex (state.tables 0 20)
          (dsKeyhash twoMachines 5))).timestamp &&& 1,
          contents (dsKeyhash twoMachines) (state.tables 0 20) 5)) = some (0, some 7) := by
    decide +kernel
  obtain ⟨state, ran, same⟩ := Option.map_eq_some_iff.mp observed
  obtain ⟨unlocked, stored⟩ := Prod.mk.inj same
  have initial := new_swarm_initial twoMachines 8 1 0 (0 : Nat) (by decide)
  have reached := run_labels_reachable _ .refl ran
  have agree : ReplicasAgree twoMachines (newSwarm 8 1 0 (0 : Nat)) := by
    intro loc _ backI _
    have empty := fun role => (construct_ok (dsKeyhash twoMachines) role 8 1 0 (0 : Nat) (by decide)).2
    rw [backupEntry, primaryEntry, mapAt, mapAt, newSwarm, empty, empty]
    rfl
  have agreed := (primary_and_backups_agree initial agree reached).1 20 5 (by decide) unlocked 1
    (by decide) (by decide)
  exact ⟨state, ran, stored, agreed.trans stored⟩

end Runs

end Fasst.TxReplicas

import Fasst.TxReplicas
import Fasst.TxViews

/-!
# The swarm runs the general protocol

Every step of the swarm is a sequence of steps of optimistic reads with locked
writes, as long as no primary bucket has been unlocked so often that its version
field returns to an old value. The version of a bucket in the general machine is
the number of its final unlocks.
-/

namespace Fasst.TxSerial

open List Fasst.FixedTableModel Fasst.FixedTableLocks Fasst.FixedTableEdits Fasst.FixedTableSpec
open Fasst.Placement Fasst.TxModel Fasst.TxCluster Fasst.Aligned Fasst.TxLocal Fasst.TxCalls
open Fasst.TxHandler Fasst.TxSteps Fasst.TxLocks Fasst.TxInvariant Fasst.TxReplicas Fasst.TxViews
open Fasst.OptimisticLocking Fasst.OptimisticSteps

set_option autoImplicit false

variable {V : Type} {cfg : Config} {sizes : Nat → Nat → Nat} {state next : State V} {coro : CoroId}

def versionAt (cfg : Config) (state : State V) (place : Place) : Nat :=
  (mapAt cfg state place.machine place.reqtype).version place.bucket

/-- Nothing has been recorded about a transaction that has not begun. -/
structure FreshView (view : View V) : Prop where
  phase : view.phase = .running
  reads : ∀ loc, view.reads loc = none
  checked : ∀ loc, ¬ view.checked loc
  locked : ∀ loc, view.locked loc = none
  news : ∀ loc, view.news loc = none
  applied : ∀ loc, ¬ view.applied loc

structure Sim (cfg : Config) (sizes : Nat → Nat → Nat) (base : Place → Nat) (state : State V)
    (occ : Occ TxId Loc Place (Option V)) : Prop where
  store : ∀ loc : Loc, loc.1 % rpcPrimaryDsReqSpacing = 0 →
    occ.store loc = primaryEntry cfg state loc
  version : occ.version = versionAt cfg state
  owner : ∀ place txn, occ.owner place = some txn ↔
    txn.2 = state.cur txn.1 ∧ 0 < lockCount cfg sizes (state.tx txn.1) place
  views : ∀ coro number, number ≤ state.cur coro →
    ViewSim coro (viewOf occ (coro, number)) (state.txns coro number)
  future : ∀ coro number, state.cur coro < number → FreshView (viewOf occ (coro, number))
  floor : ∀ place, base place ≤ occ.version place
  marks : ∀ txn loc entry version, occ.reads txn loc = some (entry, .exact version) →
    base (placeOf cfg sizes loc) ≤ version

/-- No version has come back to one that a reader may remember. -/
def NoWrap (cfg : Config) (base : Place → Nat) (state : State V) : Prop :=
  ∀ place, versionAt cfg state place < base place + 2 ^ 60

section Frames

variable {base : Place → Nat} {occ after : Occ TxId Loc Place (Option V)}

/-- What one coroutine's step has to show. -/
theorem sim_step (coro : CoroId) (sim : Sim cfg sizes base state occ) (cur : next.cur = state.cur)
    (txns : ∀ other number, (other, number) ≠ (coro, state.cur coro) →
      next.txns other number = state.txns other number)
    (store : ∀ loc : Loc, loc.1 % rpcPrimaryDsReqSpacing = 0 →
      after.store loc = primaryEntry cfg next loc)
    (version : after.version = versionAt cfg next)
    (owner : ∀ place txn, after.owner place = some txn ↔
      txn.2 = next.cur txn.1 ∧ 0 < lockCount cfg sizes (next.tx txn.1) place)
    (view : ViewSim coro (viewOf after (coro, state.cur coro)) (next.tx coro))
    (others : ∀ txn, txn ≠ (coro, state.cur coro) → viewOf after txn = viewOf occ txn)
    (floor : ∀ place, occ.version place ≤ after.version place)
    (marks : ∀ loc entry version,
      after.reads (coro, state.cur coro) loc = some (entry, .exact version) →
        base (placeOf cfg sizes loc) ≤ version) :
    Sim cfg sizes base next after := by
  refine ⟨store, version, owner, ?_, ?_, fun place => (sim.floor place).trans (floor place), ?_⟩
  · intro other number bound
    by_cases mine : (other, number) = (coro, state.cur coro)
    · obtain ⟨rfl, rfl⟩ := Prod.mk.inj mine
      have current := view
      rw [State.tx, cur] at current
      exact current
    · rw [others _ mine, txns other number mine]
      rw [cur] at bound
      exact sim.views other number bound
  · intro other number later
    rw [cur] at later
    rw [others]
    · exact sim.future other number later
    · intro same
      obtain ⟨rfl, rfl⟩ := Prod.mk.inj same
      exact Nat.lt_irrefl _ later
  · intro txn loc entry seen read
    by_cases mine : txn = (coro, state.cur coro)
    · subst mine
      exact marks loc entry seen read
    · have before : occ.reads txn = after.reads txn :=
        (congrArg View.reads (others txn mine)).symm
      rw [← before] at read
      exact sim.marks txn loc entry seen read

theorem current_view (sim : Sim cfg sizes base state occ) (coro : CoroId) :
    ViewSim coro (viewOf occ (coro, state.cur coro)) (state.tx coro) :=
  sim.views coro (state.cur coro) (Nat.le_refl _)

theorem current_phase (sim : Sim cfg sizes base state occ) (coro : CoroId) :
    occ.phase (coro, state.cur coro) = phaseOf (state.tx coro) :=
  (current_view sim coro).phase

end Frames

section Moves

variable {base : Place → Nat} {init : Loc → Option V} {home : Loc → Place}
  {occ : Occ TxId Loc Place (Option V)} {order : List TxId} {txn : TxId}

/-- The other parts of the general machine stay as they are. -/
structure Lifts (txn : TxId) (occ after : Occ TxId Loc Place (Option V)) : Prop where
  store : after.store = occ.store
  version : after.version = occ.version
  owner : after.owner = occ.owner
  reads : after.reads = occ.reads
  others : ∀ other, other ≠ txn → viewOf after other = viewOf occ other

theorem lift_phase (occ : Occ TxId Loc Place (Option V)) (txn : TxId) (phase : Phase) :
    Lifts txn occ { occ with phase := Function.update occ.phase txn phase } ∧
      viewOf { occ with phase := Function.update occ.phase txn phase } txn =
        { viewOf occ txn with phase := phase } := by
  refine ⟨⟨rfl, rfl, rfl, rfl, fun other different => ?_⟩, ?_⟩
  · simp only [viewOf, Function.update_of_ne different]
  · simp only [viewOf, Function.update_self]

theorem lift_view {tx : TxState V} {view : View V} (inv : SerialInv home init occ order)
    (step : ViewStep tx (viewOf occ txn) view) :
    ∃ after order, SerialInv home init after order ∧ Lifts txn occ after ∧ viewOf after txn = view := by
  cases step with
  | stay => exact ⟨occ, order, inv, ⟨rfl, rfl, rfl, rfl, fun _ _ => rfl⟩, rfl⟩
  | call running covered =>
      obtain ⟨order, kept⟩ := step_serial inv (.call txn (newsOf tx) running covered)
      refine ⟨_, order, kept, ⟨rfl, rfl, rfl, rfl, fun other different => ?_⟩, ?_⟩
      · simp only [viewOf, Function.update_of_ne different]
      · simp only [viewOf, Function.update_self]
  | commit running covered noReads =>
      obtain ⟨called, first⟩ := step_serial inv (.call txn (newsOf tx) running covered)
      obtain ⟨order, kept⟩ := step_serial first (.decide txn (Function.update_self _ _ _)
        (fun key read => absurd (noReads key) read))
      refine ⟨_, order, kept, ⟨rfl, rfl, rfl, rfl, fun other different => ?_⟩, ?_⟩
      · simp only [viewOf, Function.update_of_ne different]
      · simp only [viewOf, Function.update_self]
  | decide called all =>
      obtain ⟨order, kept⟩ := step_serial inv (.decide txn called all)
      exact ⟨_, order, kept, lift_phase occ txn .decided⟩
  | single loc running readOnly only =>
      obtain ⟨order, kept⟩ := step_serial inv (.single txn loc running readOnly only)
      exact ⟨_, order, kept, lift_phase occ txn .decided⟩
  | fail undecided =>
      obtain ⟨order, kept⟩ := step_serial inv (.fail txn undecided)
      exact ⟨_, order, kept, lift_phase occ txn .failed⟩

/-- The swarm and the general machine, with a serial order. -/
def Simulated (cfg : Config) (sizes : Nat → Nat → Nat) (base : Place → Nat)
    (init : Loc → Option V) (state : State V) : Prop :=
  ∃ occ order, SerialInv (placeOf cfg sizes) init occ order ∧ Sim cfg sizes base state occ

theorem txns_set_tx_other (state : State V) (coro : CoroId) (tx : TxState V) {other : CoroId}
    {number : Nat} (different : (other, number) ≠ (coro, state.cur coro)) :
    (state.setTx coro tx).txns other number = state.txns other number := by
  rw [txns_set_tx, if_neg]
  rintro ⟨rfl, rfl⟩
  exact different rfl

theorem txns_stage (cfg : Config) (state : State V) (coro : CoroId) (tx : TxState V) :
    (state.stage cfg coro tx).txns = state.txns ∧ (state.stage cfg coro tx).cur = state.cur := by
  unfold State.stage
  split <;> exact ⟨rfl, rfl⟩

theorem move_simulated (cluster : ClusterInv cfg sizes state)
    (simulated : Simulated cfg sizes base init state) {tx : TxState V}
    (moved : LocalMove cfg coro (state.oldWord cfg coro) (state.tx coro) tx) :
    Simulated cfg sizes base init ((state.stage cfg coro tx).setTx coro tx) := by
  obtain ⟨occ, order, serial, sim⟩ := simulated
  obtain ⟨txInv, continues⟩ := move_inv (cluster.txInv coro) moved
  obtain ⟨view, step, after⟩ := view_moves (cluster.txInv coro) (current_view sim coro)
    (fun running loc => (serial.idle _ loc running).1) moved
  obtain ⟨moved, order, kept, lifts, same⟩ := lift_view serial step
  obtain ⟨sameTxns, sameCur⟩ := txns_stage cfg state coro tx
  have maps : ∀ machine reqtype, mapAt cfg ((state.stage cfg coro tx).setTx coro tx) machine reqtype =
      mapAt cfg state machine reqtype := by
    intro machine reqtype
    rw [mapAt, tables_set_tx, tables_stage, mapAt]
  refine ⟨moved, order, kept, sim_step coro sim ?_ ?_ ?_ ?_ ?_ ?_ lifts.others ?_ ?_⟩
  · exact sameCur
  · intro other number different
    rw [txns_set_tx_other _ _ _ (by rw [sameCur]; exact different), sameTxns]
  · intro loc spacing
    rw [lifts.store, sim.store loc spacing, primaryEntry, primaryEntry, maps]
  · rw [lifts.version, sim.version]
    funext place
    rw [versionAt, versionAt, maps]
  · intro place txn
    rw [lifts.owner, sim.owner, tx_set_tx, show ((state.stage cfg coro tx).setTx coro tx).cur =
      state.cur from sameCur]
    split_ifs with mine
    · rw [mine, lock_count_continues (cluster.txInv coro) txInv continues]
    · rw [tx_stage]
  · rw [same, tx_set_tx_self]
    exact after
  · intro place
    rw [lifts.version]
  · intro loc entry version read
    rw [lifts.reads] at read
    exact sim.marks _ loc entry version read

theorem start_simulated (cluster : ClusterInv cfg sizes state)
    (simulated : Simulated cfg sizes base init state) (at_ : (state.tx coro).pc = .app)
    (ended : (state.tx coro).status = .committed ∨ (state.tx coro).status = .aborted) :
    Simulated cfg sizes base init (startState state coro) := by
  obtain ⟨occ, order, serial, sim⟩ := simulated
  refine ⟨occ, order, serial, sim.store, sim.version, ?_, ?_, ?_, sim.floor, sim.marks⟩
  · intro place txn
    rw [sim.owner, tx_start_state]
    by_cases mine : txn.1 = coro
    · have zero : lockCount cfg sizes (state.tx txn.1) place = 0 := by
        rw [mine, lockCount, countP_eq_zero]
        intro loc _
        rw [finished_holds (cluster.txInv coro) at_ ended loc, Bool.false_and]
        exact Bool.false_ne_true
      have none_ : lockCount cfg sizes (TxState.start : TxState V) place = 0 := rfl
      rw [if_pos mine, zero, none_]
      simp
    · rw [if_neg mine]
      simp only [startState, Function.update_of_ne mine]
  · intro other number bound
    by_cases mine : other = coro
    · subst mine
      simp only [startState, Function.update_self] at bound ⊢
      by_cases new : number = state.cur other + 1
      · subst new
        rw [Function.update_self]
        have fresh := sim.future other _ (Nat.lt_succ_self _)
        refine ⟨fresh.phase, ?_, ?_, ?_, ?_⟩
        · exact fun loc read => absurd (fresh.reads loc) read
        · exact fun loc locked => absurd (fresh.locked loc) locked
        · intro loc _
          exact ⟨fun applied => absurd applied (fresh.applied loc), fun count => absurd rfl count⟩
        · exact ⟨fun _ member => absurd member not_mem_nil, fun _ member => absurd member not_mem_nil⟩
      · rw [Function.update_of_ne new]
        exact sim.views other number (by omega)
    · simp only [startState, Function.update_of_ne mine] at bound ⊢
      exact sim.views other number bound
  · intro other number later
    by_cases mine : other = coro
    · subst mine
      simp only [startState, Function.update_self] at later
      exact sim.future other number (by omega)
    · simp only [startState, Function.update_of_ne mine] at later
      exact sim.future other number later

theorem log_simulated (simulated : Simulated cfg sizes base init state)
    {index machine wrkrLid : Nat} {record : List UInt8} (cluster : ClusterInv cfg sizes state)
    (found : (state.tx coro).batch[index]? = some ⟨.log machine wrkrLid record, none⟩) :
    Simulated cfg sizes base init (logState cfg state coro index machine wrkrLid record) := by
  obtain ⟨occ, order, serial, sim⟩ := simulated
  have own : (logState cfg state coro index machine wrkrLid record).tx coro =
      (state.tx coro).respond index (.log machine wrkrLid record) ⟨.loggerSuccess, 0, none, none⟩ :=
    tx_set_tx_self _ _ _
  have atLog : (state.tx coro).pc = .log := by
    cases open_slot (cluster.txInv coro) found rfl with
    | read item member same => cases same
    | lock item member same => cases same
    | unlock item member same => cases same
    | update replI item member same => cases same
    | log backI record bound same at_ => exact at_
  refine ⟨occ, order, serial, sim_step coro sim rfl ?_ sim.store sim.version ?_ ?_
    (fun _ _ => rfl) (fun _ => Nat.le_refl _) (fun loc entry version => sim.marks _ loc entry version)⟩
  · exact fun other number different => txns_set_tx_other _ _ _ different
  · intro place txn
    rw [sim.owner]
    by_cases mine : txn.1 = coro
    · rw [mine, own, lock_count_congr fun loc _ =>
        holds_quiet (by simp) (by simp) (by simp) loc]
      rfl
    · have unchanged : (logState cfg state coro index machine wrkrLid record).tx txn.1 =
          state.tx txn.1 := by
        unfold logState
        rw [tx_set_tx, if_neg mine]
        rfl
      rw [unchanged]
      rfl
  · rw [own]
    refine view_late (current_view sim coro) (Or.inr (Or.inl atLog)) ?_
    intro loc spacing
    rw [apply_count_respond, applies_log]
    exact (current_view sim coro).applied loc spacing

end Moves

section Buckets

variable {base : Place → Nat} {occ : Occ TxId Loc Place (Option V)}

theorem version_of_word (before : MapState V) (bucket : Nat) :
    versionOf (before.word bucket) = before.version bucket % 2 ^ 60 := by
  rw [versionOf, MapState.word, UInt64.toNat_ofNat']
  split_ifs <;> omega

theorem acquire_version (before : MapState V) (caller bucket : Nat) :
    (before.acquire caller bucket).version = before.version := by
  unfold MapState.acquire
  split <;> rfl

theorem release_version {before : MapState V} {bucket owner count : Nat}
    (held : before.lock bucket = some (owner, count + 1)) :
    (before.release bucket).version = if count = 0 then
      Function.update before.version bucket (before.version bucket + 1) else before.version := by
  unfold MapState.release
  cases count with
  | zero => simp only [held, if_true]
  | succ fewer => simp only [held, Nat.succ_ne_zero, if_false]

theorem relock_free {before : MapState V} {bucket : Nat} (caller : Nat)
    (lock : before.lock bucket = none) :
    ((before.acquire caller bucket).release bucket).version =
      Function.update before.version bucket (before.version bucket + 1) := by
  simp [MapState.acquire, MapState.release, lock]

theorem relock_held {before : MapState V} {bucket owner count : Nat} (caller : Nat)
    (lock : before.lock bucket = some (owner, count)) (positive : 0 < count) :
    ((before.acquire caller bucket).release bucket).version = before.version := by
  obtain ⟨fewer, rfl⟩ := Nat.exists_eq_succ_of_ne_zero positive.ne'
  have held : (before.acquire caller bucket).lock bucket = some (owner, (fewer + 1) + 1) := by
    simp [MapState.acquire, lock]
  rw [release_version held, if_neg (Nat.succ_ne_zero _), acquire_version]

theorem store_release_version (before : MapState V) (key : UInt64) (entry : Option V)
    (bucket : Nat) : ((before.store key entry).releaseIfPrimary bucket).version =
      if before.isPrimary then (before.release bucket).version else before.version := by
  unfold MapState.releaseIfPrimary MapState.release MapState.store
  by_cases primary : before.isPrimary = true
  · simp only [primary, if_true]
    split <;> rfl
  · simp only [primary]
    rfl

/-- The owner of a bucket in the general machine is the coroutine in its lock. -/
theorem owner_of_lock (cluster : ClusterInv cfg sizes state) (sim : Sim cfg sizes base state occ)
    (place : Place) :
    match (mapAt cfg state place.machine place.reqtype).lock place.bucket with
    | none => occ.owner place = none
    | some (caller, _) => ∃ holder, cfg.Valid holder ∧ caller = callerId holder ∧
        occ.owner place = some (holder, state.cur holder) := by
  have locked := cluster.locks place
  have wf := (cluster.tableOk place.machine place.reqtype).locks place.bucket
  cases lock : (mapAt cfg state place.machine place.reqtype).lock place.bucket with
  | none =>
      rw [show lockOf _ = none from lock] at locked
      cases owner : occ.owner place with
      | none => rfl
      | some txn =>
          have positive := ((sim.owner place txn).mp owner).2
          have zero : lockCount cfg sizes (state.tx txn.1) place = 0 := locked txn.1
          omega
  | some pair =>
      obtain ⟨caller, count⟩ := pair
      rw [show lockOf _ = some (caller, count) from lock] at locked
      rw [LockWf, show lockOf _ = some (caller, count) from lock] at wf
      obtain ⟨holder, valid, same, total, _⟩ := locked
      refine ⟨holder, valid, same, (sim.owner place _).mpr ⟨rfl, ?_⟩⟩
      exact Nat.lt_of_lt_of_eq wf.2.1 total

theorem accessible_of_free (cluster : ClusterInv cfg sizes state)
    (sim : Sim cfg sizes base state occ) (valid : cfg.Valid coro) {item : RwsetItem V}
    (ok : ItemOk cfg item)
    (free : ¬ (mapAt cfg state item.primaryMn item.rpcReqtype).HeldByOther (callerId coro)
      ((mapAt cfg state item.primaryMn item.rpcReqtype).bucketOf (dsKeyhash cfg item.key))) :
    occ.Accessible (placeOf cfg sizes) (coro, state.cur coro) item.loc := by
  unfold Occ.Accessible
  rw [place_of_item cluster ok]
  have owner := owner_of_lock cluster sim ⟨item.primaryMn, item.rpcReqtype,
    (mapAt cfg state item.primaryMn item.rpcReqtype).bucketOf (dsKeyhash cfg item.key)⟩
  cases lock : (mapAt cfg state item.primaryMn item.rpcReqtype).lock
      ((mapAt cfg state item.primaryMn item.rpcReqtype).bucketOf (dsKeyhash cfg item.key)) with
  | none =>
      rw [lock] at owner
      exact Or.inl owner
  | some pair =>
      rw [lock] at owner
      obtain ⟨holder, holderValid, same, owned⟩ := owner
      have mine : holder = coro := by
        by_contra different
        refine free ⟨pair.1, pair.2, lock, ?_⟩
        rw [same]
        exact fun equal => different (caller_id_injective holderValid valid equal)
      rw [mine] at owned
      exact Or.inr owned

end Buckets

section Executed

variable {base : Place → Nat} {init : Loc → Option V} {index : Nat} {req : DsReq V} {resp : Resp V}
  {table : FixedTable V}

theorem version_at_ds (place : Place) :
    versionAt cfg (dsState state coro index req resp table) place =
      if place.machine = req.machine ∧ place.reqtype = req.rpcReqtype then
        (abstractOf (dsKeyhash cfg) table).version place.bucket
      else versionAt cfg state place := by
  unfold versionAt
  rw [map_at_ds_state]
  split_ifs <;> rfl

theorem version_at_same (same : (abstractOf (dsKeyhash cfg) table).version =
      (mapAt cfg state req.machine req.rpcReqtype).version) :
    versionAt cfg (dsState state coro index req resp table) = versionAt cfg state := by
  funext place
  rw [version_at_ds, same]
  split_ifs with here
  · rw [versionAt, here.1, here.2]
  · rfl

theorem version_at_bump {bucket : Nat}
    (bumped : (abstractOf (dsKeyhash cfg) table).version =
      Function.update (mapAt cfg state req.machine req.rpcReqtype).version bucket
        ((mapAt cfg state req.machine req.rpcReqtype).version bucket + 1)) :
    versionAt cfg (dsState state coro index req resp table) =
      Function.update (versionAt cfg state) ⟨req.machine, req.rpcReqtype, bucket⟩
        (versionAt cfg state ⟨req.machine, req.rpcReqtype, bucket⟩ + 1) := by
  funext place
  rw [version_at_ds, bumped]
  obtain ⟨machine, reqtype, number⟩ := place
  by_cases here : machine = req.machine ∧ reqtype = req.rpcReqtype
  · rw [if_pos here]
    obtain ⟨rfl, rfl⟩ := here
    by_cases same : number = bucket
    · rw [same, Function.update_self, Function.update_self]
      rfl
    · rw [Function.update_of_ne same,
        Function.update_of_ne fun equal => same (congrArg Place.bucket equal)]
      rfl
  · rw [if_neg here, Function.update_of_ne]
    intro equal
    exact here ⟨congrArg Place.machine equal, congrArg Place.reqtype equal⟩

theorem primary_entry_same (same : (abstractOf (dsKeyhash cfg) table).map =
      (mapAt cfg state req.machine req.rpcReqtype).map) (loc : Loc) :
    primaryEntry cfg (dsState state coro index req resp table) loc = primaryEntry cfg state loc := by
  rw [primaryEntry, map_at_ds_state, primaryEntry]
  split_ifs with here
  · rw [same, here.1, here.2]
  · rfl

variable {occ : Occ TxId Loc Place (Option V)} {order : List TxId}

theorem own_tx_ds : (dsState state coro index req resp table).tx coro =
    (state.tx coro).respond index (.ds req) resp := by
  rw [tx_ds_state, if_pos rfl]

/-- A request that leaves the locks of its coroutine as they are. -/
theorem owner_same (table : FixedTable V) (sim : Sim cfg sizes base state occ)
    (counts : ∀ place, lockCount cfg sizes ((state.tx coro).respond index (.ds req) resp) place =
      lockCount cfg sizes (state.tx coro) place) (place : Place) (txn : TxId) :
    occ.owner place = some txn ↔
      txn.2 = (dsState state coro index req resp table).cur txn.1 ∧
        0 < lockCount cfg sizes ((dsState state coro index req resp table).tx txn.1) place := by
  rw [sim.owner, tx_ds_state]
  split_ifs with mine
  · rw [counts, mine]
    rfl
  · rfl

theorem read_keeps_locks (index : Nat) (resp : Resp V) {item : RwsetItem V}
    (same : .ds req = readReq coro item) (place : Place) :
    lockCount cfg sizes ((state.tx coro).respond index (.ds req) resp) place =
      lockCount cfg sizes (state.tx coro) place := by
  rw [same]
  exact lock_count_congr (fun loc _ => holds_quiet (by simp) (by simp) (by simp) loc) place

/-- What a request that records no read has to show. -/
theorem request_sim {after : Occ TxId Loc Place (Option V)} (sim : Sim cfg sizes base state occ)
    (reads : after.reads = occ.reads) (floor : occ.version ≤ after.version)
    (store : ∀ loc : Loc, loc.1 % rpcPrimaryDsReqSpacing = 0 →
      after.store loc = primaryEntry cfg (dsState state coro index req resp table) loc)
    (version : after.version = versionAt cfg (dsState state coro index req resp table))
    (owner : ∀ place txn, after.owner place = some txn ↔
      txn.2 = (dsState state coro index req resp table).cur txn.1 ∧
        0 < lockCount cfg sizes ((dsState state coro index req resp table).tx txn.1) place)
    (view : ViewSim coro (viewOf after (coro, state.cur coro))
      ((state.tx coro).respond index (.ds req) resp))
    (others : ∀ txn, txn ≠ (coro, state.cur coro) → viewOf after txn = viewOf occ txn) :
    Sim cfg sizes base (dsState state coro index req resp table) after := by
  refine sim_step coro sim rfl ?_ store version owner ?_ others floor ?_
  · exact fun other number different => txns_set_tx_other _ _ _ different
  · rw [own_tx_ds]
    exact view
  · rw [reads]
    exact sim.marks _

/-- A request that is no step of the general machine. -/
theorem quiet_simulated (serial : SerialInv (placeOf cfg sizes) init occ order)
    (sim : Sim cfg sizes base state occ)
    (entries : ∀ loc : Loc, loc.1 % rpcPrimaryDsReqSpacing = 0 →
      primaryEntry cfg (dsState state coro index req resp table) loc = primaryEntry cfg state loc)
    (versions : (abstractOf (dsKeyhash cfg) table).version =
      (mapAt cfg state req.machine req.rpcReqtype).version)
    (counts : ∀ place, lockCount cfg sizes ((state.tx coro).respond index (.ds req) resp) place =
      lockCount cfg sizes (state.tx coro) place)
    (view : ViewSim coro (viewOf occ (coro, state.cur coro))
      ((state.tx coro).respond index (.ds req) resp)) :
    Simulated cfg sizes base init (dsState state coro index req resp table) := by
  refine ⟨occ, order, serial, request_sim sim rfl (fun _ => Nat.le_refl _) ?_ ?_
    (owner_same table sim counts) view fun _ _ => rfl⟩
  · intro loc spacing
    rw [entries loc spacing]
    exact sim.store loc spacing
  · rw [version_at_same versions]
    exact sim.version

theorem place_of_request (cluster : ClusterInv cfg sizes state) {kind : DsReqtype V}
    {item : RwsetItem V} (ok : ItemOk cfg item) (same : .ds req = genericGetReq coro kind item) :
    placeOf cfg sizes item.loc = ⟨req.machine, req.rpcReqtype,
      (mapAt cfg state req.machine req.rpcReqtype).bucketOf (dsKeyhash cfg item.key)⟩ := by
  rw [ds_of_generic same]
  exact place_of_item cluster ok

inductive ReadOutcome (cfg : Config) (coro : CoroId) (item : RwsetItem V) (resp : Resp V)
    (before : MapState V) : Prop where
  | found (value : V)
      (free : ¬ before.HeldByOther (callerId coro) (before.bucketOf (dsKeyhash cfg item.key)))
      (entry : before.map item.key = some value) (type : resp.respType = .getRdonlySuccess)
      (hdr : resp.hdr = some (before.word (before.bucketOf (dsKeyhash cfg item.key))))
      (val : resp.val = some value)
  | absent (hdr : UInt64)
      (free : ¬ before.HeldByOther (callerId coro) (before.bucketOf (dsKeyhash cfg item.key)))
      (entry : before.map item.key = none) (type : resp.respType = .getRdonlyNotFound)
      (header : resp.hdr = some hdr)
      (exact_ : before.lock (before.bucketOf (dsKeyhash cfg item.key)) = none →
        hdr = before.word (before.bucketOf (dsKeyhash cfg item.key)))
  | locked (type : resp.respType = .getRdonlyLocked)

theorem read_outcome {item : RwsetItem V} (same : .ds req = readReq coro item)
    {before after : MapState V} (effect : Effect (dsKeyhash cfg) before req resp after) :
    ReadOutcome cfg coro item resp before := by
  have shape := ds_of_generic same
  have kind : req.reqType = .getRdonly := by rw [shape]
  have key : req.key = item.key := by rw [shape]
  have caller : req.callerId = callerId coro := by rw [shape]
  cases effect with
  | found value _ free entry type hdr val =>
      rw [key, caller] at free
      rw [key] at entry hdr
      exact .found value free entry type hdr val
  | absent hdr _ free entry type header exact_ =>
      rw [key, caller] at free
      rw [key] at entry exact_
      exact .absent hdr free entry type header exact_
  | readLocked _ _ type => exact .locked type
  | refused _ other => rcases other with ⟨other, _⟩ | ⟨other, _⟩ <;> simp [kind] at other
  | missed _ other => rcases other with ⟨other, _⟩ | ⟨other, _⟩ <;> simp [kind] at other
  | lockedUpd _ other => simp [kind] at other
  | lockedIns other => simp [kind] at other
  | unlocked other => simp [kind] at other
  | stored _ other => simp [kind, DsReqtype.entry] at other

theorem view_put_reads (occ : Occ TxId Loc Place (Option V)) (txn : TxId) (loc : Loc)
    (read : Option V × Mark) :
    viewOf { occ with reads := put occ.reads txn loc (some read) } txn =
        { viewOf occ txn with reads := Function.update (occ.reads txn) loc (some read) } ∧
      ∀ other, other ≠ txn →
        viewOf { occ with reads := put occ.reads txn loc (some read) } other = viewOf occ other := by
  refine ⟨?_, fun other different => ?_⟩
  · simp only [viewOf, put, Function.update_self]
  · simp only [viewOf, put, Function.update_of_ne different]

theorem view_put_checked (occ : Occ TxId Loc Place (Option V)) (txn : TxId) (loc : Loc) :
    viewOf { occ with checked := put occ.checked txn loc True } txn =
        { viewOf occ txn with checked := Function.update (occ.checked txn) loc True } ∧
      ∀ other, other ≠ txn →
        viewOf { occ with checked := put occ.checked txn loc True } other = viewOf occ other := by
  refine ⟨?_, fun other different => ?_⟩
  · simp only [viewOf, put, Function.update_self]
  · simp only [viewOf, put, Function.update_of_ne different]

/-- What the general machine knows of the table of an item. -/
theorem store_of_item (sim : Sim cfg sizes base state occ) {item : RwsetItem V}
    (ok : ItemOk cfg item) :
    occ.store item.loc = (mapAt cfg state item.primaryMn item.rpcReqtype).map item.key := by
  rw [sim.store item.loc ok.spacing, primaryEntry,
    show primaryOf cfg item.loc = item.primaryMn from ok.primaryMn.symm]
  rfl

theorem version_of_item (cluster : ClusterInv cfg sizes state) (sim : Sim cfg sizes base state occ)
    {item : RwsetItem V} (ok : ItemOk cfg item) :
    occ.version (placeOf cfg sizes item.loc) =
      (mapAt cfg state item.primaryMn item.rpcReqtype).version
        ((mapAt cfg state item.primaryMn item.rpcReqtype).bucketOf (dsKeyhash cfg item.key)) := by
  rw [sim.version, place_of_item cluster ok]
  rfl

theorem lock_of_item (cluster : ClusterInv cfg sizes state) (sim : Sim cfg sizes base state occ)
    (valid : cfg.Valid coro) {item : RwsetItem V} (ok : ItemOk cfg item)
    (free : ¬ (mapAt cfg state item.primaryMn item.rpcReqtype).HeldByOther (callerId coro)
      ((mapAt cfg state item.primaryMn item.rpcReqtype).bucketOf (dsKeyhash cfg item.key))) :
    ((mapAt cfg state item.primaryMn item.rpcReqtype).lock
        ((mapAt cfg state item.primaryMn item.rpcReqtype).bucketOf (dsKeyhash cfg item.key)) = none ∧
      occ.owner (placeOf cfg sizes item.loc) = none) ∨
    occ.owner (placeOf cfg sizes item.loc) = some (coro, state.cur coro) := by
  rcases accessible_of_free cluster sim valid ok free with none_ | own
  · refine Or.inl ⟨?_, none_⟩
    rw [place_of_item cluster ok] at none_
    have owner := owner_of_lock cluster sim ⟨item.primaryMn, item.rpcReqtype,
      (mapAt cfg state item.primaryMn item.rpcReqtype).bucketOf (dsKeyhash cfg item.key)⟩
    split at owner
    · assumption
    · obtain ⟨holder, _, _, owned⟩ := owner
      rw [owned] at none_
      cases none_
  · exact Or.inr own

/-- A read during `do_read` that is recorded. -/
theorem recorded_simulated (cluster : ClusterInv cfg sizes state)
    (serial : SerialInv (placeOf cfg sizes) init occ order) (sim : Sim cfg sizes base state occ)
    (found : (state.tx coro).batch[index]? = some ⟨.ds req, none⟩) {item : RwsetItem V}
    (member : item ∈ (state.tx coro).readSet) (same : .ds req = readReq coro item)
    (at_ : (state.tx coro).pc = .doRead)
    (unchanged : abstractOf (dsKeyhash cfg) table = mapAt cfg state req.machine req.rpcReqtype)
    {mark : Mark} (free : occ.Accessible (placeOf cfg sizes) (coro, state.cur coro) item.loc)
    (marked : mark = .exact (occ.version (placeOf cfg sizes item.loc)) ∨
      (mark = .held ∧ occ.owner (placeOf cfg sizes item.loc) = some (coro, state.cur coro)))
    (respSim : ∀ reads, reads item.loc = some (occ.store item.loc, mark) →
      RespSim { viewOf occ (coro, state.cur coro) with reads := reads } item.loc resp) :
    Simulated cfg sizes base init (dsState state coro index req resp table) := by
  have running : occ.phase (coro, state.cur coro) = .running := by
    rw [current_phase sim, phaseOf, at_]
  have owners := owner_same table sim (read_keeps_locks index resp same)
  obtain ⟨order, kept⟩ := step_serial serial (.read _ item.loc mark running free marked)
  obtain ⟨own, others⟩ := view_put_reads occ (coro, state.cur coro) item.loc
    (occ.store item.loc, mark)
  refine ⟨_, order, kept, sim_step coro sim rfl ?_ ?_ ?_ owners ?_ others
    (fun _ => Nat.le_refl _) ?_⟩
  · exact fun other number different => txns_set_tx_other _ _ _ different
  · intro loc spacing
    rw [primary_entry_same (by rw [unchanged])]
    exact sim.store loc spacing
  · rw [version_at_same (by rw [unchanged])]
    exact sim.version
  · rw [own, own_tx_ds]
    rw [same] at found ⊢
    refine view_read (cluster.txInv coro) (current_view sim coro) at_ member found ?_
      (respSim _ (Function.update_self _ _ _))
    exact fun loc different => Function.update_of_ne different _ _
  · intro loc entry version read
    simp only [put_apply, true_and] at read
    split_ifs at read with here
    · rw [Option.some.injEq, Prod.mk.injEq] at read
      rcases marked with now | ⟨now, _⟩
      · rw [now] at read
        rw [← Mark.exact.inj read.2, here]
        exact sim.floor _
      · rw [now] at read
        cases read.2
    · exact sim.marks _ loc entry version read

/-- A read during `do_read`. -/
theorem read_simulated (cluster : ClusterInv cfg sizes state) (valid : cfg.Valid coro)
    (serial : SerialInv (placeOf cfg sizes) init occ order) (sim : Sim cfg sizes base state occ)
    (found : (state.tx coro).batch[index]? = some ⟨.ds req, none⟩) {item : RwsetItem V}
    (member : item ∈ (state.tx coro).readSet) (same : .ds req = readReq coro item)
    (at_ : (state.tx coro).pc = .doRead)
    (unchanged : abstractOf (dsKeyhash cfg) table = mapAt cfg state req.machine req.rpcReqtype)
    (effect : Effect (dsKeyhash cfg) (mapAt cfg state req.machine req.rpcReqtype) req resp
      (mapAt cfg state req.machine req.rpcReqtype)) :
    Simulated cfg sizes base init (dsState state coro index req resp table) := by
  have txInv := cluster.txInv coro
  have ok := txInv.readOk item member
  have outcome := read_outcome same effect
  rw [ds_of_generic same] at outcome
  simp only at outcome
  cases outcome with
  | found value free entry type hdr val =>
      refine recorded_simulated cluster serial sim found member same at_ unchanged
        (accessible_of_free cluster sim valid ok free) (Or.inl rfl) ?_
      intro reads now
      simp only [RespSim, type]
      refine ⟨_, value, _, hdr, val, version_of_word _ _, ?_⟩
      rw [now, store_of_item sim ok, entry, version_of_item cluster sim ok]
  | absent hdr free entry type header exact_ =>
      rcases lock_of_item cluster sim valid ok free with ⟨unlocked, _⟩ | own
      · refine recorded_simulated cluster serial sim found member same at_ unchanged
          (accessible_of_free cluster sim valid ok free) (Or.inl rfl) ?_
        intro reads now
        simp only [RespSim, type]
        refine ⟨hdr, .exact (occ.version (placeOf cfg sizes item.loc)), header, ?_, ?_⟩
        · rw [now, store_of_item sim ok, entry]
        · intro version mark
          rw [exact_ unlocked, version_of_word, ← version_of_item cluster sim ok, Mark.exact.inj mark]
      · refine recorded_simulated cluster serial sim found member same at_ unchanged (Or.inr own)
          (Or.inr ⟨rfl, own⟩) ?_
        intro reads now
        simp only [RespSim, type]
        refine ⟨hdr, .held, header, ?_, fun version mark => by cases mark⟩
        rw [now, store_of_item sim ok, entry]
  | locked type =>
      refine quiet_simulated serial sim (fun loc _ => primary_entry_same (by rw [unchanged]) loc)
        (by rw [unchanged]) (read_keeps_locks index resp same) ?_
      rw [same] at found ⊢
      have silent : RespSim (viewOf occ (coro, state.cur coro)) item.loc resp := by
        simp only [RespSim, type]
      exact view_read txInv (current_view sim coro) at_ member found (fun _ _ => rfl) silent

/-- With the version field short of a full turn, equal fields mean equal versions. -/
theorem version_exact {low version now : Nat} (floor : low ≤ version) (bound : version ≤ now)
    (few : now < low + 2 ^ 60) (same : now % 2 ^ 60 = version % 2 ^ 60) : version = now := by
  omega

/-- A read that passes `validate` passes the check of the general machine. -/
theorem check_valid (cluster : ClusterInv cfg sizes state) (valid : cfg.Valid coro)
    (serial : SerialInv (placeOf cfg sizes) init occ order) (sim : Sim cfg sizes base state occ)
    (noWrap : NoWrap cfg base state) {item : RwsetItem V} (ok : ItemOk cfg item)
    (called : occ.phase (coro, state.cur coro) = .called)
    (readSim : ReadSim (viewOf occ (coro, state.cur coro)) item)
    (passed : validateResponse item resp = true)
    (outcome : ReadOutcome cfg coro item resp (mapAt cfg state item.primaryMn item.rpcReqtype)) :
    ∃ entry mark, occ.reads (coro, state.cur coro) item.loc = some (entry, mark) ∧
      ((mark = .exact (occ.version (placeOf cfg sizes item.loc)) ∧
          occ.Accessible (placeOf cfg sizes) (coro, state.cur coro) item.loc) ∨
        (occ.owner (placeOf cfg sizes item.loc) = some (coro, state.cur coro) ∧
          occ.store item.loc = entry)) := by
  obtain ⟨mark, read, exists_, marked⟩ := readSim
  have read : occ.reads (coro, state.cur coro) item.loc = some (item.seen, mark) := read
  simp only [validateResponse, decide_eq_true_eq] at passed
  obtain ⟨type, low⟩ := passed
  -- The version in the response is the current one, if it comes from the table.
  have current : ∀ version, mark = .exact version →
      resp.hdr = some ((mapAt cfg state item.primaryMn item.rpcReqtype).word
        ((mapAt cfg state item.primaryMn item.rpcReqtype).bucketOf (dsKeyhash cfg item.key))) →
      mark = .exact (occ.version (placeOf cfg sizes item.loc)) := by
    intro version shape hdr
    subst shape
    simp only [RwsetItem.deliver, hdr, Option.getD_some, version_of_word] at low
    rw [← version_of_item cluster sim ok] at low
    have bound := serial.versions _ item.loc item.seen version read
    have floor := sim.marks _ item.loc item.seen version read
    have few := noWrap (placeOf cfg sizes item.loc)
    rw [← sim.version] at few
    rw [version_exact floor bound few (low.trans marked)]
  refine ⟨item.seen, mark, read, ?_⟩
  cases outcome with
  | found value free entry success hdr val =>
      rw [success] at type
      have some_ : item.seen.isSome = true := by
        rw [← exists_]
        by_contra absent
        rw [if_neg absent] at type
        cases type
      cases mark with
      | held =>
          rw [marked] at some_
          cases some_
      | exact version =>
          exact Or.inl ⟨current version rfl hdr, accessible_of_free cluster sim valid ok free⟩
  | absent hdr free entry missing header exact_ =>
      rw [missing] at type
      have none_ : item.seen = none := by
        cases seen : item.seen with
        | none => rfl
        | some value =>
            rw [seen, Option.isSome_some] at exists_
            rw [if_pos exists_] at type
            cases type
      rcases lock_of_item cluster sim valid ok free with ⟨unlocked, free_⟩ | own
      · cases mark with
        | held =>
            have owner := serial.holding _ item.loc item.seen (Or.inr called) read
            rw [free_] at owner
            cases owner
        | exact version =>
            refine Or.inl ⟨current version rfl ?_, Or.inl free_⟩
            rw [header, exact_ unlocked]
      · refine Or.inr ⟨own, ?_⟩
        rw [store_of_item sim ok, entry, none_]
  | locked refused =>
      rw [refused] at type
      split_ifs at type

/-- A read during `validate`. -/
theorem check_simulated (cluster : ClusterInv cfg sizes state) (valid : cfg.Valid coro)
    (serial : SerialInv (placeOf cfg sizes) init occ order) (sim : Sim cfg sizes base state occ)
    (noWrap : NoWrap cfg base state)
    (found : (state.tx coro).batch[index]? = some ⟨.ds req, none⟩) {item : RwsetItem V}
    (member : item ∈ (state.tx coro).readSet) (same : .ds req = readReq coro item)
    (at_ : (state.tx coro).pc = .validate)
    (unchanged : abstractOf (dsKeyhash cfg) table = mapAt cfg state req.machine req.rpcReqtype)
    (effect : Effect (dsKeyhash cfg) (mapAt cfg state req.machine req.rpcReqtype) req resp
      (mapAt cfg state req.machine req.rpcReqtype)) :
    Simulated cfg sizes base init (dsState state coro index req resp table) := by
  have txInv := cluster.txInv coro
  have ok := txInv.readOk item member
  have view := current_view sim coro
  have called : occ.phase (coro, state.cur coro) = .called := by
    rw [current_phase sim, phaseOf, at_]
  have owners := owner_same table sim (read_keeps_locks index resp same)
  have outcome := read_outcome same effect
  rw [ds_of_generic same] at outcome
  simp only at outcome
  by_cases passed : validateResponse item resp = true
  · have stage := view.stage
    simp only [StageSim, at_] at stage
    obtain ⟨entry, mark, was, checks⟩ := check_valid cluster valid serial sim noWrap ok called
      (stage.2.1 item member) passed outcome
    obtain ⟨order, kept⟩ := step_serial serial (.check _ item.loc entry mark called was checks)
    obtain ⟨own, others⟩ := view_put_checked occ (coro, state.cur coro) item.loc
    refine ⟨_, order, kept, request_sim sim rfl (fun _ => Nat.le_refl _) ?_ ?_ owners ?_
      others⟩
    · intro loc spacing
      rw [primary_entry_same (by rw [unchanged])]
      exact sim.store loc spacing
    · rw [version_at_same (by rw [unchanged])]
      exact sim.version
    · rw [own]
      rw [same] at found ⊢
      refine view_check txInv view at_ member found ?_ ?_
      · intro loc before
        by_cases here : loc = item.loc
        · rw [here, Function.update_self]
          trivial
        · rw [Function.update_of_ne here]
          exact before
      · intro _
        rw [Function.update_self]
        trivial
  · refine quiet_simulated serial sim (fun loc _ => primary_entry_same (by rw [unchanged]) loc)
      (by rw [unchanged]) (read_keeps_locks index resp same) ?_
    rw [same] at found ⊢
    exact view_check txInv view at_ member found (fun _ before => before)
      (fun now => absurd now passed)

theorem view_put_locked (occ : Occ TxId Loc Place (Option V)) (txn : TxId) (loc : Loc)
    (entry : Option V) (owner : Place → Option TxId) :
    viewOf { occ with owner := owner, locked := put occ.locked txn loc (some entry) } txn =
        { viewOf occ txn with locked := Function.update (occ.locked txn) loc (some entry) } ∧
      ∀ other, other ≠ txn →
        viewOf { occ with owner := owner, locked := put occ.locked txn loc (some entry) } other =
          viewOf occ other := by
  refine ⟨?_, fun other different => ?_⟩
  · simp only [viewOf, put, Function.update_self]
  · simp only [viewOf, put, Function.update_of_ne different]

/-- A lock request that was refused or found the key not as it wants it. -/
theorem denied_simulated (cluster : ClusterInv cfg sizes state)
    (serial : SerialInv (placeOf cfg sizes) init occ order) (sim : Sim cfg sizes base state occ)
    (found : (state.tx coro).batch[index]? = some ⟨.ds req, none⟩) {item : RwsetItem V}
    (member : item ∈ (state.tx coro).writeSet) (same : .ds req = lockReq coro item)
    (refused : itemGranted item resp = false)
    (now : abstractOf (dsKeyhash cfg) table = mapAt cfg state req.machine req.rpcReqtype ∨
      (¬ (mapAt cfg state req.machine req.rpcReqtype).HeldByOther (callerId coro)
          ((mapAt cfg state req.machine req.rpcReqtype).bucketOf (dsKeyhash cfg item.key)) ∧
        abstractOf (dsKeyhash cfg) table =
          ((mapAt cfg state req.machine req.rpcReqtype).acquire (callerId coro)
            ((mapAt cfg state req.machine req.rpcReqtype).bucketOf (dsKeyhash cfg item.key))).release
              ((mapAt cfg state req.machine req.rpcReqtype).bucketOf (dsKeyhash cfg item.key))))
    (at_ : (state.tx coro).pc = .doRead) :
    Simulated cfg sizes base init (dsState state coro index req resp table) := by
  have txInv := cluster.txInv coro
  have ok := txInv.writeOk item member
  have view := current_view sim coro
  have counts : ∀ place, lockCount cfg sizes ((state.tx coro).respond index (.ds req) resp) place =
      lockCount cfg sizes (state.tx coro) place := by
    intro place
    rw [same]
    exact lock_count_congr (fun loc _ => holds_quiet (by simp [grants_lock, refused]) (by simp)
      (by simp) loc) place
  have maps : (abstractOf (dsKeyhash cfg) table).map =
      (mapAt cfg state req.machine req.rpcReqtype).map := by
    rcases now with now | ⟨_, now⟩
    · rw [now]
    · rw [now]
      exact (release_same _ _).1.trans (acquire_same _ _ _).1
  have after : ViewSim coro (viewOf occ (coro, state.cur coro))
      ((state.tx coro).respond index (.ds req) resp) := by
    rw [same] at found ⊢
    have silent : LockSim (viewOf occ (coro, state.cur coro)) item resp := by
      intro grant
      rw [refused] at grant
      cases grant
    exact view_lock txInv view at_ member found (fun _ _ => rfl) silent
  -- Unless the bucket was free its version stays.
  have stays := fun unchanged =>
    quiet_simulated serial sim (fun loc _ => primary_entry_same maps loc) unchanged counts after
  rcases now with now | ⟨_, now⟩
  · exact stays (by rw [now])
  · have versions := congrArg MapState.version now
    cases lock : (mapAt cfg state req.machine req.rpcReqtype).lock
        ((mapAt cfg state req.machine req.rpcReqtype).bucketOf (dsKeyhash cfg item.key)) with
    | none =>
        have place := place_of_request cluster ok same
        have unowned : occ.owner (placeOf cfg sizes item.loc) = none := by
          have owner := owner_of_lock cluster sim (placeOf cfg sizes item.loc)
          rw [place] at owner ⊢
          simp only [lock] at owner
          exact owner
        obtain ⟨order, kept⟩ := step_serial serial (.bump (placeOf cfg sizes item.loc) unowned)
        have owners := owner_same table sim counts
        refine ⟨_, order, kept, request_sim sim rfl (le_update_self_iff.mpr (Nat.le_succ _)) ?_ ?_
          owners after fun _ _ => rfl⟩
        · intro loc spacing
          rw [primary_entry_same maps]
          exact sim.store loc spacing
        · rw [relock_free _ lock] at versions
          rw [version_at_bump versions, ← place, ← sim.version]
    | some pair =>
        have wf := (cluster.tableOk req.machine req.rpcReqtype).locks
          ((mapAt cfg state req.machine req.rpcReqtype).bucketOf (dsKeyhash cfg item.key))
        rw [LockWf, show lockOf _ = some pair from lock] at wf
        exact stays (versions.trans (relock_held _ lock wf.2.1))

/-- A lock request that was granted. -/
theorem granted_simulated (cluster : ClusterInv cfg sizes state)
    (after : ClusterInv cfg sizes (dsState state coro index req resp table))
    (valid : cfg.Valid coro)
    (serial : SerialInv (placeOf cfg sizes) init occ order) (sim : Sim cfg sizes base state occ)
    (found : (state.tx coro).batch[index]? = some ⟨.ds req, none⟩) {item : RwsetItem V}
    (member : item ∈ (state.tx coro).writeSet) (same : .ds req = lockReq coro item)
    (accepted : itemGranted item resp = true) (fresh : granted (state.tx coro) item.loc = false)
    (noUnlock : NoUnlock (state.tx coro)) (noApply : NoApply (state.tx coro))
    (free : ¬ (mapAt cfg state req.machine req.rpcReqtype).HeldByOther (callerId coro)
      ((mapAt cfg state req.machine req.rpcReqtype).bucketOf (dsKeyhash cfg item.key)))
    (now : abstractOf (dsKeyhash cfg) table =
      (mapAt cfg state req.machine req.rpcReqtype).acquire (callerId coro)
        ((mapAt cfg state req.machine req.rpcReqtype).bucketOf (dsKeyhash cfg item.key)))
    (entry : if item.writeMode = .insert then
        (mapAt cfg state req.machine req.rpcReqtype).map item.key = none
      else ∃ value, (mapAt cfg state req.machine req.rpcReqtype).map item.key = some value ∧
        resp.val = some value)
    (at_ : (state.tx coro).pc = .doRead) :
    Simulated cfg sizes base init (dsState state coro index req resp table) := by
  have txInv := cluster.txInv coro
  have ok := txInv.writeOk item member
  have view := current_view sim coro
  have shape := ds_of_generic same
  have running : occ.phase (coro, state.cur coro) = .running := by
    rw [current_phase sim, phaseOf, at_]
  have gain : ∀ place, lockCount cfg sizes ((state.tx coro).respond index (.ds req) resp) place =
      lockCount cfg sizes (state.tx coro) place +
        if placeOf cfg sizes item.loc = place then 1 else 0 := by
    rw [same]
    refine lock_count_gain txInv member (fun loc _ different => holds_lock_other different) ?_ ?_
    · rw [holds, fresh]
      rfl
    · rw [holds_lock_self fresh noUnlock noApply, accepted]
  rw [shape] at free entry
  simp only at free entry
  have accessible := accessible_of_free cluster sim valid ok free
  obtain ⟨order, kept⟩ := step_serial serial (.lock _ item.loc running accessible)
  obtain ⟨own, others⟩ := view_put_locked occ (coro, state.cur coro) item.loc (occ.store item.loc)
    (Function.update occ.owner (placeOf cfg sizes item.loc) (some (coro, state.cur coro)))
  have positive : 0 < lockCount cfg sizes ((dsState state coro index req resp table).tx coro)
      (placeOf cfg sizes item.loc) := by
    rw [own_tx_ds, gain, if_pos rfl]
    exact Nat.succ_pos _
  obtain ⟨_, _, alone⟩ := locked_by_positive (after.locks (placeOf cfg sizes item.loc)) positive
  refine ⟨_, order, kept, request_sim sim rfl (fun _ => Nat.le_refl _) ?_ ?_ ?_ ?_ others⟩
  · intro loc spacing
    rw [primary_entry_same (by rw [now]; exact (acquire_same _ _ _).1)]
    exact sim.store loc spacing
  · rw [version_at_same (by rw [now]; exact acquire_version _ _ _)]
    exact sim.version
  · intro place txn
    simp only [Function.update_apply]
    split_ifs with here
    · subst here
      constructor
      · intro owner
        rw [← Option.some.inj owner]
        exact ⟨rfl, positive⟩
      · rintro ⟨number, held⟩
        have mine : txn.1 = coro := by
          by_contra different
          have zero : lockCount cfg sizes ((dsState state coro index req resp table).tx txn.1)
            (placeOf cfg sizes item.loc) = 0 := alone txn.1 different
          omega
        rw [mine] at number
        exact congrArg some (Prod.ext mine number).symm
    · have elsewhere : placeOf cfg sizes item.loc ≠ place := fun equal => here equal.symm
      rw [sim.owner, tx_ds_state]
      split_ifs with mine
      · rw [gain, if_neg elsewhere, mine]
        rfl
      · rfl
  · rw [own]
    rw [same] at found ⊢
    refine view_lock txInv view at_ member found
      (fun loc different => Function.update_of_ne different _ _) ?_
    intro _
    simp only [Function.update_self, store_of_item sim ok]
    split_ifs at entry ⊢ with insert
    · rw [entry]
    · obtain ⟨value, stored, val⟩ := entry
      exact ⟨value, val, by rw [stored]⟩

/-- The owners after one lock has been given back: none if it was the last. -/
theorem owner_loss (cluster : ClusterInv cfg sizes state) (sim : Sim cfg sizes base state occ)
    (table : FixedTable V) {place : Place}
    (loss : ∀ target, lockCount cfg sizes (state.tx coro) target =
      lockCount cfg sizes ((state.tx coro).respond index (.ds req) resp) target +
        if place = target then 1 else 0) (target : Place) (txn : TxId) :
    (if lockCount cfg sizes ((state.tx coro).respond index (.ds req) resp) place = 0
      then Function.update occ.owner place none else occ.owner) target = some txn ↔
        txn.2 = (dsState state coro index req resp table).cur txn.1 ∧
          0 < lockCount cfg sizes ((dsState state coro index req resp table).tx txn.1) target := by
  have atPlace := loss place
  rw [if_pos rfl] at atPlace
  obtain ⟨_, _, alone⟩ := locked_by_positive (cluster.locks place)
    (show 0 < lockCount cfg sizes (state.tx coro) place by omega)
  have unchanged : place ≠ target → (occ.owner target = some txn ↔
      txn.2 = (dsState state coro index req resp table).cur txn.1 ∧
        0 < lockCount cfg sizes ((dsState state coro index req resp table).tx txn.1) target) := by
    intro elsewhere
    have atTarget := loss target
    rw [if_neg elsewhere, Nat.add_zero] at atTarget
    rw [sim.owner, tx_ds_state]
    split_ifs with mine
    · rw [mine, atTarget]
      rfl
    · rfl
  by_cases elsewhere : place = target
  · subst elsewhere
    split_ifs with last
    · rw [Function.update_self]
      refine ⟨fun impossible => absurd impossible.symm (Option.some_ne_none txn), ?_⟩
      rintro ⟨_, positive⟩
      rw [tx_ds_state] at positive
      split_ifs at positive with mine
      · omega
      · have zero : lockCount cfg sizes (state.tx txn.1) place = 0 := alone txn.1 mine
        omega
    · rw [sim.owner, tx_ds_state]
      split_ifs with mine
      · rw [mine]
        refine and_congr Iff.rfl ?_
        omega
      · rfl
  · split_ifs
    · rw [Function.update_of_ne fun equal => elsewhere equal.symm]
      exact unchanged elsewhere
    · exact unchanged elsewhere

/-- The versions after one lock of a bucket has been given back. -/
theorem version_loss (cluster : ClusterInv cfg sizes state) {bucket : Nat}
    (loss : ∀ target, lockCount cfg sizes (state.tx coro) target =
      lockCount cfg sizes ((state.tx coro).respond index (.ds req) resp) target +
        if ⟨req.machine, req.rpcReqtype, bucket⟩ = target then 1 else 0)
    (released : (abstractOf (dsKeyhash cfg) table).version =
      ((mapAt cfg state req.machine req.rpcReqtype).release bucket).version) :
    versionAt cfg (dsState state coro index req resp table) =
      if lockCount cfg sizes ((state.tx coro).respond index (.ds req) resp)
          ⟨req.machine, req.rpcReqtype, bucket⟩ = 0
      then Function.update (versionAt cfg state) ⟨req.machine, req.rpcReqtype, bucket⟩
        (versionAt cfg state ⟨req.machine, req.rpcReqtype, bucket⟩ + 1)
      else versionAt cfg state := by
  have atPlace := loss ⟨req.machine, req.rpcReqtype, bucket⟩
  rw [if_pos rfl] at atPlace
  obtain ⟨_, lock, _⟩ := locked_by_positive (cluster.locks ⟨req.machine, req.rpcReqtype, bucket⟩)
    (show 0 < lockCount cfg sizes (state.tx coro) ⟨req.machine, req.rpcReqtype, bucket⟩ by omega)
  simp only [atPlace] at lock
  rw [release_version (show (mapAt cfg state req.machine req.rpcReqtype).lock bucket = _ from lock)]
    at released
  split_ifs with last
  · rw [if_pos last] at released
    exact version_at_bump released
  · rw [if_neg last] at released
    exact version_at_same released

/-- An unlock of an aborting transaction. -/
theorem unlocked_simulated (cluster : ClusterInv cfg sizes state)
    (serial : SerialInv (placeOf cfg sizes) init occ order) (sim : Sim cfg sizes base state occ)
    {item : RwsetItem V} (member : item ∈ (state.tx coro).writeSet)
    (same : .ds req = unlockReq coro item) (held : holds (state.tx coro) item.loc = true)
    (now : abstractOf (dsKeyhash cfg) table = (mapAt cfg state req.machine req.rpcReqtype).release
      ((mapAt cfg state req.machine req.rpcReqtype).bucketOf (dsKeyhash cfg item.key)))
    (at_ : (state.tx coro).pc = .abort) :
    Simulated cfg sizes base init (dsState state coro index req resp table) := by
  have txInv := cluster.txInv coro
  have ok := txInv.writeOk item member
  have view := current_view sim coro
  have failed : occ.phase (coro, state.cur coro) = .failed := by
    rw [current_phase sim, phaseOf, at_]
  have place := place_of_request cluster ok same
  have loss : ∀ target, lockCount cfg sizes (state.tx coro) target =
      lockCount cfg sizes ((state.tx coro).respond index (.ds req) resp) target +
        if placeOf cfg sizes item.loc = target then 1 else 0 := by
    rw [same]
    exact lock_count_loss txInv member (fun loc _ different => holds_unlock_other different) held
      holds_unlock_self
  have owners := owner_loss cluster sim table loss
  have released := congrArg MapState.version now
  have versions := version_loss cluster (by rw [← place]; exact loss) released
  rw [← place, ← sim.version] at versions
  have store : ∀ loc : Loc, loc.1 % rpcPrimaryDsReqSpacing = 0 → occ.store loc =
      primaryEntry cfg (dsState state coro index req resp table) loc := by
    intro loc spacing
    rw [primary_entry_same (by rw [now]; exact (release_same _ _).1)]
    exact sim.store loc spacing
  have after : ViewSim coro (viewOf occ (coro, state.cur coro))
      ((state.tx coro).respond index (.ds req) resp) := by
    rw [same]
    refine view_late view (Or.inl at_) ?_
    intro loc spacing
    rw [apply_count_respond, applies_unlock]
    exact view.applied loc spacing
  have owner : occ.owner (placeOf cfg sizes item.loc) = some (coro, state.cur coro) :=
    (sim.owner _ _).mpr ⟨rfl, lock_count_pos member held⟩
  by_cases last : lockCount cfg sizes ((state.tx coro).respond index (.ds req) resp)
      (placeOf cfg sizes item.loc) = 0
  · simp only [if_pos last] at owners versions
    obtain ⟨order, kept⟩ := step_serial serial (.release _ _ owner (Or.inl failed))
    exact ⟨_, order, kept, request_sim sim rfl (le_update_self_iff.mpr (Nat.le_succ _)) store
      versions.symm owners after fun _ _ => rfl⟩
  · simp only [if_neg last] at owners versions
    exact ⟨occ, order, serial, request_sim sim rfl (fun _ => Nat.le_refl _) store versions.symm owners
      after fun _ _ => rfl⟩

/-- An update at a backup is no step of the general machine. -/
theorem backup_simulated (cluster : ClusterInv cfg sizes state)
    (serial : SerialInv (placeOf cfg sizes) init occ order) (sim : Sim cfg sizes base state occ)
    {replI : Nat} {item : RwsetItem V} (member : item ∈ (state.tx coro).writeSet)
    (same : .ds req = updateReq coro replI item) {vec : List Nat} {rest : List (List Nat)}
    (at_ : (state.tx coro).pc = .update vec rest) (bound : replI ≤ cfg.mappings.numBackups)
    (positive : 0 < replI)
    (now : abstractOf (dsKeyhash cfg) table =
      ((mapAt cfg state req.machine req.rpcReqtype).store item.key (entryOf item)).releaseIfPrimary
        ((mapAt cfg state req.machine req.rpcReqtype).bucketOf (dsKeyhash cfg item.key))) :
    Simulated cfg sizes base init (dsState state coro index req resp table) := by
  have txInv := cluster.txInv coro
  have ok := txInv.writeOk item member
  have view := current_view sim coro
  have backup := replica_is_backup ok bound positive
  have role : (mapAt cfg state req.machine req.rpcReqtype).isPrimary = false := by
    rw [Request.ds.inj same, mapAt, abstractOf, cluster.role]
    exact decide_eq_false backup
  have elsewhere : ∀ loc : Loc, loc.1 % rpcPrimaryDsReqSpacing = 0 →
      replicaLoc replI item.loc ≠ loc := by
    intro loc spacing equal
    rw [← equal] at spacing
    exact backup spacing
  have counts : ∀ place, lockCount cfg sizes ((state.tx coro).respond index (.ds req) resp) place =
      lockCount cfg sizes (state.tx coro) place := by
    intro place
    rw [same]
    refine lock_count_congr (fun loc inside => holds_update_other (elsewhere loc ?_)) place
    obtain ⟨other, otherIn, sameLoc⟩ := mem_map.mp inside
    rw [← sameLoc]
    exact (txInv.writeOk other otherIn).spacing
  refine quiet_simulated serial sim ?_ ?_ counts ?_
  · intro loc spacing
    rw [primary_entry_update ok bound same (by rw [now]; exact (release_if_primary_same _ _).1)
      spacing, if_neg (by omega)]
  · rw [now, store_release_version, if_neg (by rw [role]; decide)]
  · rw [same]
    refine view_late view (Or.inr (Or.inr ⟨vec, rest, at_⟩)) ?_
    intro loc spacing
    rw [apply_count_respond, applies_update, decide_eq_false (elsewhere loc spacing)]
    exact view.applied loc spacing

theorem view_put_applied (occ : Occ TxId Loc Place (Option V)) (txn : TxId) (loc : Loc)
    (store : Loc → Option V) (owner : Place → Option TxId) (version : Place → Nat) :
    viewOf { occ with
        store := store, owner := owner, version := version
        applied := put occ.applied txn loc True } txn =
        { viewOf occ txn with applied := Function.update (occ.applied txn) loc True } ∧
      ∀ other, other ≠ txn → viewOf { occ with
        store := store, owner := owner, version := version
        applied := put occ.applied txn loc True } other = viewOf occ other := by
  refine ⟨?_, fun other different => ?_⟩
  · simp only [viewOf, put, Function.update_self]
  · simp only [viewOf, put, Function.update_of_ne different]

theorem primary_update_count {item : RwsetItem V} (ok : ItemOk cfg item)
    (same : .ds req = updateReq coro 0 item) (loc : Loc) :
    applyCount ((state.tx coro).respond index (.ds req) resp) loc =
      applyCount (state.tx coro) loc + if item.loc = loc then 1 else 0 := by
  rw [apply_count_respond, same, applies_update, replica_loc_zero ok]
  simp only [decide_eq_true_eq]

/-- Once the last lock of a bucket has gone all writes to it have been applied. -/
theorem last_lock_settled (cluster : ClusterInv cfg sizes state) (sim : Sim cfg sizes base state occ)
    {item : RwsetItem V} (ok : ItemOk cfg item) (same : .ds req = updateReq coro 0 item)
    {vec : List Nat} {rest : List (List Nat)} (at_ : (state.tx coro).pc = .update vec rest)
    (last : lockCount cfg sizes ((state.tx coro).respond index (.ds req) resp)
      (placeOf cfg sizes item.loc) = 0) (store : Loc → Option V) {loc : Loc}
    (sameHome : placeOf cfg sizes loc = placeOf cfg sizes item.loc) :
    ¬ Occ.Pending
      { occ with
        store := store
        applied := put occ.applied (coro, state.cur coro) item.loc True }
      (coro, state.cur coro) loc := by
  rintro ⟨_, wrote, waiting⟩
  have txInv := cluster.txInv coro
  have view := current_view sim coro
  have committing := view.stage
  simp only [StageSim, at_] at committing
  have stage := txInv.stage
  simp only [StageInv, at_] at stage
  obtain ⟨_, noUnlock, locked, _⟩ := stage
  rw [show occ.news (coro, state.cur coro) = newsOf (state.tx coro) from committing.news] at wrote
  obtain ⟨other, otherIn, sameLoc⟩ := news_of_from wrote
  subst sameLoc
  have unapplied : applyCount ((state.tx coro).respond index (.ds req) resp) other.loc = 0 := by
    by_contra some_
    apply waiting
    simp only [put_apply]
    split_ifs with mine
    refine (view.applied other.loc (txInv.writeOk other otherIn).spacing).mpr ?_
    rw [primary_update_count ok same, if_neg fun equal => mine ⟨trivial, equal.symm⟩] at some_
    exact some_
  have holding : holds ((state.tx coro).respond index (.ds req) resp) other.loc = true := by
    refine holds_of ?_ ?_ unapplied
    · exact (locked_respond locked _ _ _ other otherIn).2
    · exact no_unlock_respond noUnlock _ _ _ (by simp [same]) other.loc
  have positive : 0 < lockCount cfg sizes ((state.tx coro).respond index (.ds req) resp)
      (placeOf cfg sizes other.loc) := lock_count_pos otherIn holding
  rw [sameHome] at positive
  omega

/-- An update at a primary. -/
theorem primary_simulated (cluster : ClusterInv cfg sizes state)
    (serial : SerialInv (placeOf cfg sizes) init occ order) (sim : Sim cfg sizes base state occ)
    {item : RwsetItem V} (member : item ∈ (state.tx coro).writeSet)
    (same : .ds req = updateReq coro 0 item) {vec : List Nat} {rest : List (List Nat)}
    (at_ : (state.tx coro).pc = .update vec rest) (held : holds (state.tx coro) item.loc = true)
    (now : abstractOf (dsKeyhash cfg) table =
      ((mapAt cfg state req.machine req.rpcReqtype).store item.key (entryOf item)).releaseIfPrimary
        ((mapAt cfg state req.machine req.rpcReqtype).bucketOf (dsKeyhash cfg item.key))) :
    Simulated cfg sizes base init (dsState state coro index req resp table) := by
  have txInv := cluster.txInv coro
  have ok := txInv.writeOk item member
  have view := current_view sim coro
  have here := replica_loc_zero ok
  have decided : occ.phase (coro, state.cur coro) = .decided := by
    rw [current_phase sim, phaseOf, at_]
  have committing := view.stage
  simp only [StageSim, at_] at committing
  have toPrimary : .ds req = genericGetReq coro
      (if item.writeMode = .del then .del else .put item.obj.val) item := by
    rw [same, updateReq, genericGetReq, replica_mn_zero, replica_reqtype_small ok (Nat.zero_le _)]
    rfl
  have place := place_of_request cluster ok toPrimary
  have primary : (mapAt cfg state req.machine req.rpcReqtype).isPrimary = true := by
    rw [ds_of_generic toPrimary, mapAt, abstractOf, cluster.role, ok.spacing]
    rfl
  have loss : ∀ target, lockCount cfg sizes (state.tx coro) target =
      lockCount cfg sizes ((state.tx coro).respond index (.ds req) resp) target +
        if placeOf cfg sizes item.loc = target then 1 else 0 := by
    rw [same]
    refine lock_count_loss txInv member ?_ held (holds_update_self here)
    intro loc _ different
    exact holds_update_other (by rw [here]; exact different.symm)
  have owners := owner_loss cluster sim table loss
  have released : (abstractOf (dsKeyhash cfg) table).version =
      ((mapAt cfg state req.machine req.rpcReqtype).release
        ((mapAt cfg state req.machine req.rpcReqtype).bucketOf (dsKeyhash cfg item.key))).version := by
    rw [now, store_release_version, if_pos primary]
  have versions := version_loss cluster (by rw [← place]; exact loss) released
  rw [← place, ← sim.version] at versions
  have pending : ¬ occ.applied (coro, state.cur coro) item.loc := by
    intro applied
    have count := (view.applied item.loc ok.spacing).mp applied
    simp only [holds, Bool.and_eq_true, decide_eq_true_eq] at held
    exact count held.2
  have new : occ.news (coro, state.cur coro) item.loc = some (entryOf item) :=
    (congrFun committing.news item.loc).trans (news_of_item txInv.writeNodup member)
  have store : ∀ loc : Loc, loc.1 % rpcPrimaryDsReqSpacing = 0 →
      Function.update occ.store item.loc (entryOf item) loc =
        primaryEntry cfg (dsState state coro index req resp table) loc := by
    intro loc spacing
    rw [primary_entry_update ok (Nat.zero_le _) same
      (by rw [now]; exact (release_if_primary_same _ _).1) spacing, Function.update_apply,
      sim.store loc spacing]
    simp only [true_and]
  have after : ViewSim coro { viewOf occ (coro, state.cur coro) with
      applied := Function.update (occ.applied (coro, state.cur coro)) item.loc True }
        ((state.tx coro).respond index (.ds req) resp) := by
    refine view_late view (Or.inr (Or.inr ⟨vec, rest, at_⟩)) ?_
    intro loc spacing
    rw [primary_update_count ok same, Function.update_apply]
    by_cases mine : loc = item.loc
    · rw [if_pos mine, if_pos mine.symm]
      simp
    · rw [if_neg mine, if_neg fun equal => mine equal.symm]
      exact view.applied loc spacing
  have owner : occ.owner (placeOf cfg sizes item.loc) = some (coro, state.cur coro) :=
    (sim.owner _ _).mpr ⟨rfl, lock_count_pos member held⟩
  obtain ⟨applied, first⟩ := step_serial serial (.apply _ item.loc (entryOf item) decided new pending)
  by_cases last : lockCount cfg sizes ((state.tx coro).respond index (.ds req) resp)
      (placeOf cfg sizes item.loc) = 0
  · simp only [if_pos last] at owners versions
    obtain ⟨order, kept⟩ := step_serial first (.release (coro, state.cur coro)
      (placeOf cfg sizes item.loc) owner (Or.inr ⟨decided, fun _ sameHome =>
        last_lock_settled cluster sim ok same at_ last _ sameHome⟩))
    obtain ⟨own, others⟩ := view_put_applied occ (coro, state.cur coro) item.loc
      (Function.update occ.store item.loc (entryOf item))
      (Function.update occ.owner (placeOf cfg sizes item.loc) none)
      (Function.update occ.version (placeOf cfg sizes item.loc)
        (occ.version (placeOf cfg sizes item.loc) + 1))
    refine ⟨_, order, kept, request_sim sim rfl (le_update_self_iff.mpr (Nat.le_succ _)) store
      versions.symm owners ?_ others⟩
    rw [own]
    exact after
  · simp only [if_neg last] at owners versions
    obtain ⟨own, others⟩ := view_put_applied occ (coro, state.cur coro) item.loc
      (Function.update occ.store item.loc (entryOf item)) occ.owner occ.version
    refine ⟨_, applied, first, request_sim sim rfl (fun _ => Nat.le_refl _) store versions.symm owners
      ?_ others⟩
    rw [own]
    exact after

theorem ds_simulated (cluster : ClusterInv cfg sizes state) (valid : cfg.Valid coro) {stale : UInt64}
    (simulated : Simulated cfg sizes base init state) (noWrap : NoWrap cfg base state)
    (found : (state.tx coro).batch[index]? = some ⟨.ds req, none⟩)
    (run : dsFixedtableRpcHandler (state.tables req.machine req.rpcReqtype) req stale =
      .ok (resp, table)) :
    Simulated cfg sizes base init (dsState state coro index req resp table) := by
  obtain ⟨occ, order, serial, sim⟩ := simulated
  have after := ds_inv cluster valid found run
  cases ds_case cluster found (ds_run cluster valid found run).2 with
  | read item member same unchanged at_ effect =>
      rcases at_ with at_ | at_
      · exact read_simulated cluster valid serial sim found member same at_ unchanged effect
      · exact check_simulated cluster valid serial sim noWrap found member same at_ unchanged effect
  | denied item member same refused now at_ =>
      exact denied_simulated cluster serial sim found member same refused now at_
  | granted item member same accepted fresh noUnlock noApply free now entry at_ =>
      exact granted_simulated cluster after valid serial sim found member same accepted fresh noUnlock
        noApply free now entry at_
  | unlocked item member same held noApply now at_ =>
      exact unlocked_simulated cluster serial sim member same held now at_
  | applied replI item member same vec rest at_ inside bound held fresh now =>
      rcases Nat.eq_zero_or_pos replI with zero | positive
      · subst zero
        exact primary_simulated cluster serial sim member same at_ held now
      · exact backup_simulated cluster serial sim member same at_ bound positive now

end Executed

end Fasst.TxSerial

import Fasst.TxPacketSizes
import Fasst.TxProgramRuns

/-!
# Every call returns

No request waits for another: a lock that is taken is an answer. So the number of
steps that a call still needs depends on its coroutine alone. Every step of the
coroutine lowers it and the steps of others leave it as it is; and as long as the
call has not returned there is a step that the coroutine can take. What can end a
process is an insert for which a table has no room, and nothing else.
-/

namespace Fasst.TxProgress

open List Fasst.FixedTableModel Fasst.FixedTableEdits Fasst.FixedTableSpec Fasst.Placement
open Fasst.TxModel Fasst.TxCluster Fasst.TxLocal Fasst.TxCalls Fasst.TxHandler Fasst.TxSteps
open Fasst.TxLocks Fasst.TxInvariant Fasst.TxOwnership Fasst.TxReplicas Fasst.TxEntries
open Fasst.TxPacketSizes Fasst.Dialogues Fasst.TxPrograms Fasst.TxProgramRules Fasst.TxProgramRuns

set_option autoImplicit false

variable {V : Type} {cfg : Config} {sizes : Nat → Nat → Nat} {coro : CoroId}
  {tx next : TxState V} {state final init : State V}

section Measure

def pending (tx : TxState V) : Nat := tx.batch.countP fun slot => slot.resp.isNone

/-- The batches that a call may still have to send, the present one included. -/
def batches (cfg : Config) : Pc → Nat
  | .app => 0
  | .doRead => 1
  | .abort => 1
  | .update _ rest => rest.length + 1
  | .log => cfg.mappings.numReplicas + 1
  | .validate => cfg.mappings.numReplicas + 2

def remaining (cfg : Config) (tx : TxState V) : Nat :=
  batches cfg tx.pc * (rpcMaxMsgCoro + 1) + pending tx

def callBound (cfg : Config) : Nat := (cfg.mappings.numReplicas + 3) * (rpcMaxMsgCoro + 1)

theorem pending_le (tx : TxState V) : pending tx ≤ tx.batch.length := countP_le_length

/-- A batch fits the slots of a coroutine. -/
theorem waiting_few (inv : TxInv cfg coro tx) : tx.batch.length ≤ rpcMaxMsgCoro := by
  have size := inv.size
  have stage := inv.stage
  cases at_ : tx.pc with
  | app =>
      simp only [StageInv, at_] at stage
      rw [stage.1]
      exact Nat.zero_le _
  | doRead =>
      simp only [StageInv, at_] at stage
      obtain ⟨_, _, _, _, reads, writes, split, readSlots, lockSlots⟩ := stage
      have readCount := readSlots.length_eq
      have lockCount := lockSlots.length_eq
      rw [length_drop] at readCount lockCount
      rw [split, length_append]
      omega
  | validate =>
      simp only [StageInv, at_] at stage
      have count := stage.2.2.2.2.2.length_eq
      omega
  | abort =>
      simp only [StageInv, at_] at stage
      have count := stage.2.2.2.length_eq
      have fewer := length_filter_le (fun item : RwsetItem V => item.execWsLocked) tx.writeSet
      omega
  | log =>
      simp only [StageInv, at_] at stage
      obtain ⟨_, _, _, _, _, _, record, _, reqs⟩ := stage
      have count := congrArg length reqs
      have backups := cfg.mappings.backupsBound
      rw [length_map, logReqs, length_map, length_range] at count
      simp only [hotsMaxBackups] at backups
      simp only [rpcMaxMsgCoro]
      omega
  | update vec rest =>
      simp only [StageInv, at_] at stage
      obtain ⟨_, _, _, _, done, split, _, _, slots⟩ := stage
      have count := slots.length_eq
      have sent : vec ∈ allVecs cfg tx := by
        rw [← split]
        exact mem_append_right done mem_cons_self
      rw [show (vec.product tx.writeSet).length = vec.length * tx.writeSet.length from
        length_product vec tx.writeSet] at count
      rw [← count]
      exact (all_vecs_members sent).2.2 (by omega)

theorem vecs_few (cfg : Config) (writes : Nat) :
    (backupVecs cfg writes).length ≤ cfg.mappings.numBackups := by
  unfold backupVecs
  split_ifs with off
  · exact Nat.zero_le _
  · exact Nat.one_le_iff_ne_zero.mpr off
  · rw [length_map, length_map, length_range]

theorem update_batches (tx : TxState V) (vecs : List (List Nat)) :
    batches cfg (updateStart coro tx vecs).pc = vecs.length := by
  cases vecs with
  | nil => rfl
  | cons vec rest => rfl

theorem update_vecs_few (cfg : Config) (tx : TxState V) :
    (backupVecs cfg tx.writeSet.length ++ [[0]]).length ≤ cfg.mappings.numReplicas := by
  have few := vecs_few cfg tx.writeSet.length
  rw [length_append, length_singleton, Mappings.numReplicas]
  omega

theorem commit_batches (oldWord : Nat) (tx : TxState V) :
    batches cfg (commitStart cfg coro oldWord tx).pc ≤ cfg.mappings.numReplicas + 1 := by
  unfold commitStart
  split_ifs
  · exact Nat.zero_le _
  · exact Nat.le_refl _
  · rw [update_batches]
    exact Nat.le_succ_of_le (update_vecs_few cfg tx)

theorem abort_batches (tx : TxState V) : batches cfg (abortStart coro tx).pc ≤ 1 := by
  unfold abortStart
  simp only
  split_ifs
  · exact Nat.zero_le _
  · exact Nat.le_refl _

/-- A call that continues has fewer batches to send. -/
theorem move_batches {oldWord : Nat} (waiting : tx.pc ≠ .app)
    (moved : LocalMove cfg coro oldWord tx next) : batches cfg next.pc < batches cfg tx.pc := by
  cases moved with
  | addRead _ _ _ _ ok | addWrite _ _ _ _ _ ok _ => exact absurd ok.1 waiting
  | writeObj _ _ _ at_ _ | doRead at_ _ | commit at_ _ _ _ | validate at_ _ _
  | singleRead at_ _ _ _ _ | abort at_ _ _ | abortRdonly at_ _ _ => exact absurd at_ waiting
  | readDone readResps writeResps at_ answers readAligned writeAligned =>
      rw [at_]
      exact Nat.one_pos
  | validated responses at_ aligned =>
      rw [at_]
      exact Nat.lt_succ_of_le (commit_batches oldWord _)
  | refused responses at_ sameLength =>
      rw [at_]
      exact Nat.lt_of_le_of_lt (abort_batches _) (Nat.lt_of_lt_of_le (by decide) (Nat.le_add_left 2 _))
  | abortDone at_ complete =>
      rw [at_]
      exact Nat.one_pos
  | logDone at_ complete =>
      rw [at_, update_batches]
      exact Nat.lt_succ_of_le (update_vecs_few cfg tx)
  | updateDone vec rest at_ complete =>
      rw [at_, update_batches]
      exact Nat.lt_succ_self _

theorem remaining_move {oldWord : Nat} (after : TxInv cfg coro next) (waiting : tx.pc ≠ .app)
    (moved : LocalMove cfg coro oldWord tx next) : remaining cfg next < remaining cfg tx := by
  have fewer := Nat.mul_le_mul_right (rpcMaxMsgCoro + 1) (move_batches waiting moved)
  have few := Nat.le_trans (pending_le next) (waiting_few after)
  rw [Nat.succ_mul] at fewer
  simp only [remaining]
  omega

theorem pending_respond {index : Nat} {req : Request V} (resp : Resp V)
    (found : tx.batch[index]? = some ⟨req, none⟩) :
    pending (tx.respond index req resp) + 1 = pending tx := by
  obtain ⟨bound, same⟩ := List.getElem?_eq_some_iff.mp found
  have open_ : 0 < pending tx :=
    countP_pos_iff.mpr ⟨_, mem_of_getElem? found, rfl⟩
  have counted : pending (tx.respond index req resp) = pending tx - 1 := by
    simp only [pending, TxState.respond, countP_set bound, same, Option.isNone_none,
      Option.isNone_some, if_true, Bool.false_eq_true, if_false, Nat.add_zero]
  omega

theorem remaining_respond {index : Nat} {req : Request V} (resp : Resp V)
    (found : tx.batch[index]? = some ⟨req, none⟩) :
    remaining cfg (tx.respond index req resp) < remaining cfg tx := by
  have one := pending_respond resp found
  have same : (tx.respond index req resp).pc = tx.pc := rfl
  rw [remaining, remaining, same]
  omega

theorem remaining_bound (inv : TxInv cfg coro tx) : remaining cfg tx < callBound cfg := by
  have few := Nat.le_trans (pending_le tx) (waiting_few inv)
  have most : batches cfg tx.pc ≤ cfg.mappings.numReplicas + 2 := by
    cases at_ : tx.pc with
    | update vec rest =>
        have stage := inv.stage
        simp only [StageInv, at_] at stage
        obtain ⟨_, _, _, _, done, split, _⟩ := stage
        have count := congrArg length split
        have vecs := update_vecs_few cfg tx
        rw [length_append, length_cons] at count
        simp only [allVecs] at count
        simp only [batches]
        omega
    | _ =>
        simp only [batches]
        omega
  have scaled := Nat.mul_le_mul_right (rpcMaxMsgCoro + 1) most
  rw [remaining, callBound, Nat.succ_mul]
  omega

end Measure

section Steps

def drives (coro : CoroId) : Label V → Bool
  | .handle other _ _ => decide (other = coro)
  | .resume other => decide (other = coro)
  | _ => false

def Inserting (cfg : Config) (state : State V) (coro : CoroId) (key : UInt64) : Prop :=
  ∃ item ∈ (state.tx coro).writeSet, item.key = key ∧ item.writeMode = .insert ∧
    primaryEntry cfg state item.loc = none ∧ ∃ vec rest, (state.tx coro).pc = .update vec rest

/-- An insert waits for a table that has no room for it. -/
def Full (cfg : Config) (state : State V) (coro : CoroId) : Prop :=
  ∃ (index : Nat) (req : DsReq V), (state.tx coro).batch[index]? = some ⟨.ds req, none⟩ ∧
    OutOfSpace (dsKeyhash cfg) (state.tables req.machine req.rpcReqtype) req ∧
    Inserting cfg state coro req.key

theorem drive_lowers {after : State V} {label : Label V} (cluster : ClusterInv cfg sizes state)
    (driving : drives coro label = true) (ran : step cfg state label = some (.ok after)) :
    remaining cfg (after.tx coro) < remaining cfg (state.tx coro) := by
  have inv := (step_inv cluster ran).txInv coro
  have valid := (step_cases (cluster.txInv label.coro) ran).1
  cases label with
  | handle other index stale =>
      obtain rfl := of_decide_eq_true driving
      have handled : handleStep cfg state other index stale = some (.ok after) := by
        rw [← ran, step, if_pos valid]
      rcases handle_cases handled with ⟨req, resp, table, found, _, outcome⟩ |
        ⟨_, _, _, _, outcome⟩ | ⟨machine, wrkrLid, record, found, outcome⟩
      · rw [Except.ok.inj outcome, tx_ds_state, if_pos rfl]
        exact remaining_respond resp found
      · cases outcome
      · rw [Except.ok.inj outcome, logState, tx_set_tx_self]
        exact remaining_respond _ found
  | resume other =>
      obtain rfl := of_decide_eq_true driving
      have resumed : resumeStep cfg state other = some (.ok after) := by
        rw [← ran, step, if_pos valid]
      have waiting : (state.tx other).pc ≠ .app := by
        simp only [resumeStep, Option.ite_none_right_eq_some] at resumed
        exact resumed.1.1
      obtain ⟨tx, moved, outcome⟩ := resume_cases (cluster.txInv other) resumed
      rw [Except.ok.inj outcome, tx_set_tx_self] at inv ⊢
      exact remaining_move inv waiting moved
  | _ => cases driving

/-- The handler of a request that is on its way runs to its end, or it has no room. -/
theorem open_request_runs (cluster : ClusterInv cfg sizes state) (replicas : ReplicaInv cfg state)
    (valid : cfg.Valid coro) {index : Nat} {req : DsReq V} (stale : UInt64)
    (found : (state.tx coro).batch[index]? = some ⟨.ds req, none⟩) :
    (∃ resp table, dsFixedtableRpcHandler (state.tables req.machine req.rpcReqtype) req stale =
      .ok (resp, table)) ∨ Full cfg state coro := by
  rcases handler_effect (cluster.tableOk _ _) (open_req_ok cluster valid found) stale with
    ⟨resp, table, ran, _⟩ | ⟨space, _⟩ | ⟨removal, missing, _⟩
  · exact Or.inl ⟨resp, table, ran⟩
  · obtain ⟨⟨val, put⟩, missing, _⟩ := id space
    obtain ⟨item, member, key, insert, _, absent, updating⟩ :=
      missing_key_inserted cluster replicas found (Or.inr ⟨val, put⟩) missing
    exact Or.inr ⟨index, req, found, space, item, member, key, insert, absent, updating⟩
  · exact absurd missing (removal_finds cluster replicas found removal)

/-- A waiting coroutine can take a step, unless a table has no room for an insert. -/
theorem can_drive (cluster : ClusterInv cfg sizes state) (replicas : ReplicaInv cfg state)
    (valid : cfg.Valid coro) (waiting : (state.tx coro).pc ≠ .app) :
    (∃ label after, drives coro label = true ∧ step cfg state label = some (.ok after)) ∨
      Full cfg state coro := by
  by_cases complete : ((state.tx coro).batch.filterMap ReqSlot.resp).length =
      (state.tx coro).batch.length
  · obtain ⟨tx, run, _⟩ := resume_move (cluster.txInv coro) waiting complete
      (state.oldWord cfg coro)
    refine Or.inl ⟨.resume coro, (state.stage cfg coro tx).setTx coro tx, decide_eq_true rfl, ?_⟩
    have resumed : resumeStep cfg state coro =
        some (.ok ((state.stage cfg coro tx).setTx coro tx)) := by
      simp only [resumeStep]
      rw [if_pos ⟨waiting, complete⟩, run]
    rw [← resumed, step, Label.coro, if_pos valid]
  · obtain ⟨index, slot, found, unanswered⟩ : ∃ (index : Nat) (slot : ReqSlot V),
        (state.tx coro).batch[index]? = some slot ∧ slot.resp = none := by
      by_contra answered
      apply complete
      rw [length_filterMap_eq_countP, countP_eq_length]
      intro slot member
      obtain ⟨index, found⟩ := mem_iff_getElem?.mp member
      exact Option.isSome_iff_ne_none.mpr fun none_ => answered ⟨index, slot, found, none_⟩
    have handled : step cfg state (.handle coro index 0) = handleStep cfg state coro index 0 :=
      if_pos valid
    obtain ⟨req, resp⟩ := slot
    simp only at unanswered
    subst unanswered
    cases req with
    | log machine wrkrLid record =>
        refine Or.inl ⟨.handle coro index 0, logState cfg state coro index machine wrkrLid record,
          decide_eq_true rfl, handled.trans ?_⟩
        simp only [handleStep, found, Option.bind_eq_bind, Option.bind_some, Option.isSome_none,
          Bool.false_eq_true, if_false]
        rfl
    | ds req =>
        rcases open_request_runs cluster replicas valid 0 found with ⟨resp, table, ran⟩ | full
        · refine Or.inl ⟨.handle coro index 0, dsState state coro index req resp table,
            decide_eq_true rfl, handled.trans ?_⟩
          simp only [handleStep, found, Option.bind_eq_bind, Option.bind_some, Option.isSome_none,
            Bool.false_eq_true, if_false, ran]
          rfl
        · exact Or.inr full

theorem others_keep {after : State V} {label : Label V} (cluster : ClusterInv cfg sizes state)
    (other : label.coro ≠ coro) (ran : step cfg state label = some (.ok after)) :
    after.tx coro = state.tx coro :=
  (own_step (cluster.txInv label.coro) ran).1 coro (Ne.symm other)

end Steps

section Runs

/-- The steps of a coroutine in a run, and what its call then still needs. -/
theorem run_lowers (cluster : ClusterInv cfg sizes state) {labels : List (Label V)}
    (calls : ∀ label ∈ labels, label.coro = coro → drives coro label = true)
    (ran : runLabels cfg state labels = some final) :
    labels.countP (fun label => decide (label.coro = coro)) + remaining cfg (final.tx coro) ≤
      remaining cfg (state.tx coro) := by
  induction labels generalizing state with
  | nil =>
      rw [← Option.some.inj ran]
      exact Nat.le_of_eq (Nat.zero_add _)
  | cons label rest ih =>
      rw [runLabels] at ran
      split at ran
      · rename_i after taken
        have later := ih (step_inv cluster taken)
          (fun other member => calls other (mem_cons_of_mem _ member)) ran
        rw [countP_cons]
        by_cases mine : label.coro = coro
        · have lower := drive_lowers cluster (calls label mem_cons_self mine) taken
          rw [if_pos (decide_eq_true mine)]
          omega
        · rw [others_keep cluster mine taken] at later
          rw [if_neg (by simpa using mine)]
          exact later
      · cases ran

/-- In a run in which a coroutine makes no new call, it takes only so many steps,
however they are interleaved with those of the others. Then its call has returned,
or it can go on, or a table has no room for its insert. -/
theorem calls_return (initial : Initial cfg init) (agree : ReplicasAgree cfg init)
    (reached : Reachable cfg init state) (valid : cfg.Valid coro) {labels : List (Label V)}
    (calls : ∀ label ∈ labels, label.coro = coro → drives coro label = true)
    (ran : runLabels cfg state labels = some final) :
    labels.countP (fun label => decide (label.coro = coro)) < callBound cfg ∧
      ((final.tx coro).pc = .app ∨
        (∃ label after, drives coro label = true ∧ step cfg final label = some (.ok after)) ∨
        Full cfg final coro) := by
  have before := reachable_inv initial reached
  have later := run_labels_reachable labels reached ran
  have bound := remaining_bound (before.txInv coro)
  have lower := run_lowers before calls ran
  refine ⟨by omega, ?_⟩
  by_cases returned : (final.tx coro).pc = .app
  · exact Or.inl returned
  · exact Or.inr (can_drive (reachable_inv initial later) (reachable_replicas initial agree later)
      valid returned)

section Example

theorem one_machine_agrees (state : State Nat) : ReplicasAgree oneMachine state :=
  fun _ _ backI bound => absurd bound (Nat.not_lt_zero backI)

def insertFive : List (Label Nat) :=
  [.start ⟨0, 1⟩, .addToWriteSet ⟨0, 1⟩ 20 5 0 ⟨8, 0, 7⟩ .insert, .doRead ⟨0, 1⟩]

theorem calls_return_insert :
    ∃ state final, runLabels oneMachine (newSwarm 8 1 0 0) insertFive = some state ∧
      runLabels oneMachine state [.handle ⟨0, 1⟩ 0 0] = some final ∧
      (final.tx ⟨0, 1⟩).pc ≠ .app ∧
      ((∃ label after, drives ⟨0, 1⟩ label = true ∧ step oneMachine final label = some (.ok after)) ∨
        Full oneMachine final ⟨0, 1⟩) := by
  have observed : ((runLabels oneMachine (newSwarm 8 1 0 0) insertFive).bind fun state =>
      (runLabels oneMachine state [.handle ⟨0, 1⟩ 0 0]).map (state, ·)).map
        (fun pair => decide ((pair.2.tx ⟨0, 1⟩).pc = .app)) = some false := by
    decide +kernel
  obtain ⟨⟨state, final⟩, ran, waits⟩ := Option.map_eq_some_iff.mp observed
  obtain ⟨middle, first, later⟩ := Option.bind_eq_some_iff.mp ran
  obtain ⟨last, second, pair⟩ := Option.map_eq_some_iff.mp later
  obtain ⟨rfl, rfl⟩ := Prod.mk.inj pair
  have initial := new_swarm_initial oneMachine 8 1 0 0 (by decide)
  have reached := run_labels_reachable _ .refl first
  have returned := (calls_return initial (one_machine_agrees _) reached
    (show oneMachine.Valid ⟨0, 1⟩ by decide) (by decide) second).2
  have waiting := of_decide_eq_false waits
  exact ⟨middle, last, first, second, waiting, returned.resolve_left waiting⟩

end Example

theorem crash_full (cluster : ClusterInv cfg sizes state) (replicas : ReplicaInv cfg state)
    {label : Label V} {crash : Crash} (ran : step cfg state label = some (.error crash)) :
    Full cfg state label.coro := by
  obtain ⟨valid, index, req, stale, found, stopped⟩ := step_crash (cluster.txInv label.coro) ran
  rcases open_request_runs cluster replicas valid stale found with ⟨resp, table, done⟩ | full
  · rw [stopped] at done
    cases done
  · exact full

/-- The only reason for which a process ends: no assertion fails at any replica, and
no update or removal misses its key. -/
theorem processes_end_for_space (initial : Initial cfg init) (agree : ReplicasAgree cfg init)
    (reached : Reachable cfg init state) {label : Label V} {crash : Crash}
    (ran : step cfg state label = some (.error crash)) : Full cfg state label.coro :=
  crash_full (reachable_inv initial reached) (reachable_replicas initial agree reached) ran

section Example

/-- Eight inserts into a bucket with seven slots, up to the last update. -/
def eightInserts : List (Label Nat) :=
  .start ⟨0, 1⟩ :: (range 8).map (fun key =>
      .addToWriteSet ⟨0, 1⟩ 20 (UInt64.ofNat key) 0 ⟨8, 0, 7⟩ .insert) ++
    [.doRead ⟨0, 1⟩] ++ (range 8).map (.handle ⟨0, 1⟩ · 0) ++ [.resume ⟨0, 1⟩, .commit ⟨0, 1⟩] ++
    (range 7).map (.handle ⟨0, 1⟩ · 0)

theorem processes_end_for_space_eight_inserts :
    ∃ state, runLabels oneMachine (newSwarm 8 1 0 0) eightInserts = some state ∧
      step oneMachine state (.handle ⟨0, 1⟩ 7 0) = some (.error .exit) ∧
      Full oneMachine state ⟨0, 1⟩ := by
  have observed : (runLabels oneMachine (newSwarm 8 1 0 0) eightInserts).map
      (fun state => (step oneMachine state (.handle ⟨0, 1⟩ 7 0)).map fun outcome =>
        outcome.map fun _ => ()) = some (some (.error .exit)) := by
    decide +kernel
  obtain ⟨state, ran, stopped⟩ := Option.map_eq_some_iff.mp observed
  obtain ⟨outcome, taken, shape⟩ := Option.map_eq_some_iff.mp stopped
  cases outcome with
  | ok next => cases shape
  | error crash =>
      cases shape
      have initial := new_swarm_initial oneMachine 8 1 0 0 (by decide)
      exact ⟨state, ran, taken, processes_end_for_space initial (one_machine_agrees _)
        (run_labels_reachable _ .refl ran) taken⟩

end Example

end Runs

section Functions

variable {rules : Discipline V} {workload : Txn V → Prop} {app last : App V}

def works (coro : CoroId) : AppLabel V → Bool
  | .begin_ _ _ => false
  | label => decide (label.coro = coro)

theorem run_app_append {middle : App V} {first second : List (AppLabel V)}
    (one : runApp cfg app first = some middle) (two : runApp cfg middle second = some last) :
    runApp cfg app (first ++ second) = some last := by
  induction first generalizing app with
  | nil =>
      rw [← Option.some.inj one] at two
      exact two
  | cons label rest ih =>
      rw [runApp] at one
      rw [cons_append, runApp]
      split at one
      · exact ih one
      · cases one

theorem works_listed {labels : List (AppLabel V)} (mine : ∀ label ∈ labels, works coro label = true) :
    ∀ label ∈ labels, Listed workload label := by
  intro label member
  have own := mine label member
  cases label with
  | begin_ other txn => cases own
  | _ => trivial

/-- A run in which only one coroutine works, and where it ends. -/
def Alone (cfg : Config) (coro : CoroId) (app last : App V) : Prop :=
  ∃ labels : List (AppLabel V), (∀ label ∈ labels, works coro label = true) ∧
    runApp cfg app labels = some last

theorem alone_refl (app : App V) : Alone cfg coro app app := ⟨[], fun _ member => (by cases member), rfl⟩

theorem alone_step {middle : App V} (label : AppLabel V) (mine : works coro label = true)
    (ran : appStep cfg app label = some (.ok middle)) (later : Alone cfg coro middle last) :
    Alone cfg coro app last := by
  obtain ⟨labels, own, run⟩ := later
  refine ⟨label :: labels, ?_, by rw [runApp, ran]; exact run⟩
  intro other member
  rcases mem_cons.mp member with rfl | inside
  · exact mine
  · exact own other inside

theorem alone_trans {middle : App V} (first : Alone cfg coro app middle)
    (second : Alone cfg coro middle last) : Alone cfg coro app last := by
  obtain ⟨labels, own, run⟩ := first
  obtain ⟨others, ownOthers, runOthers⟩ := second
  refine ⟨labels ++ others, ?_, run_app_append run runOthers⟩
  intro label member
  rcases mem_append.mp member with inside | inside
  · exact own label inside
  · exact ownOthers label inside

theorem alone_reachable {first : App V} (alone : Alone cfg coro app last)
    (reached : AppReachable cfg workload first app) : AppReachable cfg workload first last := by
  obtain ⟨labels, own, run⟩ := alone
  exact run_app_reachable labels (works_listed own) reached run

theorem swarm_step_ok {label : Label V} {after : State V}
    (taken : step cfg app.swarm label = some (.ok after)) :
    swarmStep cfg app label = some (.ok { app with swarm := after }) := by
  rw [swarmStep, taken]
  rfl

/-- A call returns if its coroutine is left to work. -/
theorem drive_call (initial : Initial cfg init) (agree : ReplicasAgree cfg init)
    (reached : AppReachable cfg workload (.launch init) app) (valid : cfg.Valid coro) :
    ∃ last, Alone cfg coro app last ∧ last.control = app.control ∧
      ((last.swarm.tx coro).pc = .app ∨ Full cfg last.swarm coro) := by
  induction size : remaining cfg (app.swarm.tx coro) using Nat.strongRecOn generalizing app with
  | ind bound ih =>
      have below : Reachable cfg init app.swarm := swarm_reachable reached
      have cluster := reachable_inv initial below
      by_cases returned : (app.swarm.tx coro).pc = .app
      · exact ⟨app, alone_refl app, rfl, Or.inl returned⟩
      · rcases can_drive cluster (reachable_replicas initial agree below) valid returned with
          ⟨label, after, driving, taken⟩ | full
        · obtain ⟨work, mine, ran⟩ : ∃ work : AppLabel V, works coro work = true ∧
              appStep cfg app work = some (.ok { app with swarm := after }) := by
            cases label with
            | handle other index stale =>
                exact ⟨.handle other index stale, driving, swarm_step_ok taken⟩
            | resume other => exact ⟨.resume other, driving, swarm_step_ok taken⟩
            | _ => cases driving
          have first := alone_step work mine ran (alone_refl _)
          obtain ⟨last, later, same, goal⟩ := ih _ (size ▸ drive_lowers cluster driving taken)
            (alone_reachable first reached) rfl
          exact ⟨last, alone_trans first later, same, goal⟩
        · exact ⟨app, alone_refl app, rfl, Or.inr full⟩

/-- The coroutine can finish its transaction function alone. -/
def Finishes (cfg : Config) (coro : CoroId) (app : App V) : Prop :=
  ∃ last, Alone cfg coro app last ∧
    (last.control coro = .ready .done ∨ Full cfg last.swarm coro)

theorem finishes_of_alone {middle : App V} (alone : Alone cfg coro app middle)
    (finishes : Finishes cfg coro middle) : Finishes cfg coro app := by
  obtain ⟨last, later, goal⟩ := finishes
  exact ⟨last, alone_trans alone later, goal⟩

theorem waiting_finishes (initial : Initial cfg init) (agree : ReplicasAgree cfg init)
    (valid : cfg.Valid coro) {call : Call V} {rest : Reply V → Txn V}
    (later : ∀ reply app, AppReachable cfg workload (.launch init) app →
      app.control coro = .ready (rest reply) → Finishes cfg coro app)
    (reached : AppReachable cfg workload (.launch init) app)
    (at_ : app.control coro = .waiting call rest) : Finishes cfg coro app := by
  obtain ⟨middle, alone, same, returned | full⟩ := drive_call initial agree reached valid
  · have ran : appStep cfg middle (.return_ coro) = some (.ok (middle.setControl coro
        (.ready (rest (replyOf (middle.swarm.tx coro)))))) := by
      simp only [appStep, same, at_]
      rw [if_pos returned]
    have next := alone_trans alone (alone_step (.return_ coro) (decide_eq_true rfl) ran (alone_refl _))
    refine finishes_of_alone next (later (replyOf (middle.swarm.tx coro)) _
      (alone_reachable next reached) ?_)
    rw [control_set_control, if_pos rfl]
  · exact ⟨middle, alone, Or.inr full⟩

theorem call_waits {after : App V} {call : Call V} {rest : Reply V → Txn V}
    (at_ : app.control coro = .ready (.call call rest))
    (ran : appStep cfg app (.call coro) = some (.ok after)) :
    after.control coro = .waiting call rest := by
  cases app_step_cases ran with
  | idle _ other found aborted =>
      cases at_.symm.trans found
      rw [control_set_control, if_pos rfl]
  | call _ other others swarm found taken =>
      cases at_.symm.trans found
      exact (control_set_control coro coro _).trans (if_pos rfl)

/-- A transaction function that has begun ends if its coroutine is left to work. -/
theorem functions_end (initial : Initial cfg init) (agree : ReplicasAgree cfg init)
    (always : ∀ app, AppReachable cfg workload (.launch init) app → AppInv rules cfg init app)
    (reached : AppReachable cfg workload (.launch init) app) (valid : cfg.Valid coro) :
    Finishes cfg coro app := by
  have ready : ∀ (txn : Txn V) (app : App V), AppReachable cfg workload (.launch init) app →
      app.control coro = .ready txn → Finishes cfg coro app := by
    intro txn
    induction txn with
    | done =>
        intro app _ at_
        exact ⟨app, alone_refl app, Or.inl at_⟩
    | exit =>
        intro app reached at_
        have holds := (always app reached).controls coro
        rw [at_] at holds
        exact holds.elim
    | call next rest ih =>
        intro app reached at_
        obtain ⟨after, ran⟩ :=
          (undisturbed_of_inv (always app reached)).accepted coro valid next rest at_
        have alone := alone_step (.call coro) (decide_eq_true rfl) ran (alone_refl _)
        exact finishes_of_alone alone (waiting_finishes initial agree valid ih
          (alone_reachable alone reached) (call_waits at_ ran))
  cases at_ : app.control coro with
  | ready txn => exact ready txn app reached at_
  | waiting call rest =>
      exact waiting_finishes initial agree valid (fun reply => ready (rest reply)) reached at_

theorem app_crash_full (initial : Initial cfg init) (agree : ReplicasAgree cfg init)
    (reached : AppReachable cfg workload (.launch init) app) {label : AppLabel V} {crash : Crash}
    (ran : appStep cfg app label = some (.error crash)) : Full cfg app.swarm label.coro := by
  have below : Reachable cfg init app.swarm := swarm_reachable reached
  have stops : ∀ {before : App V} {label : Label V}, before.swarm = app.swarm →
      swarmStep cfg before label = some (.error crash) → Full cfg app.swarm label.coro := by
    intro before label same taken
    obtain ⟨outcome, ran, shape⟩ := Option.map_eq_some_iff.mp taken
    rw [same] at ran
    cases outcome with
    | error fault =>
        exact crash_full (reachable_inv initial below) (reachable_replicas initial agree below) ran
    | ok next => cases shape
  cases label with
  | begin_ coro txn =>
      simp only [appStep] at ran
      split at ran <;> cases ran
  | call coro =>
      simp only [appStep] at ran
      split at ran
      · split_ifs at ran
        · cases ran
        · have full := stops (swarm_set_control coro _) ran
          rwa [label_coro] at full
      · cases ran
  | return_ coro =>
      simp only [appStep] at ran
      split at ran
      · split_ifs at ran
        cases ran
      · cases ran
  | handle coro index stale => exact stops rfl ran
  | resume coro => exact stops rfl ran

end Functions

end Fasst.TxProgress

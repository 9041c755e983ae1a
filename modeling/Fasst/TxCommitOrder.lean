import Fasst.TxReplicas

/-!
# The order of a commit

Log, backups, primary: an update is executed at a replica only after every log
machine has the record, and at a primary only after all backups. A log slot
belongs to one coroutine, so the record stays until that coroutine logs again.
Here the transactions of the past count as well as the current ones.
-/

namespace Fasst.TxCommitOrder

open List Fasst.FixedTableModel Fasst.FixedTableSpec Fasst.Placement Fasst.Bytes Fasst.TxModel
open Fasst.TxCluster Fasst.Aligned Fasst.TxLocal Fasst.TxCalls Fasst.TxHandler Fasst.TxSteps
open Fasst.TxLocks Fasst.TxInvariant Fasst.TxOwnership Fasst.TxReplicas

set_option autoImplicit false

variable {V : Type} {cfg : Config} {sizes : Nat → Nat → Nat} {state : State V} {coro : CoroId}

section Slots

variable (cfg) (coro)

def logMachine (backI : Nat) : Nat :=
  cfg.mappings.getLogMn (cfg.mappings.machineId coro.wrkrGid) backI

def logSlot (state : State V) (machine : Nat) : Buffer :=
  state.loggers machine (cfg.mappings.wrkrLid coro.wrkrGid) (recordIdx cfg coro)

def logReqAt (record : List UInt8) (backI : Nat) : Request V :=
  .log (logMachine cfg coro backI) (cfg.mappings.wrkrLid coro.wrkrGid) record

end Slots

section Identifiers

theorem machine_id_lt (valid : cfg.Valid coro) :
    cfg.mappings.machineId coro.wrkrGid < cfg.mappings.numMachines := by
  apply Nat.div_lt_of_lt_mul
  rw [Nat.mul_comm]
  exact valid.1

/-- The identifiers in a record lead to the slot of the coroutine that built it. -/
theorem record_slot_own (valid : cfg.Valid coro)
    (machines : cfg.mappings.numMachines ≤ hotsMaxMachines) (oldWord : Nat)
    (writeSet : List (RwsetItem V)) :
    recordSlot cfg (logRecordBytes cfg coro oldWord writeSet) = recordIdx cfg coro := by
  have smallMachine := machine_id_lt valid
  have smallCoro := (caller_id_value valid).2.1
  have header : (logRecordBytes cfg coro oldWord writeSet).take 4 =
      leBytes 4 (cfg.mappings.machineId coro.wrkrGid % 2 ^ hotsMchnIdBits +
        2 ^ hotsMchnIdBits * (coro.coroId % 2 ^ hotsCoroIdBits) +
        2 ^ (hotsMchnIdBits + hotsCoroIdBits) *
          (oldWord / 2 ^ (hotsMchnIdBits + hotsCoroIdBits))) := by
    unfold logRecordBytes
    rw [append_assoc, take_append_of_le_length (by simp)]
    exact take_of_length_le (by simp)
  unfold recordSlot recordIdx
  rw [header, le_value_bytes]
  simp only [hotsMchnIdBits, hotsCoroIdBits, hotsMaxMachines] at *
  have sameMachine : ∀ m c w : Nat, m < 128 → c < 32 →
      (m % 2 ^ 7 + 2 ^ 7 * (c % 2 ^ 5) + 2 ^ (7 + 5) * w) % 256 ^ 4 % 2 ^ 7 = m ∧
      (m % 2 ^ 7 + 2 ^ 7 * (c % 2 ^ 5) + 2 ^ (7 + 5) * w) % 256 ^ 4 / 2 ^ 7 % 2 ^ 5 = c := by
    intro m c w smallM smallC
    omega
  obtain ⟨machine, coroutine⟩ := sameMachine (cfg.mappings.machineId coro.wrkrGid) coro.coroId
    (oldWord / 2 ^ (7 + 5)) (by omega) smallCoro
  rw [machine, coroutine]

/-- Two coroutines with the same local worker have different slots. -/
theorem slot_injective {other : CoroId} (valid : cfg.Valid coro) (otherValid : cfg.Valid other)
    (sameWorker : cfg.mappings.wrkrLid coro.wrkrGid = cfg.mappings.wrkrLid other.wrkrGid)
    (sameSlot : recordIdx cfg coro = recordIdx cfg other) : coro = other := by
  obtain ⟨gid, cid⟩ := coro
  obtain ⟨otherGid, otherCid⟩ := other
  have bound : cid < cfg.numCoro := valid.2.2
  have otherBound : otherCid < cfg.numCoro := otherValid.2.2
  simp only [recordIdx, Mappings.machineId, Mappings.wrkrLid] at sameWorker sameSlot
  have digits : ∀ machine id : Nat, id < cfg.numCoro →
      (machine * cfg.numCoro + id) / cfg.numCoro = machine ∧
      (machine * cfg.numCoro + id) % cfg.numCoro = id := by
    intro machine id small
    rw [Nat.mul_comm]
    exact ⟨by rw [Nat.mul_add_div (by omega), Nat.div_eq_of_lt small, Nat.add_zero],
      by rw [Nat.mul_add_mod, Nat.mod_eq_of_lt small]⟩
  have sameMachine : gid / cfg.mappings.workersPerMachine =
      otherGid / cfg.mappings.workersPerMachine := by
    have quotients := congrArg (fun slot => slot / cfg.numCoro) sameSlot
    simp only [(digits _ cid bound).1, (digits _ otherCid otherBound).1] at quotients
    exact quotients
  have sameCoro : cid = otherCid := by
    have remainders := congrArg (fun slot => slot % cfg.numCoro) sameSlot
    simp only [(digits _ cid bound).2, (digits _ otherCid otherBound).2] at remainders
    exact remainders
  have sameGid : gid = otherGid := by
    rw [← Nat.div_add_mod gid cfg.mappings.workersPerMachine, sameMachine, sameWorker,
      Nat.div_add_mod]
  rw [sameGid, sameCoro]

end Identifiers

section Local

def LoggedAt (cfg : Config) (coro : CoroId) (tx : TxState V) (record : List UInt8) (backI : Nat) :
    Prop :=
  ∃ resp, (logReqAt cfg coro record backI, resp) ∈ tx.handled

/-- All log requests have been executed, if there are log machines. -/
def Logged (cfg : Config) (coro : CoroId) (tx : TxState V) : Prop :=
  0 < cfg.mappings.numBackups → ∃ record, tx.logRecord = some record ∧
    ∀ backI, backI < cfg.mappings.numBackups → LoggedAt cfg coro tx record backI

def LogSlot (cfg : Config) (coro : CoroId) (tx : TxState V) (record : List UInt8) (backI : Nat)
    (slot : ReqSlot V) : Prop :=
  slot.req = logReqAt cfg coro record backI ∧
    (slot.resp.isSome = true → LoggedAt cfg coro tx record backI)

structure LogLocal (cfg : Config) (coro : CoroId) (tx : TxState V) : Prop where
  slot : ∀ record, tx.logRecord = some record → recordSlot cfg record = recordIdx cfg coro
  quiet : tx.logRecord = none → ∀ machine wrkrLid record resp,
    ((.log machine wrkrLid record : Request V), resp) ∉ tx.handled
  fresh : tx.pc = .doRead ∨ tx.pc = .validate ∨ (tx.pc = .app ∧ tx.status = .inProgress) →
    tx.logRecord = none
  stage : match tx.pc with
    | .log => ∃ record, tx.logRecord = some record ∧
        Forall₂ (LogSlot cfg coro tx record) (range cfg.mappings.numBackups) tx.batch
    | .update _ _ => Logged cfg coro tx
    | .app => tx.status = .committed → tx.writeSet ≠ [] → Logged cfg coro tx
    | _ => True

variable {tx next : TxState V}

theorem logged_at_respond {record : List UInt8} {backI : Nat}
    (logged : LoggedAt cfg coro tx record backI) (index : Nat) (req : Request V) (resp : Resp V) :
    LoggedAt cfg coro (tx.respond index req resp) record backI := by
  obtain ⟨answer, member⟩ := logged
  exact ⟨answer, mem_append_left _ member⟩

theorem logged_respond (logged : Logged cfg coro tx) (index : Nat) (req : Request V)
    (resp : Resp V) : Logged cfg coro (tx.respond index req resp) := by
  intro backups
  obtain ⟨record, recorded, all⟩ := logged backups
  exact ⟨record, recorded, fun backI bound => logged_at_respond (all backI bound) _ _ _⟩

theorem respond_log_local (inv : TxInv cfg coro tx) (log : LogLocal cfg coro tx) {index : Nat}
    {slot : ReqSlot V} (found : tx.batch[index]? = some slot) (waiting : slot.resp = none)
    (resp : Resp V) : LogLocal cfg coro (tx.respond index slot.req resp) := by
  constructor
  · exact log.slot
  · intro unrecorded machine wrkrLid record answer member
    rcases mem_append.mp member with earlier | now
    · exact log.quiet unrecorded machine wrkrLid record answer earlier
    · have isLog := (Prod.mk.inj (mem_singleton.mp now)).1
      have openSlot := open_slot inv found waiting
      rw [← isLog] at openSlot
      cases openSlot with
      | read item _ same => cases same
      | lock item _ same => cases same
      | unlock item _ same => cases same
      | update replI item _ same => cases same
      | log backI sent _ _ _ recorded =>
          rw [show tx.logRecord = none from unrecorded] at recorded
          cases recorded
  · exact log.fresh
  · have stage := log.stage
    have samePc : (tx.respond index slot.req resp).pc = tx.pc := rfl
    rw [samePc]
    split
    case h_1 at_ =>
        rw [at_] at stage
        obtain ⟨record, recorded, slots⟩ := stage
        refine ⟨record, recorded, ?_⟩
        obtain ⟨backI, itemFound, same, _⟩ := forall₂_getElem slots index found
        apply forall₂_set slots index
        · intro position other entry _ _ _ related
          exact ⟨related.1, fun answered => logged_at_respond (related.2 answered) _ _ _⟩
        · intro other otherFound
          rw [Option.some.inj (otherFound.symm.trans itemFound)]
          refine ⟨same, fun _ => ⟨resp, ?_⟩⟩
          rw [← same]
          exact mem_append_right _ (mem_singleton.mpr rfl)
    case h_2 at_ =>
        rw [at_] at stage
        exact logged_respond stage _ _ _
    case h_3 at_ =>
        rw [at_] at stage
        exact fun committed nonempty => logged_respond (stage committed nonempty) _ _ _
    case h_4 => trivial

theorem commit_start_log (valid : cfg.Valid coro)
    (machines : cfg.mappings.numMachines ≤ hotsMaxMachines) (log : LogLocal cfg coro tx)
    (oldWord : Nat) : LogLocal cfg coro (commitStart cfg coro oldWord tx) := by
  unfold commitStart
  split_ifs with empty backups
  · exact ⟨log.slot, log.quiet, by simp, fun _ nonempty => absurd empty nonempty⟩
  · refine ⟨?_, by rintro ⟨⟩, by simp [TxState.send], _, rfl, ?_⟩
    · intro record recorded
      rw [← Option.some.inj recorded]
      exact record_slot_own valid machines oldWord tx.writeSet
    · simp only [TxState.send, logReqs, map_map]
      apply forall₂_map_self
      exact fun backI _ => ⟨rfl, by rintro ⟨⟩⟩
  · have more : ∃ vec rest, backupVecs cfg tx.writeSet.length ++ [[0]] = vec :: rest := by
      cases split : backupVecs cfg tx.writeSet.length with
      | nil => exact ⟨[0], [], rfl⟩
      | cons vec rest => exact ⟨vec, rest ++ [[0]], rfl⟩
    obtain ⟨vec, rest, split⟩ := more
    rw [split]
    exact ⟨log.slot, log.quiet, by simp [updateStart, TxState.send],
      fun positive => absurd positive backups⟩

theorem abort_start_log (log : LogLocal cfg coro tx) : LogLocal cfg coro (abortStart coro tx) := by
  simp only [abortStart]
  split_ifs
  · exact ⟨log.slot, log.quiet, by simp, by rintro ⟨⟩⟩
  · exact ⟨log.slot, log.quiet, by simp [TxState.send], trivial⟩

/-- The batches after the log, and the end of the commit. -/
theorem update_start_log (log : LogLocal cfg coro tx) (logged : Logged cfg coro tx)
    (vecs : List (List Nat)) : LogLocal cfg coro (updateStart coro tx vecs) := by
  cases vecs with
  | nil => exact ⟨log.slot, log.quiet, by simp [updateStart], fun _ _ => logged⟩
  | cons vec rest => exact ⟨log.slot, log.quiet, by simp [updateStart, TxState.send], logged⟩

theorem move_log_local {oldWord : Nat} (valid : cfg.Valid coro)
    (machines : cfg.mappings.numMachines ≤ hotsMaxMachines) (inv : TxInv cfg coro tx)
    (log : LogLocal cfg coro tx) (move : LocalMove cfg coro oldWord tx next) :
    LogLocal cfg coro next := by
  cases move with
  | addRead rpcReqtype key objAddr obj ok =>
      refine ⟨log.slot, log.quiet, log.fresh, ?_⟩
      simp only [ok.1, ok.2.1]
      nofun
  | addWrite rpcReqtype key objAddr obj writeMode ok mode =>
      refine ⟨log.slot, log.quiet, log.fresh, ?_⟩
      simp only [ok.1, ok.2.1]
      nofun
  | writeObj index valSize val at_ running =>
      refine ⟨log.slot, log.quiet, log.fresh, ?_⟩
      simp only [at_, running]
      nofun
  | doRead at_ running =>
      have none_yet := log.fresh (Or.inr (Or.inr ⟨at_, running⟩))
      exact ⟨log.slot, log.quiet, fun _ => none_yet, trivial⟩
  | commit at_ running allRead noReads => exact commit_start_log valid machines log oldWord
  | validate at_ running allRead =>
      have none_yet := log.fresh (Or.inr (Or.inr ⟨at_, running⟩))
      exact ⟨log.slot, log.quiet, fun _ => none_yet, trivial⟩
  | singleRead at_ running allRead one noWrites =>
      refine ⟨log.slot, log.quiet, by simp [at_], ?_⟩
      simp only [at_]
      exact fun _ nonempty => absurd noWrites nonempty
  | abort at_ status allRead => exact abort_start_log log
  | abortRdonly at_ status noWrites =>
      refine ⟨log.slot, log.quiet, by simp [at_], ?_⟩
      simp only [at_]
      nofun
  | readDone readResps writeResps at_ answers readAligned writeAligned =>
      have stage := inv.stage
      simp only [StageInv, at_] at stage
      refine ⟨log.slot, log.quiet, fun _ => log.fresh (Or.inl at_), ?_⟩
      intro committed
      simp only [readState, stage.1] at committed
      split_ifs at committed
  | validated responses at_ aligned =>
      have checked : LogLocal cfg coro (checkedState tx responses) := by
        refine ⟨log.slot, log.quiet, log.fresh, ?_⟩
        simp only [checkedState, at_]
      exact commit_start_log valid machines checked oldWord
  | refused responses at_ sameLength =>
      have checked : LogLocal cfg coro (checkedState tx responses) := by
        refine ⟨log.slot, log.quiet, log.fresh, ?_⟩
        simp only [checkedState, at_]
      exact abort_start_log checked
  | abortDone at_ complete =>
      have stage := inv.stage
      simp only [StageInv, at_] at stage
      refine ⟨log.slot, log.quiet, by simp [stage.1], ?_⟩
      simp only [stage.1]
      nofun
  | logDone at_ complete =>
      have stage := log.stage
      rw [at_] at stage
      obtain ⟨record, recorded, slots⟩ := stage
      refine update_start_log log ?_ _
      intro _
      refine ⟨record, recorded, fun backI bound => ?_⟩
      obtain ⟨slot, member, _, answered⟩ := forall₂_mem_left slots (mem_range.mpr bound)
      exact answered (complete slot member)
  | updateDone vec rest at_ complete =>
      have stage := log.stage
      rw [at_] at stage
      exact update_start_log log stage rest

theorem idle_log_local (status : TxStatus) (open_ : status ≠ .committed) :
    LogLocal cfg coro ({ TxState.construct with status := status } : TxState V) := by
  refine ⟨nofun, ?_, fun _ => rfl, fun committed => absurd committed open_⟩
  intro _ _ _ _ _ member
  cases member

/-- A record is built once, by a transaction that has none. -/
theorem move_log_record {oldWord : Nat} (log : LogLocal cfg coro tx)
    (move : LocalMove cfg coro oldWord tx next) :
    next.logRecord = tx.logRecord ∨ tx.logRecord = none := by
  have updated : ∀ vecs, (updateStart coro tx vecs).logRecord = tx.logRecord := by
    intro vecs
    cases vecs <;> rfl
  have aborted : ∀ tx : TxState V, (abortStart coro tx).logRecord = tx.logRecord := by
    intro tx
    simp only [abortStart]
    split_ifs <;> rfl
  cases move with
  | commit at_ running => exact Or.inr (log.fresh (Or.inr (Or.inr ⟨at_, running⟩)))
  | validated responses at_ => exact Or.inr (log.fresh (Or.inr (Or.inl at_)))
  | abort => exact Or.inl (aborted tx)
  | refused responses => exact Or.inl (aborted (checkedState tx responses))
  | logDone => exact Or.inl (updated _)
  | updateDone => exact Or.inl (updated _)
  | addRead => exact Or.inl rfl
  | addWrite => exact Or.inl rfl
  | writeObj => exact Or.inl rfl
  | doRead => exact Or.inl rfl
  | validate => exact Or.inl rfl
  | singleRead => exact Or.inl rfl
  | abortRdonly => exact Or.inl rfl
  | readDone => exact Or.inl rfl
  | abortDone => exact Or.inl rfl

end Local

section Global

/-- The record is in the slot of the coroutine at one of its log machines. -/
def SlotHolds (cfg : Config) (state : State V) (coro : CoroId) (record : List UInt8)
    (backI : Nat) : Prop :=
  readBytes (logSlot cfg coro state (logMachine cfg coro backI)) 0 record.length = record

/-- No transaction of the coroutine after this one has begun to log. -/
def LastLogged (state : State V) (coro : CoroId) (number : Nat) : Prop :=
  ∀ later, number < later → later ≤ state.cur coro → (state.txns coro later).logRecord = none

structure HistoryInv (cfg : Config) (state : State V) : Prop where
  txInv : ∀ coro number, number ≤ state.cur coro → TxInv cfg coro (state.txns coro number)
  log : ∀ coro number, number ≤ state.cur coro → LogLocal cfg coro (state.txns coro number)
  slots : ∀ coro, cfg.Valid coro → ∀ number, number ≤ state.cur coro → ∀ record,
    (state.txns coro number).logRecord = some record → LastLogged state coro number →
    ∀ backI, backI < cfg.mappings.numBackups →
      LoggedAt cfg coro (state.txns coro number) record backI → SlotHolds cfg state coro record backI

variable {next : State V}

theorem loggers_set_logger (state : State V) (machine wrkrLid : Nat) (log : Nat → Buffer)
    (otherMachine otherLid slot : Nat) :
    (state.setLogger machine wrkrLid log).loggers otherMachine otherLid slot =
      if otherMachine = machine ∧ otherLid = wrkrLid then log slot
      else state.loggers otherMachine otherLid slot := by
  simp only [State.setLogger]
  by_cases same : otherMachine = machine
  · subst same
    rw [Function.update_self, Function.update_apply]
    simp only [true_and]
    split_ifs <;> rfl
  · rw [Function.update_of_ne same, if_neg fun both => same both.1]

/-- A step that gives the current transaction of one coroutine a new state. -/
theorem history_step (mover : CoroId) (tx : TxState V) (inv : HistoryInv cfg state)
    (cur : next.cur = state.cur)
    (txns : ∀ coro number, next.txns coro number =
      if coro = mover ∧ number = state.cur mover then tx else state.txns coro number)
    (txInv : TxInv cfg mover tx) (log : LogLocal cfg mover tx)
    (kept : tx.logRecord = none → (state.tx mover).logRecord = none)
    (current : ∀ record, tx.logRecord = some record → ∀ backI, backI < cfg.mappings.numBackups →
      LoggedAt cfg mover tx record backI → cfg.Valid mover →
      (LoggedAt cfg mover (state.tx mover) record backI ∧
          (state.tx mover).logRecord = some record ∧
          logSlot cfg mover next (logMachine cfg mover backI) =
            logSlot cfg mover state (logMachine cfg mover backI)) ∨
        SlotHolds cfg next mover record backI)
    (others : ∀ coro, cfg.Valid coro → (coro ≠ mover ∨ tx.logRecord = none) →
      ∀ backI, backI < cfg.mappings.numBackups →
      logSlot cfg coro next (logMachine cfg coro backI) =
        logSlot cfg coro state (logMachine cfg coro backI)) : HistoryInv cfg next := by
  constructor
  · intro coro number bound
    rw [txns]
    split_ifs with here
    · rw [here.1]
      exact txInv
    · exact inv.txInv coro number (by rw [← cur]; exact bound)
  · intro coro number bound
    rw [txns]
    split_ifs with here
    · rw [here.1]
      exact log
    · exact inv.log coro number (by rw [← cur]; exact bound)
  · intro coro valid number bound record recorded last backI inRange logged
    rw [cur] at bound
    rw [txns] at recorded logged
    split_ifs at recorded logged with here
    · obtain ⟨same, isCurrent⟩ := here
      subst same
      rcases current record recorded backI inRange logged valid with
        ⟨wasLogged, wasRecorded, slot⟩ | holds
      · rw [SlotHolds, slot]
        refine inv.slots coro valid number bound record ?_ ?_ backI inRange ?_
        · rw [isCurrent]
          exact wasRecorded
        · intro later after upper
          omega
        · rw [isCurrent]
          exact wasLogged
      · exact holds
    · -- An earlier transaction, or one of another coroutine.
      have lastBefore : LastLogged state coro number := by
        intro later after upper
        have unrecorded := last later after (by rw [cur]; exact upper)
        rw [txns] at unrecorded
        split_ifs at unrecorded with isCurrent
        · rw [isCurrent.1, isCurrent.2]
          exact kept unrecorded
        · exact unrecorded
      have apart : coro ≠ mover ∨ tx.logRecord = none := by
        by_cases same : coro = mover
        · right
          subst same
          have earlier : number < state.cur coro :=
            lt_of_le_of_ne bound fun isCurrent => here ⟨rfl, isCurrent⟩
          have unrecorded := last (state.cur coro) earlier (by rw [cur])
          rw [txns, if_pos ⟨rfl, rfl⟩] at unrecorded
          exact unrecorded
        · exact Or.inl same
      rw [SlotHolds, others coro valid apart backI inRange]
      exact inv.slots coro valid number bound record recorded lastBefore backI inRange logged

/-- The staging of a record touches no slot at a log machine. -/
theorem stage_slot (valid : cfg.Valid coro) (tx : TxState V) {other : CoroId}
    (otherValid : cfg.Valid other) {backI : Nat} (bound : backI < cfg.mappings.numBackups) :
    logSlot cfg other (state.stage cfg coro tx) (logMachine cfg other backI) =
      logSlot cfg other state (logMachine cfg other backI) := by
  unfold State.stage
  split
  · rename_i record at_ recorded
    simp only [logSlot]
    rw [loggers_set_logger]
    split_ifs with here
    · rw [Function.update_of_ne, here.1, here.2]
      intro sameSlot
      have same := slot_injective otherValid valid here.2 sameSlot
      subst same
      exact backup_ne_primary cfg.mappings cfg.lockServerOff _ backI bound here.1
    · rfl
  · rfl

theorem move_history (valid : cfg.Valid coro)
    (machines : cfg.mappings.numMachines ≤ hotsMaxMachines) (inv : HistoryInv cfg state)
    {tx : TxState V} (moved : LocalMove cfg coro (state.oldWord cfg coro) (state.tx coro) tx) :
    HistoryInv cfg ((state.stage cfg coro tx).setTx coro tx) := by
  have txInv := inv.txInv coro (state.cur coro) (le_refl _)
  have log := inv.log coro (state.cur coro) (le_refl _)
  obtain ⟨nextInv, continues⟩ := move_inv txInv moved
  have sameRecord := move_log_record log moved
  have staged : (state.stage cfg coro tx).cur = state.cur ∧
      (state.stage cfg coro tx).txns = state.txns := by
    unfold State.stage
    split <;> exact ⟨rfl, rfl⟩
  have slots : ∀ other, cfg.Valid other → ∀ backI, backI < cfg.mappings.numBackups →
      logSlot cfg other ((state.stage cfg coro tx).setTx coro tx) (logMachine cfg other backI) =
        logSlot cfg other state (logMachine cfg other backI) :=
    fun other otherValid backI bound => stage_slot valid tx otherValid bound
  refine history_step coro tx inv staged.1 ?_ nextInv
    (move_log_local valid machines txInv log moved) ?_ ?_
    (fun other otherValid _ backI bound => slots other otherValid backI bound)
  · intro other number
    rw [txns_set_tx, staged.1, staged.2]
  · intro unrecorded
    rcases sameRecord with same | none_yet
    · rw [State.tx, ← same]
      exact unrecorded
    · exact none_yet
  · intro record recorded backI bound logged _
    left
    obtain ⟨resp, member⟩ := logged
    rw [continues.handled] at member
    rcases sameRecord with same | none_yet
    · exact ⟨⟨resp, member⟩, by rw [State.tx, ← same]; exact recorded, slots coro valid backI bound⟩
    · exact absurd member (log.quiet none_yet _ _ _ _)

theorem ds_history (inv : HistoryInv cfg state) {index : Nat} {req : DsReq V} {resp : Resp V}
    (table : FixedTable V) (found : (state.tx coro).batch[index]? = some ⟨.ds req, none⟩)
    (respOk : RespOk (.ds req) resp) : HistoryInv cfg (dsState state coro index req resp table) := by
  have txInv := inv.txInv coro (state.cur coro) (le_refl _)
  have log := inv.log coro (state.cur coro) (le_refl _)
  refine history_step coro _ inv rfl (fun other number => txns_set_tx _ coro _ other number)
    (respond_inv txInv found rfl respOk) (respond_log_local txInv log found rfl resp)
    (fun unrecorded => unrecorded) ?_ (fun _ _ _ _ _ => rfl)
  intro record recorded backI bound logged _
  left
  obtain ⟨answer, member⟩ := logged
  refine ⟨⟨answer, ?_⟩, recorded, rfl⟩
  rcases mem_append.mp member with earlier | now
  · exact earlier
  · cases (Prod.mk.inj (mem_singleton.mp now)).1

theorem log_history (valid : cfg.Valid coro) (inv : HistoryInv cfg state)
    {index machine wrkrLid : Nat} {record : List UInt8}
    (found : (state.tx coro).batch[index]? = some ⟨.log machine wrkrLid record, none⟩) :
    HistoryInv cfg (logState cfg state coro index machine wrkrLid record) := by
  have txInv := inv.txInv coro (state.cur coro) (le_refl _)
  have log := inv.log coro (state.cur coro) (le_refl _)
  have openSlot := open_slot txInv found rfl
  cases openSlot with
  | read item _ same => cases same
  | lock item _ same => cases same
  | unlock item _ same => cases same
  | update replI item _ same => cases same
  | log sentTo sent inRange same at_ recorded =>
      obtain ⟨sameMachine, sameLid, sameRecord⟩ := Request.log.inj same
      subst sameRecord
      have ownSlot := log.slot record recorded
      have written : ∀ other target, logSlot cfg other
          (logState cfg state coro index machine wrkrLid record) target =
            if target = machine ∧ cfg.mappings.wrkrLid other.wrkrGid = wrkrLid ∧
                recordIdx cfg other = recordIdx cfg coro
            then writeBytes (logSlot cfg other state target) 0 record
            else logSlot cfg other state target := by
        intro other target
        simp only [logSlot, logState, loggers_set_tx]
        rw [loggers_set_logger, saveLogRecord, ownSlot]
        by_cases here : target = machine ∧ cfg.mappings.wrkrLid other.wrkrGid = wrkrLid
        · rw [if_pos here, Function.update_apply]
          obtain ⟨atMachine, atLid⟩ := here
          simp only [atMachine, atLid, true_and]
          split_ifs with slot
          · rw [slot]
          · rfl
        · rw [if_neg here, if_neg fun all => here ⟨all.1, all.2.1⟩]
      refine history_step coro _ inv rfl (fun other number => txns_set_tx _ coro _ other number)
        (respond_inv txInv found rfl rfl) (respond_log_local txInv log found rfl _)
        (fun unrecorded => unrecorded) ?_ ?_
      · intro wanted wantedRecorded backI bound logged _
        have sameWanted : wanted = record :=
          Option.some.inj (wantedRecorded.symm.trans recorded)
        subst sameWanted
        by_cases here : logMachine cfg coro backI = machine
        · right
          rw [SlotHolds, written, if_pos ⟨here, sameLid.symm, rfl⟩]
          exact read_write_same _ 0 wanted
        · left
          obtain ⟨answer, member⟩ := logged
          refine ⟨⟨answer, ?_⟩, recorded, ?_⟩
          · rcases mem_append.mp member with earlier | now
            · exact earlier
            · have event := (Prod.mk.inj (mem_singleton.mp now)).1
              exact absurd (Request.log.inj event).1 here
          · rw [written, if_neg fun all => here all.1]
      · intro other otherValid apart backI bound
        rw [written, if_neg]
        rintro ⟨_, atLid, slot⟩
        rcases apart with different | unrecorded
        · exact different (slot_injective otherValid valid (atLid.trans sameLid) slot)
        · have both : none = some record := Eq.trans (Eq.symm unrecorded) recorded
          cases both

theorem start_history (inv : HistoryInv cfg state) : HistoryInv cfg (startState state coro) := by
  have txns : ∀ other number, (startState state coro).txns other number =
      if other = coro ∧ number = state.cur coro + 1 then .start else state.txns other number := by
    intro other number
    simp only [startState]
    by_cases same : other = coro
    · subst same
      rw [Function.update_self, Function.update_apply]
      simp only [true_and]
    · rw [Function.update_of_ne same, if_neg fun both => same both.1]
  have cur : ∀ other, (startState state coro).cur other =
      if other = coro then state.cur coro + 1 else state.cur other := by
    intro other
    simp only [startState, Function.update_apply]
  have earlier : ∀ other number, number ≤ (startState state coro).cur other →
      ¬ (other = coro ∧ number = state.cur coro + 1) → number ≤ state.cur other := by
    intro other number bound different
    rw [cur] at bound
    split_ifs at bound with same
    · subst same
      have distinct : number ≠ state.cur other + 1 := fun equal => different ⟨rfl, equal⟩
      omega
    · exact bound
  constructor
  · intro other number bound
    rw [txns]
    split_ifs with here
    · exact start_inv cfg other .inProgress (Or.inl rfl)
    · exact inv.txInv other number (earlier other number bound here)
  · intro other number bound
    rw [txns]
    split_ifs with here
    · exact idle_log_local .inProgress (by rintro ⟨⟩)
    · exact inv.log other number (earlier other number bound here)
  · intro other valid number bound record recorded last backI inRange logged
    rw [txns] at recorded logged
    split_ifs at recorded logged with here
    · cases recorded
    · refine inv.slots other valid number (earlier other number bound here) record recorded ?_
        backI inRange logged
      intro later after upper
      have inside : later ≤ (startState state coro).cur other := by
        rw [cur]
        split_ifs with same
        · rw [← same]
          omega
        · exact upper
      have unrecorded := last later after inside
      rw [txns] at unrecorded
      split_ifs at unrecorded with isNew
      · rw [isNew.1, isNew.2] at upper
        omega
      · exact unrecorded

theorem reachable_history {init : State V} (initial : Initial cfg init)
    (machines : cfg.mappings.numMachines ≤ hotsMaxMachines) (reached : Reachable cfg init state) :
    HistoryInv cfg state := by
  induction reached with
  | refl =>
      constructor
      · intro coro number _
        rw [initial.txns]
        exact start_inv cfg coro .aborted (Or.inr rfl)
      · intro coro number _
        rw [initial.txns]
        exact idle_log_local .aborted nofun
      · intro coro _ number _ record recorded
        rw [initial.txns] at recorded
        cases recorded
  | @step before next label reached ran ih =>
      have cluster := reachable_inv initial reached
      obtain ⟨valid, case_⟩ := step_cases (cluster.txInv label.coro) ran
      cases case_ with
      | start at_ ended => exact start_history ih
      | move tx moved => exact move_history valid machines ih moved
      | ds index req stale resp table found run =>
          exact ds_history ih table found (effect_resp_ok (ds_run cluster valid found run).2)
      | log index machine wrkrLid record found => exact log_history valid ih found

end Global

section Order

variable {tx : TxState V}

/-- Updates are executed in the last phase of a commit only. -/
theorem applied_stage (inv : TxInv cfg coro tx) {loc : Loc} (applied : applyCount tx loc ≠ 0) :
    (∃ vec rest, tx.pc = .update vec rest) ∨
      (tx.pc = .app ∧ tx.status = .committed ∧ tx.writeSet ≠ []) := by
  obtain ⟨event, member, applies_⟩ := countP_pos_iff.mp (Nat.pos_of_ne_zero applied)
  obtain ⟨item, inSet, _⟩ := inv.appliedFrom event member loc applies_
  have nonempty : tx.writeSet ≠ [] := ne_nil_of_mem inSet
  have stage := inv.stage
  cases at_ : tx.pc with
  | app =>
      cases status : tx.status with
      | inProgress =>
          simp only [StageInv, at_, status] at stage
          exact absurd (stage.2.2.1 loc) applied
      | mustAbort =>
          simp only [StageInv, at_, status] at stage
          exact absurd (stage.2.2.1 loc) applied
      | committed => exact Or.inr ⟨rfl, rfl, nonempty⟩
      | aborted =>
          simp only [StageInv, at_, status] at stage
          exact absurd (stage.2.1 loc) applied
  | doRead =>
      simp only [StageInv, at_] at stage
      exact absurd (stage.2.2.1 loc) applied
  | validate =>
      simp only [StageInv, at_] at stage
      exact absurd (stage.2.2.1 loc) applied
  | abort =>
      simp only [StageInv, at_] at stage
      exact absurd (stage.2.1 loc) applied
  | log =>
      simp only [StageInv, at_] at stage
      exact absurd (stage.2.2.1 loc) applied
  | update vec rest => exact Or.inl ⟨vec, rest, rfl⟩

theorem logged_of_applied (inv : TxInv cfg coro tx) (log : LogLocal cfg coro tx) {loc : Loc}
    (applied : applyCount tx loc ≠ 0) : Logged cfg coro tx := by
  have stage := log.stage
  rcases applied_stage inv applied with ⟨vec, rest, at_⟩ | ⟨at_, committed, nonempty⟩
  · rw [at_] at stage
    exact stage
  · rw [at_] at stage
    exact stage committed nonempty

theorem committed_counts (inv : TxInv cfg coro tx) (at_ : tx.pc = .app)
    (committed : tx.status = .committed) {item : RwsetItem V} (member : item ∈ tx.writeSet)
    {replI : Nat} (bound : replI ≤ cfg.mappings.numBackups) :
    applyCount tx (replicaLoc replI item.loc) = 1 := by
  have stage := inv.stage
  simp only [StageInv, at_, committed] at stage
  exact stage.2 item member replI bound

/-- The update of an item has been executed once at one of its replicas, as the
operation that its write mode requires. -/
structure AppliedOnce (coro : CoroId) (tx : TxState V) (replI : Nat) (item : RwsetItem V) :
    Prop where
  once : applyCount tx (replicaLoc replI item.loc) = 1
  request : ∀ event ∈ tx.handled, applies (replicaLoc replI item.loc) event = true →
    event.1 = updateReq coro replI item

theorem applied_once (inv : TxInv cfg coro tx) {item : RwsetItem V} (member : item ∈ tx.writeSet)
    {replI : Nat} (bound : replI ≤ cfg.mappings.numBackups)
    (count : applyCount tx (replicaLoc replI item.loc) = 1) : AppliedOnce coro tx replI item := by
  refine ⟨count, fun event inHistory applied => ?_⟩
  obtain ⟨other, inSet, otherI, otherBound, same⟩ := inv.appliedFrom event inHistory _ applied
  obtain ⟨req, resp⟩ := event
  simp only at same
  rw [same, applies_update, decide_eq_true_eq] at applied
  obtain ⟨sameRepl, sameLoc⟩ := replica_loc_injective (inv.writeOk other inSet)
    (inv.writeOk item member) otherBound bound applied
  rw [same, sameRepl, inj_on_of_nodup_map inv.writeNodup inSet member sameLoc]

/-- Once a primary has an update, every backup of every item has its own. -/
theorem backups_before_primary (inv : TxInv cfg coro tx) {item : RwsetItem V}
    (member : item ∈ tx.writeSet) (applied : applyCount tx item.loc ≠ 0) {other : RwsetItem V}
    (otherMember : other ∈ tx.writeSet) {replI : Nat} (positive : 1 ≤ replI)
    (bound : replI ≤ cfg.mappings.numBackups) : applyCount tx (replicaLoc replI other.loc) = 1 := by
  rcases applied_stage inv applied with ⟨vec, rest, at_⟩ | ⟨at_, committed, _⟩
  · refine primary_after_backups inv at_ ?_ otherMember positive bound
    have stage := inv.stage
    simp only [StageInv, at_] at stage
    obtain ⟨_, _, _, _, done, split, _, later, _⟩ := stage
    rcases all_vecs_split split with ⟨_, inRest⟩ | ⟨last, _, _⟩
    · have unapplied := later 0 inRest item member
      rw [replica_loc_zero (inv.writeOk item member)] at unapplied
      exact absurd unapplied applied
    · rw [last]
      exact mem_singleton.mpr rfl
  · exact committed_counts inv at_ committed otherMember bound

end Order

/-- The order of the steps of a commit, for every transaction of every run: log
records before updates, backups before primaries, and each update once. -/
theorem commit_order_and_exactly_once {init : State V} (initial : Initial cfg init)
    (machines : cfg.mappings.numMachines ≤ hotsMaxMachines) (reached : Reachable cfg init state)
    (valid : cfg.Valid coro) (number : Nat) (existing : number ≤ state.cur coro) :
    let tx := state.txns coro number
    (∀ loc, applyCount tx loc ≠ 0 → LastLogged state coro number →
      ∀ backI, backI < cfg.mappings.numBackups → ∃ record, tx.logRecord = some record ∧
        LoggedAt cfg coro tx record backI ∧ SlotHolds cfg state coro record backI) ∧
    (∀ item ∈ tx.writeSet, applyCount tx item.loc ≠ 0 →
      ∀ other ∈ tx.writeSet, ∀ replI, 1 ≤ replI → replI ≤ cfg.mappings.numBackups →
        AppliedOnce coro tx replI other) ∧
    (tx.pc = .app → tx.status = .committed → ∀ item ∈ tx.writeSet,
      ∀ replI, replI ≤ cfg.mappings.numBackups → AppliedOnce coro tx replI item) := by
  have history := reachable_history initial machines reached
  have inv := history.txInv coro number existing
  have log := history.log coro number existing
  refine ⟨?_, ?_, ?_⟩
  · intro loc applied last backI bound
    obtain ⟨record, recorded, all⟩ := logged_of_applied inv log applied (by omega)
    exact ⟨record, recorded, all backI bound,
      history.slots coro valid number existing record recorded last backI bound (all backI bound)⟩
  · intro item member applied other otherMember replI positive bound
    exact applied_once inv otherMember bound
      (backups_before_primary inv member applied otherMember positive bound)
  · intro at_ committed item member replI bound
    exact applied_once inv member bound (committed_counts inv at_ committed member bound)

/-- An insertion with one backup, after its commit has returned. -/
theorem commit_order_and_exactly_once_insert :
    ∃ state, runLabels twoMachines (newSwarm 8 1 0 (0 : Nat)) (insertRun ++
        [.handle ⟨0, 1⟩ 0 0, .resume ⟨0, 1⟩, .handle ⟨0, 1⟩ 0 0, .resume ⟨0, 1⟩]) = some state ∧
      (state.txns ⟨0, 1⟩ 1).writeSet.length = 1 ∧
      (∃ record, SlotHolds twoMachines state ⟨0, 1⟩ record 0) ∧
      ∀ item ∈ (state.txns ⟨0, 1⟩ 1).writeSet, AppliedOnce ⟨0, 1⟩ (state.txns ⟨0, 1⟩ 1) 0 item ∧
        AppliedOnce ⟨0, 1⟩ (state.txns ⟨0, 1⟩ 1) 1 item := by
  have observed : (runLabels twoMachines (newSwarm 8 1 0 (0 : Nat)) (insertRun ++
      [.handle ⟨0, 1⟩ 0 0, .resume ⟨0, 1⟩, .handle ⟨0, 1⟩ 0 0, .resume ⟨0, 1⟩])).map (fun state =>
        (state.cur ⟨0, 1⟩, (state.txns ⟨0, 1⟩ 1).pc, (state.txns ⟨0, 1⟩ 1).status,
          (state.txns ⟨0, 1⟩ 1).writeSet.length, applyCount (state.txns ⟨0, 1⟩ 1) (20, 5))) =
      some (1, .app, .committed, 1, 1) := by
    decide +kernel
  obtain ⟨state, ran, same⟩ := Option.map_eq_some_iff.mp observed
  simp only [Prod.mk.injEq] at same
  obtain ⟨cur, at_, committed, size, applied⟩ := same
  have initial := new_swarm_initial twoMachines 8 1 0 (0 : Nat) (by decide)
  have reached := run_labels_reachable _ .refl ran
  obtain ⟨logged, _, all⟩ := commit_order_and_exactly_once initial (by decide) reached
    (show twoMachines.Valid ⟨0, 1⟩ by decide) 1 (by omega)
  have last : LastLogged state ⟨0, 1⟩ 1 := by
    intro later after upper
    omega
  obtain ⟨record, _, _, holds_⟩ := logged (20, 5) (by omega) last 0 (by decide)
  exact ⟨state, ran, size, ⟨record, holds_⟩, fun item member =>
    ⟨all at_ committed item member 0 (by decide), all at_ committed item member 1 (by decide)⟩⟩

end Fasst.TxCommitOrder

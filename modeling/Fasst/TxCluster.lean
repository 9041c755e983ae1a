import Fasst.TxModel

/-!
# The swarm

All coroutines, the tables and the loggers of all machines. A label names one
step: a call that a coroutine's application makes, the atomic execution of one
outstanding request by its handler, or the continuation of a coroutine whose
batch is complete. No message is lost; any order of the steps is a run.

`txns coro n` is the n-th transaction of a coroutine and `cur coro` the number
of the current one; the finished ones are kept as history.
-/

namespace Fasst.TxCluster

open Fasst.FixedTableModel Fasst.Placement Fasst.Bytes Fasst.TxModel

set_option autoImplicit false

structure State (V : Type) where
  tables : Nat → Nat → FixedTable V
  loggers : Nat → Nat → Nat → Buffer
  cur : CoroId → Nat
  txns : CoroId → Nat → TxState V

section

variable {V : Type}

def assertion {α : Type} : Except Fault α → Except Crash α
  | .ok value => .ok value
  | .error fault => .error (.assertion fault)

/-- `stale` is what the response buffer held: the header of a response is sent
also when the table did not write it. -/
def dsFixedtableRpcHandler (table : FixedTable V) (req : DsReq V) (stale : UInt64) :
    Except Crash (Resp V × FixedTable V) := do
  match req.reqType with
  | .getRdonly =>
      let out ← assertion (FixedTableModel.get table req.callerId req.keyhash req.key)
      match out.result with
      | .kSuccess =>
          .ok (⟨.getRdonlySuccess, sizeofHdr + table.valSize, some (out.outTimestamp.getD stale),
            out.outValue⟩, table)
      | .kLocked => .ok (⟨.getRdonlyLocked, 0, none, none⟩, table)
      | _ => .ok (⟨.getRdonlyNotFound, sizeofHdr, some (out.outTimestamp.getD stale), none⟩, table)
  | .getForUpd =>
      let (out, after) ← assertion (lockBktAndGet table req.callerId req.keyhash req.key)
      match out.result with
      | .kSuccess =>
          .ok (⟨.getForUpdSuccess, sizeofHdr + table.valSize, some (out.outTimestamp.getD stale),
            out.outValue⟩, after)
      | .kLocked => .ok (⟨.getForUpdLocked, 0, none, none⟩, after)
      | _ => .ok (⟨.getForUpdNotFound, 0, none, none⟩, after)
  | .lockForIns =>
      let (out, after) ← assertion (lockBktForIns table req.callerId req.keyhash req.key)
      match out.result with
      | .kSuccess =>
          .ok (⟨.lockForInsSuccess, sizeofHdr, some (out.outTimestamp.getD stale), none⟩, after)
      | .kExists => .ok (⟨.lockForInsExists, 0, none, none⟩, after)
      | _ => .ok (⟨.lockForInsLocked, 0, none, none⟩, after)
  | .unlock =>
      let (result, after) ← assertion (unlockBucketHash table req.callerId req.keyhash)
      if result = .kSuccess then .ok (⟨.unlockSuccess, 0, none, none⟩, after) else .error .exit
  | .del =>
      let (result, after) ← assertion (del table req.callerId req.keyhash req.key)
      if result = .kSuccess then .ok (⟨.delSuccess, 0, none, none⟩, after) else .error .exit
  | .put val =>
      let (result, after) ← assertion
        (FixedTableModel.set table req.callerId req.keyhash req.key val)
      if result = .kSuccess then .ok (⟨.putSuccess, 0, none, none⟩, after) else .error .exit

/-- The `record_idx` of `save_log_record`, from the identifiers in the record. -/
def recordSlot (cfg : Config) (record : List UInt8) : Nat :=
  let word := leValue (record.take 4)
  let mchnId := word % 2 ^ hotsMchnIdBits
  let coroId := word / 2 ^ hotsMchnIdBits % 2 ^ hotsCoroIdBits
  mchnId * cfg.numCoro + coroId

/-- `save_log_record`. A message holds at most as many bytes as the `buf` of a
slot, so that the slots are buffers of their own here. -/
def saveLogRecord (cfg : Config) (log : Nat → Buffer) (record : List UInt8) : Nat → Buffer :=
  Function.update log (recordSlot cfg record) (writeBytes (log (recordSlot cfg record)) 0 record)

def recordIdx (cfg : Config) (coro : CoroId) : Nat :=
  cfg.mappings.machineId coro.wrkrGid * cfg.numCoro + coro.coroId

namespace State

def tx (state : State V) (coro : CoroId) : TxState V := state.txns coro (state.cur coro)

def setTx (state : State V) (coro : CoroId) (tx : TxState V) : State V :=
  { state with
    txns := Function.update state.txns coro
      (Function.update (state.txns coro) (state.cur coro) tx) }

def localLogRecord (cfg : Config) (state : State V) (coro : CoroId) : Buffer :=
  state.loggers (cfg.mappings.machineId coro.wrkrGid) (cfg.mappings.wrkrLid coro.wrkrGid)
    (recordIdx cfg coro)

def oldWord (cfg : Config) (state : State V) (coro : CoroId) : Nat :=
  leValue (readBytes (state.localLogRecord cfg coro) 0 4)

def setTable (state : State V) (machine reqtype : Nat) (table : FixedTable V) : State V :=
  { state with
    tables := Function.update state.tables machine
      (Function.update (state.tables machine) reqtype table) }

def setLogger (state : State V) (machine wrkrLid : Nat) (log : Nat → Buffer) : State V :=
  { state with
    loggers := Function.update state.loggers machine
      (Function.update (state.loggers machine) wrkrLid log) }

/-- A transaction that has begun to log has built its record in the local one. -/
def stage (cfg : Config) (state : State V) (coro : CoroId) (tx : TxState V) : State V :=
  match tx.pc, tx.logRecord with
  | .log, some record =>
      let machine := cfg.mappings.machineId coro.wrkrGid
      let wrkrLid := cfg.mappings.wrkrLid coro.wrkrGid
      state.setLogger machine wrkrLid (Function.update (state.loggers machine wrkrLid)
        (recordIdx cfg coro) (writeBytes (state.localLogRecord cfg coro) 0 record))
  | _, _ => state

end State

inductive Label (V : Type) where
  | start (coro : CoroId)
  | addToReadSet (coro : CoroId) (rpcReqtype : Nat) (key objAddr : UInt64) (obj : HotsObj V)
  | addToWriteSet (coro : CoroId) (rpcReqtype : Nat) (key objAddr : UInt64) (obj : HotsObj V)
      (writeMode : TxWriteMode)
  | writeObj (coro : CoroId) (index valSize : Nat) (val : V)
  | doRead (coro : CoroId)
  | commit (coro : CoroId)
  | commitSingleRead (coro : CoroId)
  | abort (coro : CoroId)
  | abortRdonly (coro : CoroId)
  | handle (coro : CoroId) (index : Nat) (stale : UInt64)
  | resume (coro : CoroId)

def Label.coro : Label V → CoroId
  | .start coro | .addToReadSet coro _ _ _ _ | .addToWriteSet coro _ _ _ _ _
  | .writeObj coro _ _ _ | .doRead coro | .commit coro | .commitSingleRead coro | .abort coro
  | .abortRdonly coro | .handle coro _ _ | .resume coro => coro

/-- A new item: its request type is that of a primary datastore, its key is one
the table can hold and not yet in the transaction, and the transaction stays
within one batch. -/
def AddOk (tx : TxState V) (rpcReqtype : Nat) (key : UInt64) : Prop :=
  tx.pc = .app ∧ tx.status = .inProgress ∧ rpcReqtype % rpcPrimaryDsReqSpacing = 0 ∧
    rpcMicaReqBase ≤ rpcReqtype ∧ rpcReqtype < 2 ^ 8 ∧ key ≠ kFtInvalidKey ∧
    (rpcReqtype, key) ∉ (tx.readSet ++ tx.writeSet).map RwsetItem.loc ∧
    tx.readSet.length + tx.writeSet.length < rpcMaxMsgCoro

instance (tx : TxState V) (rpcReqtype : Nat) (key : UInt64) : Decidable (AddOk tx rpcReqtype key) :=
  inferInstanceAs (Decidable (_ ∧ _))

/-- Every item has been through `do_read`. -/
def AllRead (tx : TxState V) : Prop :=
  tx.rsIndex = tx.readSet.length ∧ tx.wsIndex = tx.writeSet.length

instance (tx : TxState V) : Decidable (AllRead tx) := inferInstanceAs (Decidable (_ ∧ _))

/-- The next local state after a call of the application, if the call may be made. -/
def callTx (cfg : Config) (oldWord : Nat) (tx : TxState V) : Label V → Option (TxState V)
  | .addToReadSet _ rpcReqtype key objAddr obj =>
      if AddOk tx rpcReqtype key then
        some { tx with readSet := tx.readSet ++ [newItem cfg rpcReqtype key objAddr obj .ignore] }
      else none
  | .addToWriteSet _ rpcReqtype key objAddr obj writeMode =>
      if AddOk tx rpcReqtype key ∧ writeMode ≠ .ignore then
        some { tx with
          writeSet := tx.writeSet ++ [newItem cfg rpcReqtype key objAddr obj writeMode] }
      else none
  | .writeObj _ index valSize val =>
      if tx.pc = .app ∧ tx.status = .inProgress then
        some { tx with
          writeSet := tx.writeSet.modify index fun item =>
            { item with obj := { item.obj with valSize := valSize, val := val } } }
      else none
  | .doRead coro =>
      if tx.pc = .app ∧ tx.status = .inProgress ∧ ¬ AllRead tx then
        some (tx.send .doRead (doReadReqs coro tx))
      else none
  | .commit coro =>
      if tx.pc = .app ∧ tx.status = .inProgress ∧ AllRead tx then
        some (commitCall cfg coro oldWord tx)
      else none
  | .commitSingleRead _ =>
      if tx.pc = .app ∧ tx.status = .inProgress ∧ AllRead tx ∧ tx.readSet.length = 1 ∧
          tx.writeSet = [] then
        some { tx with status := .committed }
      else none
  | .abort coro =>
      if tx.pc = .app ∧ (tx.status = .inProgress ∨ tx.status = .mustAbort) ∧ AllRead tx then
        some (abortStart coro tx)
      else none
  | .abortRdonly _ =>
      if tx.pc = .app ∧ (tx.status = .inProgress ∨ tx.status = .mustAbort) ∧ tx.writeSet = [] then
        some { tx with status := .aborted }
      else none
  | _ => none

def startStep (state : State V) (coro : CoroId) : Option (State V) :=
  let tx := state.tx coro
  if tx.pc = .app ∧ (tx.status = .committed ∨ tx.status = .aborted) then
    let next := state.cur coro + 1
    some { state with
      cur := Function.update state.cur coro next
      txns := Function.update state.txns coro (Function.update (state.txns coro) next .start) }
  else none

def callStep (cfg : Config) (state : State V) (label : Label V) : Option (State V) := do
  let tx ← callTx cfg (state.oldWord cfg label.coro) (state.tx label.coro) label
  some ((state.stage cfg label.coro tx).setTx label.coro tx)

/-- A handler executes the request at `index` of the batch of a coroutine. -/
def handleStep (cfg : Config) (state : State V) (coro : CoroId) (index : Nat) (stale : UInt64) :
    Option (Except Crash (State V)) := do
  let tx := state.tx coro
  let slot ← tx.batch[index]?
  if slot.resp.isSome then none
  else match slot.req with
    | .ds req =>
        match dsFixedtableRpcHandler (state.tables req.machine req.rpcReqtype) req stale with
        | .error crash => some (.error crash)
        | .ok (resp, table) =>
            some (.ok ((state.setTable req.machine req.rpcReqtype table).setTx coro
              (tx.respond index slot.req resp)))
    | .log machine wrkrLid record =>
        some (.ok ((state.setLogger machine wrkrLid
            (saveLogRecord cfg (state.loggers machine wrkrLid) record)).setTx coro
              (tx.respond index slot.req ⟨.loggerSuccess, 0, none, none⟩)))

def resumeStep (cfg : Config) (state : State V) (coro : CoroId) :
    Option (Except Crash (State V)) :=
  let tx := state.tx coro
  let responses := tx.batch.filterMap ReqSlot.resp
  if tx.pc ≠ .app ∧ responses.length = tx.batch.length then
    match resumeTx cfg coro (state.oldWord cfg coro) tx responses with
    | .error crash => some (.error crash)
    | .ok next => some (.ok ((state.stage cfg coro next).setTx coro next))
  else none

/-- `none`: the step cannot be taken; an error: it ends the process it runs in. -/
def step (cfg : Config) (state : State V) (label : Label V) : Option (Except Crash (State V)) :=
  if cfg.Valid label.coro then
    match label with
    | .start coro => (startStep state coro).map Except.ok
    | .handle coro index stale => handleStep cfg state coro index stale
    | .resume coro => resumeStep cfg state coro
    | _ => (callStep cfg state label).map Except.ok
  else none

end

end Fasst.TxCluster

import Fasst.LockserverGrants
import Fasst.TxSteps

/-!
# Transactions with the lock server

`do_read`, `commit` and `abort` as they are compiled with the lock server. The
last machine runs the lock server and holds no data, so the data machines form a
swarm of their own, with one machine less.

The threads of the lock server run at the same time, so a request is handled in
steps of one `lock` or `unlock` call. `call` is the request that a coroutine
waits for; `refused` is set when `do_read` gives the transaction the status
`must_abort` because the lock server refused it. The ledger lists the grants.
-/

namespace Fasst.TxLockserver

open Fasst.FixedTableModel Fasst.Placement Fasst.TxModel Fasst.TxCluster Fasst.LockserverModel
open Fasst.LockserverGrants

set_option autoImplicit false

structure LsConfig where
  mappings : Mappings
  lockServerOn : mappings.useLockServer = true
  dataReplicas : 1 + mappings.numBackups ≤ mappings.numMachines - 1
  numCoro : Nat
  numCoroBound : numCoro ≤ rpcMaxCoro
  hash : UInt64 → UInt64
  lockBits : Nat

def dataMappings (cfg : LsConfig) : Mappings where
  numMachines := cfg.mappings.numMachines - 1
  workersPerMachine := cfg.mappings.workersPerMachine
  numBackups := cfg.mappings.numBackups
  useLockServer := false
  workersBound := Nat.le_trans (Nat.mul_le_mul_right _ (Nat.sub_le _ _)) cfg.mappings.workersBound
  threadsBound := cfg.mappings.threadsBound
  backupsBound := cfg.mappings.backupsBound
  replicasBound := cfg.dataReplicas

def LsConfig.data (cfg : LsConfig) : Config where
  mappings := dataMappings cfg
  lockServerOff := rfl
  numCoro := cfg.numCoro
  numCoroBound := cfg.numCoroBound
  hash := cfg.hash

section Service

/-- How far the handler has come: which keys it has locked, the last one first,
and which it has still to lock; or which it has still to unlock before it sends
its answer. -/
inductive Service where
  | locking (granted todo : List LockKey)
  | releasing (todo : List LockKey) (answer : LocksrvResptype)

def Service.request (reqtype : LocksrvReqtype) (keys : List LockKey) : Service :=
  match reqtype with
  | .lock => .locking [] keys
  | .unlock => .releasing keys.reverse .success

/-- The next `lock` or `unlock` call of the handler, if it is not done. -/
def serveOnce (debug : Bool) (requesterId : Nat) (ledger : Ledger) :
    Service → Option (Except LsFault (Ledger × Service))
  | .locking granted (key :: todo) => some do
      let (ret, server) ← ledger.server.lock debug requesterId key
      if ret then .ok (⟨server, ⟨requesterId, key⟩ :: ledger.grants⟩, .locking (key :: granted) todo)
      else .ok (⟨server, ledger.grants⟩, .releasing granted .fail)
  | .releasing (key :: todo) answer => some do
      let server ← ledger.server.unlock debug requesterId key
      .ok (⟨server, ledger.grants.erase ⟨requesterId, key⟩⟩, .releasing todo answer)
  | _ => none

def Service.answer : Service → Option LocksrvResptype
  | .locking _ [] => some .success
  | .releasing [] answer => some answer
  | _ => none

end Service

structure LsLocal where
  lockserverLocked : Bool
  refused : Bool
  call : Option Service

structure LsState (V : Type) where
  cluster : State V
  ledger : Ledger
  locals : CoroId → LsLocal

inductive LsCrash where
  | table (crash : Crash)
  | lockserver (fault : LsFault)
  deriving DecidableEq, Repr

/-- A call before `do_read` that no other machine hears of, a call of `do_read`,
`commit` or `abort`, one call of the lock server, the return of its response,
the execution of a datastore or log request, or the continuation after it. -/
inductive LsLabel (V : Type) where
  | start (coro : CoroId)
  | addToReadSet (coro : CoroId) (rpcReqtype : Nat) (key objAddr : UInt64) (obj : HotsObj V)
  | addToWriteSet (coro : CoroId) (rpcReqtype : Nat) (key objAddr : UInt64) (obj : HotsObj V)
      (writeMode : TxWriteMode)
  | writeObj (coro : CoroId) (index valSize : Nat) (val : V)
  | doRead (coro : CoroId)
  | commit (coro : CoroId)
  | abort (coro : CoroId)
  | serve (coro : CoroId)
  | answered (coro : CoroId)
  | handle (coro : CoroId) (index : Nat) (stale : UInt64)
  | resume (coro : CoroId)

section

variable {V : Type}

def LsLabel.coro : LsLabel V → CoroId
  | .start coro | .addToReadSet coro _ _ _ _ | .addToWriteSet coro _ _ _ _ _
  | .writeObj coro _ _ _ | .doRead coro | .commit coro | .abort coro | .serve coro
  | .answered coro | .handle coro _ _ | .resume coro => coro

/-- The keys of a request: the write set first. -/
def lockserverKeys (tx : TxState V) : List LockKey :=
  (tx.writeSet.map fun item => ⟨true, item.keyhash.toNat % 2 ^ locksrvHashfragBits⟩) ++
    tx.readSet.map fun item => ⟨false, item.keyhash.toNat % 2 ^ locksrvHashfragBits⟩

namespace LsState

abbrev tx (state : LsState V) (coro : CoroId) : TxState V := state.cluster.tx coro

def setLocal (state : LsState V) (coro : CoroId) (own : LsLocal) : LsState V :=
  { state with locals := Function.update state.locals coro own }

/-- `send_lockserver_req` up to its yield. -/
def sendLockserverReq (state : LsState V) (coro : CoroId) (reqtype : LocksrvReqtype) : LsState V :=
  state.setLocal coro
    { state.locals coro with call := some (.request reqtype (lockserverKeys (state.tx coro))) }

/-- The transaction is committed as soon as nothing is left to send; then only
the lock server has to be told. -/
def releaseIfCommitted (state : LsState V) (coro : CoroId) : LsState V :=
  if (state.tx coro).status = .committed then state.sendLockserverReq coro .unlock else state

end LsState

/-- The application is not waiting for the lock server and its status is that
of the transaction on the data machines. -/
def Calm (state : LsState V) (coro : CoroId) : Prop :=
  (state.locals coro).call.isNone = true ∧ (state.locals coro).refused = false

instance (state : LsState V) (coro : CoroId) : Decidable (Calm state coro) :=
  inferInstanceAs (Decidable (_ ∧ _))

def dataStep (cfg : LsConfig) (state : LsState V) (label : Label V) :
    Option (Except LsCrash (LsState V)) :=
  match step cfg.data state.cluster label with
  | none => none
  | some (.error crash) => some (.error (.table crash))
  | some (.ok cluster) => some (.ok { state with cluster := cluster })

def startStepLs (cfg : LsConfig) (state : LsState V) (coro : CoroId) :
    Option (Except LsCrash (LsState V)) :=
  (dataStep cfg state (.start coro)).map fun outcome =>
    outcome.map fun next => next.setLocal coro ⟨false, false, none⟩

/-- `do_read` up to the yield in `send_lockserver_req`. -/
def doReadStep (state : LsState V) (coro : CoroId) : Option (LsState V) :=
  let tx := state.tx coro
  if Calm state coro ∧ tx.pc = .app ∧ tx.status = .inProgress ∧ ¬ AllRead tx then
    some (state.sendLockserverReq coro .lock)
  else none

/-- `commit`; there is no validation. -/
def commitStep (cfg : LsConfig) (state : LsState V) (coro : CoroId) : Option (LsState V) :=
  let tx := state.tx coro
  if Calm state coro ∧ tx.pc = .app ∧ tx.status = .inProgress ∧ AllRead tx ∧
      (state.locals coro).lockserverLocked = true then
    let next := commitStart cfg.data coro (state.cluster.oldWord cfg.data coro) tx
    let cluster := (state.cluster.stage cfg.data coro next).setTx coro next
    some (LsState.releaseIfCommitted { state with cluster := cluster } coro)
  else none

/-- `abort`; the items that are locked in the tables are not looked at. -/
def abortStep (state : LsState V) (coro : CoroId) : Option (LsState V) :=
  let tx := state.tx coro
  let own := state.locals coro
  if own.call.isNone = true ∧ tx.pc = .app ∧ (own.refused = true ∨
      (tx.status = .inProgress ∨ tx.status = .mustAbort) ∧ AllRead tx) then
    let next : LsState V :=
      { state with cluster := state.cluster.setTx coro { tx with status := .aborted } }
    let next := next.setLocal coro { own with refused := false }
    some (if own.lockserverLocked then next.sendLockserverReq coro .unlock else next)
  else none

def serveStep (debug : Bool) (state : LsState V) (coro : CoroId) :
    Option (Except LsCrash (LsState V)) := do
  let service ← (state.locals coro).call
  let outcome ← serveOnce debug (callerId coro) state.ledger service
  match outcome with
  | .error fault => some (.error (.lockserver fault))
  | .ok (ledger, service) =>
      some (.ok (LsState.setLocal { state with ledger := ledger } coro
        { state.locals coro with call := some service }))

/-- The rest of `do_read`, `commit` or `abort` when the lock server has answered. -/
def answeredStep (state : LsState V) (coro : CoroId) : Option (LsState V) :=
  let own := state.locals coro
  let tx := state.tx coro
  match own.call with
  | some (.locking _ []) =>
      let state : LsState V :=
        { state with cluster := state.cluster.setTx coro (tx.send .doRead (doReadReqs coro tx)) }
      some (state.setLocal coro { own with lockserverLocked := true, call := none })
  | some (.releasing [] .fail) => some (state.setLocal coro { own with refused := true, call := none })
  | some (.releasing [] .success) => some (state.setLocal coro { own with call := none })
  | _ => none

def lsStep (cfg : LsConfig) (debug : Bool) (state : LsState V) (label : LsLabel V) :
    Option (Except LsCrash (LsState V)) :=
  if cfg.data.Valid label.coro then
    match label with
    | .start coro => if Calm state coro then startStepLs cfg state coro else none
    | .addToReadSet coro rpcReqtype key objAddr obj =>
        if Calm state coro then dataStep cfg state (.addToReadSet coro rpcReqtype key objAddr obj)
        else none
    | .addToWriteSet coro rpcReqtype key objAddr obj writeMode =>
        if Calm state coro then
          dataStep cfg state (.addToWriteSet coro rpcReqtype key objAddr obj writeMode)
        else none
    | .writeObj coro index valSize val =>
        if Calm state coro then dataStep cfg state (.writeObj coro index valSize val) else none
    | .doRead coro => (doReadStep state coro).map Except.ok
    | .commit coro => (commitStep cfg state coro).map Except.ok
    | .abort coro => (abortStep state coro).map Except.ok
    | .serve coro => serveStep debug state coro
    | .answered coro => (answeredStep state coro).map Except.ok
    | .handle coro index stale => dataStep cfg state (.handle coro index stale)
    | .resume coro =>
        (dataStep cfg state (.resume coro)).map fun outcome =>
          outcome.map fun next => next.releaseIfCommitted coro
  else none

end

end Fasst.TxLockserver

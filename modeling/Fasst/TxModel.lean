import Fasst.FixedTableModel
import Fasst.Placement
import Fasst.Bytes

/-!
# One transaction coroutine

The functions of `Tx` as transitions of a local state. A call that yields sends
one batch of requests; `Pc` says which call is waiting for it, and the rest of
the call runs when every request of the batch has its response. The lock server
is off. Debug assertions are compiled out; they state what callers promise and
reappear as the conditions under which a call may be made.

An object buffer belongs to one item. The history fields are `seen`, what
`do_read` gave the application for an item, and `handled`, the requests of the
transaction that have been executed, with their responses.
-/

namespace Fasst.TxModel

open Fasst.FixedTableModel Fasst.Placement Fasst.Bytes

set_option autoImplicit false

def rpcMaxMsgCoro : Nat := 16
def rpcMaxCoro : Nat := 32
def hotsCoroIdBits : Nat := 5
def hotsMchnIdBits : Nat := 7
def rpcPrimaryDsReqSpacing : Nat := 10
def rpcMicaReqBase : Nat := 20
def hotsMaxValue : Nat := 40
def sizeofHdr : Nat := 8
def sizeofGenericGetReq : Nat := 24
def sizeofGenericPutReq : Nat := sizeofGenericGetReq + hotsMaxValue
def dsPutReqSize (valSize : Nat) : Nat := sizeofGenericPutReq - hotsMaxValue + valSize
def dsHashmask : UInt64 := 0xffffffffffff

/-- The swarm: the mappings with the lock server off, the number of coroutines
of a worker, and the hash function of the data stores. -/
structure Config where
  mappings : Mappings
  lockServerOff : mappings.useLockServer = false
  numCoro : Nat
  numCoroBound : numCoro ≤ rpcMaxCoro
  hash : UInt64 → UInt64

theorem three_coros_fit : 3 ≤ rpcMaxCoro := by decide

def dsKeyhash (cfg : Config) (key : UInt64) : UInt64 := cfg.hash key &&& dsHashmask

inductive TxWriteMode where
  | ignore
  | update
  | insert
  | del
  deriving DecidableEq, Repr

inductive TxStatus where
  | inProgress
  | mustAbort
  | committed
  | aborted
  deriving DecidableEq, Repr

structure CoroId where
  wrkrGid : Nat
  coroId : Nat
  deriving DecidableEq, Repr

def Config.Valid (cfg : Config) (coro : CoroId) : Prop :=
  coro.wrkrGid < cfg.mappings.numMachines * cfg.mappings.workersPerMachine ∧
    1 ≤ coro.coroId ∧ coro.coroId < cfg.numCoro

instance (cfg : Config) (coro : CoroId) : Decidable (cfg.Valid coro) :=
  inferInstanceAs (Decidable (_ ∧ _))

/-- `hots_glbl_crid_t` as an integer. -/
def callerId (coro : CoroId) : Nat :=
  coro.coroId % 2 ^ hotsCoroIdBits +
    2 ^ hotsCoroIdBits * (coro.wrkrGid % 2 ^ (32 - hotsCoroIdBits))

structure HotsObj (V : Type) where
  valSize : Nat
  hdr : UInt64
  val : V

structure RwsetItem (V : Type) where
  rpcReqtype : Nat
  key : UInt64
  objAddr : UInt64
  obj : HotsObj V
  writeMode : TxWriteMode
  keyhash : UInt64
  primaryMn : Nat
  backupMn : List Nat
  execRsExists : Bool
  execRsVersion : Nat
  execWsLocked : Bool
  seen : Option V

/-- Only `put` travels as a generic PUT request, which has room for a value. -/
inductive DsReqtype (V : Type) where
  | getRdonly
  | getForUpd
  | lockForIns
  | del
  | unlock
  | put (val : V)

inductive RespType where
  | getRdonlySuccess
  | getRdonlyNotFound
  | getRdonlyLocked
  | getForUpdSuccess
  | getForUpdNotFound
  | getForUpdLocked
  | lockForInsSuccess
  | lockForInsExists
  | lockForInsLocked
  | unlockSuccess
  | putSuccess
  | delSuccess
  | loggerSuccess
  deriving DecidableEq, Repr

structure DsReq (V : Type) where
  machine : Nat
  rpcReqtype : Nat
  callerId : Nat
  reqType : DsReqtype V
  key : UInt64
  keyhash : UInt64

/-- A datastore request, or a log record for the Logger of the worker with the
same local id on another machine. -/
inductive Request (V : Type) where
  | ds (req : DsReq V)
  | log (machine wrkrLid : Nat) (record : List UInt8)

/-- `hdr` and `val` are the bytes of the response, if it is that long. -/
structure Resp (V : Type) where
  respType : RespType
  respLen : Nat
  hdr : Option UInt64
  val : Option V

structure ReqSlot (V : Type) where
  req : Request V
  resp : Option (Resp V)

/-- The call that waits for the batch. `update` has the replica numbers of the
batch that was sent and those of the batches to come. -/
inductive Pc where
  | app
  | doRead
  | validate
  | abort
  | log
  | update (current : List Nat) (rest : List (List Nat))
  deriving DecidableEq, Repr

structure TxState (V : Type) where
  status : TxStatus
  readSet : List (RwsetItem V)
  writeSet : List (RwsetItem V)
  rsIndex : Nat
  wsIndex : Nat
  pc : Pc
  batch : List (ReqSlot V)
  handled : List (Request V × Resp V)
  logRecord : Option (List UInt8)

/-- Why a process ends: a failed assertion of the table code, or `exit(-1)`. -/
inductive Crash where
  | assertion (fault : Fault)
  | exit
  deriving DecidableEq, Repr

section

variable {V : Type}

/-- The state the constructor leaves. -/
def TxState.construct : TxState V where
  status := .aborted
  readSet := []
  writeSet := []
  rsIndex := 0
  wsIndex := 0
  pc := .app
  batch := []
  handled := []
  logRecord := none

def TxState.start : TxState V := { TxState.construct with status := .inProgress }

/-- An item as `add_to_read_set` and `add_to_write_set` build it; fields that
the constructor leaves uninitialized are zero here. -/
def newItem (cfg : Config) (rpcReqtype : Nat) (key objAddr : UInt64) (obj : HotsObj V)
    (writeMode : TxWriteMode) : RwsetItem V where
  rpcReqtype := rpcReqtype
  key := key
  objAddr := objAddr
  obj := obj
  writeMode := writeMode
  keyhash := dsKeyhash cfg key
  primaryMn := cfg.mappings.getPrimaryMn (dsKeyhash cfg key)
  backupMn := (List.range cfg.mappings.numBackups).map fun backI =>
    cfg.mappings.getBackupMnFromPrimary (cfg.mappings.getPrimaryMn (dsKeyhash cfg key)) backI
  execRsExists := false
  execRsVersion := 0
  execWsLocked := false
  seen := none

def RwsetItem.loc (item : RwsetItem V) : Nat × UInt64 := (item.rpcReqtype, item.key)

/-- A request to the primary of an item that carries no value. -/
def genericGetReq (coro : CoroId) (reqType : DsReqtype V) (item : RwsetItem V) : Request V :=
  .ds
    { machine := item.primaryMn, rpcReqtype := item.rpcReqtype, callerId := callerId coro
      reqType := reqType, key := item.key, keyhash := item.keyhash }

def readReq (coro : CoroId) (item : RwsetItem V) : Request V :=
  genericGetReq coro .getRdonly item

/-- In the execute phase updates and deletes are handled alike. -/
def lockReq (coro : CoroId) (item : RwsetItem V) : Request V :=
  genericGetReq coro (if item.writeMode = .insert then .lockForIns else .getForUpd) item

def unlockReq (coro : CoroId) (item : RwsetItem V) : Request V :=
  genericGetReq coro .unlock item

/-- The request type is computed in 16 bits and passed in 8. -/
def replicaReqtype (rpcReqtype replI : Nat) : Nat := (rpcReqtype + replI) % 2 ^ 8

def replicaMn (item : RwsetItem V) (replI : Nat) : Nat :=
  if replI = 0 then item.primaryMn else item.backupMn.getD (replI - 1) 0

def updateReq (coro : CoroId) (replI : Nat) (item : RwsetItem V) : Request V :=
  .ds
    { machine := replicaMn item replI
      rpcReqtype := replicaReqtype item.rpcReqtype replI
      callerId := callerId coro
      reqType := if item.writeMode = .del then .del else .put item.obj.val
      key := item.key
      keyhash := item.keyhash }

def TxState.send (tx : TxState V) (pc : Pc) (reqs : List (Request V)) : TxState V :=
  { tx with pc := pc, batch := reqs.map fun req => ⟨req, none⟩ }

def doReadReqs (coro : CoroId) (tx : TxState V) : List (Request V) :=
  (tx.readSet.drop tx.rsIndex).map (readReq coro) ++
    (tx.writeSet.drop tx.wsIndex).map (lockReq coro)

/-- The response is copied to the object from its header on. -/
def RwsetItem.deliver (item : RwsetItem V) (resp : Resp V) : RwsetItem V :=
  { item with
    obj := { item.obj with
      hdr := resp.hdr.getD item.obj.hdr
      val := resp.val.getD item.obj.val } }

/-- The read-set loop of `do_read`; the flag is false when the transaction must
abort. A response of any other type is only reported. -/
def readResponse (item : RwsetItem V) (resp : Resp V) : RwsetItem V × Bool :=
  let item := item.deliver resp
  match resp.respType with
  | .getRdonlySuccess =>
      ({ item with
        obj := { item.obj with valSize := resp.respLen - sizeofHdr }
        execRsExists := true
        execRsVersion := versionOf item.obj.hdr
        seen := some item.obj.val }, true)
  | .getRdonlyNotFound =>
      ({ item with
        obj := { item.obj with valSize := 0 }
        execRsExists := false
        execRsVersion := versionOf item.obj.hdr
        seen := none }, true)
  | .getRdonlyLocked => (item, false)
  | _ => (item, true)

/-- The write-set loop of `do_read`. -/
def writeResponse (item : RwsetItem V) (resp : Resp V) : Except Crash (RwsetItem V × Bool) :=
  let item := item.deliver resp
  if item.writeMode ≠ .insert then
    match resp.respType with
    | .getForUpdSuccess =>
        .ok ({ item with
          obj := { item.obj with valSize := resp.respLen - sizeofHdr }
          execWsLocked := true
          seen := some item.obj.val }, true)
    | .getForUpdNotFound | .getForUpdLocked => .ok ({ item with execWsLocked := false }, false)
    | _ => .error .exit
  else
    match resp.respType with
    | .lockForInsSuccess => .ok ({ item with execWsLocked := true, seen := none }, true)
    | .lockForInsExists | .lockForInsLocked => .ok ({ item with execWsLocked := false }, false)
    | _ => .error .exit

/-- `do_read` from the yield on. -/
def doReadFinish (tx : TxState V) (responses : List (Resp V)) : Except Crash (TxState V) := do
  let newReads := tx.readSet.drop tx.rsIndex
  let reads := List.zipWith readResponse newReads responses
  let writes ← (List.zip (tx.writeSet.drop tx.wsIndex) (responses.drop newReads.length)).mapM
    fun pair => writeResponse pair.1 pair.2
  let readSet := tx.readSet.take tx.rsIndex ++ reads.map Prod.fst
  let writeSet := tx.writeSet.take tx.wsIndex ++ writes.map Prod.fst
  .ok { tx with
    status := if reads.all Prod.snd && writes.all Prod.snd then tx.status else .mustAbort
    readSet := readSet
    writeSet := writeSet
    rsIndex := readSet.length
    wsIndex := writeSet.length
    pc := .app
    batch := [] }

/-- One turn of the loop of `validate`. -/
def validateResponse (item : RwsetItem V) (resp : Resp V) : Bool :=
  let wanted := if item.execRsExists then RespType.getRdonlySuccess else .getRdonlyNotFound
  resp.respType = wanted ∧ versionOf (item.deliver resp).obj.hdr = item.execRsVersion

def abortStart (coro : CoroId) (tx : TxState V) : TxState V :=
  let locked := tx.writeSet.filter fun item => item.execWsLocked
  let tx := { tx with status := .aborted }
  if locked = [] then { tx with pc := .app, batch := [] }
  else tx.send .abort (locked.map (unlockReq coro))

end

def writeModeCode : TxWriteMode → Nat
  | .ignore => 0
  | .update => 1
  | .insert => 2
  | .del => 3

section

variable {V : Type}

/-- The bytes of a `tx_rwset_item_t`; padding and uninitialized fields are zero. -/
def RwsetItem.image (item : RwsetItem V) : List UInt8 :=
  leBytes 8 item.rpcReqtype ++ leBytes 8 item.key.toNat ++ leBytes 8 item.objAddr.toNat ++
    leBytes 8 (writeModeCode item.writeMode) ++ leBytes 8 item.keyhash.toNat ++
    leBytes 4 item.primaryMn ++ leBytes 4 (item.backupMn.getD 0 0) ++
    leBytes 4 (item.backupMn.getD 1 0) ++ leBytes 4 item.execRsExists.toNat ++
    leBytes 8 item.execRsVersion ++ leBytes 8 item.execWsLocked.toNat

def sizeofItem : Nat := 72
def offsetofObj : Nat := 16

def hotsObjSize (valSize : Nat) : Nat := 16 + valSize

/-- The entry of one write-set item: its key, and then a copy that starts at the
address of the member `obj` of the item. -/
def logEntry (writeSet : List (RwsetItem V)) (index : Nat) (item : RwsetItem V) : List UInt8 :=
  leBytes 8 item.key.toNat ++
    ((writeSet.flatMap RwsetItem.image).drop (sizeofItem * index + offsetofObj)).take
      (hotsObjSize item.obj.valSize)

/-- The record of `log`. Of the first word only the two identifiers are
assigned; `oldWord` is what the coroutine's local record held there. -/
def logRecordBytes (cfg : Config) (coro : CoroId) (oldWord : Nat)
    (writeSet : List (RwsetItem V)) : List UInt8 :=
  leBytes 4 (cfg.mappings.machineId coro.wrkrGid % 2 ^ hotsMchnIdBits +
      2 ^ hotsMchnIdBits * (coro.coroId % 2 ^ hotsCoroIdBits) +
      2 ^ (hotsMchnIdBits + hotsCoroIdBits) * (oldWord / 2 ^ (hotsMchnIdBits + hotsCoroIdBits))) ++
    leBytes 4 writeSet.length ++
    (writeSet.zipIdx.flatMap fun pair => logEntry writeSet pair.2 pair.1)

def logReqs (cfg : Config) (coro : CoroId) (record : List UInt8) : List (Request V) :=
  (List.range cfg.mappings.numBackups).map fun backI =>
    .log (cfg.mappings.getLogMn (cfg.mappings.machineId coro.wrkrGid) backI)
      (cfg.mappings.wrkrLid coro.wrkrGid) record

/-- The replica numbers of the batches to the backups. -/
def backupVecs (cfg : Config) (writes : Nat) : List (List Nat) :=
  let backups := (List.range cfg.mappings.numBackups).map fun index => index + 1
  if cfg.mappings.numBackups = 0 then []
  else if writes * cfg.mappings.numBackups ≤ rpcMaxMsgCoro then [backups]
  else backups.map fun replI => [replI]

def updateReqs (coro : CoroId) (tx : TxState V) (vec : List Nat) : List (Request V) :=
  vec.flatMap fun replI => tx.writeSet.map (updateReq coro replI)

/-- The rest of `commit` when the batches in `vecs` are still to be sent. -/
def updateStart (coro : CoroId) (tx : TxState V) : List (List Nat) → TxState V
  | [] => { tx with status := .committed, pc := .app, batch := [] }
  | vec :: rest => tx.send (.update vec rest) (updateReqs coro tx vec)

/-- `commit` after validation. -/
def commitStart (cfg : Config) (coro : CoroId) (oldWord : Nat) (tx : TxState V) : TxState V :=
  if tx.writeSet = [] then { tx with status := .committed, pc := .app, batch := [] }
  else if 0 < cfg.mappings.numBackups then
    let record := logRecordBytes cfg coro oldWord tx.writeSet
    { tx.send .log (logReqs cfg coro record) with logRecord := some record }
  else updateStart coro tx (backupVecs cfg tx.writeSet.length ++ [[0]])

def validateStart (coro : CoroId) (tx : TxState V) : TxState V :=
  tx.send .validate (tx.readSet.map (readReq coro))

def commitCall (cfg : Config) (coro : CoroId) (oldWord : Nat) (tx : TxState V) : TxState V :=
  if tx.readSet = [] then commitStart cfg coro oldWord tx else validateStart coro tx

/-- The result of `validate` from the responses to its requests. -/
def validate (readSet : List (RwsetItem V)) (responses : List (Resp V)) : Bool :=
  (List.zipWith validateResponse readSet responses).all id

/-- `validate` from the yield on, and the branch of `commit` it selects. The
objects of the read set are overwritten. -/
def validateFinish (cfg : Config) (coro : CoroId) (oldWord : Nat) (tx : TxState V)
    (responses : List (Resp V)) : TxState V :=
  let success := validate tx.readSet responses
  let tx := { tx with readSet := List.zipWith RwsetItem.deliver tx.readSet responses }
  if success then commitStart cfg coro oldWord tx else abortStart coro tx

/-- What runs when the last response of the batch has arrived. -/
def resumeTx (cfg : Config) (coro : CoroId) (oldWord : Nat) (tx : TxState V)
    (responses : List (Resp V)) : Except Crash (TxState V) :=
  match tx.pc with
  | .app => .ok tx
  | .doRead => doReadFinish tx responses
  | .validate => .ok (validateFinish cfg coro oldWord tx responses)
  | .abort => .ok { tx with pc := .app, batch := [] }
  | .log => .ok (updateStart coro tx (backupVecs cfg tx.writeSet.length ++ [[0]]))
  | .update _ rest => .ok (updateStart coro tx rest)

def TxState.respond (tx : TxState V) (index : Nat) (req : Request V) (resp : Resp V) : TxState V :=
  { tx with
    batch := tx.batch.set index ⟨req, some resp⟩
    handled := tx.handled ++ [(req, resp)] }

end

end Fasst.TxModel

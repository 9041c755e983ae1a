import Fasst.TxModel
import Mathlib.Tactic.Ring

/-!
# Constants, arguments and headers of the RPC layer

`rpc_imm` and `rpc_cmsg_reqhdr_t` are bit fields. The immediate is a 32-bit
number whose ten highest bits are never written; the header of a coalesced
request is four bytes of a message, the last two of which share `magic` and
`size`. A message buffer is written through its cursor; `reset` moves only the
cursor.
-/

namespace Fasst.RpcDefs

open Fasst.Placement Fasst.TxModel Fasst.Bytes

set_option autoImplicit false

def rpcCmsgReqHdrMagic : Nat := 11
def rpcUnsigBatch : Nat := 128
def rpcMaxPostlist : Nat := 64
def rpcMaxQps : Nat := 3
def rpcMaxMaxPktSize : Nat := 4032
def rpcMinRecvSlack : Int := 32
def hrdSqDepth : Nat := 256
def hrdRqDepth : Nat := 2048
def hrdMaxInline : Nat := 60
def hotsMaxPorts : Nat := 2
def hotsGrhBytes : Nat := 40
def rpcBaseShmKey : Nat := 1
def rpcMaxShmKey : Nat := 100

def hrdModAdd (value modulus : Nat) : Nat := if value + 1 = modulus then 0 else value + 1

structure RpcArgs where
  wrkrGid : Nat
  wrkrLid : Nat
  numWorkers : Nat
  workersPerMachine : Nat
  numCoro : Nat
  basePortIndex : Nat
  numPorts : Nat
  numQps : Nat
  numaNode : Nat
  postlist : Nat
  maxPktSize : Nat
  deriving DecidableEq, Repr

namespace RpcArgs

variable (args : RpcArgs)

def numMachines : Nat := args.numWorkers / args.workersPerMachine

def machineId : Nat := args.wrkrGid / args.workersPerMachine

/-- The assertions of the constructor of `rpc_args`. -/
def constructed : Bool :=
  decide (args.workersPerMachine < args.numWorkers) &&
    args.numWorkers % args.workersPerMachine == 0

def requiredRecvs : Nat :=
  (args.numCoro - 1) * rpcMaxMsgCoro + args.numMachines * (args.numCoro - 1)

def checkInfo : Bool :=
  decide (args.wrkrGid ≤ args.numWorkers - 1) &&
  decide (args.wrkrLid ≤ hotsMaxServerThreads) &&
  decide (2 ≤ args.numWorkers ∧ args.numWorkers ≤ hotsMaxWorkers) &&
  decide (2 ≤ args.numCoro ∧ args.numCoro ≤ rpcMaxCoro) &&
  decide (args.basePortIndex ≤ 8) &&
  decide (1 ≤ args.numPorts ∧ args.numPorts ≤ hotsMaxPorts) &&
  decide (1 ≤ args.numQps ∧ args.numQps ≤ rpcMaxQps) &&
  decide (args.numaNode ≤ 1) &&
  decide (1 ≤ args.postlist ∧ args.postlist ≤ rpcMaxPostlist) &&
  decide (1 ≤ args.maxPktSize ∧ args.maxPktSize ≤ rpcMaxMaxPktSize) &&
  decide (args.requiredRecvs ≤ hrdRqDepth)

def prPort : Nat := args.basePortIndex + args.wrkrLid % args.numPorts

/-- The assertions of the constructor of `Rpc` after `check_info`. -/
def checkPort : Bool :=
  decide (args.prPort < hotsMaxPorts) && decide (rpcBaseShmKey + args.wrkrLid < rpcMaxShmKey)

/-- The loop that rounds the size of a RECV buffer up to cache lines. -/
def recvStepFrom (target : Nat) : Nat → Nat → Nat
  | 0, step => step
  | fuel + 1, step => if step < target then recvStepFrom target fuel (step + 64) else step

def recvStep : Nat :=
  recvStepFrom (args.maxPktSize + hotsGrhBytes) (args.maxPktSize + hotsGrhBytes) 0

def recvSlack : Int :=
  let slack : Int := (hrdRqDepth : Int) - args.requiredRecvs - 1
  if slack ≥ rpcMinRecvSlack then rpcMinRecvSlack else slack

def initNonZeroMembers : Bool :=
  decide (args.recvStep ≤ rpcMaxMaxPktSize) && decide (args.recvSlack ≥ rpcMinRecvSlack)

end RpcArgs

structure RpcImm where
  isReq : Nat
  numReqs : Nat
  configId : Nat
  mchnId : Nat
  coroId : Nat
  rest : Nat
  deriving DecidableEq, Repr

namespace RpcImm

def intRep (imm : RpcImm) : Nat :=
  imm.isReq % 2 ^ 1 + 2 ^ 1 * (imm.numReqs % 2 ^ 5 + 2 ^ 5 * (imm.configId % 2 ^ 4 +
    2 ^ 4 * (imm.mchnId % 2 ^ hotsMchnIdBits + 2 ^ hotsMchnIdBits *
      (imm.coroId % 2 ^ hotsCoroIdBits + 2 ^ hotsCoroIdBits * (imm.rest % 2 ^ 10)))))

def ofIntRep (value : Nat) : RpcImm where
  isReq := value % 2 ^ 1
  numReqs := value / 2 ^ 1 % 2 ^ 5
  configId := value / 2 ^ 1 / 2 ^ 5 % 2 ^ 4
  mchnId := value / 2 ^ 1 / 2 ^ 5 / 2 ^ 4 % 2 ^ hotsMchnIdBits
  coroId := value / 2 ^ 1 / 2 ^ 5 / 2 ^ 4 / 2 ^ hotsMchnIdBits % 2 ^ hotsCoroIdBits
  rest := value / 2 ^ 1 / 2 ^ 5 / 2 ^ 4 / 2 ^ hotsMchnIdBits / 2 ^ hotsCoroIdBits % 2 ^ 10

def Fits (imm : RpcImm) : Prop :=
  imm.isReq < 2 ∧ imm.numReqs < 32 ∧ imm.configId < 16 ∧ imm.mchnId < 128 ∧ imm.coroId < 32 ∧
    imm.rest < 1024

theorem packed_low (width value high : Nat) :
    (value % 2 ^ width + 2 ^ width * high) % 2 ^ width = value % 2 ^ width := by
  rw [Nat.add_mul_mod_self_left, Nat.mod_mod]

theorem packed_high (width value high : Nat) :
    (value % 2 ^ width + 2 ^ width * high) / 2 ^ width = high := by
  have positive : 0 < 2 ^ width := Nat.two_pow_pos width
  rw [Nat.add_mul_div_left _ _ positive, Nat.div_eq_of_lt (Nat.mod_lt value positive), Nat.zero_add]

theorem of_int_rep_int_rep (imm : RpcImm) (fits : imm.Fits) : ofIntRep imm.intRep = imm := by
  obtain ⟨isReq, numReqs, configId, mchnId, coroId, rest⟩ := imm
  obtain ⟨fits1, fits2, fits3, fits4, fits5, fits6⟩ := fits
  simp only [ofIntRep, intRep, packed_low, packed_high, mk.injEq, Nat.mod_mod]
  exact ⟨Nat.mod_eq_of_lt fits1, Nat.mod_eq_of_lt fits2, Nat.mod_eq_of_lt fits3,
    Nat.mod_eq_of_lt fits4, Nat.mod_eq_of_lt fits5, Nat.mod_eq_of_lt fits6⟩

theorem of_int_rep_fits (value : Nat) : (ofIntRep value).Fits :=
  ⟨Nat.mod_lt _ (by decide), Nat.mod_lt _ (by decide), Nat.mod_lt _ (by decide),
    Nat.mod_lt _ (by decide), Nat.mod_lt _ (by decide), Nat.mod_lt _ (by decide)⟩

end RpcImm

/-- The fields of `rpc_cmsg_reqhdr_t` at an offset of a buffer. -/
structure CmsgReqhdr where
  reqType : Nat
  coroSeqnum : Nat
  magic : Nat
  size : Nat
  deriving DecidableEq, Repr

def sizeofCmsgReqhdr : Nat := 4

namespace CmsgReqhdr

variable (buffer : Buffer) (offset : Nat)

def read : CmsgReqhdr where
  reqType := (buffer offset).toNat
  coroSeqnum := (buffer (offset + 1)).toNat
  magic := (buffer (offset + 2)).toNat % 16
  size := (buffer (offset + 2)).toNat / 16 + 16 * (buffer (offset + 3)).toNat

def setReqType (value : Nat) : Buffer := writeBytes buffer offset [UInt8.ofNat value]

def setCoroSeqnum (value : Nat) : Buffer := writeBytes buffer (offset + 1) [UInt8.ofNat value]

def setMagic (value : Nat) : Buffer :=
  writeBytes buffer (offset + 2)
    [UInt8.ofNat ((buffer (offset + 2)).toNat / 16 * 16 + value % 16)]

def setSize (value : Nat) : Buffer :=
  writeBytes buffer (offset + 2)
    [UInt8.ofNat ((buffer (offset + 2)).toNat % 16 + 16 * (value % 16)),
      UInt8.ofNat (value / 16 % 256)]

end CmsgReqhdr

/-- `hots_mbuf_t`, with its cursor as an offset. -/
structure Mbuf where
  buf : Buffer
  allocLen : Nat
  curOff : Nat

namespace Mbuf

def length (mbuf : Mbuf) : Nat := mbuf.curOff

def reset (mbuf : Mbuf) : Mbuf := { mbuf with curOff := 0 }

def contents (mbuf : Mbuf) : List UInt8 := readBytes mbuf.buf 0 mbuf.length

def allocWithBuf (buf : Buffer) (len : Nat) : Mbuf := ⟨buf, len, 0⟩

end Mbuf

/-- `rpc_cmsg_t`; `none` is `RPC_INVALID_MN`. -/
structure Cmsg where
  remoteMn : Option Nat
  respImm : Nat
  numCentry : Nat
  reqMbuf : Mbuf
  respMbuf : Mbuf

end Fasst.RpcDefs

import Fasst.RpcSend
import Mathlib.Logic.Function.Basic

/-!
# Request and response batches

`rpc_req_batch_t` with the functions that build a batch, `rpc_resp_batch_t`, and
the two loops of `poll_comps` over the requests or responses of one received
message. Arrays are functions of the index. A pointer into a coalesced message is
the index of the message with an offset in its buffer.

A request is a call of `start_new_req`, what the user writes to `req_buf`, and
`freeze`. The user may write more than is frozen; `spill` is the rest. A handler
is any function of the request that is given to it: in one message the requests
have different `coro_seqnum`, so that no choice of responses is excluded. It
writes `written` to the response buffer and returns `respLen`.
-/

namespace Fasst.RpcBatch

open Fasst.Bytes Fasst.RpcDefs Fasst.RpcSend

set_option autoImplicit false

/-- `rpc_req_t`; the response buffer is the user's. -/
structure RpcReq where
  cmsgI : Nat
  hdrOff : Nat
  reqOff : Nat
  respBuf : Buffer
  respLen : Nat
  respType : Nat

structure ReqBatch where
  reqArr : Nat → RpcReq
  numReqs : Nat
  numReqsDone : Nat
  numUniqMn : Nat
  cmsgForMc : Nat → Option Nat
  cmsgArr : Nat → Cmsg

structure RespBatch where
  numCresps : Nat
  cmsgArr : Nat → Cmsg

structure ReqSpec where
  reqType : UInt8
  machine : Nat
  payload : List UInt8
  spill : List UInt8
  respBuf : Buffer

structure Frame where
  type : Nat
  coroSeqnum : Nat
  data : List UInt8
  deriving DecidableEq, Repr

structure HandlerResult where
  respType : UInt8
  written : List UInt8
  respLen : Nat

structure Handled where
  call : Frame
  resp : Frame
  deriving DecidableEq, Repr

def freshCmsg (memory : Buffer) (maxPktSize : Nat) : Cmsg where
  remoteMn := none
  respImm := 0
  numCentry := 0
  reqMbuf := .allocWithBuf memory maxPktSize
  respMbuf := .allocWithBuf memory maxPktSize

/-- A batch as `init_coroutine_metadata` leaves it. -/
def ReqBatch.init (memory : Nat → Buffer) (maxPktSize : Nat) : ReqBatch where
  reqArr := fun _ => ⟨0, 0, 0, memory 0, 0, 0⟩
  numReqs := 0
  numReqsDone := 0
  numUniqMn := 0
  cmsgForMc := fun _ => none
  cmsgArr := fun msgI => freshCmsg (memory msgI) maxPktSize

def RespBatch.init (memory : Nat → Buffer) (maxPktSize : Nat) : RespBatch where
  numCresps := 0
  cmsgArr := fun msgI => freshCmsg (memory msgI) maxPktSize

namespace ReqBatch

variable (batch : ReqBatch)

def setCmsg (cmsgI : Nat) (cmsg : Cmsg) : ReqBatch :=
  { batch with cmsgArr := Function.update batch.cmsgArr cmsgI cmsg }

def setReq (reqI : Nat) (req : RpcReq) : ReqBatch :=
  { batch with reqArr := Function.update batch.reqArr reqI req }

/-- One turn of the loop of `clear`. -/
def clearCmsg (i : Nat) : ReqBatch :=
  let cmsg := batch.cmsgArr i
  { batch with
    cmsgForMc :=
      match cmsg.remoteMn with
      | some mn => Function.update batch.cmsgForMc mn none
      | none => batch.cmsgForMc
    cmsgArr := Function.update batch.cmsgArr i
      { cmsg with
        remoteMn := none
        numCentry := 0
        reqMbuf := cmsg.reqMbuf.reset
        respMbuf := cmsg.respMbuf.reset } }

def clear : ReqBatch :=
  let batch := { batch with numReqs := 0, numReqsDone := 0 }
  { (List.range batch.numUniqMn).foldl clearCmsg batch with numUniqMn := 0 }

/-- The coalesced message for a machine, started if there is none yet. -/
def chooseCmsg (respMn : Nat) : Nat × ReqBatch :=
  match batch.cmsgForMc respMn with
  | some cmsgI => (cmsgI, batch)
  | none =>
      (batch.numUniqMn,
        { batch with
          cmsgForMc := Function.update batch.cmsgForMc respMn (some batch.numUniqMn)
          numUniqMn := batch.numUniqMn + 1
          cmsgArr := Function.update batch.cmsgArr batch.numUniqMn
            { batch.cmsgArr batch.numUniqMn with remoteMn := some respMn } })

def startHeader (buf : Buffer) (hdrOff : Nat) (reqType : UInt8) (coroSeqnum : Nat) : Buffer :=
  CmsgReqhdr.setMagic
    (CmsgReqhdr.setCoroSeqnum (CmsgReqhdr.setReqType buf hdrOff reqType.toNat) hdrOff coroSeqnum)
    hdrOff rpcCmsgReqHdrMagic

def startNewReq (reqType : UInt8) (respMn : Nat) (respBuf : Buffer) : Nat × ReqBatch :=
  let reqI := batch.numReqs
  let chosen := { batch with numReqs := batch.numReqs + 1 }.chooseCmsg respMn
  let cmsgI := chosen.1
  let batch := chosen.2
  let cmsg := batch.cmsgArr cmsgI
  let hdrOff := cmsg.reqMbuf.curOff
  let batch := batch.setCmsg cmsgI
    { cmsg with
      numCentry := cmsg.numCentry + 1
      reqMbuf := { cmsg.reqMbuf with
        buf := startHeader cmsg.reqMbuf.buf hdrOff reqType (batch.numReqs - 1)
        curOff := hdrOff + sizeofCmsgReqhdr } }
  (reqI, batch.setReq reqI
    { batch.reqArr reqI with
      cmsgI := cmsgI
      hdrOff := hdrOff
      reqOff := hdrOff + sizeofCmsgReqhdr
      respBuf := respBuf })

/-- The user writes to `req_buf`. -/
def writeReqBuf (reqI : Nat) (bytes : List UInt8) : ReqBatch :=
  let req := batch.reqArr reqI
  let cmsg := batch.cmsgArr req.cmsgI
  batch.setCmsg req.cmsgI
    { cmsg with
      reqMbuf := { cmsg.reqMbuf with buf := writeBytes cmsg.reqMbuf.buf req.reqOff bytes } }

def freeze (reqI reqLen : Nat) : ReqBatch :=
  let req := batch.reqArr reqI
  let cmsg := batch.cmsgArr req.cmsgI
  batch.setCmsg req.cmsgI
    { cmsg with
      reqMbuf := { cmsg.reqMbuf with
        buf := CmsgReqhdr.setSize cmsg.reqMbuf.buf req.hdrOff reqLen
        curOff := cmsg.reqMbuf.curOff + reqLen } }

def buildReq (spec : ReqSpec) : ReqBatch :=
  let started := batch.startNewReq spec.reqType spec.machine spec.respBuf
  (started.2.writeReqBuf started.1 (spec.payload ++ spec.spill)).freeze started.1
    spec.payload.length

def buildBatch (specs : List ReqSpec) : ReqBatch := specs.foldl buildReq batch.clear

def cmsgs : List Cmsg := (List.range batch.numUniqMn).map batch.cmsgArr

end ReqBatch

/-- The requesting side of an endpoint: the batches of its coroutines, which send
through the same queue pairs. -/
structure Requester where
  reqBatchArr : Nat → ReqBatch
  sender : Sender

def sendBatch (args : RpcArgs) (coroId rest : Nat) (specs : List ReqSpec) (requester : Requester) :
    Except SendFault Requester := do
  let batch := (requester.reqBatchArr coroId).buildBatch specs
  let sender ← sendReqs args coroId rest requester.sender batch.cmsgs
  .ok ⟨Function.update requester.reqBatchArr coroId batch, sender⟩

/-- The loop over the responses in a received message; the offset behind the last
one and the batch with the response buffers filled. -/
def responseLoop (wcBuf : Buffer) : Nat → Nat → ReqBatch → Nat × ReqBatch
  | 0, wcOff, batch => (wcOff, batch)
  | count + 1, wcOff, batch =>
      let hdr := CmsgReqhdr.read wcBuf wcOff
      let req := batch.reqArr hdr.coroSeqnum
      let data := readBytes wcBuf (wcOff + sizeofCmsgReqhdr) hdr.size
      responseLoop wcBuf count (wcOff + sizeofCmsgReqhdr + hdr.size)
        (batch.setReq hdr.coroSeqnum
          { req with
            respBuf := writeBytes req.respBuf 0 data
            respLen := hdr.size
            respType := hdr.reqType })

/-- The response buffer after one request: eight bytes from the request header on
are copied, and the handler and its caller rewrite the header in place. -/
def respond (wcBuf : Buffer) (wcOff : Nat) (result : HandlerResult) (mbuf : Mbuf) : Mbuf :=
  let copied := writeBytes mbuf.buf mbuf.curOff (readBytes wcBuf wcOff 8)
  let written := writeBytes copied (mbuf.curOff + sizeofCmsgReqhdr) result.written
  let typed := CmsgReqhdr.setReqType written mbuf.curOff result.respType.toNat
  { mbuf with
    buf := CmsgReqhdr.setSize typed mbuf.curOff result.respLen
    curOff := mbuf.curOff + sizeofCmsgReqhdr + result.respLen }

/-- The loop over the requests in a received message: the calls of handlers with
what they left as responses, the offset behind the last request, and the response
message. -/
def requestLoop (wcBuf : Buffer) (handler : Frame → HandlerResult) :
    Nat → Nat → Mbuf → List Handled × Nat × Mbuf
  | 0, wcOff, mbuf => ([], wcOff, mbuf)
  | count + 1, wcOff, mbuf =>
      let hdr := CmsgReqhdr.read wcBuf wcOff
      let call : Frame := ⟨hdr.reqType, hdr.coroSeqnum,
        readBytes wcBuf (wcOff + sizeofCmsgReqhdr) hdr.size⟩
      let result := handler call
      let after := respond wcBuf wcOff result mbuf
      let resp : Frame := ⟨result.respType.toNat, hdr.coroSeqnum,
        readBytes after.buf (mbuf.curOff + sizeofCmsgReqhdr) result.respLen⟩
      let rest := requestLoop wcBuf handler count (wcOff + sizeofCmsgReqhdr + hdr.size) after
      (⟨call, resp⟩ :: rest.1, rest.2)

namespace RespBatch

variable (batch : RespBatch)

def clear : RespBatch :=
  { (List.range batch.numCresps).foldl
      (fun batch i =>
        { batch with
          cmsgArr := Function.update batch.cmsgArr i
            { batch.cmsgArr i with respMbuf := (batch.cmsgArr i).respMbuf.reset } })
      batch with
    numCresps := 0 }

def respImmOf (machineId reqImm : Nat) : Nat :=
  { RpcImm.ofIntRep reqImm with isReq := 0, mchnId := machineId }.intRep

/-- `start_new_resp`; the message it starts is the one at the old `num_cresps`. -/
def startNewResp (machineId reqMn numReqs reqImm : Nat) : RespBatch where
  numCresps := batch.numCresps + 1
  cmsgArr := Function.update batch.cmsgArr batch.numCresps
    { batch.cmsgArr batch.numCresps with
      remoteMn := some reqMn
      numCentry := numReqs
      respImm := respImmOf machineId reqImm }

def setRespMbuf (cmsgI : Nat) (mbuf : Mbuf) : RespBatch :=
  { batch with
    cmsgArr := Function.update batch.cmsgArr cmsgI
      { batch.cmsgArr cmsgI with respMbuf := mbuf } }

def cmsgs : List Cmsg := (List.range batch.numCresps).map batch.cmsgArr

end RespBatch

end Fasst.RpcBatch

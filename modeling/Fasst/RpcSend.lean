import Fasst.RpcDefs
import Fasst.SignalWindow

/-!
# Sending requests and responses

`send_reqs` and `send_resps` fill `send_wr` from its start and post the filled
part as one chain when it has `postlist` work requests or the batch ends; the
next chain goes to the next queue pair. Both call `set_flags` for every message
before it is posted.

Of the NIC the model has, for every queue pair, the posted work requests that no
polled completion covers. A completion covers the work requests posted before it
on its queue pair. Polling when no posted work request can complete does not
return; posting more than the queue holds fails. `posted` and `overwritten` are
history: the chains in the order in which they were posted, and the non-inline
buffers that were copied into while an uncovered send referenced them.

The work request fields that are the same in all messages are left out.
-/

namespace Fasst.RpcSend

open Fasst.RpcDefs Fasst.SignalWindow

set_option autoImplicit false

/-- What leaves in one packet: the destination, which selects the address handle
and the remote queue pair, the immediate and the bytes of the buffer. -/
structure Message where
  remoteMn : Option Nat
  immData : Nat
  sgLength : Nat
  payload : List UInt8
  deriving DecidableEq, Repr

inductive SgAddr where
  | mbuf
  | nonInline (index : Nat)
  deriving DecidableEq, Repr

structure SendFlags where
  signaled : Bool
  inlined : Bool
  deriving DecidableEq, Repr

structure SendWr where
  next : Option Nat
  sgAddr : SgAddr
  sendFlags : SendFlags
  msg : Message
  deriving DecidableEq, Repr

def SendWr.signaled (wr : SendWr) : Bool := wr.sendFlags.signaled

inductive SendFault where
  | noSuchQp
  | waitsForever
  | queueFull
  | brokenChain
  deriving DecidableEq, Repr

structure SendQp where
  nbPending : Nat
  outstanding : List SendWr
  deriving DecidableEq, Repr

structure Sender where
  activeQp : Nat
  qps : List SendQp
  sendWr : List SendWr
  nonInlineIndex : Nat
  posted : List (List SendWr)
  overwritten : List Nat
  deriving DecidableEq, Repr

def initSendWr (wrI : Nat) : SendWr where
  next := if wrI < rpcMaxPostlist then some (wrI + 1) else none
  sgAddr := .mbuf
  sendFlags := ⟨false, false⟩
  msg := ⟨none, 0, 0, []⟩

def Sender.init (numQps : Nat) : Sender where
  activeQp := 0
  qps := List.replicate numQps ⟨0, []⟩
  sendWr := (List.range (rpcMaxPostlist + 1)).map initSendWr
  nonInlineIndex := 0
  posted := []
  overwritten := []

namespace Sender

variable (sender : Sender)

def qp (index : Nat) : Except SendFault SendQp :=
  match sender.qps[index]? with
  | some queue => .ok queue
  | none => .error .noSuchQp

def setQp (index : Nat) (queue : SendQp) : Sender :=
  { sender with qps := sender.qps.set index queue }

def hrdPollCq (queue : SendQp) : Except SendFault (List SendWr) :=
  match pollOne SendWr.signaled queue.outstanding with
  | some rest => .ok rest
  | none => .error .waitsForever

def setFlags (qp size : Nat) : Except SendFault (SendFlags × Sender) := do
  let queue ← sender.qp qp
  let flags : SendFlags := ⟨queue.nbPending == 0, decide (size ≤ hrdMaxInline)⟩
  if queue.nbPending = rpcUnsigBatch - 1 then
    let rest ← hrdPollCq queue
    .ok (flags, sender.setQp qp ⟨0, rest⟩)
  else
    .ok (flags, sender.setQp qp { queue with nbPending := queue.nbPending + 1 })

def messages : List Message := sender.posted.flatten.map SendWr.msg

/-- May the NIC still read a non-inline buffer? -/
def readable (index : Nat) : Bool :=
  sender.qps.any fun queue => queue.outstanding.any fun wr => wr.sgAddr == .nonInline index

def copyNonInline : SgAddr × Sender :=
  (.nonInline sender.nonInlineIndex,
    { sender with
      nonInlineIndex := hrdModAdd sender.nonInlineIndex hrdRqDepth
      overwritten :=
        if sender.readable sender.nonInlineIndex then
          sender.nonInlineIndex :: sender.overwritten
        else
          sender.overwritten })

/-- Encode the variable fields of a work request; its link stays. -/
def putWr (wrI : Nat) (addr : SgAddr) (flags : SendFlags) (msg : Message) : Sender :=
  { sender with
    sendWr := sender.sendWr.modify wrI fun wr =>
      { wr with sgAddr := addr, sendFlags := flags, msg := msg } }

def setNext (wrI : Nat) (next : Option Nat) : Sender :=
  { sender with sendWr := sender.sendWr.modify wrI fun wr => { wr with next := next } }

end Sender

/-- The work requests reached from one of them along the links. -/
def chainFrom (wrs : List SendWr) : Nat → Nat → Except SendFault (List SendWr)
  | 0, _ => .error .brokenChain
  | fuel + 1, wrI =>
      match wrs[wrI]? with
      | none => .error .brokenChain
      | some wr =>
          match wr.next with
          | none => .ok [wr]
          | some next => (wr :: ·) <$> chainFrom wrs fuel next

namespace Sender

variable (sender : Sender)

def ibvPostSend (qp : Nat) : Except SendFault Sender := do
  let chain ← chainFrom sender.sendWr sender.sendWr.length 0
  let queue ← sender.qp qp
  if hrdSqDepth < queue.outstanding.length + chain.length then
    .error .queueFull
  else
    .ok { sender.setQp qp { queue with outstanding := queue.outstanding ++ chain } with
      posted := sender.posted ++ [chain] }

/-- Post the first `wrI` work requests, restore the link that was cut and go to
the next queue pair. -/
def postChain (args : RpcArgs) (wrI : Nat) : Except SendFault Sender := do
  let sender ← (sender.setNext (wrI - 1) none).ibvPostSend sender.activeQp
  let sender := sender.setNext (wrI - 1) (some wrI)
  .ok { sender with activeQp := hrdModAdd sender.activeQp args.numQps }

end Sender

def reqImm (args : RpcArgs) (coroId rest : Nat) (cmsg : Cmsg) : RpcImm where
  isReq := 1
  numReqs := cmsg.numCentry
  configId := 0
  mchnId := args.machineId
  coroId := coroId
  rest := rest

def reqMessage (args : RpcArgs) (coroId rest : Nat) (cmsg : Cmsg) : Message where
  remoteMn := cmsg.remoteMn
  immData := (reqImm args coroId rest cmsg).intRep
  sgLength := cmsg.reqMbuf.length
  payload := cmsg.reqMbuf.contents

def respMessage (cmsg : Cmsg) : Message where
  remoteMn := cmsg.remoteMn
  immData := cmsg.respImm
  sgLength := cmsg.respMbuf.length
  payload := cmsg.respMbuf.contents

def encodeReq (args : RpcArgs) (coroId rest : Nat) (sender : Sender) (wrI : Nat) (cmsg : Cmsg) :
    Except SendFault Sender := do
  let (flags, sender) ← sender.setFlags sender.activeQp cmsg.reqMbuf.length
  .ok (sender.putWr wrI .mbuf flags (reqMessage args coroId rest cmsg))

def encodeResp (sender : Sender) (wrI : Nat) (cmsg : Cmsg) : Except SendFault Sender := do
  let (flags, sender) ← sender.setFlags sender.activeQp cmsg.respMbuf.length
  let (addr, sender) :=
    if hrdMaxInline < cmsg.respMbuf.length then sender.copyNonInline else (.mbuf, sender)
  .ok (sender.putWr wrI addr flags (respMessage cmsg))

def sendLoop (args : RpcArgs) (encode : Sender → Nat → Cmsg → Except SendFault Sender) :
    Sender → Nat → List Cmsg → Except SendFault Sender
  | sender, _, [] => .ok sender
  | sender, wrI, cmsg :: rest => do
      let sender ← encode sender wrI cmsg
      if wrI + 1 = args.postlist ∨ rest.isEmpty = true then
        let sender ← sender.postChain args (wrI + 1)
        sendLoop args encode sender 0 rest
      else
        sendLoop args encode sender (wrI + 1) rest

/-- `rest` stands for the bits of the immediate that `send_reqs` does not set. -/
def sendReqs (args : RpcArgs) (coroId rest : Nat) (sender : Sender) (cmsgs : List Cmsg) :
    Except SendFault Sender :=
  sendLoop args (encodeReq args coroId rest) sender 0 cmsgs

def sendResps (args : RpcArgs) (sender : Sender) (cmsgs : List Cmsg) : Except SendFault Sender :=
  sendLoop args encodeResp sender 0 cmsgs

inductive SendCall where
  | reqs (coroId rest : Nat) (cmsgs : List Cmsg)
  | resps (cmsgs : List Cmsg)

namespace SendCall

def run (args : RpcArgs) (sender : Sender) : SendCall → Except SendFault Sender
  | .reqs coroId rest cmsgs => sendReqs args coroId rest sender cmsgs
  | .resps cmsgs => sendResps args sender cmsgs

def messages (args : RpcArgs) : SendCall → List Message
  | .reqs coroId rest cmsgs => cmsgs.map (reqMessage args coroId rest)
  | .resps cmsgs => cmsgs.map respMessage

end SendCall

def emitted (before after : Sender) : List Message :=
  after.messages.drop before.messages.length

end Fasst.RpcSend

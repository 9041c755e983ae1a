import Fasst.RingSlots
import Fasst.RpcBatch
import Fasst.Runs

/-!
# Endpoints that exchange batches

The workers of one local id, one on each machine, with the master loop, the yields
of the slaves and `poll_comps`. A call of `poll_comps` is cut into steps at the
places where other endpoints and the network can come in between: the poll of the
completion queue, the turns of its loop, the posting of RECVs, and the sending of
responses with the return to the master.

The network is the list of packets under way; any of them may arrive next. An
arriving packet takes the RECV that was posted first, and is dropped when there is
none: such a run is not continued. A completion has the slot of its RECV and what
was in the buffer before. `ibv_poll_cq` may return any number of the completions
that are there, in their order.

`jobs` and `round` are history. A job is the last batch of a coroutine with the
handler calls that were made for it and the responses that were read for it;
`round` lists the coroutines whose batch got its last response in the call of
`poll_comps` that is running or that returned last, before the first call the
coroutines of the initial spawn.

A run in which a user breaks the limits of the buffers is not continued.
-/

namespace Fasst.RpcSwarm

open Fasst.RingSlots Fasst.Placement Fasst.TxModel Fasst.Bytes Fasst.RpcDefs Fasst.RpcSend
open Fasst.RpcBatch

set_option autoImplicit false

def rpcMasterCoroId : Nat := 0

/-- The workers of one local id. -/
structure Cluster where
  numMachines : Nat
  args : Nat → RpcArgs
  sized : ∀ m, m < numMachines → (args m).numMachines = numMachines
  placed : ∀ m, m < numMachines → (args m).machineId = m

structure Completion where
  slot : Nat
  stale : Buffer
  msg : Message

namespace Completion

def wcBuf (wc : Completion) : Buffer := writeBytes wc.stale 0 wc.msg.payload

def wcImm (wc : Completion) : RpcImm := .ofIntRep wc.msg.immData

end Completion

/-- What an endpoint does: the master is about to poll, is in the loop of
`poll_comps` or behind its RECVs, or a slave runs. -/
inductive Ctl where
  | polling
  | handling (wcs : List Completion) (cqComps curCompCoro : Nat)
  | responding (curCompCoro : Nat)
  | running (coroId : Nat)

structure Endpoint where
  requester : Requester
  respBatch : RespBatch
  nextCoro : Nat → Nat
  recvHead : Nat
  recvsToPost : Nat
  posted : List Nat
  arrived : List Completion
  ctl : Ctl

/-- The contents of an endpoint's memory before it is constructed. -/
structure Memory where
  reqBufs : Nat → Nat → Buffer
  respBufs : Nat → Buffer
  nextCoro : Nat → Nat

inductive ConstructFault where
  | assertion
  | outOfBounds
  deriving DecidableEq, Repr

namespace Endpoint

variable (args : RpcArgs) (ep : Endpoint)

/-- `post_recvs` and `post_recvs_fast`: the next slots of the ring, in order. -/
def postRecvs (numRecvs : Nat) : Endpoint :=
  { ep with
    posted := ep.posted ++ slotsFrom hrdRqDepth ep.recvHead numRecvs
    recvHead := (ep.recvHead + numRecvs) % hrdRqDepth }

def blank (memory : Memory) : Endpoint where
  requester := ⟨fun coroId => .init (memory.reqBufs coroId) args.maxPktSize, .init args.numQps⟩
  respBatch := .init memory.respBufs args.maxPktSize
  nextCoro := Function.update memory.nextCoro rpcMasterCoroId rpcMasterCoroId
  recvHead := 0
  recvsToPost := 0
  posted := []
  arrived := []
  ctl := .polling

/-- The constructor. The addresses of the machines are saved in arrays of
`HOTS_MAX_MACHINES`. -/
def construct (memory : Memory) : Except ConstructFault Endpoint :=
  if (args.checkInfo && args.checkPort && args.initNonZeroMembers) = false then
    .error .assertion
  else if hotsMaxMachines < args.numMachines then
    .error .outOfBounds
  else
    .ok ((blank args memory).postRecvs hrdRqDepth)

def yieldTo (coroId : Nat) : Endpoint :=
  { ep with ctl := if coroId = rpcMasterCoroId then .polling else .running coroId }

/-- `master_func` up to its loop. -/
def spawn : Endpoint :=
  { ep with
    nextCoro := fun coroI =>
      if coroI < args.numCoro then
        if coroI = args.numCoro - 1 then 0 else coroI + 1
      else
        ep.nextCoro coroI }.yieldTo 1

/-- The limits on a batch: the machines exist, and the requests fit the arrays and
their messages the packets. -/
def sendable (coroId : Nat) (specs : List ReqSpec) : Bool :=
  !specs.isEmpty && decide (specs.length ≤ rpcMaxMsgCoro) &&
    specs.all (fun spec => decide (spec.machine < args.numMachines)) &&
    ((ep.requester.reqBatchArr coroId).buildBatch specs).cmsgs.all fun cmsg =>
      decide (cmsg.reqMbuf.length ≤ args.maxPktSize)

def send (coroId rest : Nat) (specs : List ReqSpec) : Option Endpoint :=
  if ep.sendable args coroId specs then
    match sendBatch args coroId rest specs ep.requester with
    | .error _ => none
    | .ok requester => some { ep with requester := requester }
  else
    none

/-- The part of `poll_comps` before its loop. -/
def poll (cqComps : Nat) : Endpoint :=
  if cqComps = 0 then
    { ep with nextCoro := Function.update ep.nextCoro rpcMasterCoroId rpcMasterCoroId }
  else
    { ep with
      respBatch := ep.respBatch.clear
      arrived := ep.arrived.drop cqComps
      ctl := .handling (ep.arrived.take cqComps) cqComps rpcMasterCoroId }

def handleResponse (wc : Completion) (wcs : List Completion) (cqComps curCompCoro : Nat) :
    Endpoint :=
  let imm := wc.wcImm
  let batch := ep.requester.reqBatchArr imm.coroId
  let batch := { batch with numReqsDone := batch.numReqsDone + imm.numReqs }
  let filled := (responseLoop wc.wcBuf imm.numReqs 0 batch).2
  let requester := { ep.requester with
    reqBatchArr := Function.update ep.requester.reqBatchArr imm.coroId filled }
  if batch.numReqsDone = batch.numReqs then
    { ep with
      requester := requester
      nextCoro := Function.update ep.nextCoro curCompCoro imm.coroId
      ctl := .handling wcs cqComps imm.coroId }
  else
    { ep with requester := requester, ctl := .handling wcs cqComps curCompCoro }

/-- The calls of handlers, and the endpoint with the response in its batch. -/
def handleRequest (wc : Completion) (wcs : List Completion) (cqComps curCompCoro : Nat)
    (handler : Frame → HandlerResult) : List Handled × Endpoint :=
  let imm := wc.wcImm
  let cmsgI := ep.respBatch.numCresps
  let started := ep.respBatch.startNewResp args.machineId imm.mchnId imm.numReqs wc.msg.immData
  let out := requestLoop wc.wcBuf handler imm.numReqs 0 (started.cmsgArr cmsgI).respMbuf
  (out.1,
    { ep with
      respBatch := started.setRespMbuf cmsgI out.2.2
      ctl := .handling wcs cqComps curCompCoro })

/-- Has the last response stayed in its buffer? -/
def respFits : Bool :=
  decide ((ep.respBatch.cmsgArr (ep.respBatch.numCresps - 1)).respMbuf.length ≤ args.maxPktSize)

def repost (cqComps curCompCoro : Nat) : Endpoint :=
  let recvsToPost := ep.recvsToPost + cqComps
  let reposted :=
    if args.recvSlack ≤ recvsToPost then
      { ep.postRecvs recvsToPost with recvsToPost := 0 }
    else
      { ep with recvsToPost := recvsToPost }
  { reposted with ctl := .responding curCompCoro }

/-- The rest of `poll_comps`. -/
def respond (curCompCoro : Nat) : Option Endpoint :=
  let sent :=
    if 0 < ep.respBatch.numCresps then
      sendResps args ep.requester.sender ep.respBatch.cmsgs
    else
      .ok ep.requester.sender
  match sent with
  | .error _ => none
  | .ok sender =>
      some { ep with
        requester := { ep.requester with sender := sender }
        nextCoro := Function.update ep.nextCoro curCompCoro rpcMasterCoroId
        ctl := .polling }

end Endpoint

/-- A call of a handler for a request of a batch, with the machine it was made on. -/
structure Served where
  machine : Nat
  handled : Handled
  deriving DecidableEq, Repr

/-- A response of a batch, with the machine it came from. -/
structure Response where
  machine : Nat
  frame : Frame
  deriving DecidableEq, Repr

/-- The last batch of a coroutine and what has become of it; how often the
coroutine has sent a batch, and how often it was given control. -/
structure Job where
  rest : Nat
  specs : List ReqSpec
  calls : List Served
  received : List Response
  sent : Nat
  resumed : Nat

namespace Job

def answered (job : Job) : Bool :=
  (List.range job.specs.length).all fun i =>
    job.received.any fun response => response.frame.coroSeqnum == i

def issue (job : Job) (rest : Nat) (specs : List ReqSpec) : Job where
  rest := rest
  specs := specs
  calls := []
  received := []
  sent := job.sent + 1
  resumed := job.resumed

def serve (job : Job) (machine : Nat) (calls : List Handled) : Job :=
  { job with calls := job.calls ++ calls.map (Served.mk machine) }

def receive (job : Job) (machine : Nat) (frames : List Frame) : Job :=
  { job with received := job.received ++ frames.map (Response.mk machine) }

/-- The jobs of an endpoint's coroutines when one of them is given control. -/
def resume (jobs : Nat → Job) (coroId : Nat) : Nat → Job :=
  if coroId = rpcMasterCoroId then
    jobs
  else
    Function.update jobs coroId { jobs coroId with resumed := (jobs coroId).resumed + 1 }

end Job

def responseFrames (wcBuf : Buffer) : Nat → Nat → List Frame
  | 0, _ => []
  | count + 1, wcOff =>
      let hdr := CmsgReqhdr.read wcBuf wcOff
      ⟨hdr.reqType, hdr.coroSeqnum, readBytes wcBuf (wcOff + sizeofCmsgReqhdr) hdr.size⟩ ::
        responseFrames wcBuf count (wcOff + sizeofCmsgReqhdr + hdr.size)

structure Swarm where
  endpoints : Nat → Endpoint
  network : List Message
  jobs : Nat → Nat → Job
  round : Nat → List Nat

namespace Swarm

/-- The endpoints have been constructed and their masters have started. -/
def init (cluster : Cluster) (built : Nat → Endpoint) : Swarm where
  endpoints := fun m => (built m).spawn (cluster.args m)
  network := []
  jobs := fun _ => Job.resume (fun _ => ⟨0, [], [], [], 0, 0⟩) 1
  round := fun m => List.range' 1 ((cluster.args m).numCoro - 1)

variable (cluster : Cluster) (state : Swarm)

def setEndpoint (m : Nat) (ep : Endpoint) : Swarm :=
  { state with endpoints := Function.update state.endpoints m ep }

/-- What an endpoint has posted enters the network. -/
def transmit (m : Nat) (ep : Endpoint) : Swarm :=
  { state.setEndpoint m ep with
    network := state.network ++ emitted (state.endpoints m).requester.sender ep.requester.sender }

def setJob (m coroId : Nat) (job : Job) : Swarm :=
  { state with
    jobs := Function.update state.jobs m (Function.update (state.jobs m) coroId job) }

def setRound (m : Nat) (round : List Nat) : Swarm :=
  { state with round := Function.update state.round m round }

def yieldTo (m coroId : Nat) : Swarm :=
  { state.setEndpoint m ((state.endpoints m).yieldTo coroId) with
    jobs := Function.update state.jobs m (Job.resume (state.jobs m) coroId) }

def send (m coroId rest : Nat) (specs : List ReqSpec) : Option Swarm :=
  ((state.endpoints m).send (cluster.args m) coroId rest specs).map fun after =>
    (state.transmit m after).setJob m coroId ((state.jobs m coroId).issue rest specs)

def arrive (index : Nat) (stale : Buffer) : Option Swarm :=
  match state.network[index]? with
  | none => none
  | some msg =>
      match msg.remoteMn with
      | none => none
      | some m =>
          let ep := state.endpoints m
          match ep.posted with
          | [] => none
          | slot :: posted =>
              some { state.setEndpoint m
                  { ep with
                    posted := posted
                    arrived := ep.arrived ++ [⟨slot, stale, msg⟩] } with
                network := state.network.eraseIdx index }

def poll (m cqComps : Nat) : Option Swarm :=
  let ep := state.endpoints m
  match ep.ctl with
  | .polling =>
      if cqComps ≤ ep.arrived.length then
        some ((state.setEndpoint m (ep.poll cqComps)).setRound m [])
      else
        none
  | _ => none

def handleResponse (m : Nat) (wc : Completion) (wcs : List Completion)
    (cqComps curCompCoro : Nat) : Swarm :=
  let coroId := wc.wcImm.coroId
  let before := state.jobs m coroId
  let after := before.receive wc.wcImm.mchnId (responseFrames wc.wcBuf wc.wcImm.numReqs 0)
  ((state.setEndpoint m ((state.endpoints m).handleResponse wc wcs cqComps curCompCoro)).setJob m
      coroId after).setRound m
    (if after.answered && !before.answered then state.round m ++ [coroId] else state.round m)

def handleRequest (m : Nat) (wc : Completion) (wcs : List Completion)
    (cqComps curCompCoro : Nat) (handler : Frame → HandlerResult) : Option Swarm :=
  let imm := wc.wcImm
  let out := (state.endpoints m).handleRequest (cluster.args m) wc wcs cqComps curCompCoro handler
  if out.2.respFits (cluster.args m) then
    some ((state.setEndpoint m out.2).setJob imm.mchnId imm.coroId
      ((state.jobs imm.mchnId imm.coroId).serve m out.1))
  else
    none

def handle (m : Nat) (handler : Frame → HandlerResult) : Option Swarm :=
  match (state.endpoints m).ctl with
  | .handling (wc :: wcs) cqComps curCompCoro =>
      if wc.wcImm.isReq = 0 then
        some (state.handleResponse m wc wcs cqComps curCompCoro)
      else
        state.handleRequest cluster m wc wcs cqComps curCompCoro handler
  | _ => none

def repost (m : Nat) : Option Swarm :=
  match (state.endpoints m).ctl with
  | .handling [] cqComps curCompCoro =>
      some (state.setEndpoint m
        ((state.endpoints m).repost (cluster.args m) cqComps curCompCoro))
  | _ => none

def respond (m : Nat) : Option Swarm :=
  match (state.endpoints m).ctl with
  | .responding curCompCoro =>
      ((state.endpoints m).respond (cluster.args m) curCompCoro).map (state.transmit m)
  | _ => none

end Swarm

inductive Label where
  | issue (m rest : Nat) (specs : List ReqSpec)
  | arrive (index : Nat) (stale : Buffer)
  | poll (m cqComps : Nat)
  | handle (m : Nat) (handler : Frame → HandlerResult)
  | repost (m : Nat)
  | respond (m : Nat)

/-- A step of the network or of an endpoint. The slave that runs sends a batch and
yields to the coroutine behind it; when `poll_comps` returns, the master yields to
the first one. -/
def step (cluster : Cluster) (state : Swarm) : Label → Option Swarm
  | .issue m rest specs =>
      match (state.endpoints m).ctl with
      | .running coroId =>
          if m < cluster.numMachines then
            (state.send cluster m coroId rest specs).map fun after =>
              after.yieldTo m ((state.endpoints m).nextCoro coroId)
          else
            none
      | _ => none
  | .arrive index stale => state.arrive index stale
  | .poll m cqComps => if m < cluster.numMachines then state.poll m cqComps else none
  | .handle m handler => if m < cluster.numMachines then state.handle cluster m handler else none
  | .repost m => if m < cluster.numMachines then state.repost cluster m else none
  | .respond m =>
      if m < cluster.numMachines then
        (state.respond cluster m).map fun after =>
          after.yieldTo m ((after.endpoints m).nextCoro rpcMasterCoroId)
      else
        none

def Constructed (cluster : Cluster) (memory : Nat → Memory) (built : Nat → Endpoint) : Prop :=
  ∀ m, m < cluster.numMachines →
    Endpoint.construct (cluster.args m) (memory m) = .ok (built m)

end Fasst.RpcSwarm

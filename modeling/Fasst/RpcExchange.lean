import Fasst.Blocks
import Fasst.RpcJobs
import Mathlib.Data.List.Flatten

/-!
# The packets that are under way

The histories of the batches say which packets there are: for every machine that a
batch was sent to and that has not answered yet there is the request, or the
response once the handlers were called. The packets in the network and at the
endpoints are these, each once.

What is shown here does not depend on the order in which the slaves run. In
`openStep` control may pass to any coroutine, and a slave without an outstanding
batch may send whenever `poll_comps` is not running.
-/

namespace Fasst.RpcExchange

open Fasst.Placement Fasst.TxModel Fasst.Bytes Fasst.RpcDefs Fasst.RpcSend Fasst.RpcSendWindow
open Fasst.RpcBatch Fasst.RpcCoalesce Fasst.RpcSwarm Fasst.RpcResponse Fasst.RpcJobs Fasst.Blocks

set_option autoImplicit false

inductive Act where
  | send (m coroId rest : Nat) (specs : List ReqSpec)
  | yield (m coroId : Nat)
  | arrive (index : Nat) (stale : Buffer)
  | poll (m cqComps : Nat)
  | handle (m : Nat) (handler : Frame → HandlerResult)
  | repost (m : Nat)
  | respond (m : Nat)

def Ctl.outside : Ctl → Bool
  | .polling => true
  | .running _ => true
  | _ => false

def slaves (args : RpcArgs) : List Nat := List.range' 1 (args.numCoro - 1)

def openStep (cluster : Cluster) (state : Swarm) : Act → Option Swarm
  | .send m coroId rest specs =>
      if m < cluster.numMachines ∧ Ctl.outside (state.endpoints m).ctl = true ∧
          coroId ∈ slaves (cluster.args m) ∧ (state.jobs m coroId).answered = true then
        state.send cluster m coroId rest specs
      else
        none
  | .yield m coroId =>
      if m < cluster.numMachines ∧ Ctl.outside (state.endpoints m).ctl = true then
        some (state.yieldTo m coroId)
      else
        none
  | .arrive index stale => state.arrive index stale
  | .poll m cqComps => if m < cluster.numMachines then state.poll m cqComps else none
  | .handle m handler => if m < cluster.numMachines then state.handle cluster m handler else none
  | .repost m => if m < cluster.numMachines then state.repost cluster m else none
  | .respond m => if m < cluster.numMachines then state.respond cluster m else none

/-- The configurations of the endpoints whose constructors have returned. -/
structure Admitted (cluster : Cluster) : Prop where
  bound : cluster.numMachines ≤ hotsMaxMachines
  checked : ∀ m, m < cluster.numMachines → (cluster.args m).checkInfo = true
  slack : ∀ m, m < cluster.numMachines → (cluster.args m).initNonZeroMembers = true

section Packets

def responseMessage (args : RpcArgs) (coroId : Nat) (job : Job) (mn : Nat) : Message where
  remoteMn := some args.machineId
  immData := RespBatch.respImmOf mn (requestMessage args coroId job.rest job.specs mn).immData
  sgLength := (encode ((callsAt job mn).map Handled.resp)).length
  payload := encode ((callsAt job mn).map Handled.resp)

def underWay (args : RpcArgs) (coroId : Nat) (job : Job) (mn : Nat) : List Message :=
  if receivedFrom job mn ≠ [] then
    []
  else if callsAt job mn = [] then
    [requestMessage args coroId job.rest job.specs mn]
  else
    [responseMessage args coroId job mn]

def outstanding (args : RpcArgs) (coroId : Nat) (job : Job) : List Message :=
  (dests job.specs).flatMap (underWay args coroId job)

def owners (cluster : Cluster) : List (Nat × Nat) :=
  (List.range cluster.numMachines).flatMap fun m => (slaves (cluster.args m)).map (Prod.mk m)

def expected (cluster : Cluster) (jobs : Nat → Nat → Job) : List Message :=
  (owners cluster).flatMap fun owner =>
    outstanding (cluster.args owner.1) owner.2 (jobs owner.1 owner.2)

/-- The packets of a call of `poll_comps`: those it has not handled yet and the
responses it has not sent yet. -/
def inCall (ep : Endpoint) : List Message :=
  match ep.ctl with
  | .handling wcs _ _ => wcs.map Completion.msg ++ ep.respBatch.cmsgs.map respMessage
  | .responding _ => ep.respBatch.cmsgs.map respMessage
  | _ => []

def held (ep : Endpoint) : List Message := ep.arrived.map Completion.msg ++ inCall ep

def inSystem (cluster : Cluster) (state : Swarm) : List Message :=
  state.network ++ (List.range cluster.numMachines).flatMap fun m => held (state.endpoints m)

end Packets

theorem mem_owners {cluster : Cluster} {m coroId : Nat} :
    (m, coroId) ∈ owners cluster ↔ m < cluster.numMachines ∧ coroId ∈ slaves (cluster.args m) := by
  simp only [owners, List.mem_flatMap, List.mem_range, List.mem_map, Prod.mk.injEq]
  constructor
  · rintro ⟨machine, below, coro, member, rfl, rfl⟩
    exact ⟨below, member⟩
  · rintro ⟨below, member⟩
    exact ⟨m, below, coroId, member, rfl, rfl⟩

theorem owners_nodup (cluster : Cluster) : (owners cluster).Nodup := by
  rw [owners, List.nodup_flatMap]
  constructor
  · intro m _
    apply List.Nodup.map
    · intro left right equal
      exact (Prod.mk.inj equal).2
    · exact List.nodup_range'
  · apply List.nodup_range.imp
    intro first second apart owner left right
    obtain ⟨_, _, rfl⟩ := List.mem_map.mp left
    obtain ⟨_, _, equal⟩ := List.mem_map.mp right
    exact apart (Prod.mk.inj equal).1.symm

structure EndpointHolds (args : RpcArgs) (m : Nat) (ep : Endpoint) : Prop where
  posting : Posting args ep.requester.sender 0 ep.requester.sender.messages
  fresh : RespFresh ep.respBatch
  arrived : ∀ wc ∈ ep.arrived, wc.msg.remoteMn = some m
  polled : ∀ wcs cqComps curCompCoro, ep.ctl = .handling wcs cqComps curCompCoro →
    ∀ wc ∈ wcs, wc.msg.remoteMn = some m

structure Exchange (cluster : Cluster) (state : Swarm) : Prop where
  endpoints : ∀ m, m < cluster.numMachines →
    EndpointHolds (cluster.args m) m (state.endpoints m)
  jobs : ∀ m, m < cluster.numMachines → ∀ coroId,
    JobHolds cluster.numMachines ((state.endpoints m).requester.reqBatchArr coroId)
      (state.jobs m coroId)
  traffic : (inSystem cluster state).Perm (expected cluster state.jobs)

variable {cluster : Cluster} {state next : Swarm} {m : Nat}

section Changes

/-- An endpoint's step replaces some packets. -/
theorem in_system_change (below : m < cluster.numMachines)
    (agree : ∀ other, other ≠ m → next.endpoints other = state.endpoints other)
    {before after common : List Message}
    (old : (state.network ++ held (state.endpoints m)).Perm (before ++ common))
    (new : (next.network ++ held (next.endpoints m)).Perm (after ++ common)) :
    ∃ rest, (inSystem cluster state).Perm (before ++ rest) ∧
      (inSystem cluster next).Perm (after ++ rest) := by
  have here : m ∈ List.range cluster.numMachines := List.mem_range.mpr below
  have rest : others (fun m => held (next.endpoints m)) (List.range cluster.numMachines) m =
      others (fun m => held (state.endpoints m)) (List.range cluster.numMachines) m := by
    apply others_congr List.nodup_range
    intro other apart
    rw [agree other apart]
  refine ⟨common ++ others (fun m => held (state.endpoints m)) (List.range cluster.numMachines) m,
    ?_, ?_⟩
  · apply ((perm_block _ here).append_left state.network).trans
    rw [← List.append_assoc, ← List.append_assoc]
    exact old.append_right _
  · apply ((perm_block _ here).append_left next.network).trans
    rw [rest, ← List.append_assoc, ← List.append_assoc]
    exact new.append_right _

/-- A step of a coroutine's batch replaces some packets. -/
theorem expected_change {jobs after : Nat → Nat → Job} {coroId : Nat}
    (below : m < cluster.numMachines) (slave : coroId ∈ slaves (cluster.args m))
    (agree : ∀ other coro, (other, coro) ≠ (m, coroId) → after other coro = jobs other coro)
    {gone come common : List Message}
    (old : (outstanding (cluster.args m) coroId (jobs m coroId)).Perm (gone ++ common))
    (new : (outstanding (cluster.args m) coroId (after m coroId)).Perm (come ++ common)) :
    ∃ rest, (expected cluster jobs).Perm (gone ++ rest) ∧
      (expected cluster after).Perm (come ++ rest) := by
  apply perm_replace (owners_nodup cluster) (mem_owners.mpr ⟨below, slave⟩) _ old new
  intro owner apart
  rw [agree owner.1 owner.2 apart]

/-- When the same packets are replaced on both sides. -/
theorem traffic_kept {before after system expectation system' expectation' : List Message}
    (traffic : system.Perm expectation)
    (left : ∃ rest, system.Perm (before ++ rest) ∧ system'.Perm (after ++ rest))
    (right : ∃ rest, expectation.Perm (before ++ rest) ∧ expectation'.Perm (after ++ rest)) :
    system'.Perm expectation' := by
  obtain ⟨rest, old, new⟩ := left
  obtain ⟨other, before, after⟩ := right
  have same : rest.Perm other :=
    (List.perm_append_left_iff _).mp (old.symm.trans (traffic.trans before))
  exact new.trans ((same.append_left _).trans after.symm)

/-- A step after which the same packets are there. -/
theorem in_system_quiet (below : m < cluster.numMachines)
    (agree : ∀ other, other ≠ m → next.endpoints other = state.endpoints other)
    (same : (next.network ++ held (next.endpoints m)).Perm
      (state.network ++ held (state.endpoints m))) :
    (inSystem cluster next).Perm (inSystem cluster state) := by
  have changed : ∃ rest, (inSystem cluster state).Perm ([] ++ rest) ∧
      (inSystem cluster next).Perm ([] ++ rest) :=
    in_system_change below agree (List.Perm.refl _) same
  obtain ⟨rest, old, new⟩ := changed
  exact new.trans old.symm

end Changes

/-- A packet, the coroutine it belongs to and the machine its request goes to. -/
structure Packet (cluster : Cluster) (jobs : Nat → Nat → Job) (client coroId server : Nat) :
    Prop where
  below : client < cluster.numMachines
  slave : coroId ∈ slaves (cluster.args client)
  dest : server ∈ dests (jobs client coroId).specs
  unanswered : receivedFrom (jobs client coroId) server = []

theorem in_system_packet (exchange : Exchange cluster state) {msg : Message}
    (member : msg ∈ inSystem cluster state) :
    ∃ client coroId server, Packet cluster state.jobs client coroId server ∧
      (callsAt (state.jobs client coroId) server = [] ∧
          msg = requestMessage (cluster.args client) coroId (state.jobs client coroId).rest
            (state.jobs client coroId).specs server ∨
        callsAt (state.jobs client coroId) server ≠ [] ∧
          msg = responseMessage (cluster.args client) coroId (state.jobs client coroId) server) := by
  obtain ⟨⟨client, coroId⟩, owner, inside⟩ := List.mem_flatMap.mp (exchange.traffic.mem_iff.mp member)
  obtain ⟨server, dest, packet⟩ := List.mem_flatMap.mp inside
  obtain ⟨below, slave⟩ := mem_owners.mp owner
  refine ⟨client, coroId, server, ?_⟩
  simp only [underWay] at packet
  split_ifs at packet with unanswered uncalled
  · cases packet
  · exact ⟨⟨below, slave, dest, not_not.mp unanswered⟩, Or.inl ⟨uncalled, List.mem_singleton.mp packet⟩⟩
  · exact ⟨⟨below, slave, dest, not_not.mp unanswered⟩, Or.inr ⟨uncalled, List.mem_singleton.mp packet⟩⟩

theorem in_system_dest (exchange : Exchange cluster state) {msg : Message}
    (member : msg ∈ inSystem cluster state) :
    ∃ dest, dest < cluster.numMachines ∧ msg.remoteMn = some dest := by
  obtain ⟨client, coroId, server, packet, shape⟩ := in_system_packet exchange member
  rcases shape with ⟨-, rfl⟩ | ⟨-, rfl⟩
  · exact ⟨server, (exchange.jobs client packet.below coroId).machines server packet.dest, rfl⟩
  · refine ⟨client, packet.below, ?_⟩
    rw [responseMessage, cluster.placed client packet.below]

theorem resumed_holds {numMachines : Nat} {batch : ReqBatch} {job : Job}
    (holds : JobHolds numMachines batch job) (count : Nat) :
    JobHolds numMachines batch { job with resumed := count } :=
  ⟨holds.built, holds.few, holds.machines, holds.fits, holds.calls, holds.paired, holds.received,
    holds.slots, holds.done, holds.once⟩

/-- A step that moves packets and may give control to a coroutine. -/
theorem exchange_quiet (exchange : Exchange cluster state) (below : m < cluster.numMachines)
    (agree : ∀ other, other ≠ m → next.endpoints other = state.endpoints other)
    (endpoint : EndpointHolds (cluster.args m) m (next.endpoints m))
    (batches : (next.endpoints m).requester.reqBatchArr =
      (state.endpoints m).requester.reqBatchArr)
    (jobs : ∀ other coro, ∃ count,
      next.jobs other coro = { state.jobs other coro with resumed := count })
    (same : (next.network ++ held (next.endpoints m)).Perm
      (state.network ++ held (state.endpoints m))) : Exchange cluster next := by
  refine ⟨?_, ?_, ?_⟩
  · intro other inside
    by_cases here : other = m
    · rw [here]
      exact endpoint
    · rw [agree other here]
      exact exchange.endpoints other inside
  · intro other inside coro
    obtain ⟨count, job⟩ := jobs other coro
    have batch : (next.endpoints other).requester.reqBatchArr =
        (state.endpoints other).requester.reqBatchArr := by
      by_cases here : other = m
      · rw [here]
        exact batches
      · rw [agree other here]
    rw [batch, job]
    exact resumed_holds (exchange.jobs other inside coro) count
  · have expectation : expected cluster next.jobs = expected cluster state.jobs := by
      apply List.flatMap_congr
      intro owner _
      obtain ⟨count, job⟩ := jobs owner.1 owner.2
      rw [job]
      rfl
    rw [expectation]
    exact (in_system_quiet below agree same).trans exchange.traffic

end Fasst.RpcExchange

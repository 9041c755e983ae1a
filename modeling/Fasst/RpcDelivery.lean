import Fasst.RpcSchedule

/-!
# Responses reach their requests

A coroutine is listed when it is on the way from the master to `cur_comp_coro`
inside `poll_comps`, or from the running coroutine to the master outside. The batch
of a listed coroutine is complete: every request was handled once, on its machine,
and its slot holds what the handler left.
-/

namespace Fasst.RpcDelivery

open Fasst.TxModel Fasst.Bytes Fasst.RpcDefs Fasst.RpcSend Fasst.RpcBatch Fasst.RpcCoalesce
open Fasst.RpcSwarm Fasst.RpcResponse Fasst.RpcJobs Fasst.RpcExchange Fasst.RpcExchangeSteps
open Fasst.RpcSchedule Fasst.Runs Fasst.Threads

set_option autoImplicit false

def listed (ep : Endpoint) : List Nat :=
  let upTo := fun curCompCoro =>
    if curCompCoro = rpcMasterCoroId then
      []
    else
      (follow ep.nextCoro curCompCoro rpcMaxCoro (ep.nextCoro rpcMasterCoroId)).getD [] ++
        [curCompCoro]
  match ep.ctl with
  | .polling => []
  | .handling _ _ curCompCoro => upTo curCompCoro
  | .responding curCompCoro => upTo curCompCoro
  | .running coroId => (follow ep.nextCoro rpcMasterCoroId rpcMaxCoro coroId).getD []

section Listed

variable {args : RpcArgs} {ep : Endpoint} {coros : Nat → Status} {round later : List Nat}

theorem collected_up_to {nextCoro : Nat → Nat} {curCompCoro : Nat}
    (checked : args.checkInfo = true)
    (collected : Collected args curCompCoro nextCoro coros round) :
    (if curCompCoro = rpcMasterCoroId then
        []
      else
        (follow nextCoro curCompCoro rpcMaxCoro (nextCoro rpcMasterCoroId)).getD [] ++
          [curCompCoro]) = round := by
  have last := collected.last
  rcases List.eq_nil_or_concat round with rfl | ⟨before, coro, rfl⟩
  · exact if_pos last
  · rw [List.concat_eq_append] at collected last ⊢
    rw [List.getLastD_concat] at last
    have slave := collected.slaves coro (List.mem_append_right _ (List.mem_singleton_self coro))
    have short := round_short checked collected.nodup collected.slaves
    rw [List.length_append, List.length_singleton] at short
    have absent : coro ∉ before := by
      intro member
      exact (List.nodup_append.mp collected.nodup).2.2 coro member coro
        (List.mem_singleton_self coro) rfl
    rw [last, if_neg (slave_ne_master slave),
      follow_threaded rpcMaxCoro collected.threaded absent (by omega)]
    rfl

theorem ring_from_current {nextCoro : Nat → Nat} {coro : Nat} (checked : args.checkInfo = true)
    (ring : Ring args nextCoro coros round [coro] later) :
    follow nextCoro rpcMasterCoroId rpcMaxCoro coro = some (coro :: later) := by
  have suffix := ring.rest
  have short := round_short checked ring.nodup ring.slaves
  have away : rpcMasterCoroId ∉ coro :: later :=
    fun member => master_not_mem ring.slaves (suffix.subset member)
  have fewer : (coro :: later).length < rpcMaxCoro := Nat.lt_of_le_of_lt suffix.length_le short
  obtain ⟨before, all⟩ := suffix
  have closed := ring.closed
  rw [← all, List.append_assoc, threaded_append] at closed
  have found := follow_threaded rpcMaxCoro closed.2 away fewer
  rw [show nextCoro _ = coro from closed.2.1] at found
  exact found

theorem listed_answered (checked : args.checkInfo = true)
    (scheduled : Scheduled args ep.ctl ep.nextCoro coros round) {coro : Nat}
    (member : coro ∈ listed ep) : (coros coro).answered = true := by
  unfold listed at member
  cases ctl : ep.ctl with
  | polling =>
      rw [ctl] at member
      cases member
  | handling wcs cqComps curCompCoro =>
      rw [ctl] at member scheduled
      simp only [collected_up_to checked scheduled] at member
      exact (scheduled.listed coro member).2
  | responding curCompCoro =>
      rw [ctl] at member scheduled
      simp only [collected_up_to checked scheduled] at member
      exact (scheduled.listed coro member).2
  | running coroId =>
      rw [ctl] at member scheduled
      obtain ⟨later, ring⟩ := scheduled
      simp only [ring_from_current checked ring, Option.getD_some] at member
      rcases List.mem_cons.mp member with same | among
      · rw [same]
        exact (ring.running coroId List.mem_cons_self).2
      · exact (ring.listed coro among).2

end Listed

section Slots

variable {cluster : Cluster} {state next : Swarm} {m coroId i : Nat}

def slot (state : Swarm) (m coroId i : Nat) : RpcReq :=
  ((state.endpoints m).requester.reqBatchArr coroId).reqArr i

/-- The batch of another coroutine, or of an endpoint that does not step, is the
same. -/
theorem slot_elsewhere {actor coro : Nat} {batch : ReqBatch}
    (others : ∀ other, other ≠ actor → next.endpoints other = state.endpoints other)
    (batches : (next.endpoints actor).requester.reqBatchArr =
      Function.update (state.endpoints actor).requester.reqBatchArr coro batch)
    (apart : (m, coroId) ≠ (actor, coro)) : slot next m coroId i = slot state m coroId i := by
  rw [slot, slot]
  by_cases here : m = actor
  · have differs : coroId ≠ coro := by
      intro equal
      exact apart (by rw [here, equal])
    rw [here, batches, Function.update_of_ne differs]
  · rw [others m here]

theorem slot_same {actor : Nat}
    (others : ∀ other, other ≠ actor → next.endpoints other = state.endpoints other)
    (batches : (next.endpoints actor).requester.reqBatchArr =
      (state.endpoints actor).requester.reqBatchArr) :
    slot next m coroId i = slot state m coroId i := by
  rw [slot, slot]
  by_cases here : m = actor
  · rw [here, batches]
  · rw [others m here]

theorem yield_slot (state : Swarm) (actor coro : Nat) :
    slot (state.yieldTo actor coro) m coroId i = slot state m coroId i := by
  apply slot_same (set_endpoint_other state _)
  simp only [set_endpoint_self, Endpoint.yieldTo]

theorem issue_slot (admitted : Admitted cluster) (exchange : Exchange cluster state)
    {actor coro rest : Nat} {specs : List ReqSpec} (below : actor < cluster.numMachines)
    (ran : state.send cluster actor coro rest specs = some next)
    (apart : (m, coroId) ≠ (actor, coro)) : slot next m coroId i = slot state m coroId i := by
  obtain ⟨sender, -, -, rfl⟩ := send_inv admitted exchange below ran
  apply slot_elsewhere (set_endpoint_other state _) _ apart
  · exact ((state.endpoints actor).requester.reqBatchArr coro).buildBatch specs
  · simp only [set_endpoint_self]

/-- A response changes the slots of the requests to the machine it comes from. -/
theorem response_slot (exchange : Exchange cluster state) {actor coro server : Nat}
    {wcs : List Completion} {cqComps : Nat} (below : m < cluster.numMachines)
    (responded : Responded state next actor coro server wcs cqComps) {spec : ReqSpec}
    (found : (state.jobs m coroId).specs[i]? = some spec) :
    slot next m coroId i = slot state m coroId i ∨
      m = actor ∧ coroId = coro ∧ spec.machine = server := by
  by_cases here : (m, coroId) = (actor, coro)
  · obtain ⟨rfl, rfl⟩ := Prod.mk.inj here
    by_cases machine : spec.machine = server
    · exact Or.inr ⟨rfl, rfl, machine⟩
    · left
      rw [slot, slot, responded.requester]
      simp only [Function.update_self, filled]
      rw [fill_other]
      intro frame member number
      obtain ⟨handled, inside, rfl⟩ := List.mem_map.mp member
      obtain ⟨other, named, same, -⟩ := call_request (exchange.jobs m below coroId) inside
      rw [number, found] at named
      exact machine (by rw [Option.some.inj named, same])
  · left
    apply slot_elsewhere responded.others _ here
    · exact filled ((state.endpoints actor).requester.reqBatchArr coro)
        ((callsAt (state.jobs actor coro) server).map Handled.resp)
    · rw [responded.requester]

/-- A slot is written by its coroutine, which builds the next batch, or by a
response to that coroutine from the machine that the request was sent to. -/
theorem slot_written (admitted : Admitted cluster) (exchange : Exchange cluster state)
    (below : m < cluster.numMachines) (label : Label) (ran : step cluster state label = some next)
    {spec : ReqSpec} (found : (state.jobs m coroId).specs[i]? = some spec) :
    slot next m coroId i = slot state m coroId i ∨
      (∃ rest specs, label = .issue m rest specs ∧
        (state.endpoints m).ctl = .running coroId) ∨
      ∃ handler wc wcs cqComps curCompCoro, label = .handle m handler ∧
        (state.endpoints m).ctl = .handling (wc :: wcs) cqComps curCompCoro ∧
        wc.wcImm.isReq = 0 ∧ wc.wcImm.coroId = coroId ∧ wc.wcImm.mchnId = spec.machine := by
  cases label with
  | issue actor rest specs =>
      simp only [step] at ran
      split at ran
      · rename_i coro running
        split_ifs at ran with inside
        obtain ⟨after, sent, rfl⟩ := Option.map_eq_some_iff.mp ran
        by_cases here : (m, coroId) = (actor, coro)
        · obtain ⟨rfl, rfl⟩ := Prod.mk.inj here
          exact Or.inr (Or.inl ⟨rest, specs, rfl, running⟩)
        · left
          rw [yield_slot]
          exact issue_slot admitted exchange inside sent here
      · cases ran
  | arrive index stale =>
      obtain ⟨msg, actor, recv, posted, -, -, -, rfl⟩ := arrive_inv ran
      left
      apply slot_same (set_endpoint_other state _)
      simp only [set_endpoint_self]
  | poll actor cqComps =>
      simp only [step] at ran
      split_ifs at ran with inside
      obtain ⟨-, -, rfl⟩ := poll_inv ran
      left
      apply slot_same (set_endpoint_other state _)
      simp only [set_endpoint_self, Endpoint.poll]
      split_ifs <;> rfl
  | handle actor handler =>
      simp only [step] at ran
      split_ifs at ran with inside
      obtain ⟨wc, wcs, cqComps, curCompCoro, handling, shape⟩ :=
        handle_cases admitted exchange inside ran
      rcases shape with ⟨client, coro, calls, mbuf, -, -, -, -, rfl⟩ |
        ⟨coro, server, packet, called, message, rfl⟩
      · left
        rw [slot, slot, after_request_requester]
      · rcases response_slot exchange below (after_response_responded state actor coro server wcs
          cqComps curCompCoro) found with same | ⟨rfl, rfl, machine⟩
        · exact Or.inl same
        · have imm := response_wc_imm admitted exchange packet message
          refine Or.inr (Or.inr ⟨handler, wc, wcs, cqComps, curCompCoro, rfl, handling, ?_⟩)
          rw [imm]
          exact ⟨rfl, rfl, machine.symm⟩
  | repost actor =>
      simp only [step] at ran
      split_ifs at ran with inside
      obtain ⟨cqComps, curCompCoro, -, rfl⟩ := repost_inv ran
      left
      apply slot_same (set_endpoint_other state _)
      rw [set_endpoint_self, (repost_fields _ _ _ _).1]
  | respond actor =>
      simp only [step] at ran
      split_ifs at ran with inside
      obtain ⟨after, sent, rfl⟩ := Option.map_eq_some_iff.mp ran
      obtain ⟨curCompCoro, sender, -, -, rfl⟩ := respond_inv admitted exchange inside sent
      left
      rw [yield_slot]
      apply slot_same (set_endpoint_other state _)
      simp only [set_endpoint_self]

end Slots

/-- For every request of a listed coroutine the handlers were called once, on the
machine of the request and with the request, and the slot holds the type, the
length and the bytes of the response. Slots are written by nothing else, and
`num_reqs_done` does not pass `num_reqs`. -/
theorem responses_reach_their_requests (cluster : Cluster) (memory : Nat → Memory)
    (built : Nat → Endpoint) (constructed : Constructed cluster memory built) (state : Swarm)
    (reached : Reachable (step cluster) (Swarm.init cluster built) state) (m : Nat)
    (below : m < cluster.numMachines) (coroId : Nat) :
    let batch := (state.endpoints m).requester.reqBatchArr coroId
    let job := state.jobs m coroId
    batch.numReqs = job.specs.length ∧ batch.numReqsDone ≤ batch.numReqs ∧
    (coroId ∈ listed (state.endpoints m) → ∀ i spec, job.specs[i]? = some spec →
      ∃ handled,
        job.calls.filter (fun served => served.handled.call.coroSeqnum == i) =
          [⟨spec.machine, handled⟩] ∧
        handled.call = specFrame spec i ∧ SlotHolds (batch.reqArr i) handled.resp) ∧
    ∀ label next, step cluster state label = some next → ∀ i spec, job.specs[i]? = some spec →
      slot next m coroId i = slot state m coroId i ∨
        (∃ rest specs, label = .issue m rest specs ∧
          (state.endpoints m).ctl = .running coroId) ∨
        ∃ handler wc wcs cqComps curCompCoro, label = .handle m handler ∧
          (state.endpoints m).ctl = .handling (wc :: wcs) cqComps curCompCoro ∧
          wc.wcImm.isReq = 0 ∧ wc.wcImm.coroId = coroId ∧ wc.wcImm.mchnId = spec.machine := by
  have admitted := constructed_admitted constructed
  obtain ⟨opened, schedule⟩ := run_scheduled constructed reached
  have exchange := open_exchange constructed opened
  have holds := exchange.jobs m below coroId
  refine ⟨holds.built.count, done_le holds, ?_, ?_⟩
  · intro member i spec found
    have answered := listed_answered (admitted.checked m below) (schedule m below) member
    have known : spec.machine ∈ dests (state.jobs m coroId).specs :=
      (mem_dests _ _).mpr ⟨spec, List.mem_of_getElem? found, rfl⟩
    obtain ⟨handled, inside, call, number, read⟩ :=
      answered_call holds found ((answered_iff_dests holds).mp answered _ known)
    refine ⟨handled, handled_once holds found inside call, call, ?_⟩
    rw [← number]
    exact holds.slots _ _ read
  · intro label next ran i spec found
    exact slot_written admitted exchange below label ran found

theorem pair_run_listed :
    (pairRun.foldlM (step pair) (Swarm.init pair (uniformBuilt 2 3))).map
      (fun state => (listed (state.endpoints 0),
        (state.jobs 0 1).specs.map fun spec => (spec.machine, spec.payload))) =
      some ([2, 1], [(1, List.replicate 8 7)]) := by
  decide +kernel

theorem responses_reach_their_requests_pair :
    ∃ state, Reachable (step pair) (Swarm.init pair (uniformBuilt 2 3)) state ∧
      ∃ (spec : ReqSpec) (handled : Handled), (state.jobs 0 1).specs = [spec] ∧
        spec.machine = 1 ∧ handled.call = specFrame spec 0 ∧
        SlotHolds (((state.endpoints 0).requester.reqBatchArr 1).reqArr 0) handled.resp := by
  obtain ⟨state, ran, values⟩ := Option.map_eq_some_iff.mp pair_run_listed
  obtain ⟨completed, specs⟩ := Prod.mk.inj values
  obtain ⟨spec, single, shape⟩ := List.map_eq_singleton_iff.mp specs
  have reached := reachable_of_run pairRun .refl ran
  have delivered := (responses_reach_their_requests pair (fun _ => emptyMemory) (uniformBuilt 2 3)
    pair_constructed state reached 0 (by decide) 1).2.2.1
  obtain ⟨handled, -, call, holds⟩ := delivered (by rw [completed]; decide)
    0 spec (by rw [single]; rfl)
  exact ⟨state, reached, spec, handled, single, (Prod.mk.inj shape).1, call, holds⟩

end Fasst.RpcDelivery

import Fasst.RpcExchange

/-!
# Every step keeps the exchange

An arrival, a poll, the posting of RECVs, a yield and the sending of the responses
move packets; sending a batch adds its requests; a request that is handled becomes
a response; a response that is handled is gone and has filled its slots.
-/

namespace Fasst.RpcExchangeSteps

open Fasst.Placement Fasst.TxModel Fasst.Bytes Fasst.RpcDefs Fasst.RpcSend Fasst.RpcSendWindow
open Fasst.RpcBatch Fasst.RpcCoalesce Fasst.RpcSwarm Fasst.RpcResponse Fasst.RpcJobs Fasst.Blocks
open Fasst.RpcExchange Fasst.Runs Fasst.RingSlots

set_option autoImplicit false

variable {cluster : Cluster} {state next : Swarm} {m : Nat}

theorem set_endpoint_other (state : Swarm) (ep : Endpoint) (other : Nat) (apart : other ≠ m) :
    (state.setEndpoint m ep).endpoints other = state.endpoints other :=
  Function.update_of_ne apart _ _

theorem set_endpoint_self (state : Swarm) (m : Nat) (ep : Endpoint) :
    (state.setEndpoint m ep).endpoints m = ep :=
  Function.update_self _ _ _

/-- The jobs did not change. -/
theorem jobs_same (jobs : Nat → Nat → Job) (other coro : Nat) :
    ∃ count, jobs other coro = { jobs other coro with resumed := count } :=
  ⟨(jobs other coro).resumed, rfl⟩

section Arrive

theorem arrive_inv {index : Nat} {stale : Buffer} (ran : state.arrive index stale = some next) :
    ∃ msg m slot posted, state.network[index]? = some msg ∧ msg.remoteMn = some m ∧
      (state.endpoints m).posted = slot :: posted ∧
      next = { state.setEndpoint m
          { state.endpoints m with
            posted := posted
            arrived := (state.endpoints m).arrived ++ [⟨slot, stale, msg⟩] } with
        network := state.network.eraseIdx index } := by
  simp only [Swarm.arrive] at ran
  split at ran
  · cases ran
  · rename_i msg found
    split at ran
    · cases ran
    · rename_i m remote
      split at ran
      · cases ran
      · rename_i slot posted recvs
        exact ⟨msg, m, slot, posted, found, remote, recvs, (Option.some.inj ran).symm⟩

theorem exchange_arrive (exchange : Exchange cluster state) {index : Nat} {stale : Buffer}
    (ran : state.arrive index stale = some next) : Exchange cluster next := by
  obtain ⟨msg, m, slot, posted, found, remote, -, rfl⟩ := arrive_inv ran
  have member : msg ∈ inSystem cluster state :=
    List.mem_append_left _ (List.mem_of_getElem? found)
  obtain ⟨dest, below, same⟩ := in_system_dest exchange member
  have here : m = dest := Option.some.inj (remote.symm.trans same)
  rw [← here] at below
  have endpoint := exchange.endpoints m below
  apply exchange_quiet exchange below
  · exact set_endpoint_other state _
  · simp only [set_endpoint_self]
    refine ⟨endpoint.posting, endpoint.fresh, ?_, endpoint.polled⟩
    intro wc inside
    rcases List.mem_append.mp inside with earlier | last
    · exact endpoint.arrived wc earlier
    · rw [List.mem_singleton.mp last]
      exact remote
  · simp only [set_endpoint_self]
  · exact jobs_same state.jobs
  · obtain ⟨inside, entry⟩ := List.getElem?_eq_some_iff.mp found
    have taken := List.getElem_cons_eraseIdx_perm inside
    rw [entry] at taken
    simp only [set_endpoint_self, held, List.map_append, List.append_assoc]
    apply List.Perm.trans _ (taken.append_right _)
    rw [← List.append_assoc]
    exact List.perm_middle.trans (by rw [List.append_assoc]; exact List.Perm.refl _)

end Arrive

section Master

theorem outside_in_call {ep : Endpoint} (outside : Ctl.outside ep.ctl = true) : inCall ep = [] := by
  unfold inCall
  cases ctl : ep.ctl with
  | polling => rfl
  | running coroId => rfl
  | handling wcs cqComps curCompCoro =>
      rw [ctl] at outside
      cases outside
  | responding curCompCoro =>
      rw [ctl] at outside
      cases outside

theorem yield_outside (ep : Endpoint) (coroId : Nat) :
    Ctl.outside (ep.yieldTo coroId).ctl = true := by
  simp only [Endpoint.yieldTo]
  split_ifs <;> rfl

theorem outside_polled {args : RpcArgs} {ep after : Endpoint}
    (endpoint : EndpointHolds args m ep) (requester : after.requester = ep.requester)
    (batch : RespFresh after.respBatch) (arrived : after.arrived = ep.arrived)
    (outside : Ctl.outside after.ctl = true) : EndpointHolds args m after := by
  refine ⟨?_, batch, ?_, ?_⟩
  · rw [requester]
    exact endpoint.posting
  · rw [arrived]
    exact endpoint.arrived
  · intro wcs cqComps curCompCoro ctl
    rw [ctl] at outside
    cases outside

theorem resume_other (jobs : Nat → Job) {coroId coro : Nat} (apart : coro ≠ coroId) :
    Job.resume jobs coroId coro = jobs coro := by
  unfold Job.resume
  split_ifs with master
  · rfl
  · exact Function.update_of_ne apart _ _

theorem resume_job (jobs : Nat → Job) (coroId coro : Nat) :
    ∃ count, Job.resume jobs coroId coro = { jobs coro with resumed := count } := by
  by_cases here : coro = coroId
  · rw [here, Job.resume]
    split_ifs with master
    · exact ⟨(jobs coroId).resumed, rfl⟩
    · rw [Function.update_self]
      exact ⟨_, rfl⟩
  · rw [resume_other jobs here]
    exact ⟨(jobs coro).resumed, rfl⟩

theorem exchange_yield (exchange : Exchange cluster state) (below : m < cluster.numMachines)
    (outside : Ctl.outside (state.endpoints m).ctl = true) (coroId : Nat) :
    Exchange cluster (state.yieldTo m coroId) := by
  have endpoint := exchange.endpoints m below
  have yielded : (state.yieldTo m coroId).endpoints m = (state.endpoints m).yieldTo coroId :=
    set_endpoint_self state m _
  apply exchange_quiet exchange below
  · exact set_endpoint_other state _
  · rw [yielded]
    exact outside_polled endpoint rfl endpoint.fresh rfl (yield_outside _ _)
  · rw [yielded]
    rfl
  · intro other coro
    simp only [Swarm.yieldTo]
    by_cases here : other = m
    · rw [here, Function.update_self]
      exact resume_job (state.jobs m) coroId coro
    · rw [Function.update_of_ne here]
      exact jobs_same state.jobs other coro
  · rw [yielded, held, held, outside_in_call outside, outside_in_call (yield_outside _ _)]
    exact List.Perm.refl _

theorem poll_inv {cqComps : Nat} (ran : state.poll m cqComps = some next) :
    (state.endpoints m).ctl = .polling ∧ cqComps ≤ (state.endpoints m).arrived.length ∧
      next = (state.setEndpoint m ((state.endpoints m).poll cqComps)).setRound m [] := by
  simp only [Swarm.poll] at ran
  split at ran
  · rename_i polling
    split_ifs at ran with enough
    exact ⟨polling, enough, (Option.some.inj ran).symm⟩
  · cases ran

theorem exchange_poll (exchange : Exchange cluster state) (below : m < cluster.numMachines)
    {cqComps : Nat} (ran : state.poll m cqComps = some next) : Exchange cluster next := by
  obtain ⟨polling, -, rfl⟩ := poll_inv ran
  have endpoint := exchange.endpoints m below
  have polled : ((state.setEndpoint m ((state.endpoints m).poll cqComps)).setRound m []).endpoints m
      = (state.endpoints m).poll cqComps := set_endpoint_self state m _
  have idle : inCall (state.endpoints m) = [] := outside_in_call (by rw [polling]; rfl)
  apply exchange_quiet exchange below
  · exact set_endpoint_other state _
  · rw [polled, Endpoint.poll]
    split_ifs with none
    · exact outside_polled endpoint rfl endpoint.fresh rfl (by rw [polling]; rfl)
    · refine ⟨endpoint.posting, clear_resp_fresh endpoint.fresh, ?_, ?_⟩
      · intro wc inside
        exact endpoint.arrived wc (List.mem_of_mem_drop inside)
      · intro wcs comps cur ctl wc inside
        injection ctl with taken
        rw [← taken] at inside
        exact endpoint.arrived wc (List.mem_of_mem_take inside)
  · rw [polled, Endpoint.poll]
    split_ifs <;> rfl
  · exact jobs_same state.jobs
  · rw [polled]
    apply List.Perm.append_left
    rw [held, held, idle, List.append_nil, Endpoint.poll]
    split_ifs with none
    · rw [outside_in_call (by rw [polling]; rfl), List.append_nil]
    · simp only [inCall, clear_cmsgs, List.map_nil, List.append_nil]
      rw [← List.map_append]
      apply List.Perm.map
      exact List.perm_append_comm.trans (by rw [List.take_append_drop])

theorem repost_inv (ran : state.repost cluster m = some next) :
    ∃ cqComps curCompCoro, (state.endpoints m).ctl = .handling [] cqComps curCompCoro ∧
      next = state.setEndpoint m
        ((state.endpoints m).repost (cluster.args m) cqComps curCompCoro) := by
  simp only [Swarm.repost] at ran
  split at ran
  · rename_i cqComps curCompCoro handling
    exact ⟨cqComps, curCompCoro, handling, (Option.some.inj ran).symm⟩
  · cases ran

theorem repost_fields (args : RpcArgs) (ep : Endpoint) (cqComps curCompCoro : Nat) :
    (ep.repost args cqComps curCompCoro).requester = ep.requester ∧
      (ep.repost args cqComps curCompCoro).respBatch = ep.respBatch ∧
      (ep.repost args cqComps curCompCoro).arrived = ep.arrived ∧
      (ep.repost args cqComps curCompCoro).nextCoro = ep.nextCoro ∧
      (ep.repost args cqComps curCompCoro).ctl = .responding curCompCoro := by
  simp only [Endpoint.repost]
  split_ifs <;> exact ⟨rfl, rfl, rfl, rfl, trivial⟩

theorem exchange_repost (exchange : Exchange cluster state) (below : m < cluster.numMachines)
    (ran : state.repost cluster m = some next) : Exchange cluster next := by
  obtain ⟨cqComps, curCompCoro, handling, rfl⟩ := repost_inv ran
  have endpoint := exchange.endpoints m below
  obtain ⟨requester, batch, arrived, -, ctl⟩ :=
    repost_fields (cluster.args m) (state.endpoints m) cqComps curCompCoro
  apply exchange_quiet exchange below
  · exact set_endpoint_other state _
  · rw [set_endpoint_self]
    refine ⟨?_, ?_, ?_, ?_⟩
    · rw [requester]
      exact endpoint.posting
    · rw [batch]
      exact endpoint.fresh
    · rw [arrived]
      exact endpoint.arrived
    · intro wcs comps cur impossible
      rw [ctl] at impossible
      cases impossible
  · rw [set_endpoint_self, requester]
  · exact jobs_same state.jobs
  · rw [set_endpoint_self, held, held, arrived, inCall, inCall, ctl, handling, batch]
    exact List.Perm.refl _

theorem send_resps_posted {args : RpcArgs} (accepted : RpcSendWindow.Accepted args) {sender : Sender}
    (posting : Posting args sender 0 sender.messages) (cmsgs : List Cmsg) :
    ∃ after, sendResps args sender cmsgs = .ok after ∧ Posting args after 0 after.messages ∧
      emitted sender after = cmsgs.map respMessage := by
  obtain ⟨after, ran, kept⟩ := call_posting accepted (.resps cmsgs) posting
  have all := posting_messages kept
  refine ⟨after, ran, all.symm ▸ kept, ?_⟩
  rw [emitted, all, List.drop_left]
  rfl

theorem respond_inv (admitted : Admitted cluster) (exchange : Exchange cluster state)
    (below : m < cluster.numMachines) (ran : state.respond cluster m = some next) :
    ∃ curCompCoro sender, (state.endpoints m).ctl = .responding curCompCoro ∧
      Posting (cluster.args m) sender 0 sender.messages ∧
      next = { state.setEndpoint m
          { state.endpoints m with
            requester := { (state.endpoints m).requester with sender := sender }
            nextCoro := Function.update (state.endpoints m).nextCoro curCompCoro rpcMasterCoroId
            ctl := .polling } with
        network := state.network ++ (state.endpoints m).respBatch.cmsgs.map respMessage } := by
  have posting := (exchange.endpoints m below).posting
  obtain ⟨after, sent, kept, posted⟩ := send_resps_posted
    (check_info_accepted (admitted.checked m below)).1 posting (state.endpoints m).respBatch.cmsgs
  simp only [Swarm.respond] at ran
  split at ran
  · rename_i curCompCoro responding
    by_cases some_ : 0 < (state.endpoints m).respBatch.numCresps
    · simp only [Endpoint.respond, if_pos some_, sent, Option.map_some, Option.some.injEq] at ran
      refine ⟨curCompCoro, after, responding, kept, ?_⟩
      rw [← ran, Swarm.transmit]
      simp only [posted]
    · simp only [Endpoint.respond, if_neg some_, Option.map_some, Option.some.injEq] at ran
      refine ⟨curCompCoro, (state.endpoints m).requester.sender, responding, posting, ?_⟩
      have none_ : (state.endpoints m).respBatch.cmsgs = [] := by
        rw [RespBatch.cmsgs, Nat.eq_zero_of_not_pos some_]
        rfl
      rw [← ran, Swarm.transmit, none_]
      simp only [emitted, List.drop_length, List.map_nil]
  · cases ran

theorem exchange_respond (admitted : Admitted cluster) (exchange : Exchange cluster state)
    (below : m < cluster.numMachines) (ran : state.respond cluster m = some next) :
    Exchange cluster next := by
  obtain ⟨curCompCoro, sender, responding, posting, rfl⟩ :=
    respond_inv admitted exchange below ran
  have endpoint := exchange.endpoints m below
  apply exchange_quiet exchange below
  · exact set_endpoint_other state _
  · simp only [set_endpoint_self]
    refine ⟨posting, endpoint.fresh, endpoint.arrived, ?_⟩
    intro wcs comps cur impossible
    cases impossible
  · simp only [set_endpoint_self]
  · exact jobs_same state.jobs
  · simp only [set_endpoint_self, held, inCall, responding, List.append_nil, List.append_assoc]
    exact List.perm_append_comm.append_left _

end Master

section Send

variable {coroId rest : Nat} {specs : List ReqSpec}

structure Sendable (cluster : Cluster) (specs : List ReqSpec) : Prop where
  some_ : specs ≠ []
  few : specs.length ≤ rpcMaxMsgCoro
  machines : ∀ mn ∈ dests specs, mn < cluster.numMachines
  fits : ∀ mn, ∀ frame ∈ framesTo specs mn, FrameFits frame

theorem sendable_batch (admitted : Admitted cluster) (exchange : Exchange cluster state)
    (below : m < cluster.numMachines)
    (sendable : (state.endpoints m).sendable (cluster.args m) coroId specs = true) :
    Sendable cluster specs := by
  simp only [Endpoint.sendable, Bool.and_eq_true, Bool.not_eq_true', decide_eq_true_eq,
    List.all_eq_true, List.isEmpty_eq_false_iff] at sendable
  obtain ⟨⟨⟨some_, few⟩, machines⟩, packets⟩ := sendable
  refine ⟨some_, few, ?_, ?_⟩
  · intro mn known
    obtain ⟨spec, member, rfl⟩ := (mem_dests specs mn).mp known
    rw [← cluster.sized m below]
    exact machines spec member
  · intro mn
    by_cases known : mn ∈ dests specs
    · have built := build_batch_built (exchange.jobs m below coroId).built specs
      obtain ⟨i, found⟩ := List.getElem?_of_mem known
      obtain ⟨inside, -⟩ := List.getElem?_eq_some_iff.mp found
      apply frames_fit_packet (admitted.checked m below) mn few
      rw [← (built.used i mn found).cursor]
      apply packets
      apply List.mem_map_of_mem
      rw [List.mem_range, built.machines]
      exact inside
    · rw [frames_to_nil specs mn known]
      nofun

theorem send_inv (admitted : Admitted cluster) (exchange : Exchange cluster state)
    (below : m < cluster.numMachines) (ran : state.send cluster m coroId rest specs = some next) :
    ∃ sender, Sendable cluster specs ∧ Posting (cluster.args m) sender 0 sender.messages ∧
      next = Swarm.setJob
        { state.setEndpoint m
          { state.endpoints m with
            requester :=
              ⟨Function.update (state.endpoints m).requester.reqBatchArr coroId
                (((state.endpoints m).requester.reqBatchArr coroId).buildBatch specs), sender⟩ } with
          network := state.network ++
            (dests specs).map (requestMessage (cluster.args m) coroId rest specs) }
        m coroId ((state.jobs m coroId).issue rest specs) := by
  obtain ⟨after, sent, rfl⟩ := Option.map_eq_some_iff.mp ran
  have built := build_batch_built (exchange.jobs m below coroId).built specs
  obtain ⟨sender, ok, posting, posted⟩ := send_built
    (check_info_accepted (admitted.checked m below)).1 (exchange.endpoints m below).posting built
    coroId rest
  unfold Endpoint.send at sent
  split_ifs at sent with sendable
  have done : sendBatch (cluster.args m) coroId rest specs (state.endpoints m).requester =
      .ok ⟨Function.update (state.endpoints m).requester.reqBatchArr coroId
        (((state.endpoints m).requester.reqBatchArr coroId).buildBatch specs), sender⟩ := by
    rw [sendBatch, ok]
    rfl
  rw [done] at sent
  refine ⟨sender, sendable_batch admitted exchange below sendable, posting, ?_⟩
  rw [← Option.some.inj sent, Swarm.transmit]
  simp only [posted]

theorem outstanding_issued (args : RpcArgs) (coroId rest : Nat) (job : Job)
    (specs : List ReqSpec) :
    outstanding args coroId (job.issue rest specs) =
      (dests specs).map (requestMessage args coroId rest specs) := by
  have each : underWay args coroId (job.issue rest specs) =
      fun mn => [requestMessage args coroId rest specs mn] := by
    funext mn
    rfl
  rw [outstanding, each]
  exact List.map_eq_flatMap.symm

theorem outstanding_answered {numMachines : Nat} {batch : ReqBatch} {job : Job}
    (holds : JobHolds numMachines batch job) (answered : job.answered = true) (args : RpcArgs)
    (coroId : Nat) : outstanding args coroId job = [] := by
  rw [outstanding, List.flatMap_eq_nil_iff]
  intro mn known
  rw [underWay, if_pos ((answered_iff_dests holds).mp answered mn known)]

theorem set_job_self (state : Swarm) (m coroId : Nat) (job : Job) :
    (state.setJob m coroId job).jobs m coroId = job := by
  simp only [Swarm.setJob, Function.update_self]

theorem set_job_other (state : Swarm) (m coroId : Nat) (job : Job) (other coro : Nat)
    (apart : (other, coro) ≠ (m, coroId)) :
    (state.setJob m coroId job).jobs other coro = state.jobs other coro := by
  simp only [Swarm.setJob]
  by_cases here : other = m
  · have differs : coro ≠ coroId := by
      intro equal
      exact apart (by rw [here, equal])
    rw [here, Function.update_self, Function.update_of_ne differs]
  · rw [Function.update_of_ne here]

theorem exchange_send (admitted : Admitted cluster) (exchange : Exchange cluster state)
    (below : m < cluster.numMachines) (slave : coroId ∈ slaves (cluster.args m))
    (answered : (state.jobs m coroId).answered = true)
    (ran : state.send cluster m coroId rest specs = some next) : Exchange cluster next := by
  obtain ⟨sender, sendable, posting, rfl⟩ := send_inv admitted exchange below ran
  have endpoint := exchange.endpoints m below
  have holds := exchange.jobs m below coroId
  refine ⟨?_, ?_, ?_⟩
  · intro other inside
    by_cases here : other = m
    · rw [here]
      simp only [Swarm.setJob, set_endpoint_self]
      exact ⟨posting, endpoint.fresh, endpoint.arrived, endpoint.polled⟩
    · simp only [Swarm.setJob, set_endpoint_other state _ other here]
      exact exchange.endpoints other inside
  · intro other inside coro
    by_cases here : (other, coro) = (m, coroId)
    · obtain ⟨rfl, rfl⟩ := Prod.mk.inj here
      rw [set_job_self]
      simp only [Swarm.setJob, set_endpoint_self, Function.update_self]
      exact issue_holds holds.built rest specs sendable.few sendable.machines sendable.fits
    · rw [set_job_other _ _ _ _ _ _ here]
      by_cases same : other = m
      · have differs : coro ≠ coroId := by
          intro equal
          exact here (by rw [same, equal])
        rw [same]
        simp only [Swarm.setJob, set_endpoint_self, Function.update_of_ne differs]
        exact exchange.jobs m below coro
      · simp only [Swarm.setJob, set_endpoint_other state _ other same]
        exact exchange.jobs other inside coro
  · apply traffic_kept exchange.traffic
    · apply in_system_change below
      · exact set_endpoint_other state _
      · exact List.Perm.refl ([] ++ _)
      · simp only [Swarm.setJob, set_endpoint_self]
        rw [List.append_assoc]
        exact List.perm_append_comm_assoc _ _ _
    · apply expected_change below slave (set_job_other _ m coroId _)
      · rw [outstanding_answered holds answered]
        exact List.Perm.refl ([] ++ [])
      · rw [set_job_self, outstanding_issued, List.append_nil]

end Send

section Handle

variable {wc : Completion} {wcs : List Completion} {cqComps curCompCoro coroId : Nat}

theorem check_info_coros {args : RpcArgs} (checked : args.checkInfo = true) :
    2 ≤ args.numCoro ∧ args.numCoro ≤ rpcMaxCoro := by
  simp only [RpcArgs.checkInfo, Bool.and_eq_true, decide_eq_true_eq] at checked
  obtain ⟨⟨⟨⟨⟨⟨⟨⟨-, coros⟩, -⟩, -⟩, -⟩, -⟩, -⟩, -⟩, -⟩ := checked
  exact coros

theorem slave_bound (admitted : Admitted cluster) (below : m < cluster.numMachines)
    (slave : coroId ∈ slaves (cluster.args m)) : 1 ≤ coroId ∧ coroId < rpcMaxCoro := by
  have coros := check_info_coros (admitted.checked m below)
  obtain ⟨first, last⟩ := List.mem_range'_1.mp slave
  exact ⟨first, by omega⟩

theorem machine_bound (admitted : Admitted cluster) (below : m < cluster.numMachines) :
    m < 128 := by
  have bound := admitted.bound
  simp only [hotsMaxMachines] at bound
  omega

/-- The next completion is a request to this machine or a response to one of its
coroutines. -/
theorem head_packet (exchange : Exchange cluster state) (below : m < cluster.numMachines)
    (handling : (state.endpoints m).ctl = .handling (wc :: wcs) cqComps curCompCoro) :
    (∃ client coroId, Packet cluster state.jobs client coroId m ∧
        callsAt (state.jobs client coroId) m = [] ∧
        wc.msg = requestMessage (cluster.args client) coroId (state.jobs client coroId).rest
          (state.jobs client coroId).specs m) ∨
      ∃ coroId server, Packet cluster state.jobs m coroId server ∧
        callsAt (state.jobs m coroId) server ≠ [] ∧
        wc.msg = responseMessage (cluster.args m) coroId (state.jobs m coroId) server := by
  have inside : wc.msg ∈ inSystem cluster state := by
    apply List.mem_append_right
    rw [List.mem_flatMap]
    refine ⟨m, List.mem_range.mpr below, List.mem_append_right _ ?_⟩
    rw [inCall, handling]
    exact List.mem_append_left _ List.mem_cons_self
  have remote := (exchange.endpoints m below).polled _ _ _ handling wc List.mem_cons_self
  obtain ⟨client, coroId, server, packet, shape⟩ := in_system_packet exchange inside
  rcases shape with ⟨uncalled, message⟩ | ⟨called, message⟩
  · rw [message] at remote
    rw [Option.some.inj remote] at packet uncalled message
    exact Or.inl ⟨client, coroId, packet, uncalled, message⟩
  · rw [message] at remote
    have own : client = m := by
      rw [← cluster.placed client packet.below]
      exact Option.some.inj remote
    rw [own] at packet called message
    exact Or.inr ⟨coroId, server, packet, called, message⟩

theorem request_wc_imm (admitted : Admitted cluster) (exchange : Exchange cluster state)
    {client : Nat} (packet : Packet cluster state.jobs client coroId m)
    (message : wc.msg = requestMessage (cluster.args client) coroId (state.jobs client coroId).rest
      (state.jobs client coroId).specs m) :
    wc.wcImm = ⟨1, (framesTo (state.jobs client coroId).specs m).length, 0, client, coroId,
      (state.jobs client coroId).rest % 2 ^ 10⟩ := by
  have machine := cluster.placed client packet.below
  rw [Completion.wcImm, message, request_imm, machine]
  · rw [machine]
    exact machine_bound admitted packet.below
  · exact (slave_bound admitted packet.below packet.slave).2
  · exact (exchange.jobs client packet.below coroId).few

theorem response_wc_imm (admitted : Admitted cluster) (exchange : Exchange cluster state)
    {server : Nat} (packet : Packet cluster state.jobs m coroId server)
    (message : wc.msg = responseMessage (cluster.args m) coroId (state.jobs m coroId) server) :
    wc.wcImm = ⟨0, (framesTo (state.jobs m coroId).specs server).length, 0, server, coroId,
      (state.jobs m coroId).rest % 2 ^ 10⟩ := by
  have holds := exchange.jobs m packet.below coroId
  have machine := cluster.placed m packet.below
  rw [Completion.wcImm, message, responseMessage, resp_imm_of, request_imm]
  · rw [machine]
    exact machine_bound admitted packet.below
  · exact (slave_bound admitted packet.below packet.slave).2
  · exact holds.few
  · exact machine_bound admitted (holds.machines server packet.dest)

def afterRequest (state : Swarm) (m client coroId : Nat) (wc : Completion)
    (wcs : List Completion) (cqComps curCompCoro : Nat) (calls : List Handled) (mbuf : Mbuf) :
    Swarm :=
  (state.setEndpoint m
    { state.endpoints m with
      respBatch := withResponse (state.endpoints m).respBatch m client wc.wcImm.numReqs
        wc.msg.immData mbuf
      ctl := .handling wcs cqComps curCompCoro }).setJob client coroId
    ((state.jobs client coroId).serve m calls)

structure Calls (args : RpcArgs) (specs : List ReqSpec) (m : Nat) (calls : List Handled)
    (mbuf : Mbuf) : Prop where
  frames : calls.map Handled.call = framesTo specs m
  paired : ∀ handled ∈ calls, Paired handled ∧ FrameFits handled.resp
  holds : MbufHolds mbuf (calls.map Handled.resp)

theorem handle_request (admitted : Admitted cluster) (exchange : Exchange cluster state)
    (below : m < cluster.numMachines) {client : Nat} {handler : Frame → HandlerResult}
    (packet : Packet cluster state.jobs client coroId m)
    (message : wc.msg = requestMessage (cluster.args client) coroId (state.jobs client coroId).rest
      (state.jobs client coroId).specs m)
    (ran : state.handleRequest cluster m wc wcs cqComps curCompCoro handler = some next) :
    ∃ calls mbuf, Calls (cluster.args m) (state.jobs client coroId).specs m calls mbuf ∧
      next = afterRequest state m client coroId wc wcs cqComps curCompCoro calls mbuf := by
  have holds := exchange.jobs client packet.below coroId
  have imm := request_wc_imm admitted exchange packet message
  have fresh := (exchange.endpoints m below).fresh _ (Nat.le_refl _)
  have payload : Stored wc.wcBuf 0 (encode (framesTo (state.jobs client coroId).specs m)) := by
    rw [Completion.wcBuf, message]
    exact stored_write _ _ _
  have empty : MbufHolds
      ((state.endpoints m).respBatch.cmsgArr (state.endpoints m).respBatch.numCresps).respMbuf [] :=
    ⟨fresh, rfl⟩
  obtain ⟨calls, -⟩ := request_loop_calls wc.wcBuf handler _ 0 ((state.endpoints m).respBatch.cmsgArr
    (state.endpoints m).respBatch.numCresps).respMbuf (holds.fits m) payload
  obtain ⟨paired, left⟩ := request_loop_holds handler _ [] _ (holds.fits m) payload empty
  unfold Swarm.handleRequest at ran
  simp only [Endpoint.handleRequest, RespBatch.startNewResp, Function.update_self, imm,
    cluster.placed m below] at ran
  split_ifs at ran with fits
  simp only [Endpoint.respFits, RespBatch.setRespMbuf, Nat.add_sub_cancel, Function.update_self,
    decide_eq_true_eq, Mbuf.length] at fits
  refine ⟨_, _, ⟨calls, ?_, left⟩, ?_⟩
  · intro handled member
    have called : handled.call ∈ framesTo (state.jobs client coroId).specs m := by
      rw [← calls]
      exact List.mem_map_of_mem member
    have size := frame_data_le (List.mem_map_of_mem (f := Handled.resp) member)
    rw [List.nil_append] at left
    rw [← left.cursor] at size
    have bound := (check_info_accepted (admitted.checked m below)).2
    simp only [rpcMaxMaxPktSize] at bound
    refine ⟨paired handled member, (paired handled member).2, ?_, by omega⟩
    rw [(paired handled member).1]
    exact (holds.fits m _ called).2.1
  · rw [← Option.some.inj ran, afterRequest, imm]
    rfl

/-- The packets of a batch when the one between the coroutine and a machine is
replaced. -/
theorem outstanding_change (args : RpcArgs) (coroId : Nat) {job : Job} (after : Job)
    {server : Nat} (dest : server ∈ dests job.specs) (rest : after.rest = job.rest)
    (specs : after.specs = job.specs)
    (calls : ∀ mn, mn ≠ server → callsAt after mn = callsAt job mn)
    (received : ∀ mn, mn ≠ server → receivedFrom after mn = receivedFrom job mn) :
    ∃ common, (outstanding args coroId job).Perm (underWay args coroId job server ++ common) ∧
      (outstanding args coroId after).Perm (underWay args coroId after server ++ common) := by
  rw [outstanding, outstanding, specs]
  apply perm_replace (dests_nodup job.specs) dest
  · intro mn apart
    simp only [underWay, responseMessage, calls mn apart, received mn apart, rest, specs]
  · rw [List.append_nil]
  · rw [List.append_nil]

theorem request_under_way (args : RpcArgs) (coroId : Nat) {job : Job} {server : Nat}
    (unanswered : receivedFrom job server = []) (uncalled : callsAt job server = []) :
    underWay args coroId job server = [requestMessage args coroId job.rest job.specs server] := by
  rw [underWay, if_neg (not_not.mpr unanswered), if_pos uncalled]

theorem response_under_way (args : RpcArgs) (coroId : Nat) {job : Job} {server : Nat}
    (unanswered : receivedFrom job server = []) (called : callsAt job server ≠ []) :
    underWay args coroId job server = [responseMessage args coroId job server] := by
  rw [underWay, if_neg (not_not.mpr unanswered), if_neg called]

theorem calls_some {args : RpcArgs} {specs : List ReqSpec} {calls : List Handled} {mbuf : Mbuf}
    (made : Calls args specs m calls mbuf) (dest : m ∈ dests specs) : calls ≠ [] := by
  intro none
  have frames := made.frames
  rw [none] at frames
  exact frames_to_ne_nil dest frames.symm

theorem held_handling {ep : Endpoint} {network : List Message}
    (handling : ep.ctl = .handling wcs cqComps curCompCoro) :
    network ++ held ep = network ++ ep.arrived.map Completion.msg ++ wcs.map Completion.msg ++
      ep.respBatch.cmsgs.map respMessage := by
  rw [held, inCall, handling]
  simp only [List.append_assoc]

/-- The first completion among the packets of its endpoint. -/
theorem held_head {ep : Endpoint} {network : List Message}
    (handling : ep.ctl = .handling (wc :: wcs) cqComps curCompCoro) :
    (network ++ held ep).Perm ([wc.msg] ++ (network ++ ep.arrived.map Completion.msg ++
      wcs.map Completion.msg ++ ep.respBatch.cmsgs.map respMessage)) := by
  rw [held_handling handling, List.map_cons]
  exact List.perm_middle.append_right _

/-- The last response among the packets of its endpoint. -/
theorem held_reply {ep : Endpoint} {network : List Message} {batch : RespBatch} {reply : Message}
    (added : batch.cmsgs.map respMessage = ep.respBatch.cmsgs.map respMessage ++ [reply]) :
    (network ++ held
        { ep with respBatch := batch, ctl := .handling wcs cqComps curCompCoro }).Perm
      ([reply] ++ (network ++ ep.arrived.map Completion.msg ++
        wcs.map Completion.msg ++ ep.respBatch.cmsgs.map respMessage)) := by
  rw [held_handling rfl]
  simp only [added]
  rw [← List.append_assoc]
  exact List.perm_append_comm

theorem after_request_requester (state : Swarm) (m client coroId : Nat) (wc : Completion)
    (wcs : List Completion) (cqComps curCompCoro : Nat) (calls : List Handled) (mbuf : Mbuf)
    (other : Nat) :
    ((afterRequest state m client coroId wc wcs cqComps curCompCoro calls mbuf).endpoints
      other).requester = (state.endpoints other).requester := by
  simp only [afterRequest, Swarm.setJob]
  by_cases here : other = m
  · rw [here, set_endpoint_self]
  · rw [set_endpoint_other state _ other here]

theorem exchange_request (exchange : Exchange cluster state) (below : m < cluster.numMachines)
    {client : Nat} (packet : Packet cluster state.jobs client coroId m)
    (uncalled : callsAt (state.jobs client coroId) m = [])
    (message : wc.msg = requestMessage (cluster.args client) coroId (state.jobs client coroId).rest
      (state.jobs client coroId).specs m)
    (handling : (state.endpoints m).ctl = .handling (wc :: wcs) cqComps curCompCoro)
    {calls : List Handled} {mbuf : Mbuf}
    (made : Calls (cluster.args m) (state.jobs client coroId).specs m calls mbuf) :
    Exchange cluster (afterRequest state m client coroId wc wcs cqComps curCompCoro calls mbuf) := by
  have endpoint := exchange.endpoints m below
  have holds := exchange.jobs client packet.below coroId
  have own : callsAt ((state.jobs client coroId).serve m calls) m = calls := by
    rw [serve_calls_at, uncalled, if_pos rfl, List.nil_append]
  refine ⟨?_, ?_, ?_⟩
  · intro other inside
    simp only [afterRequest, Swarm.setJob]
    by_cases here : other = m
    · rw [here, set_endpoint_self]
      refine ⟨endpoint.posting, with_response_fresh endpoint.fresh _ _ _ _ _, endpoint.arrived, ?_⟩
      intro rest comps cur ctl wc member
      injection ctl with same
      rw [← same] at member
      exact endpoint.polled _ _ _ handling wc (List.mem_cons_of_mem _ member)
    · rw [set_endpoint_other state _ other here]
      exact exchange.endpoints other inside
  · intro other inside coro
    rw [after_request_requester]
    by_cases here : (other, coro) = (client, coroId)
    · obtain ⟨rfl, rfl⟩ := Prod.mk.inj here
      rw [afterRequest, set_job_self]
      exact serve_holds holds uncalled made.frames made.paired
    · rw [afterRequest, set_job_other _ _ _ _ _ _ here]
      exact exchange.jobs other inside coro
  · have reply : underWay (cluster.args client) coroId ((state.jobs client coroId).serve m calls) m =
        [⟨some client, RespBatch.respImmOf m wc.msg.immData, mbuf.length, mbuf.contents⟩] := by
      have called := calls_some made packet.dest
      have unanswered : receivedFrom ((state.jobs client coroId).serve m calls) m = [] :=
        packet.unanswered
      rw [← own] at called
      rw [response_under_way _ _ unanswered called, responseMessage, own,
        cluster.placed client packet.below, holds_contents made.holds, Mbuf.length,
        made.holds.cursor, message]
      rfl
    have other : ∀ mn, mn ≠ m → callsAt ((state.jobs client coroId).serve m calls) mn =
        callsAt (state.jobs client coroId) mn := by
      intro mn apart
      rw [serve_calls_at, if_neg apart.symm, List.append_nil]
    obtain ⟨common, before, after⟩ := outstanding_change (cluster.args client) coroId
      ((state.jobs client coroId).serve m calls) packet.dest rfl rfl other fun _ _ => rfl
    rw [request_under_way _ _ packet.unanswered uncalled, ← message] at before
    rw [reply] at after
    apply traffic_kept exchange.traffic
    · apply in_system_change below
      · exact set_endpoint_other state _
      · exact held_head handling
      · simp only [afterRequest, Swarm.setJob, set_endpoint_self]
        exact held_reply (with_response_cmsgs _ _ _ _ _ _)
    · apply expected_change packet.below packet.slave
      · exact set_job_other _ _ _ _
      · exact before
      · rw [afterRequest, set_job_self]
        exact after

def filled (batch : ReqBatch) (frames : List Frame) : ReqBatch :=
  frames.foldl fillSlot { batch with numReqsDone := batch.numReqsDone + frames.length }

/-- The endpoint after a response, as far as it does not depend on whether the
batch is complete. -/
def withBatch (ep : Endpoint) (coroId : Nat) (batch : ReqBatch) : Endpoint :=
  { ep with
    requester := { ep.requester with
      reqBatchArr := Function.update ep.requester.reqBatchArr coroId batch } }

def afterResponse (state : Swarm) (m coroId server : Nat) (wcs : List Completion)
    (cqComps curCompCoro : Nat) : Swarm :=
  let job := state.jobs m coroId
  let frames := (callsAt job server).map Handled.resp
  let after := job.receive server frames
  let ep := withBatch (state.endpoints m) coroId
    (filled ((state.endpoints m).requester.reqBatchArr coroId) frames)
  if after.answered = true then
    ((state.setEndpoint m
      { ep with
        nextCoro := Function.update ep.nextCoro curCompCoro coroId
        ctl := .handling wcs cqComps coroId }).setJob m coroId after).setRound m
      (state.round m ++ [coroId])
  else
    ((state.setEndpoint m
      { ep with ctl := .handling wcs cqComps curCompCoro }).setJob m coroId after).setRound m
      (state.round m)

theorem response_frames_count {numMachines : Nat} {batch : ReqBatch} {job : Job} {server : Nat}
    (holds : JobHolds numMachines batch job) (called : callsAt job server ≠ []) :
    (framesTo job.specs server).length = ((callsAt job server).map Handled.resp).length := by
  rw [← holds.calls server called, List.length_map, List.length_map]

theorem unanswered_job {numMachines : Nat} {batch : ReqBatch} {job : Job} {server : Nat}
    (holds : JobHolds numMachines batch job) (dest : server ∈ dests job.specs)
    (unanswered : receivedFrom job server = []) : job.answered = false := by
  rw [← Bool.not_eq_true, answered_iff_dests holds]
  intro all
  exact all server dest unanswered

theorem handle_response (admitted : Admitted cluster) (exchange : Exchange cluster state)
    {server : Nat} (packet : Packet cluster state.jobs m coroId server)
    (called : callsAt (state.jobs m coroId) server ≠ [])
    (message : wc.msg = responseMessage (cluster.args m) coroId (state.jobs m coroId) server) :
    state.handleResponse m wc wcs cqComps curCompCoro =
      afterResponse state m coroId server wcs cqComps curCompCoro := by
  have holds := exchange.jobs m packet.below coroId
  have imm := response_wc_imm admitted exchange packet message
  have payload : Stored wc.wcBuf 0
      (encode ((callsAt (state.jobs m coroId) server).map Handled.resp)) := by
    rw [Completion.wcBuf, message]
    exact stored_write _ _ _
  have fits : ∀ frame ∈ (callsAt (state.jobs m coroId) server).map Handled.resp,
      FrameFits frame := by
    intro frame member
    obtain ⟨handled, inside, rfl⟩ := List.mem_map.mp member
    exact (holds.paired server handled inside).2
  have count := response_frames_count holds called
  have kept := receive_holds holds packet.unanswered called rfl
  have test := done_iff_answered kept
  obtain ⟨reqs, done, -⟩ := fill_fields ((callsAt (state.jobs m coroId) server).map Handled.resp)
    { (state.endpoints m).requester.reqBatchArr coroId with
      numReqsDone := ((state.endpoints m).requester.reqBatchArr coroId).numReqsDone +
        ((callsAt (state.jobs m coroId) server).map Handled.resp).length }
  rw [reqs, done] at test
  obtain ⟨frames, -⟩ := response_loop_reads wc.wcBuf _ 0
    ((state.endpoints m).requester.reqBatchArr coroId) fits payload
  obtain ⟨-, loop⟩ := response_loop_reads wc.wcBuf _ 0
    { (state.endpoints m).requester.reqBatchArr coroId with
      numReqsDone := ((state.endpoints m).requester.reqBatchArr coroId).numReqsDone +
        ((callsAt (state.jobs m coroId) server).map Handled.resp).length } fits payload
  have before := unanswered_job holds packet.dest packet.unanswered
  simp only [Swarm.handleResponse, Endpoint.handleResponse, imm, count, frames, loop, before,
    Bool.not_false, Bool.and_true, afterResponse]
  by_cases last : ((state.jobs m coroId).receive server
      ((callsAt (state.jobs m coroId) server).map Handled.resp)).answered = true
  · rw [if_pos last, if_pos last, if_pos (test.mpr last)]
    rfl
  · rw [if_neg last, if_neg last, if_neg (fun all => last (test.mp all))]
    rfl

/-- What a response changes whether or not it completes the batch. -/
structure Responded (state next : Swarm) (m coroId server : Nat) (wcs : List Completion)
    (cqComps : Nat) : Prop where
  network : next.network = state.network
  others : ∀ other, other ≠ m → next.endpoints other = state.endpoints other
  requester : (next.endpoints m).requester =
    { (state.endpoints m).requester with
      reqBatchArr := Function.update (state.endpoints m).requester.reqBatchArr coroId
        (filled ((state.endpoints m).requester.reqBatchArr coroId)
          ((callsAt (state.jobs m coroId) server).map Handled.resp)) }
  respBatch : (next.endpoints m).respBatch = (state.endpoints m).respBatch
  recvs : (next.endpoints m).recvHead = (state.endpoints m).recvHead ∧
    (next.endpoints m).recvsToPost = (state.endpoints m).recvsToPost ∧
    (next.endpoints m).posted = (state.endpoints m).posted
  arrived : (next.endpoints m).arrived = (state.endpoints m).arrived
  ctl : ∃ curCompCoro, (next.endpoints m).ctl = .handling wcs cqComps curCompCoro
  jobs : next.jobs = (state.setJob m coroId ((state.jobs m coroId).receive server
    ((callsAt (state.jobs m coroId) server).map Handled.resp))).jobs

theorem after_response_responded (state : Swarm) (m coroId server : Nat) (wcs : List Completion)
    (cqComps curCompCoro : Nat) :
    Responded state (afterResponse state m coroId server wcs cqComps curCompCoro) m coroId server
      wcs cqComps := by
  simp only [afterResponse]
  split_ifs with last
  · refine ⟨rfl, set_endpoint_other state _, ?_, ?_, ?_, ?_, ⟨coroId, ?_⟩, rfl⟩ <;>
      simp only [Swarm.setRound, Swarm.setJob, set_endpoint_self, withBatch, and_self]
  · refine ⟨rfl, set_endpoint_other state _, ?_, ?_, ?_, ?_, ⟨curCompCoro, ?_⟩, rfl⟩ <;>
      simp only [Swarm.setRound, Swarm.setJob, set_endpoint_self, withBatch, and_self]

theorem exchange_response (exchange : Exchange cluster state) {server : Nat}
    (packet : Packet cluster state.jobs m coroId server)
    (called : callsAt (state.jobs m coroId) server ≠ [])
    (message : wc.msg = responseMessage (cluster.args m) coroId (state.jobs m coroId) server)
    (handling : (state.endpoints m).ctl = .handling (wc :: wcs) cqComps curCompCoro)
    (responded : Responded state next m coroId server wcs cqComps) : Exchange cluster next := by
  have endpoint := exchange.endpoints m packet.below
  have holds := exchange.jobs m packet.below coroId
  obtain ⟨cur, ctl⟩ := responded.ctl
  refine ⟨?_, ?_, ?_⟩
  · intro other inside
    by_cases here : other = m
    · rw [here]
      refine ⟨?_, ?_, ?_, ?_⟩
      · rw [responded.requester]
        exact endpoint.posting
      · rw [responded.respBatch]
        exact endpoint.fresh
      · rw [responded.arrived]
        exact endpoint.arrived
      · intro rest comps cur now wc member
        rw [ctl] at now
        injection now with same
        rw [← same] at member
        exact endpoint.polled _ _ _ handling wc (List.mem_cons_of_mem _ member)
    · rw [responded.others other here]
      exact exchange.endpoints other inside
  · intro other inside coro
    rw [responded.jobs]
    by_cases here : (other, coro) = (m, coroId)
    · obtain ⟨rfl, rfl⟩ := Prod.mk.inj here
      rw [set_job_self, responded.requester]
      simp only [Function.update_self]
      exact receive_holds holds packet.unanswered called rfl
    · rw [set_job_other _ _ _ _ _ _ here]
      by_cases same : other = m
      · have differs : coro ≠ coroId := by
          intro equal
          exact here (by rw [same, equal])
        rw [same, responded.requester]
        simp only [Function.update_of_ne differs]
        exact exchange.jobs m packet.below coro
      · rw [responded.others other same]
        exact exchange.jobs other inside coro
  · have gone : underWay (cluster.args m) coroId ((state.jobs m coroId).receive server
        ((callsAt (state.jobs m coroId) server).map Handled.resp)) server = [] := by
      rw [underWay, if_pos]
      rw [receive_received_from, packet.unanswered, if_pos rfl, List.nil_append, ne_eq,
        List.map_eq_nil_iff]
      exact called
    have other : ∀ mn, mn ≠ server → receivedFrom ((state.jobs m coroId).receive server
        ((callsAt (state.jobs m coroId) server).map Handled.resp)) mn =
        receivedFrom (state.jobs m coroId) mn := by
      intro mn apart
      rw [receive_received_from, if_neg apart.symm, List.append_nil]
    obtain ⟨common, before, after⟩ := outstanding_change (cluster.args m) coroId
      ((state.jobs m coroId).receive server
        ((callsAt (state.jobs m coroId) server).map Handled.resp)) packet.dest rfl rfl
      (fun _ _ => rfl) other
    rw [response_under_way _ _ packet.unanswered called, ← message] at before
    rw [gone] at after
    rw [responded.jobs]
    apply traffic_kept exchange.traffic
    · apply in_system_change packet.below responded.others
      · exact held_head handling
      · rw [held_handling ctl, responded.network, responded.arrived, responded.respBatch]
        exact List.Perm.refl ([] ++ _)
    · apply expected_change packet.below packet.slave
      · exact set_job_other _ _ _ _
      · exact before
      · rw [set_job_self]
        exact after

/-- What handling a completion does. -/
theorem handle_cases (admitted : Admitted cluster) (exchange : Exchange cluster state)
    (below : m < cluster.numMachines) {handler : Frame → HandlerResult}
    (ran : state.handle cluster m handler = some next) :
    ∃ wc wcs cqComps curCompCoro,
      (state.endpoints m).ctl = .handling (wc :: wcs) cqComps curCompCoro ∧
      ((∃ client coroId calls mbuf, Packet cluster state.jobs client coroId m ∧
          callsAt (state.jobs client coroId) m = [] ∧
          wc.msg = requestMessage (cluster.args client) coroId (state.jobs client coroId).rest
            (state.jobs client coroId).specs m ∧
          Calls (cluster.args m) (state.jobs client coroId).specs m calls mbuf ∧
          next = afterRequest state m client coroId wc wcs cqComps curCompCoro calls mbuf) ∨
        ∃ coroId server, Packet cluster state.jobs m coroId server ∧
          callsAt (state.jobs m coroId) server ≠ [] ∧
          wc.msg = responseMessage (cluster.args m) coroId (state.jobs m coroId) server ∧
          next = afterResponse state m coroId server wcs cqComps curCompCoro) := by
  simp only [Swarm.handle] at ran
  split at ran
  · rename_i wc wcs cqComps curCompCoro handling
    refine ⟨wc, wcs, cqComps, curCompCoro, handling, ?_⟩
    rcases head_packet exchange below handling with
      ⟨client, coroId, packet, uncalled, message⟩ | ⟨coroId, server, packet, called, message⟩
    · have imm := request_wc_imm admitted exchange packet message
      rw [if_neg (by rw [imm]; exact Nat.one_ne_zero)] at ran
      obtain ⟨calls, mbuf, made, after⟩ :=
        handle_request admitted exchange below packet message ran
      exact Or.inl ⟨client, coroId, calls, mbuf, packet, uncalled, message, made, after⟩
    · have imm := response_wc_imm admitted exchange packet message
      rw [if_pos (by rw [imm]), handle_response admitted exchange packet called message] at ran
      exact Or.inr ⟨coroId, server, packet, called, message, (Option.some.inj ran).symm⟩
  · cases ran

theorem exchange_handle (admitted : Admitted cluster) (exchange : Exchange cluster state)
    (below : m < cluster.numMachines) {handler : Frame → HandlerResult}
    (ran : state.handle cluster m handler = some next) : Exchange cluster next := by
  obtain ⟨wc, wcs, cqComps, curCompCoro, handling, shape⟩ :=
    handle_cases admitted exchange below ran
  rcases shape with ⟨client, coroId, calls, mbuf, packet, uncalled, message, made, rfl⟩ |
    ⟨coroId, server, packet, called, message, rfl⟩
  · exact exchange_request exchange below packet uncalled message handling made
  · exact exchange_response exchange packet called message handling
      (after_response_responded state m coroId server wcs cqComps curCompCoro)

end Handle

section Runs

variable {memory : Nat → Memory} {built : Nat → Endpoint}

structure Fresh (args : RpcArgs) (ep : Endpoint) : Prop where
  checked : args.checkInfo = true
  slack : args.initNonZeroMembers = true
  bound : args.numMachines ≤ hotsMaxMachines
  sender : ep.requester.sender = .init args.numQps
  batches : ∀ coroId, ∃ memory, ep.requester.reqBatchArr coroId = .init memory args.maxPktSize
  respBatch : ∃ memory, ep.respBatch = .init memory args.maxPktSize
  recvs : ep.recvHead = 0 ∧ ep.recvsToPost = 0 ∧ ep.posted = slotsFrom hrdRqDepth 0 hrdRqDepth
  arrived : ep.arrived = []

theorem construct_fresh {args : RpcArgs} {memory : Memory} {ep : Endpoint}
    (constructed : Endpoint.construct args memory = .ok ep) : Fresh args ep := by
  unfold Endpoint.construct at constructed
  split_ifs at constructed with refused many
  rw [Bool.not_eq_false, Bool.and_eq_true, Bool.and_eq_true] at refused
  have head : (0 + hrdRqDepth) % hrdRqDepth = 0 := by rw [Nat.zero_add, Nat.mod_self]
  rw [← Except.ok.inj constructed]
  exact ⟨refused.1.1, refused.2, Nat.le_of_not_lt many, rfl, fun coroId => ⟨_, rfl⟩, ⟨_, rfl⟩,
    ⟨head, rfl, List.nil_append _⟩, rfl⟩

theorem constructed_admitted (constructed : Constructed cluster memory built) :
    Admitted cluster := by
  refine ⟨?_, ?_, ?_⟩
  · rcases Nat.eq_zero_or_pos cluster.numMachines with none_ | some_
    · rw [none_]
      exact Nat.zero_le _
    · rw [← cluster.sized 0 some_]
      exact (construct_fresh (constructed 0 some_)).bound
  · exact fun m below => (construct_fresh (constructed m below)).checked
  · exact fun m below => (construct_fresh (constructed m below)).slack

theorem init_job_holds (numMachines : Nat) (memory : Nat → Buffer) (maxPktSize : Nat)
    (coroId : Nat) :
    JobHolds numMachines (ReqBatch.init memory maxPktSize)
      (Job.resume (fun _ => ⟨0, [], [], [], 0, 0⟩) 1 coroId) := by
  obtain ⟨count, job⟩ := resume_job (fun _ => ⟨0, [], [], [], 0, 0⟩) 1 coroId
  rw [job]
  exact ⟨init_built memory maxPktSize, Nat.zero_le _, nofun, nofun,
    fun _ called => absurd rfl called, nofun, fun _ answered => absurd rfl answered, nofun, rfl,
    List.nodup_nil⟩

theorem exchange_init (constructed : Constructed cluster memory built) :
    Exchange cluster (Swarm.init cluster built) := by
  refine ⟨?_, ?_, ?_⟩
  · intro m below
    have fresh := construct_fresh (constructed m below)
    obtain ⟨respBufs, batch⟩ := fresh.respBatch
    refine ⟨?_, ?_, ?_, ?_⟩
    · rw [show ((Swarm.init cluster built).endpoints m).requester.sender = _ from fresh.sender]
      exact init_posting (check_info_accepted fresh.checked).1
    · rw [show ((Swarm.init cluster built).endpoints m).respBatch = _ from batch]
      exact init_resp_fresh respBufs _
    · rw [show ((Swarm.init cluster built).endpoints m).arrived = _ from fresh.arrived]
      nofun
    · intro wcs cqComps curCompCoro impossible
      cases impossible
  · intro m below coroId
    obtain ⟨bufs, batch⟩ := (construct_fresh (constructed m below)).batches coroId
    rw [show ((Swarm.init cluster built).endpoints m).requester.reqBatchArr coroId = _ from batch]
    exact init_job_holds cluster.numMachines bufs _ coroId
  · have system : inSystem cluster (Swarm.init cluster built) = [] := by
      rw [inSystem, List.append_eq_nil_iff, List.flatMap_eq_nil_iff]
      refine ⟨rfl, ?_⟩
      intro m inside
      have arrived := (construct_fresh (constructed m (List.mem_range.mp inside))).arrived
      rw [held, show ((Swarm.init cluster built).endpoints m).arrived = _ from arrived]
      rfl
    have expectation : expected cluster (Swarm.init cluster built).jobs = [] := by
      rw [expected, List.flatMap_eq_nil_iff]
      intro owner _
      obtain ⟨count, job⟩ := resume_job (fun _ => ⟨0, [], [], [], 0, 0⟩) 1 owner.2
      rw [show (Swarm.init cluster built).jobs owner.1 owner.2 = _ from job]
      rfl
    rw [system, expectation]

theorem exchange_open_step (admitted : Admitted cluster) (exchange : Exchange cluster state)
    (act : Act) (ran : openStep cluster state act = some next) : Exchange cluster next := by
  cases act with
  | send m coroId rest specs =>
      simp only [openStep] at ran
      split_ifs at ran with allowed
      obtain ⟨below, -, slave, answered⟩ := allowed
      exact exchange_send admitted exchange below slave answered ran
  | yield m coroId =>
      simp only [openStep] at ran
      split_ifs at ran with allowed
      rw [← Option.some.inj ran]
      exact exchange_yield exchange allowed.1 allowed.2 coroId
  | arrive index stale => exact exchange_arrive exchange ran
  | poll m cqComps =>
      simp only [openStep] at ran
      split_ifs at ran with below
      exact exchange_poll exchange below ran
  | handle m handler =>
      simp only [openStep] at ran
      split_ifs at ran with below
      exact exchange_handle admitted exchange below ran
  | repost m =>
      simp only [openStep] at ran
      split_ifs at ran with below
      exact exchange_repost exchange below ran
  | respond m =>
      simp only [openStep] at ran
      split_ifs at ran with below
      exact exchange_respond admitted exchange below ran

/-- In every run the packets under way are those the batches wait for. -/
theorem open_exchange (constructed : Constructed cluster memory built)
    (reached : Reachable (openStep cluster) (Swarm.init cluster built) state) :
    Exchange cluster state := by
  apply reachable_invariant (exchange_init constructed) _ reached
  intro before act after exchange ran
  exact exchange_open_step (constructed_admitted constructed) exchange act ran

end Runs

end Fasst.RpcExchangeSteps

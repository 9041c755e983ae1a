import Fasst.Outcomes
import Fasst.RpcResponse

/-!
# The sender of a request

`mchn_id` has seven bits, and the arrays that are indexed by a machine have
`HOTS_MAX_MACHINES` entries. Neither `rpc_args` nor `check_info` compares the
number of machines with these bounds: `check_info` bounds the workers, and through
`required_recvs` the machines only by what the receive queues hold.
-/

namespace Fasst.RpcIdentity

open Fasst.Placement Fasst.TxModel Fasst.Bytes Fasst.RpcDefs Fasst.RpcSend Fasst.RpcBatch
open Fasst.RpcCoalesce Fasst.RpcResponse Fasst.Outcomes

set_option autoImplicit false

theorem machine_id_lt {args : RpcArgs} (constructed : args.constructed = true)
    (checked : args.checkInfo = true) : args.machineId < args.numMachines := by
  simp only [RpcArgs.constructed, Bool.and_eq_true, decide_eq_true_eq, beq_iff_eq] at constructed
  simp only [RpcArgs.checkInfo, Bool.and_eq_true, decide_eq_true_eq] at checked
  obtain ⟨more, whole⟩ := constructed
  have gid := checked.1.1.1.1.1.1.1.1.1.1
  have positive : 0 < args.workersPerMachine := by
    by_contra none_
    rw [Nat.eq_zero_of_not_pos none_, Nat.mod_zero] at whole
    omega
  apply Nat.div_lt_div_of_lt_of_dvd (Nat.dvd_of_mod_eq_zero whole)
  omega

theorem num_coro_le {args : RpcArgs} (checked : args.checkInfo = true) :
    args.numCoro ≤ rpcMaxCoro := by
  simp only [RpcArgs.checkInfo, Bool.and_eq_true, decide_eq_true_eq] at checked
  exact checked.1.1.1.1.1.1.1.2.2

/-- What the receiver of a coalesced request makes of its immediate: it knows the
sender, and the response goes to that machine and coroutine. -/
structure Identifies (args : RpcArgs) (coroId : Nat) (specs : List ReqSpec) (msg : Message) (mn : Nat) :
    Prop where
  remote : msg.remoteMn = some mn
  isReq : (RpcImm.ofIntRep msg.immData).isReq = 1
  machine : (RpcImm.ofIntRep msg.immData).mchnId = args.machineId
  coroutine : (RpcImm.ofIntRep msg.immData).coroId = coroId
  requests : (RpcImm.ofIntRep msg.immData).numReqs = (framesTo specs mn).length
  inBounds : mn < hotsMaxMachines ∧ (RpcImm.ofIntRep msg.immData).mchnId < hotsMaxMachines ∧
    (RpcImm.ofIntRep msg.immData).coroId < rpcMaxCoro
  response : ∀ (batch : RespBatch),
    let imm := RpcImm.ofIntRep msg.immData
    let cmsg := (batch.startNewResp mn imm.mchnId imm.numReqs msg.immData).cmsgArr batch.numCresps
    cmsg.remoteMn = some args.machineId ∧ cmsg.numCentry = (framesTo specs mn).length ∧
      (RpcImm.ofIntRep cmsg.respImm).isReq = 0 ∧ (RpcImm.ofIntRep cmsg.respImm).mchnId = mn ∧
      (RpcImm.ofIntRep cmsg.respImm).coroId = coroId

theorem request_identifies {args : RpcArgs} {coroId : Nat} {specs : List ReqSpec} (rest mn : Nat)
    (machine : args.machineId < hotsMaxMachines) (coro : coroId < rpcMaxCoro)
    (few : specs.length ≤ rpcMaxMsgCoro) (dest : mn < hotsMaxMachines) :
    Identifies args coroId specs (requestMessage args coroId rest specs mn) mn := by
  have fits : ∀ id, id < hotsMaxMachines → id < 128 := fun id below => by
    simp only [hotsMaxMachines] at below
    omega
  have imm := request_imm rest mn (fits _ machine) coro few
  refine ⟨rfl, ?_, ?_, ?_, ?_, ⟨dest, ?_, ?_⟩, ?_⟩
  · rw [imm]
  · rw [imm]
  · rw [imm]
  · rw [imm]
  · rw [imm]
    exact machine
  · rw [imm]
    exact coro
  · intro batch
    simp only [RespBatch.startNewResp, Function.update_self]
    rw [resp_imm_of mn _ (fits mn dest), imm]
    exact ⟨rfl, rfl, rfl, rfl, rfl⟩

def worker (args : RpcArgs) (wrkrGid : Nat) : RpcArgs := { args with wrkrGid }

/-- After any batches of a worker, every message of its next batch identifies it. -/
def IdentifiesAll (args : RpcArgs) : Prop :=
  ∀ (memory : Nat → Nat → Buffer) (rounds : List Round) (last : Round),
    last.coroId < args.numCoro → last.specs.length ≤ rpcMaxMsgCoro →
    (∀ spec ∈ last.specs, spec.machine < args.numMachines) →
    ∃ before after, rounds.foldlM (sendRound args) (Requester.init args memory) = .ok before ∧
      sendRound args before last = .ok after ∧
      ∀ msg ∈ emitted before.sender after.sender,
        ∃ mn, Identifies args last.coroId last.specs msg mn

theorem worker_accepted {args : RpcArgs} {wrkrGid : Nat} (checked : args.checkInfo = true)
    (listed : wrkrGid < args.numWorkers) : (worker args wrkrGid).checkInfo = true := by
  simp only [RpcArgs.checkInfo, Bool.and_eq_true, decide_eq_true_eq] at checked ⊢
  obtain ⟨⟨⟨⟨⟨⟨⟨⟨⟨⟨-, lid⟩, workers⟩, coros⟩, base⟩, ports⟩, qps⟩, numa⟩, postlist⟩, pkt⟩, recvs⟩ :=
    checked
  exact ⟨⟨⟨⟨⟨⟨⟨⟨⟨⟨Nat.le_sub_one_of_lt listed, lid⟩, workers⟩, coros⟩, base⟩, ports⟩, qps⟩, numa⟩,
    postlist⟩, pkt⟩, recvs⟩

theorem identifies_all_of_fits {args : RpcArgs} (constructed : args.constructed = true)
    (checked : args.checkInfo = true) (fits : args.numMachines ≤ hotsMaxMachines) :
    IdentifiesAll args := by
  intro memory rounds last coro few machines
  obtain ⟨sending, -⟩ := check_info_accepted checked
  obtain ⟨before, ran, ready⟩ := rounds_ready sending rounds (init_ready sending memory)
  obtain ⟨after, sent, -, posted⟩ :=
    send_batch_ready sending ready last.coroId last.rest last.specs
  refine ⟨before, after, ran, sent, ?_⟩
  rw [posted]
  intro msg member
  obtain ⟨mn, dest, rfl⟩ := List.mem_map.mp member
  obtain ⟨spec, inside, rfl⟩ := (mem_dests last.specs mn).mp dest
  refine ⟨spec.machine, ?_⟩
  apply request_identifies
  · exact Nat.lt_of_lt_of_le (machine_id_lt constructed checked) fits
  · exact Nat.lt_of_lt_of_le coro (num_coro_le checked)
  · exact few
  · exact Nat.lt_of_lt_of_le (machines spec inside) fits

/-- A worker that identifies itself is on a machine for which the tables have an
entry. -/
theorem machine_in_tables {args : RpcArgs} (constructed : args.constructed = true)
    (checked : args.checkInfo = true) (identifies : IdentifiesAll args) :
    args.machineId < hotsMaxMachines := by
  have machines := machine_id_lt constructed checked
  obtain ⟨sending, -⟩ := check_info_accepted checked
  have coros : 1 < args.numCoro := by
    simp only [RpcArgs.checkInfo, Bool.and_eq_true, decide_eq_true_eq] at checked
    exact checked.1.1.1.1.1.1.1.2.1
  -- One request, to machine 0.
  obtain ⟨before, after, ran, sent, identified⟩ := identifies (fun _ _ _ => 0) []
    ⟨1, 0, [requestTo 0 7]⟩ coros (by simp only [List.length_singleton]; decide)
    (by simp only [List.mem_singleton, forall_eq]; exact Nat.zero_lt_of_lt machines)
  obtain rfl := Except.ok.inj ran
  obtain ⟨other, again, -, posted⟩ := send_batch_ready sending
    (init_ready sending fun _ _ _ => 0) 1 0 [requestTo 0 7]
  obtain rfl := Except.ok.inj (sent.symm.trans again)
  obtain ⟨mn, identity⟩ := identified (requestMessage args 1 0 [requestTo 0 7] 0)
    (by rw [posted]; exact List.mem_cons_self)
  rw [← identity.machine]
  exact identity.inBounds.2.1

/-- An accepted configuration: after any batches of any of its workers, every message
identifies its sender, if and only if there are at most `HOTS_MAX_MACHINES` machines. -/
theorem immediate_identifies_sender (args : RpcArgs) (constructed : args.constructed = true)
    (checked : args.checkInfo = true) :
    (∀ wrkrGid < args.numWorkers, IdentifiesAll (worker args wrkrGid)) ↔
      args.numMachines ≤ hotsMaxMachines := by
  constructor
  · intro identifies
    by_contra many
    simp only [RpcArgs.constructed, Bool.and_eq_true, decide_eq_true_eq] at constructed
    have positive : 0 < args.workersPerMachine := by
      by_contra none_
      rw [RpcArgs.numMachines, Nat.eq_zero_of_not_pos none_, Nat.div_zero] at many
      exact many (Nat.zero_le _)
    have last : hotsMaxMachines * args.workersPerMachine < args.numWorkers := by
      have enough := (Nat.le_div_iff_mul_le positive).mp (Nat.lt_of_not_le many)
      rw [Nat.succ_mul] at enough
      omega
    have inTables := machine_in_tables (by
        simp only [RpcArgs.constructed, Bool.and_eq_true, decide_eq_true_eq]; exact constructed)
      (worker_accepted checked last) (identifies _ last)
    rw [RpcArgs.machineId, worker, Nat.mul_div_cancel _ positive] at inTables
    exact Nat.lt_irrefl _ inTables
  · intro fits wrkrGid listed
    exact identifies_all_of_fits constructed (worker_accepted checked listed) fits

theorem immediate_identifies_sender_two_machines :
    ∃ before after, [].foldlM (sendRound (worker RpcSendWindow.shortLists 1))
        (Requester.init (worker RpcSendWindow.shortLists 1) fun _ _ _ => 0) = .ok before ∧
      sendRound (worker RpcSendWindow.shortLists 1) before ⟨1, 0, [requestTo 0 7]⟩ = .ok after ∧
      ∀ msg ∈ emitted before.sender after.sender, (RpcImm.ofIntRep msg.immData).mchnId = 1 := by
  have identifies := (immediate_identifies_sender RpcSendWindow.shortLists (by decide)
    (by decide)).mpr (by decide) 1 (by decide)
  obtain ⟨before, after, ran, sent, identified⟩ := identifies (fun _ _ _ => 0) []
    ⟨1, 0, [requestTo 0 7]⟩ (by decide) (by decide) (by decide)
  refine ⟨before, after, ran, sent, ?_⟩
  intro msg member
  obtain ⟨mn, identity⟩ := identified msg member
  exact identity.machine

/-- The machine with number 150 of 200. -/
def largeCluster : RpcArgs := worker { RpcSendWindow.shortLists with numWorkers := 200 } 150

/-- A request of machine 150 is taken for one of machine 22, which gets the
response. -/
theorem large_cluster_misroutes :
    largeCluster.constructed = true ∧ largeCluster.checkInfo = true ∧
      largeCluster.machineId = 150 ∧ hotsMaxMachines < largeCluster.numMachines ∧
      ∃ after, sendRound largeCluster (Requester.init largeCluster fun _ _ _ => 0)
          ⟨1, 0, [requestTo 0 7]⟩ = .ok after ∧
        after.sender.messages.map (fun msg => (RpcImm.ofIntRep msg.immData).mchnId) = [22] ∧
        after.sender.messages.map (fun msg =>
          let imm := RpcImm.ofIntRep msg.immData
          (((RespBatch.init (fun _ _ => 0) 2048).startNewResp 0 imm.mchnId imm.numReqs
            msg.immData).cmsgArr 0).remoteMn) = [some 22] := by
  refine ⟨by decide, by decide, by decide, by decide, ?_⟩
  apply ensures_returns
  decide +kernel

end Fasst.RpcIdentity

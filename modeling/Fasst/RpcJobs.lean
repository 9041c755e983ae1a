import Fasst.Blocks
import Fasst.RpcResponse
import Mathlib.Data.List.Perm.Subperm

/-!
# What has become of a batch

The history of a batch against the batch itself. A machine has been called with
all requests to it or with none; a machine that has answered has filled the slots
of its requests with what the handlers left; `num_reqs_done` counts the responses
that were read. No response is read twice, so the count reaches `num_reqs` exactly
when every request is answered.
-/

namespace Fasst.RpcJobs

open Fasst.TxModel Fasst.Bytes Fasst.RpcDefs Fasst.RpcSend Fasst.RpcBatch Fasst.RpcCoalesce
open Fasst.RpcSwarm Fasst.RpcResponse Fasst.Blocks

set_option autoImplicit false

section Frames

variable {specs : List ReqSpec} {mn : Nat}

theorem mem_frames_to (frame : Frame) :
    frame ∈ framesTo specs mn ↔
      ∃ i spec, specs[i]? = some spec ∧ spec.machine = mn ∧ frame = specFrame spec i := by
  simp only [framesTo, List.mem_map, List.mem_filter, beq_iff_eq]
  constructor
  · rintro ⟨⟨spec, i⟩, ⟨member, machine⟩, rfl⟩
    exact ⟨i, spec, List.mem_zipIdx_iff_getElem?.mp member, machine, rfl⟩
  · rintro ⟨i, spec, found, machine, rfl⟩
    exact ⟨(spec, i), ⟨List.mem_zipIdx_iff_getElem?.mpr found, machine⟩, rfl⟩

theorem frames_to_numbers_nodup (specs : List ReqSpec) (mn : Nat) :
    ((framesTo specs mn).map Frame.coroSeqnum).Nodup := by
  rw [framesTo, List.map_map]
  have numbers : (specs.zipIdx.map Prod.snd).Nodup := by
    rw [List.zipIdx_map_snd]
    exact List.nodup_range'
  exact numbers.sublist (List.filter_sublist.map Prod.snd)

theorem frames_to_ne_nil (known : mn ∈ dests specs) : framesTo specs mn ≠ [] := by
  obtain ⟨spec, member, machine⟩ := (mem_dests specs mn).mp known
  obtain ⟨i, found⟩ := List.getElem?_of_mem member
  exact List.ne_nil_of_mem ((mem_frames_to _).mpr ⟨i, spec, found, machine, rfl⟩)

end Frames

def callsAt (job : Job) (mn : Nat) : List Handled :=
  (job.calls.filter fun served => served.machine == mn).map Served.handled

def receivedFrom (job : Job) (mn : Nat) : List Frame :=
  (job.received.filter fun response => response.machine == mn).map Response.frame

theorem serve_calls_at (job : Job) (machine mn : Nat) (calls : List Handled) :
    callsAt (job.serve machine calls) mn =
      callsAt job mn ++ if machine = mn then calls else [] := by
  rw [callsAt, callsAt, Job.serve, List.filter_append, List.map_append]
  congr 1
  exact filter_tagged Served.machine Served.handled (Served.mk machine) (fun _ => rfl)
    (fun _ => rfl) calls mn

theorem receive_received_from (job : Job) (machine mn : Nat) (frames : List Frame) :
    receivedFrom (job.receive machine frames) mn =
      receivedFrom job mn ++ if machine = mn then frames else [] := by
  rw [receivedFrom, receivedFrom, Job.receive, List.filter_append, List.map_append]
  congr 1
  exact filter_tagged Response.machine Response.frame (Response.mk machine) (fun _ => rfl)
    (fun _ => rfl) frames mn

structure JobHolds (numMachines : Nat) (batch : ReqBatch) (job : Job) : Prop where
  built : Built batch job.specs
  few : job.specs.length ≤ rpcMaxMsgCoro
  machines : ∀ mn ∈ dests job.specs, mn < numMachines
  fits : ∀ mn, ∀ frame ∈ framesTo job.specs mn, FrameFits frame
  calls : ∀ mn, callsAt job mn ≠ [] → (callsAt job mn).map Handled.call = framesTo job.specs mn
  paired : ∀ mn, ∀ handled ∈ callsAt job mn, Paired handled ∧ FrameFits handled.resp
  received : ∀ mn, receivedFrom job mn ≠ [] →
    receivedFrom job mn = (callsAt job mn).map Handled.resp
  slots : ∀ mn, ∀ frame ∈ receivedFrom job mn, SlotHolds (batch.reqArr frame.coroSeqnum) frame
  done : batch.numReqsDone = job.received.length
  once : (job.received.map fun response => response.frame.coroSeqnum).Nodup

variable {numMachines : Nat} {batch : ReqBatch} {job : Job} {mn : Nat}

/-- A call was made for the request that its number names. -/
theorem call_request (holds : JobHolds numMachines batch job) {handled : Handled}
    (member : handled ∈ callsAt job mn) :
    ∃ spec, job.specs[handled.resp.coroSeqnum]? = some spec ∧ spec.machine = mn ∧
      handled.call = specFrame spec handled.resp.coroSeqnum := by
  have called : handled.call ∈ framesTo job.specs mn := by
    rw [← holds.calls mn (List.ne_nil_of_mem member)]
    exact List.mem_map_of_mem member
  obtain ⟨i, spec, found, machine, frame⟩ := (mem_frames_to _).mp called
  have number : handled.resp.coroSeqnum = i := by
    rw [(holds.paired mn handled member).1.1, frame]
    rfl
  rw [number]
  exact ⟨spec, found, machine, frame⟩

theorem received_request (holds : JobHolds numMachines batch job) {frame : Frame}
    (member : frame ∈ receivedFrom job mn) :
    ∃ spec, job.specs[frame.coroSeqnum]? = some spec ∧ spec.machine = mn := by
  rw [holds.received mn (List.ne_nil_of_mem member)] at member
  obtain ⟨handled, called, rfl⟩ := List.mem_map.mp member
  obtain ⟨spec, found, machine, -⟩ := call_request holds called
  exact ⟨spec, found, machine⟩

theorem response_received {response : Response} (member : response ∈ job.received) :
    response.frame ∈ receivedFrom job response.machine :=
  List.mem_map_of_mem (List.mem_filter.mpr ⟨member, beq_iff_eq.mpr rfl⟩)

theorem response_request (holds : JobHolds numMachines batch job) {response : Response}
    (member : response ∈ job.received) :
    ∃ spec, job.specs[response.frame.coroSeqnum]? = some spec ∧
      spec.machine = response.machine :=
  received_request holds (response_received member)

section Counting

theorem numbers_bounded (holds : JobHolds numMachines batch job) :
    (job.received.map fun response => response.frame.coroSeqnum) ⊆
      List.range job.specs.length := by
  intro number member
  obtain ⟨response, received, rfl⟩ := List.mem_map.mp member
  obtain ⟨spec, found, -⟩ := response_request holds received
  exact List.mem_range.mpr (List.getElem?_eq_some_iff.mp found).1

theorem received_subperm (holds : JobHolds numMachines batch job) :
    (job.received.map fun response => response.frame.coroSeqnum).Subperm
      (List.range job.specs.length) :=
  holds.once.subperm (numbers_bounded holds)

theorem done_le (holds : JobHolds numMachines batch job) : batch.numReqsDone ≤ batch.numReqs := by
  have bound := (received_subperm holds).length_le
  rw [List.length_map, List.length_range] at bound
  rw [holds.done, holds.built.count]
  exact bound

theorem answered_iff (job : Job) :
    job.answered = true ↔
      ∀ i, i < job.specs.length →
        i ∈ job.received.map fun response => response.frame.coroSeqnum := by
  simp only [Job.answered, List.all_eq_true, List.mem_range, List.any_eq_true, beq_iff_eq,
    List.mem_map]

/-- The test of `poll_comps`. -/
theorem done_iff_answered (holds : JobHolds numMachines batch job) :
    batch.numReqsDone = batch.numReqs ↔ job.answered = true := by
  rw [answered_iff, holds.done, holds.built.count]
  constructor
  · intro all i below
    have perm := (received_subperm holds).perm_of_length_le (by
      rw [List.length_map, List.length_range, all])
    exact perm.mem_iff.mpr (List.mem_range.mpr below)
  · intro all
    have covered : (List.range job.specs.length).Subperm
        (job.received.map fun response => response.frame.coroSeqnum) :=
      List.nodup_range.subperm fun i member => all i (List.mem_range.mp member)
    have lower := covered.length_le
    have upper := (received_subperm holds).length_le
    rw [List.length_map, List.length_range] at lower upper
    exact Nat.le_antisymm upper lower

/-- The call for a request whose machine has answered. -/
theorem answered_call (holds : JobHolds numMachines batch job) {i : Nat} {spec : ReqSpec}
    (found : job.specs[i]? = some spec) (answered : receivedFrom job spec.machine ≠ []) :
    ∃ handled ∈ callsAt job spec.machine, handled.call = specFrame spec i ∧
      handled.resp.coroSeqnum = i ∧ handled.resp ∈ receivedFrom job spec.machine := by
  have frames := holds.received _ answered
  have called : callsAt job spec.machine ≠ [] := by
    intro none
    rw [none] at frames
    exact answered frames
  have request : specFrame spec i ∈ (callsAt job spec.machine).map Handled.call := by
    rw [holds.calls _ called, mem_frames_to]
    exact ⟨i, spec, found, rfl, rfl⟩
  obtain ⟨handled, member, call⟩ := List.mem_map.mp request
  refine ⟨handled, member, call, ?_, ?_⟩
  · rw [(holds.paired _ handled member).1.1, call]
    rfl
  · rw [frames]
    exact List.mem_map_of_mem member

theorem answered_iff_dests (holds : JobHolds numMachines batch job) :
    job.answered = true ↔ ∀ mn ∈ dests job.specs, receivedFrom job mn ≠ [] := by
  rw [answered_iff]
  constructor
  · intro all mn known
    obtain ⟨spec, member, machine⟩ := (mem_dests job.specs mn).mp known
    obtain ⟨i, found⟩ := List.getElem?_of_mem member
    obtain ⟨response, received, number⟩ :=
      List.mem_map.mp (all i (List.getElem?_eq_some_iff.mp found).1)
    obtain ⟨other, here, same⟩ := response_request holds received
    simp only [number, found, Option.some.injEq] at here
    rw [← machine, here, same]
    exact List.ne_nil_of_mem (response_received received)
  · intro all i below
    have known : (job.specs[i]).machine ∈ dests job.specs :=
      (mem_dests _ _).mpr ⟨_, List.getElem_mem below, rfl⟩
    obtain ⟨handled, -, -, number, read⟩ :=
      answered_call holds (List.getElem?_eq_getElem below) (all _ known)
    obtain ⟨response, received, frame⟩ := List.mem_map.mp read
    rw [← number, ← frame]
    exact List.mem_map_of_mem (List.mem_of_mem_filter received)

/-- Every request of a complete batch was handled once. -/
theorem handled_once (holds : JobHolds numMachines batch job) {i : Nat} {spec : ReqSpec}
    (found : job.specs[i]? = some spec) {handled : Handled}
    (member : handled ∈ callsAt job spec.machine) (call : handled.call = specFrame spec i) :
    job.calls.filter (fun served => served.handled.call.coroSeqnum == i) =
      [⟨spec.machine, handled⟩] := by
  have machine : ∀ served ∈ job.calls, served.handled.call.coroSeqnum = i →
      served.machine = spec.machine := by
    intro served inside number
    have called : served.handled ∈ callsAt job served.machine :=
      List.mem_map_of_mem (List.mem_filter.mpr ⟨inside, beq_iff_eq.mpr rfl⟩)
    obtain ⟨other, here, same, -⟩ := call_request holds called
    rw [(holds.paired _ _ called).1.1, number, found] at here
    rw [← same, Option.some.inj here]
  have numbers : ((callsAt job spec.machine).map fun handled => handled.call.coroSeqnum).Nodup := by
    have calls := frames_to_numbers_nodup job.specs spec.machine
    rw [← holds.calls _ (List.ne_nil_of_mem member), List.map_map] at calls
    exact calls
  have own := filter_key_eq_singleton numbers member
  rw [show handled.call.coroSeqnum = i by rw [call]; rfl, callsAt, List.filter_map] at own
  have narrowed : job.calls.filter (fun served => served.handled.call.coroSeqnum == i) =
      (job.calls.filter fun served => served.machine == spec.machine).filter
        ((fun handled => handled.call.coroSeqnum == i) ∘ Served.handled) := by
    rw [List.filter_filter]
    apply List.filter_congr
    intro served inside
    by_cases number : served.handled.call.coroSeqnum = i
    · simp only [Function.comp_apply, number, machine served inside number, beq_self_eq_true,
        Bool.and_self]
    · simp only [Function.comp_apply, beq_eq_false_iff_ne.mpr number, Bool.false_and]
  rw [← narrowed] at own
  obtain ⟨served, single, same⟩ := List.map_eq_singleton_iff.mp own
  have inside : served ∈ job.calls.filter fun served => served.handled.call.coroSeqnum == i := by
    rw [single]
    exact List.mem_singleton_self served
  obtain ⟨listed, number⟩ := List.mem_filter.mp inside
  rw [single, ← same, ← machine served listed (beq_iff_eq.mp number)]

end Counting

section Steps

theorem build_req_done (batch : ReqBatch) (spec : ReqSpec) :
    (batch.buildReq spec).numReqsDone = batch.numReqsDone := by
  simp only [ReqBatch.buildReq, ReqBatch.startNewReq, ReqBatch.writeReqBuf, ReqBatch.freeze,
    ReqBatch.setCmsg, ReqBatch.setReq, ReqBatch.chooseCmsg]
  split <;> rfl

theorem build_batch_done (batch : ReqBatch) (specs : List ReqSpec) :
    (batch.buildBatch specs).numReqsDone = 0 := by
  have kept : ∀ start : ReqBatch,
      (specs.foldl ReqBatch.buildReq start).numReqsDone = start.numReqsDone := by
    induction specs with
    | nil => exact fun _ => rfl
    | cons spec rest ih => exact fun start => (ih _).trans (build_req_done start spec)
  have cleared : ∀ (turns : List Nat) (start : ReqBatch),
      (turns.foldl ReqBatch.clearCmsg start).numReqsDone = start.numReqsDone := by
    intro turns
    induction turns with
    | nil => exact fun _ => rfl
    | cons turn rest ih => exact fun start => ih (start.clearCmsg turn)
  rw [ReqBatch.buildBatch, kept]
  exact cleared _ _

theorem issue_holds (built : Built batch job.specs) (rest : Nat) (specs : List ReqSpec)
    (few : specs.length ≤ rpcMaxMsgCoro) (machines : ∀ mn ∈ dests specs, mn < numMachines)
    (fits : ∀ mn, ∀ frame ∈ framesTo specs mn, FrameFits frame) :
    JobHolds numMachines (batch.buildBatch specs) (job.issue rest specs) where
  built := build_batch_built built specs
  few := few
  machines := machines
  fits := fits
  calls := fun _ called => absurd rfl called
  paired := nofun
  received := fun _ answered => absurd rfl answered
  slots := nofun
  done := build_batch_done batch specs
  once := List.nodup_nil

theorem serve_holds (holds : JobHolds numMachines batch job) {calls : List Handled}
    (uncalled : callsAt job mn = []) (frames : calls.map Handled.call = framesTo job.specs mn)
    (paired : ∀ handled ∈ calls, Paired handled ∧ FrameFits handled.resp) :
    JobHolds numMachines batch (job.serve mn calls) := by
  have unanswered : receivedFrom job mn = [] := by
    by_contra answered
    have frames := holds.received mn answered
    rw [uncalled] at frames
    exact answered frames
  have own : callsAt (job.serve mn calls) mn = calls := by
    rw [serve_calls_at, uncalled, if_pos rfl, List.nil_append]
  have other : ∀ machine, mn ≠ machine →
      callsAt (job.serve mn calls) machine = callsAt job machine := by
    intro machine apart
    rw [serve_calls_at, if_neg apart, List.append_nil]
  refine ⟨holds.built, holds.few, holds.machines, holds.fits, ?_, ?_, ?_, holds.slots,
    holds.done, holds.once⟩
  · intro machine called
    by_cases here : mn = machine
    · rw [← here, own]
      exact frames
    · rw [other machine here] at called ⊢
      exact holds.calls machine called
  · intro machine handled member
    by_cases here : mn = machine
    · rw [← here, own] at member
      exact paired handled member
    · rw [other machine here] at member
      exact holds.paired machine handled member
  · intro machine answered
    by_cases here : mn = machine
    · rw [← here] at answered
      exact absurd unanswered answered
    · rw [other machine here]
      exact holds.received machine answered

theorem receive_holds (holds : JobHolds numMachines batch job) {frames : List Frame}
    (unanswered : receivedFrom job mn = []) (called : callsAt job mn ≠ [])
    (all : frames = (callsAt job mn).map Handled.resp) :
    JobHolds numMachines
      (frames.foldl fillSlot { batch with numReqsDone := batch.numReqsDone + frames.length })
      (job.receive mn frames) := by
  obtain ⟨count, done, machines, index, cmsgs⟩ := fill_fields frames
    { batch with numReqsDone := batch.numReqsDone + frames.length }
  have own : receivedFrom (job.receive mn frames) mn = frames := by
    rw [receive_received_from, unanswered, if_pos rfl, List.nil_append]
  have other : ∀ machine, mn ≠ machine →
      receivedFrom (job.receive mn frames) machine = receivedFrom job machine := by
    intro machine apart
    rw [receive_received_from, if_neg apart, List.append_nil]
  have request : ∀ frame ∈ frames, ∃ spec, job.specs[frame.coroSeqnum]? = some spec ∧
      spec.machine = mn := by
    intro frame member
    rw [all] at member
    obtain ⟨handled, inside, rfl⟩ := List.mem_map.mp member
    obtain ⟨spec, found, machine, -⟩ := call_request holds inside
    exact ⟨spec, found, machine⟩
  have apart : ∀ frame ∈ frames, ∀ machine, mn ≠ machine →
      ∀ old ∈ receivedFrom job machine, frame.coroSeqnum ≠ old.coroSeqnum := by
    intro frame member machine differs old received equal
    obtain ⟨spec, found, here⟩ := request frame member
    obtain ⟨earlier, there, elsewhere⟩ := received_request holds received
    rw [equal, there] at found
    exact differs (here.symm.trans ((congrArg ReqSpec.machine (Option.some.inj found)).symm.trans
      elsewhere))
  have numbers : (frames.map Frame.coroSeqnum).Nodup := by
    have calls : frames.map Frame.coroSeqnum =
        (framesTo job.specs mn).map Frame.coroSeqnum := by
      rw [all, ← holds.calls mn called, List.map_map, List.map_map]
      apply List.map_congr_left
      intro handled member
      exact (holds.paired mn handled member).1.1
    rw [calls]
    exact frames_to_numbers_nodup job.specs mn
  refine ⟨built_congr holds.built count machines index cmsgs, holds.few, holds.machines,
    holds.fits, holds.calls, holds.paired, ?_, ?_, ?_, ?_⟩
  · intro machine answered
    by_cases here : mn = machine
    · rw [← here, own]
      exact all
    · rw [other machine here] at answered ⊢
      exact holds.received machine answered
  · intro machine frame member
    by_cases here : mn = machine
    · rw [← here, own] at member
      exact fill_holds numbers member
    · rw [other machine here] at member
      rw [fill_other frames _ fun new inside => apart new inside machine here frame member]
      exact holds.slots machine frame member
  · rw [done, Job.receive, List.length_append, List.length_map, ← holds.done]
  · rw [Job.receive, List.map_append, List.map_map]
    apply List.Nodup.append holds.once numbers
    intro number earlier later
    obtain ⟨response, received, rfl⟩ := List.mem_map.mp earlier
    obtain ⟨frame, member, same⟩ := List.mem_map.mp later
    by_cases here : mn = response.machine
    · have inside := response_received received
      rw [← here, unanswered] at inside
      cases inside
    · exact apart frame member _ here _ (response_received received) same

end Steps

end Fasst.RpcJobs

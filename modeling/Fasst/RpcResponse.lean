import Fasst.RpcCoalesce
import Fasst.RpcSwarm

/-!
# Coalesced responses

The request loop turns a message of requests into a message of responses: one
frame for each request, in the same order and with the same `coro_seqnum`. The
response loop reads the frames back and fills the slots that they number.
-/

namespace Fasst.RpcResponse

open Fasst.TxModel Fasst.Bytes Fasst.RpcDefs Fasst.RpcSend Fasst.RpcBatch Fasst.RpcCoalesce
open Fasst.RpcSwarm

set_option autoImplicit false

section Requests

structure MbufHolds (mbuf : Mbuf) (frames : List Frame) : Prop where
  cursor : mbuf.curOff = (encode frames).length
  stored : Stored mbuf.buf 0 (encode frames)

theorem holds_contents {mbuf : Mbuf} {frames : List Frame} (holds : MbufHolds mbuf frames) :
    mbuf.contents = encode frames := by
  rw [Mbuf.contents, Mbuf.length, holds.cursor]
  exact holds.stored

variable {wcBuf : Buffer} {wcOff : Nat} {frame : Frame}

def responseOf (wcBuf : Buffer) (wcOff : Nat) (result : HandlerResult) (mbuf : Mbuf)
    (coroSeqnum : Nat) : Frame where
  type := result.respType.toNat
  coroSeqnum := coroSeqnum
  data := readBytes (respond wcBuf wcOff result mbuf).buf (mbuf.curOff + sizeofCmsgReqhdr)
    result.respLen

theorem copied_byte (wcBuf buffer : Buffer) (wcOff offset i : Nat) (inside : i < 8) :
    writeBytes buffer offset (readBytes wcBuf wcOff 8) (offset + i) = wcBuf (wcOff + i) := by
  have copied : (readBytes wcBuf wcOff 8)[i]? = some (wcBuf (wcOff + i)) := by
    rw [readBytes, List.getElem?_map, List.getElem?_range inside]
    rfl
  rw [writeBytes, if_pos (Nat.le_add_right offset i), Nat.add_sub_cancel_left, copied]
  rfl

/-- The copied header keeps the number and the magic of the request; the type and
the size are rewritten, and the handler writes behind the header. -/
theorem respond_stored (stored : Stored wcBuf wcOff (frameBytes frame)) (result : HandlerResult)
    (mbuf : Mbuf) :
    Stored (respond wcBuf wcOff result mbuf).buf mbuf.curOff
      (frameBytes (responseOf wcBuf wcOff result mbuf frame.coroSeqnum)) := by
  rw [frameBytes, stored_append] at stored
  have header := stored.1
  simp only [hdrBytes, stored_cons] at header
  obtain ⟨-, numbered, marked, -⟩ := header
  have size : (responseOf wcBuf wcOff result mbuf frame.coroSeqnum).data.length =
      result.respLen := read_bytes_length _ _ _
  rw [frameBytes, stored_append, size]
  constructor
  · apply size_completes
    · exact ((stored_cons _ _).mp (stored_write _ _ _)).1
    · rw [CmsgReqhdr.setReqType,
        write_bytes_outside _ _ _ _ (by simp only [List.length_singleton]; omega),
        write_bytes_outside _ _ _ _ (by simp only [sizeofCmsgReqhdr]; omega),
        copied_byte _ _ _ _ 1 (by decide)]
      exact numbered
    · rw [CmsgReqhdr.setReqType,
        write_bytes_outside _ _ _ _ (by simp only [List.length_singleton]; omega),
        write_bytes_outside _ _ _ _ (by simp only [sizeofCmsgReqhdr]; omega),
        copied_byte _ _ _ _ 2 (by decide), show wcBuf (wcOff + 2) = _ from marked,
        UInt8.toNat_ofNat']
      simp only [rpcCmsgReqHdrMagic]
      omega
  · rw [Stored, size]
    rfl

theorem respond_before (result : HandlerResult) (mbuf : Mbuf) (position : Nat)
    (before : position < mbuf.curOff) :
    (respond wcBuf wcOff result mbuf).buf position = mbuf.buf position := by
  simp only [respond, CmsgReqhdr.setReqType]
  rw [set_size_outside _ _ (by omega), write_bytes_outside _ _ _ _ (by omega),
    write_bytes_outside _ _ _ _ (by omega), write_bytes_outside _ _ _ _ (by omega)]

theorem respond_holds {mbuf : Mbuf} {frames : List Frame} (holds : MbufHolds mbuf frames)
    (stored : Stored wcBuf wcOff (frameBytes frame)) (result : HandlerResult) :
    MbufHolds (respond wcBuf wcOff result mbuf)
      (frames ++ [responseOf wcBuf wcOff result mbuf frame.coroSeqnum]) := by
  constructor
  · rw [encode_snoc, List.length_append, frame_length, ← holds.cursor, ← Nat.add_assoc]
    simp only [responseOf, read_bytes_length]
    rfl
  · rw [encode_snoc, stored_append, Nat.zero_add, ← holds.cursor]
    constructor
    · apply stored_congr _ holds.stored
      intro position _ upper
      rw [Nat.zero_add, ← holds.cursor] at upper
      exact respond_before result mbuf position upper
    · exact respond_stored stored result mbuf

def Paired (handled : Handled) : Prop :=
  handled.resp.coroSeqnum = handled.call.coroSeqnum ∧ handled.resp.type < 256

theorem request_loop_holds (handler : Frame → HandlerResult) (frames prior : List Frame)
    (mbuf : Mbuf) (fits : ∀ frame ∈ frames, FrameFits frame)
    (stored : Stored wcBuf wcOff (encode frames)) (holds : MbufHolds mbuf prior) :
    let out := requestLoop wcBuf handler frames.length wcOff mbuf
    (∀ handled ∈ out.1, Paired handled) ∧
      MbufHolds out.2.2 (prior ++ out.1.map Handled.resp) := by
  induction frames generalizing wcOff mbuf prior with
  | nil =>
      refine ⟨nofun, ?_⟩
      rw [List.length_nil, requestLoop, List.map_nil, List.append_nil]
      exact holds
  | cons frame rest ih =>
      rw [encode_cons, stored_append, frame_length, ← Nat.add_assoc] at stored
      obtain ⟨header, data⟩ := frame_read frame (fits frame List.mem_cons_self) stored.1
      rw [List.length_cons, requestLoop]
      simp only [header, data]
      obtain ⟨paired, kept⟩ := ih
        (prior ++ [responseOf wcBuf wcOff (handler frame) mbuf frame.coroSeqnum])
        (respond wcBuf wcOff (handler frame) mbuf)
        (fun other member => fits other (List.mem_cons_of_mem frame member)) stored.2
        (respond_holds holds stored.1 (handler frame))
      constructor
      · intro handled member
        rcases List.mem_cons.mp member with rfl | member
        · exact ⟨rfl, (handler frame).respType.toNat_lt⟩
        · exact paired handled member
      · rw [List.append_assoc, List.singleton_append] at kept
        exact kept

end Requests

section Responses

def SlotHolds (req : RpcReq) (frame : Frame) : Prop :=
  req.respType = frame.type ∧ req.respLen = frame.data.length ∧
    readBytes req.respBuf 0 frame.data.length = frame.data

def fillSlot (batch : ReqBatch) (frame : Frame) : ReqBatch :=
  batch.setReq frame.coroSeqnum
    { batch.reqArr frame.coroSeqnum with
      respBuf := writeBytes (batch.reqArr frame.coroSeqnum).respBuf 0 frame.data
      respLen := frame.data.length
      respType := frame.type }

theorem response_loop_reads (wcBuf : Buffer) (frames : List Frame) (wcOff : Nat)
    (batch : ReqBatch) (fits : ∀ frame ∈ frames, FrameFits frame)
    (stored : Stored wcBuf wcOff (encode frames)) :
    responseFrames wcBuf frames.length wcOff = frames ∧
      responseLoop wcBuf frames.length wcOff batch =
        (wcOff + (encode frames).length, frames.foldl fillSlot batch) := by
  induction frames generalizing wcOff batch with
  | nil => exact ⟨rfl, rfl⟩
  | cons frame rest ih =>
      rw [encode_cons, stored_append, frame_length, ← Nat.add_assoc] at stored
      obtain ⟨header, data⟩ := frame_read frame (fits frame List.mem_cons_self) stored.1
      obtain ⟨frames, filled⟩ := ih (wcOff + sizeofCmsgReqhdr + frame.data.length)
        (fillSlot batch frame)
        (fun other member => fits other (List.mem_cons_of_mem frame member)) stored.2
      rw [List.length_cons, responseFrames, responseLoop]
      simp only [header, data]
      constructor
      · rw [frames]
      · rw [List.foldl_cons, encode_cons, List.length_append, frame_length, ← Nat.add_assoc,
          ← Nat.add_assoc]
        exact filled

variable {batch : ReqBatch}

theorem fill_fields (frames : List Frame) (batch : ReqBatch) :
    (frames.foldl fillSlot batch).numReqs = batch.numReqs ∧
      (frames.foldl fillSlot batch).numReqsDone = batch.numReqsDone ∧
      (frames.foldl fillSlot batch).numUniqMn = batch.numUniqMn ∧
      (frames.foldl fillSlot batch).cmsgForMc = batch.cmsgForMc ∧
      (frames.foldl fillSlot batch).cmsgArr = batch.cmsgArr := by
  induction frames generalizing batch with
  | nil => exact ⟨rfl, rfl, rfl, rfl, rfl⟩
  | cons frame rest ih => exact ih (fillSlot batch frame)

theorem fill_other (frames : List Frame) (index : Nat)
    (other : ∀ frame ∈ frames, frame.coroSeqnum ≠ index) :
    (frames.foldl fillSlot batch).reqArr index = batch.reqArr index := by
  induction frames generalizing batch with
  | nil => rfl
  | cons frame rest ih =>
      rw [List.foldl_cons, ih (fun later member => other later (List.mem_cons_of_mem frame member))]
      exact Function.update_of_ne (other frame List.mem_cons_self).symm _ _

theorem fill_holds {frames : List Frame} (nodup : (frames.map Frame.coroSeqnum).Nodup)
    {frame : Frame} (member : frame ∈ frames) :
    SlotHolds ((frames.foldl fillSlot batch).reqArr frame.coroSeqnum) frame := by
  induction frames generalizing batch with
  | nil => cases member
  | cons first rest ih =>
      rw [List.map_cons, List.nodup_cons] at nodup
      rcases List.mem_cons.mp member with rfl | later
      · rw [List.foldl_cons, fill_other rest]
        · simp only [fillSlot, ReqBatch.setReq, Function.update_self]
          exact ⟨rfl, rfl, read_write_same (batch.reqArr frame.coroSeqnum).respBuf 0 frame.data⟩
        · intro later inside equal
          exact nodup.1 (equal ▸ List.mem_map_of_mem inside)
      · exact ih nodup.2 later

theorem built_congr {other : ReqBatch} {specs : List ReqSpec} (built : Built batch specs)
    (count : other.numReqs = batch.numReqs) (machines : other.numUniqMn = batch.numUniqMn)
    (index : other.cmsgForMc = batch.cmsgForMc) (cmsgs : other.cmsgArr = batch.cmsgArr) :
    Built other specs := by
  constructor
  · rw [count]
    exact built.count
  · rw [machines]
    exact built.machines
  · rw [index]
    exact built.index
  · rw [cmsgs]
    exact built.used
  · rw [cmsgs]
    exact built.unused

end Responses

section Immediates

theorem of_int_rep_masked (imm : RpcImm) (isReq : imm.isReq < 2) (numReqs : imm.numReqs < 32)
    (configId : imm.configId < 16) (mchnId : imm.mchnId < 128) (coroId : imm.coroId < 32) :
    RpcImm.ofIntRep imm.intRep = { imm with rest := imm.rest % 2 ^ 10 } := by
  have same : imm.intRep = RpcImm.intRep { imm with rest := imm.rest % 2 ^ 10 } := by
    simp only [RpcImm.intRep, Nat.mod_mod]
  rw [same]
  exact RpcImm.of_int_rep_int_rep _
    ⟨isReq, numReqs, configId, mchnId, coroId, Nat.mod_lt _ (by decide)⟩

theorem request_imm {args : RpcArgs} {coroId : Nat} (rest : Nat) {specs : List ReqSpec} (mn : Nat)
    (machine : args.machineId < 128) (coro : coroId < 32) (few : specs.length ≤ rpcMaxMsgCoro) :
    RpcImm.ofIntRep (requestMessage args coroId rest specs mn).immData =
      ⟨1, (framesTo specs mn).length, 0, args.machineId, coroId, rest % 2 ^ 10⟩ := by
  have count := frames_to_length specs mn
  simp only [rpcMaxMsgCoro] at few
  apply of_int_rep_masked
  · exact Nat.one_lt_two
  · simp only
    omega
  · exact Nat.zero_lt_succ 15
  · exact machine
  · exact coro

theorem resp_imm_of (machineId reqImm : Nat) (machine : machineId < 128) :
    RpcImm.ofIntRep (RespBatch.respImmOf machineId reqImm) =
      { RpcImm.ofIntRep reqImm with isReq := 0, mchnId := machineId } := by
  obtain ⟨-, numReqs, configId, -, coroId, rest⟩ := RpcImm.of_int_rep_fits reqImm
  exact RpcImm.of_int_rep_int_rep _
    ⟨Nat.zero_lt_two, numReqs, configId, machine, coroId, rest⟩

end Immediates

section Batches

def RespFresh (batch : RespBatch) : Prop :=
  ∀ i, batch.numCresps ≤ i → (batch.cmsgArr i).respMbuf.curOff = 0

theorem init_resp_fresh (memory : Nat → Buffer) (maxPktSize : Nat) :
    RespFresh (RespBatch.init memory maxPktSize) := fun _ _ => rfl

theorem clear_resp_fresh {batch : RespBatch} (fresh : RespFresh batch) : RespFresh batch.clear := by
  have cleared : ∀ count i, i < count ∨ (batch.cmsgArr i).respMbuf.curOff = 0 →
      (((List.range count).foldl
        (fun batch i =>
          { batch with
            cmsgArr := Function.update batch.cmsgArr i
              { batch.cmsgArr i with respMbuf := (batch.cmsgArr i).respMbuf.reset } })
        batch).cmsgArr i).respMbuf.curOff = 0 := by
    intro count
    induction count with
    | zero =>
        intro i reset
        rcases reset with below | reset
        · cases below
        · exact reset
    | succ count ih =>
        intro i reset
        rw [List.range_succ, List.foldl_append, List.foldl_cons, List.foldl_nil]
        by_cases last : i = count
        · simp only [last, Function.update_self]
          rfl
        · simp only [Function.update_of_ne last]
          apply ih
          rcases reset with below | reset
          · exact Or.inl (by omega)
          · exact Or.inr reset
  intro i _
  apply cleared
  rcases Nat.lt_or_ge i batch.numCresps with below | beyond
  · exact Or.inl below
  · exact Or.inr (fresh i beyond)

theorem clear_cmsgs (batch : RespBatch) : batch.clear.cmsgs = [] := rfl

def withResponse (batch : RespBatch) (machineId reqMn numReqs reqImm : Nat) (mbuf : Mbuf) :
    RespBatch :=
  (batch.startNewResp machineId reqMn numReqs reqImm).setRespMbuf batch.numCresps mbuf

theorem with_response_cmsgs (batch : RespBatch) (machineId reqMn numReqs reqImm : Nat)
    (mbuf : Mbuf) :
    (withResponse batch machineId reqMn numReqs reqImm mbuf).cmsgs.map respMessage =
      batch.cmsgs.map respMessage ++
        [⟨some reqMn, RespBatch.respImmOf machineId reqImm, mbuf.length, mbuf.contents⟩] := by
  have count : (withResponse batch machineId reqMn numReqs reqImm mbuf).numCresps =
      batch.numCresps + 1 := rfl
  rw [RespBatch.cmsgs, RespBatch.cmsgs, count, List.range_succ, List.map_append, List.map_append]
  congr 1
  · rw [List.map_map, List.map_map]
    apply List.map_congr_left
    intro i below
    have apart : i ≠ batch.numCresps := Nat.ne_of_lt (List.mem_range.mp below)
    simp only [Function.comp_apply, withResponse, RespBatch.setRespMbuf, RespBatch.startNewResp,
      Function.update_of_ne apart]
  · simp only [List.map_cons, List.map_nil, withResponse, RespBatch.setRespMbuf,
      RespBatch.startNewResp, Function.update_self]
    rfl

theorem with_response_fresh {batch : RespBatch} (fresh : RespFresh batch)
    (machineId reqMn numReqs reqImm : Nat) (mbuf : Mbuf) :
    RespFresh (withResponse batch machineId reqMn numReqs reqImm mbuf) := by
  intro i beyond
  have later : batch.numCresps + 1 ≤ i := beyond
  have apart : i ≠ batch.numCresps := by omega
  simp only [withResponse, RespBatch.setRespMbuf, RespBatch.startNewResp,
    Function.update_of_ne apart]
  exact fresh i (by omega)

end Batches

end Fasst.RpcResponse

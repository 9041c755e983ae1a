import Fasst.RpcBatch
import Fasst.RpcSendWindow
import Mathlib.Data.List.Induction

/-!
# Coalesced requests

A message is the concatenation of frames, each a header with a payload. The batch
has one message for every machine of its requests, in the order in which the
machines first occur; `Built` says what is in the batch after some requests, and
`clear` takes it back to the empty batch whatever was built before.
-/

namespace Fasst.RpcCoalesce

open Fasst.Placement Fasst.TxModel Fasst.Bytes Fasst.RpcDefs Fasst.RpcSend Fasst.RpcBatch
open Fasst.RpcSendWindow

set_option autoImplicit false

section Frames

def hdrBytes (type coroSeqnum size : Nat) : List UInt8 :=
  [UInt8.ofNat type, UInt8.ofNat coroSeqnum,
    UInt8.ofNat (rpcCmsgReqHdrMagic + 16 * (size % 16)), UInt8.ofNat (size / 16 % 256)]

def frameBytes (frame : Frame) : List UInt8 :=
  hdrBytes frame.type frame.coroSeqnum frame.data.length ++ frame.data

def encode (frames : List Frame) : List UInt8 := frames.flatMap frameBytes

def FrameFits (frame : Frame) : Prop :=
  frame.type < 256 ∧ frame.coroSeqnum < 256 ∧ frame.data.length < 4096

theorem frame_length (frame : Frame) :
    (frameBytes frame).length = sizeofCmsgReqhdr + frame.data.length := by
  rw [frameBytes, List.length_append]
  rfl

theorem encode_cons (frame : Frame) (frames : List Frame) :
    encode (frame :: frames) = frameBytes frame ++ encode frames := List.flatMap_cons

theorem encode_snoc (frames : List Frame) (frame : Frame) :
    encode (frames ++ [frame]) = encode frames ++ frameBytes frame := by
  rw [encode, List.flatMap_append, List.flatMap_cons, List.flatMap_nil, List.append_nil]
  rfl

variable {buffer : Buffer} {offset : Nat}

theorem stored_cons (byte : UInt8) (rest : List UInt8) :
    Stored buffer offset (byte :: rest) ↔
      buffer offset = byte ∧ Stored buffer (offset + 1) rest := by
  rw [← List.singleton_append, stored_append]
  apply and_congr_left
  intro _
  simp [Stored, readBytes]

theorem stored_congr {other : Buffer} {bytes : List UInt8}
    (same : ∀ position, offset ≤ position → position < offset + bytes.length →
      other position = buffer position) (stored : Stored buffer offset bytes) :
    Stored other offset bytes := by
  rw [Stored, read_bytes_congr other buffer offset bytes.length same]
  exact stored

theorem header_read (type coroSeqnum size : Nat) (typeFits : type < 256)
    (seqFits : coroSeqnum < 256) (sizeFits : size < 4096)
    (stored : Stored buffer offset (hdrBytes type coroSeqnum size)) :
    CmsgReqhdr.read buffer offset = ⟨type, coroSeqnum, rpcCmsgReqHdrMagic, size⟩ := by
  simp only [hdrBytes, stored_cons] at stored
  obtain ⟨first, second, third, fourth, -⟩ := stored
  rw [CmsgReqhdr.read, first, second, third, fourth]
  simp only [UInt8.toNat_ofNat', rpcCmsgReqHdrMagic, CmsgReqhdr.mk.injEq]
  omega

theorem frame_read (frame : Frame) (fits : FrameFits frame)
    (stored : Stored buffer offset (frameBytes frame)) :
    CmsgReqhdr.read buffer offset =
        ⟨frame.type, frame.coroSeqnum, rpcCmsgReqHdrMagic, frame.data.length⟩ ∧
      readBytes buffer (offset + sizeofCmsgReqhdr) frame.data.length = frame.data := by
  rw [frameBytes, stored_append] at stored
  exact ⟨header_read _ _ _ fits.1 fits.2.1 fits.2.2 stored.1, stored.2⟩

/-- The header that `setSize` completes: the other fields, and the low half of the
third byte, are there. -/
theorem size_completes (type coroSeqnum size : Nat) (typed : buffer offset = UInt8.ofNat type)
    (numbered : buffer (offset + 1) = UInt8.ofNat coroSeqnum)
    (marked : (buffer (offset + 2)).toNat % 16 = rpcCmsgReqHdrMagic) :
    Stored (CmsgReqhdr.setSize buffer offset size) offset (hdrBytes type coroSeqnum size) := by
  rw [CmsgReqhdr.setSize, marked]
  have written := stored_write buffer (offset + 2)
    [UInt8.ofNat (rpcCmsgReqHdrMagic + 16 * (size % 16)), UInt8.ofNat (size / 16 % 256)]
  simp only [hdrBytes, stored_cons] at written ⊢
  refine ⟨?_, ?_, written.1, written.2⟩
  · rw [write_bytes_outside _ _ _ _ (by omega)]
    exact typed
  · rw [write_bytes_outside _ _ _ _ (by omega)]
    exact numbered

theorem set_size_outside (position size : Nat) (outside : position < offset + 2 ∨ offset + 4 ≤ position) :
    CmsgReqhdr.setSize buffer offset size position = buffer position := by
  rw [CmsgReqhdr.setSize, write_bytes_outside _ _ _ _ outside]

theorem start_header_fields (buffer : Buffer) (offset : Nat) (type : UInt8) (coroSeqnum : Nat) :
    ReqBatch.startHeader buffer offset type coroSeqnum offset = UInt8.ofNat type.toNat ∧
      ReqBatch.startHeader buffer offset type coroSeqnum (offset + 1) = UInt8.ofNat coroSeqnum ∧
      (ReqBatch.startHeader buffer offset type coroSeqnum (offset + 2)).toNat % 16 =
        rpcCmsgReqHdrMagic := by
  simp only [ReqBatch.startHeader, CmsgReqhdr.setMagic, CmsgReqhdr.setCoroSeqnum,
    CmsgReqhdr.setReqType]
  refine ⟨?_, ?_, ?_⟩
  · rw [write_bytes_outside _ _ _ _ (by omega), write_bytes_outside _ _ _ _ (by omega)]
    exact ((stored_cons _ _).mp (stored_write _ _ _)).1
  · rw [write_bytes_outside _ _ _ _ (by omega)]
    exact ((stored_cons _ _).mp (stored_write _ _ _)).1
  · rw [((stored_cons _ _).mp (stored_write _ _ _)).1, UInt8.toNat_ofNat']
    simp only [rpcCmsgReqHdrMagic]
    omega

theorem start_header_outside (position : Nat) (type : UInt8) (coroSeqnum : Nat)
    (outside : position < offset) :
    ReqBatch.startHeader buffer offset type coroSeqnum position = buffer position := by
  simp only [ReqBatch.startHeader, CmsgReqhdr.setMagic, CmsgReqhdr.setCoroSeqnum,
    CmsgReqhdr.setReqType]
  rw [write_bytes_outside _ _ _ _ (by omega), write_bytes_outside _ _ _ _ (by omega),
    write_bytes_outside _ _ _ _ (by omega)]

/-- `start_new_req`, the writes of the user and `freeze`. -/
def writtenFrame (buffer : Buffer) (offset : Nat) (spec : ReqSpec) (coroSeqnum : Nat) : Buffer :=
  CmsgReqhdr.setSize
    (writeBytes (ReqBatch.startHeader buffer offset spec.reqType coroSeqnum)
      (offset + sizeofCmsgReqhdr) (spec.payload ++ spec.spill)) offset spec.payload.length

theorem written_frame_stored (spec : ReqSpec) (coroSeqnum : Nat) :
    Stored (writtenFrame buffer offset spec coroSeqnum) offset
      (frameBytes ⟨spec.reqType.toNat, coroSeqnum, spec.payload⟩) := by
  obtain ⟨typed, numbered, marked⟩ := start_header_fields buffer offset
    spec.reqType coroSeqnum
  have payload := stored_write (ReqBatch.startHeader buffer offset spec.reqType coroSeqnum)
    (offset + sizeofCmsgReqhdr) (spec.payload ++ spec.spill)
  rw [frameBytes, stored_append]
  constructor
  · apply size_completes
    · rw [write_bytes_outside _ _ _ _ (by simp only [sizeofCmsgReqhdr]; omega)]
      exact typed
    · rw [write_bytes_outside _ _ _ _ (by simp only [sizeofCmsgReqhdr]; omega)]
      exact numbered
    · rw [write_bytes_outside _ _ _ _ (by simp only [sizeofCmsgReqhdr]; omega)]
      exact marked
  · apply stored_congr _ ((stored_append _ _ _ _).mp payload).1
    intro position lower _
    exact set_size_outside position _ (Or.inr lower)

theorem written_frame_before (spec : ReqSpec) (coroSeqnum position : Nat)
    (outside : position < offset) :
    writtenFrame buffer offset spec coroSeqnum position = buffer position := by
  rw [writtenFrame, set_size_outside _ _ (by omega), write_bytes_outside _ _ _ _ (by omega),
    start_header_outside _ _ _ outside]

end Frames

def specFrame (spec : ReqSpec) (index : Nat) : Frame := ⟨spec.reqType.toNat, index, spec.payload⟩

/-- The requests of a batch to a machine, in the order in which they were issued. -/
def framesTo (specs : List ReqSpec) (mn : Nat) : List Frame :=
  (specs.zipIdx.filter fun pair => pair.1.machine == mn).map fun pair => specFrame pair.1 pair.2

/-- The machines of a batch, in the order in which they first occur. -/
def dests (specs : List ReqSpec) : List Nat :=
  specs.foldl
    (fun known spec => if spec.machine ∈ known then known else known ++ [spec.machine]) []

theorem dests_snoc (specs : List ReqSpec) (spec : ReqSpec) :
    dests (specs ++ [spec]) =
      if spec.machine ∈ dests specs then dests specs else dests specs ++ [spec.machine] := by
  rw [dests, List.foldl_append]
  rfl

theorem frames_to_snoc (specs : List ReqSpec) (spec : ReqSpec) (mn : Nat) :
    framesTo (specs ++ [spec]) mn =
      framesTo specs mn ++ if spec.machine = mn then [specFrame spec specs.length] else [] := by
  rw [framesTo, List.zipIdx_append, List.filter_append, List.map_append]
  congr 1
  simp only [List.zipIdx_singleton, List.filter_cons, List.filter_nil, beq_iff_eq, Nat.zero_add]
  split_ifs <;> rfl

theorem mem_dests (specs : List ReqSpec) (mn : Nat) :
    mn ∈ dests specs ↔ ∃ spec ∈ specs, spec.machine = mn := by
  induction specs using List.reverseRecOn with
  | nil => simp [dests]
  | append_singleton specs spec ih =>
      rw [dests_snoc]
      split_ifs with known
      · simp only [ih, List.mem_append, List.mem_singleton]
        constructor
        · rintro ⟨other, member, same⟩
          exact ⟨other, Or.inl member, same⟩
        · rintro ⟨other, member | rfl, same⟩
          · exact ⟨other, member, same⟩
          · exact ih.mp (same ▸ known)
      · simp only [List.mem_append, ih, List.mem_singleton]
        constructor
        · rintro (⟨other, member, same⟩ | rfl)
          · exact ⟨other, Or.inl member, same⟩
          · exact ⟨spec, Or.inr rfl, rfl⟩
        · rintro ⟨other, member | rfl, same⟩
          · exact Or.inl ⟨other, member, same⟩
          · exact Or.inr same.symm

theorem dests_nodup (specs : List ReqSpec) : (dests specs).Nodup := by
  induction specs using List.reverseRecOn with
  | nil => exact List.nodup_nil
  | append_singleton specs spec ih =>
      rw [dests_snoc]
      split_ifs with known
      · exact ih
      · rw [← List.concat_eq_append]
        exact ih.concat known

theorem frames_to_nil (specs : List ReqSpec) (mn : Nat) (other : mn ∉ dests specs) :
    framesTo specs mn = [] := by
  rw [framesTo, List.map_eq_nil_iff, List.filter_eq_nil_iff]
  intro pair member here
  apply other
  rw [mem_dests]
  exact ⟨pair.1, List.fst_mem_of_mem_zipIdx member, beq_iff_eq.mp here⟩

structure CmsgHolds (cmsg : Cmsg) (mn : Nat) (frames : List Frame) : Prop where
  remote : cmsg.remoteMn = some mn
  entries : cmsg.numCentry = frames.length
  cursor : cmsg.reqMbuf.curOff = (encode frames).length
  stored : Stored cmsg.reqMbuf.buf 0 (encode frames)

structure CmsgFresh (cmsg : Cmsg) : Prop where
  remote : cmsg.remoteMn = none
  entries : cmsg.numCentry = 0
  cursor : cmsg.reqMbuf.curOff = 0

structure Built (batch : ReqBatch) (specs : List ReqSpec) : Prop where
  count : batch.numReqs = specs.length
  machines : batch.numUniqMn = (dests specs).length
  index : ∀ mn i, batch.cmsgForMc mn = some i ↔ (dests specs)[i]? = some mn
  used : ∀ i mn, (dests specs)[i]? = some mn →
    CmsgHolds (batch.cmsgArr i) mn (framesTo specs mn)
  unused : ∀ i, (dests specs).length ≤ i → CmsgFresh (batch.cmsgArr i)

variable {batch : ReqBatch} {specs : List ReqSpec}

theorem init_built (memory : Nat → Buffer) (maxPktSize : Nat) :
    Built (ReqBatch.init memory maxPktSize) [] := by
  refine ⟨rfl, rfl, ?_, ?_, ?_⟩
  · intro mn i
    constructor <;> intro impossible <;> cases impossible
  · intro i mn impossible
    cases impossible
  · intro i _
    exact ⟨rfl, rfl, rfl⟩

def extended (cmsg : Cmsg) (spec : ReqSpec) (coroSeqnum : Nat) : Cmsg :=
  { cmsg with
    numCentry := cmsg.numCentry + 1
    reqMbuf := { cmsg.reqMbuf with
      buf := writtenFrame cmsg.reqMbuf.buf cmsg.reqMbuf.curOff spec coroSeqnum
      curOff := cmsg.reqMbuf.curOff + sizeofCmsgReqhdr + spec.payload.length } }

theorem build_req_parts (batch : ReqBatch) (spec : ReqSpec) :
    let chosen := { batch with numReqs := batch.numReqs + 1 }.chooseCmsg spec.machine
    (batch.buildReq spec).numReqs = batch.numReqs + 1 ∧
      (batch.buildReq spec).numUniqMn = chosen.2.numUniqMn ∧
      (batch.buildReq spec).cmsgForMc = chosen.2.cmsgForMc ∧
      (batch.buildReq spec).cmsgArr = Function.update chosen.2.cmsgArr chosen.1
        (extended (chosen.2.cmsgArr chosen.1) spec batch.numReqs) := by
  intro chosen
  have count : chosen.2.numReqs = batch.numReqs + 1 := by
    simp only [chosen, ReqBatch.chooseCmsg]
    split <;> rfl
  refine ⟨count, rfl, rfl, ?_⟩
  simp only [ReqBatch.buildReq, ReqBatch.startNewReq, ReqBatch.writeReqBuf, ReqBatch.freeze,
    ReqBatch.setCmsg, ReqBatch.setReq, Function.update_self, Function.update_idem]
  have seqnum : chosen.2.numReqs - 1 = batch.numReqs := by omega
  simp only [chosen] at seqnum
  rw [seqnum]
  rfl

theorem extended_holds {cmsg : Cmsg} {mn : Nat} {frames : List Frame} (spec : ReqSpec)
    (coroSeqnum : Nat) (holds : CmsgHolds cmsg mn frames) :
    CmsgHolds (extended cmsg spec coroSeqnum) mn (frames ++ [specFrame spec coroSeqnum]) := by
  refine ⟨holds.remote, ?_, ?_, ?_⟩
  · rw [List.length_append, List.length_singleton, ← holds.entries]
    rfl
  · rw [encode_snoc, List.length_append, frame_length, ← holds.cursor, ← Nat.add_assoc]
    rfl
  · rw [encode_snoc, stored_append, Nat.zero_add, ← holds.cursor]
    constructor
    · apply stored_congr _ holds.stored
      intro position _ upper
      rw [Nat.zero_add, ← holds.cursor] at upper
      exact written_frame_before spec coroSeqnum position upper
    · exact written_frame_stored spec coroSeqnum

theorem extended_fresh {cmsg : Cmsg} (mn : Nat) (spec : ReqSpec) (coroSeqnum : Nat)
    (fresh : CmsgFresh cmsg) :
    CmsgHolds (extended { cmsg with remoteMn := some mn } spec coroSeqnum) mn
      [specFrame spec coroSeqnum] := by
  have empty : CmsgHolds { cmsg with remoteMn := some mn } mn [] :=
    ⟨rfl, fresh.entries, fresh.cursor, rfl⟩
  exact extended_holds spec coroSeqnum empty

theorem dest_index_unique {i j mn : Nat} (first : (dests specs)[i]? = some mn)
    (second : (dests specs)[j]? = some mn) : i = j := by
  obtain ⟨inside, -⟩ := List.getElem?_eq_some_iff.mp first
  exact (List.getElem?_inj inside (dests_nodup specs)).mp (first.trans second.symm)

/-- A request to a machine that has a message. -/
theorem build_known (built : Built batch specs) (spec : ReqSpec)
    (known : spec.machine ∈ dests specs) : Built (batch.buildReq spec) (specs ++ [spec]) := by
  obtain ⟨i, here⟩ := List.getElem?_of_mem known
  have chosen : { batch with numReqs := batch.numReqs + 1 }.chooseCmsg spec.machine =
      (i, { batch with numReqs := batch.numReqs + 1 }) := by
    simp only [ReqBatch.chooseCmsg, (built.index spec.machine i).mpr here]
  obtain ⟨count, machines, index, cmsgs⟩ := build_req_parts batch spec
  rw [chosen] at machines index cmsgs
  have same : dests (specs ++ [spec]) = dests specs := by rw [dests_snoc, if_pos known]
  refine ⟨?_, ?_, ?_, ?_, ?_⟩
  · rw [count, built.count, List.length_append, List.length_singleton]
  · rw [machines, same]
    exact built.machines
  · rw [index, same]
    exact built.index
  · intro j mn found
    rw [same] at found
    rw [cmsgs, frames_to_snoc]
    by_cases chosenHere : j = i
    · rw [chosenHere] at found ⊢
      have machine : spec.machine = mn := Option.some.inj (here.symm.trans found)
      rw [Function.update_self, if_pos machine, built.count]
      exact extended_holds spec specs.length (built.used i mn found)
    · have machine : spec.machine ≠ mn := by
        intro equal
        exact chosenHere (dest_index_unique found (equal ▸ here))
      rw [Function.update_of_ne chosenHere, if_neg machine, List.append_nil]
      exact built.used j mn found
  · intro j beyond
    rw [same] at beyond
    obtain ⟨inside, -⟩ := List.getElem?_eq_some_iff.mp here
    rw [cmsgs, Function.update_of_ne (by omega)]
    exact built.unused j beyond

theorem getElem?_concat_some {Item : Type} (items : List Item) (last item : Item) (j : Nat) :
    (items ++ [last])[j]? = some item ↔
      items[j]? = some item ∨ j = items.length ∧ last = item := by
  rcases Nat.lt_trichotomy j items.length with below | rfl | beyond
  · rw [List.getElem?_append_left below]
    constructor
    · exact .inl
    · rintro (found | ⟨same, -⟩)
      · exact found
      · omega
  · rw [List.getElem?_concat_length, List.getElem?_eq_none (Nat.le_refl _)]
    simp
  · rw [List.getElem?_eq_none (by rw [List.length_append, List.length_singleton]; omega),
      List.getElem?_eq_none (Nat.le_of_lt beyond)]
    simp only [reduceCtorEq, false_or, false_iff, not_and]
    omega

/-- A request to a machine that has none yet. -/
theorem build_fresh (built : Built batch specs) (spec : ReqSpec)
    (unknown : spec.machine ∉ dests specs) : Built (batch.buildReq spec) (specs ++ [spec]) := by
  have absent : batch.cmsgForMc spec.machine = none := by
    cases found : batch.cmsgForMc spec.machine with
    | none => rfl
    | some i => exact absurd (List.mem_of_getElem? ((built.index _ i).mp found)) unknown
  have chosen : { batch with numReqs := batch.numReqs + 1 }.chooseCmsg spec.machine =
      (batch.numUniqMn,
        { batch with
          numReqs := batch.numReqs + 1
          cmsgForMc := Function.update batch.cmsgForMc spec.machine (some batch.numUniqMn)
          numUniqMn := batch.numUniqMn + 1
          cmsgArr := Function.update batch.cmsgArr batch.numUniqMn
            { batch.cmsgArr batch.numUniqMn with remoteMn := some spec.machine } }) := by
    simp only [ReqBatch.chooseCmsg, absent]
  obtain ⟨count, machines, index, cmsgs⟩ := build_req_parts batch spec
  rw [chosen] at machines index cmsgs
  simp only [Function.update_self, Function.update_idem] at machines index cmsgs
  have more : dests (specs ++ [spec]) = dests specs ++ [spec.machine] := by
    rw [dests_snoc, if_neg unknown]
  have fresh := built.unused batch.numUniqMn (Nat.le_of_eq built.machines.symm)
  refine ⟨?_, ?_, ?_, ?_, ?_⟩
  · rw [count, built.count, List.length_append, List.length_singleton]
  · rw [machines, more, List.length_append, List.length_singleton, ← built.machines]
  · intro mn j
    rw [index, more, getElem?_concat_some]
    by_cases new : mn = spec.machine
    · rw [new, Function.update_self, built.machines, Option.some.injEq]
      constructor
      · rintro rfl
        exact .inr ⟨rfl, rfl⟩
      · rintro (found | ⟨last, -⟩)
        · exact absurd (List.mem_of_getElem? found) unknown
        · exact last.symm
    · rw [Function.update_of_ne new, built.index]
      constructor
      · exact .inl
      · rintro (found | ⟨-, same⟩)
        · exact found
        · exact absurd same.symm new
  · intro j mn found
    rw [more, getElem?_concat_some] at found
    rw [cmsgs, frames_to_snoc]
    rcases found with found | ⟨last, machine⟩
    · have machine : spec.machine ≠ mn := by
        intro equal
        exact unknown (equal ▸ List.mem_of_getElem? found)
      obtain ⟨inside, -⟩ := List.getElem?_eq_some_iff.mp found
      have apart : j ≠ batch.numUniqMn := by
        rw [built.machines]
        omega
      rw [Function.update_of_ne apart, if_neg machine, List.append_nil]
      exact built.used j mn found
    · rw [last, ← built.machines, Function.update_self, if_pos machine, ← machine,
        frames_to_nil _ _ unknown, List.nil_append, built.count]
      exact extended_fresh spec.machine spec specs.length fresh
  · intro j beyond
    rw [more, List.length_append, List.length_singleton] at beyond
    have apart : j ≠ batch.numUniqMn := by
      rw [built.machines]
      omega
    rw [cmsgs, Function.update_of_ne apart]
    exact built.unused j (by omega)

theorem build_built (built : Built batch specs) (spec : ReqSpec) :
    Built (batch.buildReq spec) (specs ++ [spec]) := by
  by_cases known : spec.machine ∈ dests specs
  · exact build_known built spec known
  · exact build_fresh built spec known

structure Cleared (batch cleared : ReqBatch) (count : Nat) : Prop where
  reqs : cleared.numReqs = batch.numReqs
  index : ∀ mn i, cleared.cmsgForMc mn = some i → count ≤ i ∧ batch.cmsgForMc mn = some i
  done : ∀ i, i < count → CmsgFresh (cleared.cmsgArr i)
  rest : ∀ i, count ≤ i → cleared.cmsgArr i = batch.cmsgArr i

theorem clear_loop (built : Built batch specs) (start : ReqBatch)
    (index : start.cmsgForMc = batch.cmsgForMc) (cmsgs : start.cmsgArr = batch.cmsgArr)
    (count : Nat) (bound : count ≤ (dests specs).length) :
    Cleared start ((List.range count).foldl ReqBatch.clearCmsg start) count := by
  induction count with
  | zero => exact ⟨rfl, fun _ _ found => ⟨Nat.zero_le _, found⟩, nofun, fun _ _ => rfl⟩
  | succ count ih =>
      have before := ih (by omega)
      rw [List.range_succ, List.foldl_append, List.foldl_cons, List.foldl_nil]
      have inside : count < (dests specs).length := by omega
      have here : (dests specs)[count]? = some (dests specs)[count] :=
        List.getElem?_eq_getElem inside
      have cmsg := before.rest count (Nat.le_refl _)
      have remote : (((List.range count).foldl ReqBatch.clearCmsg start).cmsgArr count).remoteMn =
          some (dests specs)[count] := by
        rw [cmsg, cmsgs]
        exact (built.used count _ here).remote
      refine ⟨before.reqs, ?_, ?_, ?_⟩
      · intro mn i found
        simp only [ReqBatch.clearCmsg, remote] at found
        by_cases own : mn = (dests specs)[count]
        · rw [own, Function.update_self] at found
          cases found
        · rw [Function.update_of_ne own] at found
          obtain ⟨lower, old⟩ := before.index mn i found
          refine ⟨?_, old⟩
          rw [index, built.index] at old
          have apart : i ≠ count := by
            intro equal
            rw [equal, here] at old
            exact own (Option.some.inj old).symm
          omega
      · intro i below
        simp only [ReqBatch.clearCmsg]
        by_cases last : i = count
        · rw [last, Function.update_self]
          exact ⟨rfl, rfl, rfl⟩
        · rw [Function.update_of_ne last]
          exact before.done i (by omega)
      · intro i beyond
        simp only [ReqBatch.clearCmsg]
        rw [Function.update_of_ne (by omega)]
        exact before.rest i (by omega)

theorem clear_built (built : Built batch specs) : Built batch.clear [] := by
  have cleared := clear_loop built { batch with numReqs := 0, numReqsDone := 0 } rfl rfl
    (dests specs).length (Nat.le_refl _)
  rw [← built.machines] at cleared
  refine ⟨cleared.reqs, rfl, ?_, ?_, ?_⟩
  · intro mn i
    constructor
    · intro found
      obtain ⟨beyond, old⟩ := cleared.index mn i found
      have listed := (built.index mn i).mp old
      obtain ⟨inside, -⟩ := List.getElem?_eq_some_iff.mp listed
      rw [built.machines] at beyond
      omega
    · intro impossible
      cases impossible
  · intro i mn impossible
    cases impossible
  · intro i _
    rcases Nat.lt_or_ge i batch.numUniqMn with below | beyond
    · exact cleared.done i below
    · have fresh := built.unused i (built.machines ▸ beyond)
      rw [← show _ = batch.cmsgArr i from cleared.rest i beyond] at fresh
      exact fresh

theorem build_batch_built (built : Built batch specs) (next : List ReqSpec) :
    Built (batch.buildBatch next) next := by
  have all : ∀ (start : ReqBatch) (before : List ReqSpec), Built start before →
      Built (next.foldl ReqBatch.buildReq start) (before ++ next) := by
    induction next with
    | nil =>
        intro start before holds
        rw [List.append_nil]
        exact holds
    | cons spec rest ih =>
        intro start before holds
        have step := ih _ _ (build_built holds spec)
        rw [List.append_assoc, List.singleton_append] at step
        exact step
  exact all batch.clear [] (clear_built built)

def requestMessage (args : RpcArgs) (coroId rest : Nat) (specs : List ReqSpec) (mn : Nat) :
    Message where
  remoteMn := some mn
  immData := RpcImm.intRep
    { isReq := 1
      numReqs := (framesTo specs mn).length
      configId := 0
      mchnId := args.machineId
      coroId := coroId
      rest := rest }
  sgLength := (encode (framesTo specs mn)).length
  payload := encode (framesTo specs mn)

theorem built_message (args : RpcArgs) (coroId rest : Nat) {cmsg : Cmsg} {mn : Nat}
    (holds : CmsgHolds cmsg mn (framesTo specs mn)) :
    reqMessage args coroId rest cmsg = requestMessage args coroId rest specs mn := by
  have contents : cmsg.reqMbuf.contents = encode (framesTo specs mn) := by
    rw [Mbuf.contents, Mbuf.length, holds.cursor]
    exact holds.stored
  simp only [reqMessage, requestMessage, reqImm, holds.remote, holds.entries, Mbuf.length,
    holds.cursor, contents]

theorem built_messages (built : Built batch specs) (args : RpcArgs) (coroId rest : Nat) :
    batch.cmsgs.map (reqMessage args coroId rest) =
      (dests specs).map (requestMessage args coroId rest specs) := by
  rw [ReqBatch.cmsgs, List.map_map]
  apply List.ext_getElem?
  intro i
  rw [List.getElem?_map, List.getElem?_map]
  cases found : (dests specs)[i]? with
  | none =>
      rw [List.getElem?_eq_none]
      · rfl
      · rw [List.length_range, built.machines]
        exact List.getElem?_eq_none_iff.mp found
  | some mn =>
      obtain ⟨inside, -⟩ := List.getElem?_eq_some_iff.mp found
      rw [List.getElem?_range (built.machines ▸ inside)]
      exact congrArg some (built_message args coroId rest (built.used i mn found))

theorem posting_messages {args : RpcArgs} {sender : Sender} {sent : List Message}
    (posting : Posting args sender 0 sent) : sender.messages = sent := by
  have order := posting.order
  rw [List.take_zero, List.append_nil] at order
  exact order

/-- `send_reqs` posts one message for each machine of the batch. -/
theorem send_built {args : RpcArgs} (accepted : Accepted args) {sender : Sender}
    (posting : Posting args sender 0 sender.messages) (built : Built batch specs)
    (coroId rest : Nat) :
    ∃ after, sendReqs args coroId rest sender batch.cmsgs = .ok after ∧
      Posting args after 0 after.messages ∧
      emitted sender after = (dests specs).map (requestMessage args coroId rest specs) := by
  obtain ⟨after, ran, kept⟩ := call_posting accepted (.reqs coroId rest batch.cmsgs) posting
  have all := posting_messages kept
  refine ⟨after, ran, all.symm ▸ kept, ?_⟩
  rw [emitted, all, List.drop_left]
  exact built_messages built args coroId rest

/-- The request loop gives the handlers the frames of the message, one by one. -/
theorem request_loop_calls (wcBuf : Buffer) (handler : Frame → HandlerResult)
    (frames : List Frame) (wcOff : Nat) (mbuf : Mbuf) (fits : ∀ frame ∈ frames, FrameFits frame)
    (stored : Stored wcBuf wcOff (encode frames)) :
    (requestLoop wcBuf handler frames.length wcOff mbuf).1.map Handled.call = frames ∧
      (requestLoop wcBuf handler frames.length wcOff mbuf).2.1 =
        wcOff + (encode frames).length := by
  induction frames generalizing wcOff mbuf with
  | nil => exact ⟨rfl, rfl⟩
  | cons frame rest ih =>
      rw [encode_cons, stored_append, frame_length, ← Nat.add_assoc] at stored
      obtain ⟨header, data⟩ := frame_read frame (fits frame List.mem_cons_self) stored.1
      rw [List.length_cons, requestLoop]
      simp only [header, data]
      obtain ⟨calls, ending⟩ := ih _ (respond wcBuf wcOff (handler frame) mbuf)
        (fun other member => fits other (List.mem_cons_of_mem frame member)) stored.2
      constructor
      · rw [List.map_cons, calls]
      · rw [ending, encode_cons, List.length_append, frame_length]
        omega

/-- The conditions on a batch: it fits its arrays and its messages fit a packet. -/
structure BatchOk (args : RpcArgs) (specs : List ReqSpec) : Prop where
  few : specs.length ≤ rpcMaxMsgCoro
  machines : ∀ spec ∈ specs, spec.machine < hotsMaxMachines
  sizes : ∀ spec ∈ specs, spec.payload.length % 8 = 0
  fits : ∀ mn ∈ dests specs, (encode (framesTo specs mn)).length ≤ args.maxPktSize

theorem check_info_accepted {args : RpcArgs} (accepted : args.checkInfo = true) :
    Accepted args ∧ args.maxPktSize ≤ rpcMaxMaxPktSize := by
  simp only [RpcArgs.checkInfo, Bool.and_eq_true, decide_eq_true_eq] at accepted
  obtain ⟨⟨⟨⟨⟨-, someQps, qpsBound⟩, -⟩, somePostlist, postlistBound⟩, -, pktBound⟩, -⟩ := accepted
  exact ⟨⟨somePostlist, postlistBound, someQps, qpsBound⟩, pktBound⟩

theorem frame_data_le {frames : List Frame} {frame : Frame} (member : frame ∈ frames) :
    frame.data.length ≤ (encode frames).length := by
  obtain ⟨before, after, rfl⟩ := List.append_of_mem member
  rw [encode, List.flatMap_append, List.flatMap_cons, List.length_append, List.length_append,
    frame_length]
  omega

theorem frames_fit_packet {args : RpcArgs} (accepted : args.checkInfo = true) (mn : Nat)
    (few : specs.length ≤ rpcMaxMsgCoro)
    (packet : (encode (framesTo specs mn)).length ≤ args.maxPktSize) :
    ∀ frame ∈ framesTo specs mn, FrameFits frame := by
  intro frame member
  have size := frame_data_le member
  obtain ⟨pair, inside, rfl⟩ := List.mem_map.mp member
  have position := List.snd_lt_of_mem_zipIdx (List.mem_of_mem_filter inside)
  have bound := (check_info_accepted accepted).2
  simp only [rpcMaxMsgCoro, rpcMaxMaxPktSize] at few bound
  refine ⟨pair.1.reqType.toNat_lt, ?_, ?_⟩
  · simp only [specFrame]
    omega
  · omega

theorem frames_fit {args : RpcArgs} (accepted : args.checkInfo = true) (ok : BatchOk args specs)
    (mn : Nat) : ∀ frame ∈ framesTo specs mn, FrameFits frame := by
  by_cases known : mn ∈ dests specs
  · exact frames_fit_packet accepted mn ok.few (ok.fits mn known)
  · rw [frames_to_nil specs mn known]
    nofun

theorem frames_to_length (specs : List ReqSpec) (mn : Nat) :
    (framesTo specs mn).length ≤ specs.length := by
  rw [framesTo, List.length_map]
  exact Nat.le_trans (List.length_filter_le _ _) (Nat.le_of_eq List.length_zipIdx)

theorem int_rep_num_reqs (imm : RpcImm) (fits : imm.numReqs < 32) :
    (RpcImm.ofIntRep imm.intRep).numReqs = imm.numReqs := by
  simp only [RpcImm.ofIntRep, RpcImm.intRep, RpcImm.packed_low, RpcImm.packed_high]
  exact Nat.mod_eq_of_lt fits

structure Ready (args : RpcArgs) (requester : Requester) : Prop where
  posting : Posting args requester.sender 0 requester.sender.messages
  built : ∀ coroId, ∃ specs, Built (requester.reqBatchArr coroId) specs

theorem send_batch_ready {args : RpcArgs} (accepted : Accepted args) {requester : Requester}
    (ready : Ready args requester) (coroId rest : Nat) (specs : List ReqSpec) :
    ∃ after, sendBatch args coroId rest specs requester = .ok after ∧ Ready args after ∧
      emitted requester.sender after.sender =
        (dests specs).map (requestMessage args coroId rest specs) := by
  obtain ⟨old, built⟩ := ready.built coroId
  have next := build_batch_built built specs
  obtain ⟨sender, ran, posting, posted⟩ := send_built accepted ready.posting next coroId rest
  refine ⟨⟨Function.update requester.reqBatchArr coroId
    ((requester.reqBatchArr coroId).buildBatch specs), sender⟩, ?_, ⟨posting, ?_⟩, posted⟩
  · rw [sendBatch, ran]
    rfl
  · intro other
    by_cases own : other = coroId
    · rw [own]
      simp only [Function.update_self]
      exact ⟨specs, next⟩
    · simp only [Function.update_of_ne own]
      exact ready.built other

structure Round where
  coroId : Nat
  rest : Nat
  specs : List ReqSpec

def sendRound (args : RpcArgs) (requester : Requester) (round : Round) :
    Except SendFault Requester :=
  sendBatch args round.coroId round.rest round.specs requester

theorem rounds_ready {args : RpcArgs} (accepted : Accepted args) (rounds : List Round)
    {requester : Requester} (ready : Ready args requester) :
    ∃ after, rounds.foldlM (sendRound args) requester = .ok after ∧ Ready args after := by
  induction rounds generalizing requester with
  | nil => exact ⟨requester, rfl, ready⟩
  | cons round others ih =>
      obtain ⟨middle, ran, kept, -⟩ :=
        send_batch_ready accepted ready round.coroId round.rest round.specs
      rw [List.foldlM_cons, sendRound, ran]
      exact ih kept

def Requester.init (args : RpcArgs) (memory : Nat → Nat → Buffer) : Requester :=
  ⟨fun coroId => ReqBatch.init (memory coroId) args.maxPktSize, Sender.init args.numQps⟩

theorem init_ready {args : RpcArgs} (accepted : Accepted args) (memory : Nat → Nat → Buffer) :
    Ready args (Requester.init args memory) :=
  ⟨init_posting accepted, fun coroId => ⟨[], init_built (memory coroId) args.maxPktSize⟩⟩

/-- After any batches of any coroutines, a batch is posted as one message for each
of its machines; the receiver takes from it exactly the requests to that machine,
in order and with their types, indices and payloads. -/
theorem coalesced_requests_round_trip (args : RpcArgs) (accepted : args.checkInfo = true)
    (memory : Nat → Nat → Buffer) (rounds : List Round) (last : Round)
    (ok : ∀ round ∈ rounds ++ [last], BatchOk args round.specs) :
    ∃ before after, rounds.foldlM (sendRound args) (Requester.init args memory) = .ok before ∧
      sendRound args before last = .ok after ∧
      (emitted before.sender after.sender).map Message.remoteMn = (dests last.specs).map some ∧
      (dests last.specs).Nodup ∧
      (∀ mn, mn ∈ dests last.specs ↔ ∃ spec ∈ last.specs, spec.machine = mn) ∧
      ∀ msg ∈ emitted before.sender after.sender, ∀ mn, msg.remoteMn = some mn →
        ∀ (stale : Buffer) (handler : Frame → HandlerResult) (mbuf : Mbuf),
          let out := requestLoop (writeBytes stale 0 msg.payload) handler
            (RpcImm.ofIntRep msg.immData).numReqs 0 mbuf
          out.1.map Handled.call = framesTo last.specs mn ∧ out.2.1 = msg.payload.length := by
  obtain ⟨sending, -⟩ := check_info_accepted accepted
  obtain ⟨before, ran, ready⟩ := rounds_ready sending rounds (init_ready sending memory)
  obtain ⟨after, sent, -, posted⟩ :=
    send_batch_ready sending ready last.coroId last.rest last.specs
  have lastOk := ok last (List.mem_append_right _ List.mem_cons_self)
  refine ⟨before, after, ran, sent, ?_, dests_nodup _, mem_dests _, ?_⟩
  · rw [posted, List.map_map]
    rfl
  · rw [posted]
    intro msg member mn destination stale handler mbuf
    obtain ⟨machine, -, rfl⟩ := List.mem_map.mp member
    have same : machine = mn := Option.some.inj destination
    rw [same]
    have few := Nat.le_trans (frames_to_length last.specs mn) lastOk.few
    have number : (RpcImm.ofIntRep
        (requestMessage args last.coroId last.rest last.specs mn).immData).numReqs =
        (framesTo last.specs mn).length := by
      apply int_rep_num_reqs
      simp only [rpcMaxMsgCoro] at few
      simp only
      omega
    have calls := request_loop_calls
      (writeBytes stale 0 (requestMessage args last.coroId last.rest last.specs mn).payload) handler
      (framesTo last.specs mn) 0 mbuf (frames_fit accepted lastOk mn) (stored_write _ _ _)
    rw [number]
    refine ⟨calls.1, calls.2.trans ?_⟩
    rw [Nat.zero_add]
    rfl

def requestTo (machine : Nat) (byte : UInt8) : ReqSpec where
  reqType := 20
  machine := machine
  payload := List.replicate 8 byte
  spill := [0, 0]
  respBuf := fun _ => 0

theorem coalesced_requests_round_trip_reused :
    ∃ before after,
      [Round.mk 1 0 [requestTo 0 1, requestTo 1 2, requestTo 0 3]].foldlM (sendRound shortLists)
        (Requester.init shortLists fun _ _ _ => 0) = .ok before ∧
      sendRound shortLists before ⟨1, 0, [requestTo 1 4, requestTo 0 5]⟩ = .ok after ∧
      (emitted before.sender after.sender).map Message.remoteMn = [some 1, some 0] := by
  obtain ⟨before, after, ran, sent, posted, -⟩ := coalesced_requests_round_trip shortLists
    (by decide) (fun _ _ _ => 0) [⟨1, 0, [requestTo 0 1, requestTo 1 2, requestTo 0 3]⟩]
    ⟨1, 0, [requestTo 1 4, requestTo 0 5]⟩ (by
      intro round member
      rcases List.mem_cons.mp member with rfl | member
      · exact ⟨by decide, by decide, by decide, by decide⟩
      · rw [List.mem_singleton.mp member]
        exact ⟨by decide, by decide, by decide, by decide⟩)
  exact ⟨before, after, ran, sent, posted⟩

end Fasst.RpcCoalesce

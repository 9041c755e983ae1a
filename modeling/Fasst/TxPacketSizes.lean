import Fasst.TxOwnership
import Fasst.RpcCoalesce

/-!
# The sizes of the packets of a transaction

Each phase of a transaction sends batches in which every request has the length
that is given to `freeze`. In one batch a key has at most one request to a given
machine, since its replicas are on different machines; a log record goes to each
log machine once.
-/

namespace Fasst.TxPacketSizes

open List Fasst.Placement Fasst.FixedTableModel Fasst.TxModel Fasst.TxCluster Fasst.TxLocal
open Fasst.TxSteps Fasst.TxInvariant Fasst.TxOwnership Fasst.Aligned Fasst.Outcomes
open Fasst.RpcDefs Fasst.RpcBatch Fasst.RpcCoalesce

set_option autoImplicit false

variable {V : Type}

def maxPktSize (numKeys valSize : Nat) : Nat :=
  let maxPutReqSize := numKeys * (sizeofCmsgReqhdr + dsPutReqSize valSize)
  let maxLogRecordSize := 8 + sizeofCmsgReqhdr + numKeys * (3 * 8 + valSize)
  if maxPutReqSize > maxLogRecordSize then maxPutReqSize else maxLogRecordSize

def machineOf : Request V → Nat
  | .ds req => req.machine
  | .log machine _ _ => machine

/-- A request with the length that is given to `freeze`. -/
structure SizedReq (V : Type) where
  req : Request V
  reqLen : Nat

def genericGet (req : Request V) : SizedReq V := ⟨req, sizeofGenericGetReq⟩

/-- The length of a log record, as `log` adds it up. -/
def logReqLen (writeSet : List (RwsetItem V)) : Nat :=
  writeSet.foldl (fun reqLen item => reqLen + 8 + hotsObjSize item.obj.valSize) 8

def updateLen (item : RwsetItem V) : Nat :=
  if item.writeMode = .del then sizeofGenericGetReq else dsPutReqSize item.obj.valSize

def updateBatch (coro : CoroId) (tx : TxState V) (vec : List Nat) : List (SizedReq V) :=
  vec.flatMap fun replI => tx.writeSet.map fun item => ⟨updateReq coro replI item, updateLen item⟩

/-- The batches a transaction can send with its present read and write sets. -/
inductive PhaseBatch (cfg : Config) (coro : CoroId) (tx : TxState V) : List (SizedReq V) → Prop where
  | doRead : PhaseBatch cfg coro tx ((doReadReqs coro tx).map genericGet)
  | validate : PhaseBatch cfg coro tx ((tx.readSet.map (readReq coro)).map genericGet)
  | abort : PhaseBatch cfg coro tx
      (((tx.writeSet.filter fun item => item.execWsLocked).map (unlockReq coro)).map genericGet)
  | log (record : List UInt8) : PhaseBatch cfg coro tx
      ((logReqs cfg coro record).map fun req => ⟨req, logReqLen tx.writeSet⟩)
  | update (vec : List Nat) (sent : vec ∈ allVecs cfg tx) :
      PhaseBatch cfg coro tx (updateBatch coro tx vec)

def ReplicasApart (cfg : Config) (item : RwsetItem V) : Prop :=
  ((range cfg.mappings.numReplicas).map (replicaMn item)).Nodup

instance (cfg : Config) (item : RwsetItem V) : Decidable (ReplicasApart cfg item) :=
  inferInstanceAs (Decidable (Nodup _))

/-- A response that some table with values of at most `valSize` bytes, or a
Logger, can give to a request. -/
def Answers (valSize : Nat) : Request V → Resp V → Prop
  | .ds req, resp => ∃ (table : FixedTable V) (stale : UInt64) (after : FixedTable V),
      table.valSize ≤ valSize ∧ dsFixedtableRpcHandler table req stale = .ok (resp, after)
  | .log _ _ _, resp => resp = ⟨.loggerSuccess, 0, none, none⟩

def toMachine (mn : Nat) (sized : SizedReq V) : Bool := machineOf sized.req == mn

section Lengths

def coalescedLen (lens : List Nat) : Nat := (lens.map fun len => sizeofCmsgReqhdr + len).sum

theorem encode_length (frames : List Frame) :
    (encode frames).length = coalescedLen (frames.map fun frame => frame.data.length) := by
  induction frames with
  | nil => rfl
  | cons frame rest ih =>
      rw [encode_cons, length_append, frame_length, ih]
      rfl

theorem coalesced_le (lens : List Nat) (bound : Nat) (small : ∀ len ∈ lens, len ≤ bound) :
    coalescedLen lens ≤ lens.length * (sizeofCmsgReqhdr + bound) := by
  induction lens with
  | nil => exact Nat.zero_le _
  | cons len rest ih =>
      have others := ih fun other member => small other (mem_cons_of_mem len member)
      have own := small len mem_cons_self
      simp only [coalescedLen, map_cons, sum_cons, length_cons, Nat.succ_mul] at others ⊢
      omega

theorem frames_to_lens (specs : List ReqSpec) (mn : Nat) :
    ((framesTo specs mn).map fun frame => frame.data.length) =
      (specs.filter fun spec => spec.machine == mn).map fun spec => spec.payload.length := by
  have firsts : (specs.zipIdx.filter fun pair => pair.1.machine == mn).map Prod.fst =
      specs.filter fun spec => spec.machine == mn := by
    have mapped := filter_map (f := Prod.fst) (l := specs.zipIdx)
      (p := fun spec : ReqSpec => spec.machine == mn)
    rw [zipIdx_map_fst] at mapped
    exact mapped.symm
  rw [← firsts, framesTo, map_map, map_map]
  rfl

/-- Requests as the user of the RPC layer issues them. -/
def Carries (specs : List ReqSpec) (batch : List (SizedReq V)) : Prop :=
  (specs.map fun spec => (spec.machine, spec.payload.length)) =
    batch.map fun sized => (machineOf sized.req, sized.reqLen)

theorem carried_lens {specs : List ReqSpec} {batch : List (SizedReq V)}
    (carries : Carries specs batch) (mn : Nat) :
    ((framesTo specs mn).map fun frame => frame.data.length) =
      (batch.filter (toMachine mn)).map SizedReq.reqLen := by
  have picked := congrArg (fun pairs => (pairs.filter fun pair => pair.1 == mn).map Prod.snd) carries
  simp only [filter_map, map_map] at picked
  rw [frames_to_lens]
  exact picked

end Lengths

section Bounds

variable {cfg : Config} {coro : CoroId} {tx : TxState V} {numKeys valSize : Nat}

/-- Every machine gets at most so many requests, none longer than `bound`, and
messages with so many requests or responses fit. -/
structure Light (valSize limit : Nat) (batch : List (SizedReq V)) : Prop where
  few : batch.length ≤ rpcMaxMsgCoro
  light : ∃ count bound, (∀ mn, (batch.filter (toMachine mn)).length ≤ count) ∧
    (∀ sized ∈ batch, sized.reqLen ≤ bound) ∧
    count * (sizeofCmsgReqhdr + bound) ≤ limit ∧
    count * (sizeofCmsgReqhdr + (sizeofHdr + valSize)) ≤ limit

theorem put_fits (numKeys valSize : Nat) :
    numKeys * (sizeofCmsgReqhdr + dsPutReqSize valSize) ≤ maxPktSize numKeys valSize := by
  unfold maxPktSize
  simp only
  split_ifs <;> omega

theorem log_fits (numKeys valSize : Nat) :
    8 + sizeofCmsgReqhdr + numKeys * (3 * 8 + valSize) ≤ maxPktSize numKeys valSize := by
  unfold maxPktSize
  simp only
  split_ifs <;> omega

theorem answers_fit (numKeys valSize : Nat) :
    numKeys * (sizeofCmsgReqhdr + (sizeofHdr + valSize)) ≤ maxPktSize numKeys valSize := by
  refine Nat.le_trans (Nat.mul_le_mul_left numKeys ?_) (put_fits numKeys valSize)
  simp only [sizeofHdr, dsPutReqSize, sizeofGenericPutReq, sizeofGenericGetReq]
  omega

/-- Few requests of the size of an update. -/
theorem light_of_few {batch : List (SizedReq V)} (total : batch.length ≤ rpcMaxMsgCoro)
    (counts : ∀ mn, (batch.filter (toMachine mn)).length ≤ numKeys)
    (lens : ∀ sized ∈ batch, sized.reqLen ≤ dsPutReqSize valSize) :
    Light valSize (maxPktSize numKeys valSize) batch :=
  ⟨total, numKeys, dsPutReqSize valSize, counts, lens, put_fits numKeys valSize,
    answers_fit numKeys valSize⟩

theorem light_gets (few : numKeys ≤ rpcMaxMsgCoro) (reqs : List (Request V))
    (count : reqs.length ≤ numKeys) :
    Light valSize (maxPktSize numKeys valSize) (reqs.map genericGet) := by
  apply light_of_few
  · rw [length_map]
    omega
  · intro mn
    refine Nat.le_trans (length_filter_le _ _) ?_
    rw [length_map]
    exact count
  · intro sized member
    obtain ⟨req, -, rfl⟩ := mem_map.mp member
    simp only [genericGet, dsPutReqSize, sizeofGenericPutReq]
    omega

theorem log_req_len_le (writeSet : List (RwsetItem V))
    (values : ∀ item ∈ writeSet, item.obj.valSize ≤ valSize) :
    logReqLen writeSet ≤ 8 + writeSet.length * (3 * 8 + valSize) := by
  have from_ : ∀ start, writeSet.foldl
      (fun reqLen item => reqLen + 8 + hotsObjSize item.obj.valSize) start ≤
        start + writeSet.length * (3 * 8 + valSize) := by
    induction writeSet with
    | nil =>
        intro start
        exact Nat.le_add_right _ _
    | cons item rest ih =>
        intro start
        have own := values item mem_cons_self
        have others := ih (fun other member => values other (mem_cons_of_mem item member))
          (start + 8 + hotsObjSize item.obj.valSize)
        rw [foldl_cons, length_cons, Nat.succ_mul]
        simp only [hotsObjSize] at others ⊢
        omega
  exact from_ 8

/-- The log machines of a worker are different. -/
theorem log_machines_apart (cfg : Config) (machine left right : Nat)
    (leftBound : left < cfg.mappings.numBackups) (rightBound : right < cfg.mappings.numBackups)
    (same : cfg.mappings.getLogMn machine left = cfg.mappings.getLogMn machine right) :
    left = right := by
  have replicas := cfg.mappings.replicasBound
  simp only [Mappings.getLogMn, Mappings.getBackupMnFromPrimary,
    tot_primary_off cfg.mappings cfg.lockServerOff] at same
  split_ifs at same <;> omega

theorem count_once {Item : Type} (items : List Item) (view : Item → Nat)
    (apart : (items.map view).Nodup) (mn : Nat) :
    (items.filter fun item => view item == mn).length ≤ 1 := by
  have once := nodup_iff_count_le_one.mp apart mn
  rw [count, countP_map, countP_eq_length_filter] at once
  exact once

theorem light_log (some_ : 1 ≤ numKeys) (record : List UInt8)
    (count : tx.writeSet.length ≤ numKeys)
    (values : ∀ item ∈ tx.writeSet, item.obj.valSize ≤ valSize) :
    Light valSize (maxPktSize numKeys valSize)
      ((logReqs cfg coro record).map fun req => (⟨req, logReqLen tx.writeSet⟩ : SizedReq V)) := by
  have len := log_req_len_le tx.writeSet values
  have scaled := Nat.mul_le_mul_right (3 * 8 + valSize) count
  have logs := log_fits numKeys valSize
  have answers := Nat.le_trans (Nat.mul_le_mul_right _ some_) (answers_fit numKeys valSize)
  refine ⟨?_, 1, logReqLen tx.writeSet, ?_, ?_, by omega, answers⟩
  · have backups := cfg.mappings.backupsBound
    simp only [hotsMaxBackups, rpcMaxMsgCoro] at *
    rw [length_map, logReqs, length_map, length_range]
    omega
  · intro mn
    apply count_once
    rw [logReqs, map_map, map_map]
    apply Nodup.map_on _ nodup_range
    intro left leftIn right rightIn same
    exact log_machines_apart cfg _ left right (mem_range.mp leftIn) (mem_range.mp rightIn) same
  · intro sized member
    obtain ⟨req, -, rfl⟩ := mem_map.mp member
    exact Nat.le_refl _

/-- Over all items, a value is taken at most once for each. -/
theorem product_count {Item : Type} (vec : List Nat) (items : List Item)
    (place : Nat → Item → Nat) (apart : ∀ item ∈ items, (vec.map fun replI => place replI item).Nodup)
    (mn : Nat) :
    (vec.flatMap fun replI => items.map (place replI)).count mn ≤ items.length := by
  induction items with
  | nil =>
      simp only [map_nil]
      rw [flatMap_eq_nil_iff.mpr fun _ _ => rfl]
      exact Nat.le_refl _
  | cons item rest ih =>
      have split := flatMap_append_perm vec (fun replI => [place replI item])
        fun replI => rest.map (place replI)
      have others := ih fun other member => apart other (mem_cons_of_mem item member)
      have own := nodup_iff_count_le_one.mp (apart item mem_cons_self) mn
      have whole : (vec.flatMap fun replI => (item :: rest).map (place replI)) =
          vec.flatMap fun replI => [place replI item] ++ rest.map (place replI) := rfl
      rw [whole, ← split.count_eq, count_append, ← map_eq_flatMap, length_cons]
      omega

theorem all_vecs_members {vec : List Nat} (sent : vec ∈ allVecs cfg tx) :
    vec.Nodup ∧ (∀ replI ∈ vec, replI < cfg.mappings.numReplicas) ∧
      (tx.writeSet.length ≤ rpcMaxMsgCoro → vec.length * tx.writeSet.length ≤ rpcMaxMsgCoro) := by
  rcases mem_append.mp sent with backup | primary
  · refine ⟨backup_vecs_nodup cfg _ backup, ?_, ?_⟩
    · intro replI inside
      have upper := (backup_vecs_range cfg _ backup inside).2
      rw [Mappings.numReplicas]
      omega
    · intro few
      unfold backupVecs at backup
      split_ifs at backup with none_ one
      · cases backup
      · rw [mem_singleton.mp backup, length_map, length_range, Nat.mul_comm]
        exact one
      · obtain ⟨replI, -, rfl⟩ := mem_map.mp backup
        rw [length_singleton, Nat.one_mul]
        exact few
  · rw [mem_singleton.mp primary]
    refine ⟨nodup_singleton 0, ?_, ?_⟩
    · intro replI inside
      rw [mem_singleton.mp inside, Mappings.numReplicas]
      omega
    · intro few
      rw [length_singleton, Nat.one_mul]
      exact few

theorem light_update (few : numKeys ≤ rpcMaxMsgCoro) {vec : List Nat} (sent : vec ∈ allVecs cfg tx)
    (count : tx.writeSet.length ≤ numKeys)
    (values : ∀ item ∈ tx.writeSet, item.obj.valSize ≤ valSize)
    (apart : ∀ item ∈ tx.writeSet, ReplicasApart cfg item) :
    Light valSize (maxPktSize numKeys valSize) (updateBatch coro tx vec) := by
  obtain ⟨nodup, replicas, total⟩ := all_vecs_members sent
  apply light_of_few
  · have length : (updateBatch coro tx vec).length = vec.length * tx.writeSet.length := by
      rw [updateBatch, length_flatMap]
      simp only [length_map, map_const', sum_replicate_nat]
    rw [length]
    exact total (by omega)
  · intro mn
    have machines : (updateBatch coro tx vec).map (fun sized => machineOf sized.req) =
        vec.flatMap fun replI => tx.writeSet.map fun item => replicaMn item replI := by
      rw [updateBatch, map_flatMap]
      simp only [map_map]
      rfl
    have once := product_count vec tx.writeSet (fun replI item => replicaMn item replI) (by
      intro item member
      apply Nodup.map_on _ nodup
      intro left leftIn right rightIn same
      exact inj_on_of_nodup_map (apart item member) (mem_range.mpr (replicas left leftIn))
        (mem_range.mpr (replicas right rightIn)) same) mn
    rw [← machines, List.count, countP_map, countP_eq_length_filter] at once
    exact Nat.le_trans once count
  · intro sized member
    obtain ⟨replI, -, inside⟩ := mem_flatMap.mp member
    obtain ⟨item, listed, rfl⟩ := mem_map.mp inside
    have small := values item listed
    simp only [updateLen, dsPutReqSize, sizeofGenericPutReq]
    split_ifs <;> omega

theorem light_phase (some_ : 1 ≤ numKeys) (few : numKeys ≤ rpcMaxMsgCoro)
    (keys : tx.readSet.length + tx.writeSet.length ≤ numKeys)
    (values : ∀ item ∈ tx.writeSet, item.obj.valSize ≤ valSize)
    (apart : ∀ item ∈ tx.writeSet, ReplicasApart cfg item) {batch : List (SizedReq V)}
    (phase : PhaseBatch cfg coro tx batch) : Light valSize (maxPktSize numKeys valSize) batch := by
  cases phase with
  | doRead =>
      apply light_gets few
      rw [doReadReqs, length_append, length_map, length_map, length_drop, length_drop]
      omega
  | validate =>
      apply light_gets few
      rw [length_map]
      omega
  | abort =>
      apply light_gets few
      rw [length_map]
      exact Nat.le_trans (length_filter_le _ _) (by omega)
  | log record => exact light_log some_ record (by omega) values
  | update vec sent => exact light_update few sent (by omega) values apart

theorem ensures_any {Err Value : Type} (outcome : Except Err Value) :
    Ensures (fun _ => True) (fun _ => True) outcome := by
  cases outcome <;> trivial

theorem handler_len (table : FixedTable V) (req : DsReq V) (stale : UInt64) :
    Ensures (fun _ => True) (fun out => out.1.respLen ≤ sizeofHdr + table.valSize)
      (dsFixedtableRpcHandler table req stale) := by
  unfold dsFixedtableRpcHandler
  cases req.reqType with
  | getRdonly =>
      refine ensures_bind (ensures_any _) ?_
      intro out _
      cases out.result <;> simp [Ensures]
  | getForUpd =>
      refine ensures_bind (ensures_any _) ?_
      intro out _
      cases h : out.1.result <;> simp [Ensures, h]
  | lockForIns =>
      refine ensures_bind (ensures_any _) ?_
      intro out _
      cases h : out.1.result <;> simp [Ensures, h]
  | unlock =>
      refine ensures_bind (ensures_any _) ?_
      intro out _
      by_cases done : out.1 = .kSuccess <;> simp [Ensures, done]
  | del =>
      refine ensures_bind (ensures_any _) ?_
      intro out _
      by_cases done : out.1 = .kSuccess <;> simp [Ensures, done]
  | put val =>
      refine ensures_bind (ensures_any _) ?_
      intro out _
      by_cases done : out.1 = .kSuccess <;> simp [Ensures, done]

theorem answer_len {req : Request V} {resp : Resp V} (answers : Answers valSize req resp) :
    resp.respLen ≤ sizeofHdr + valSize := by
  cases req with
  | ds req =>
      obtain ⟨table, stale, after, small, ran⟩ := answers
      have len := ensures_elim (handler_len table req stale) ran
      simp only at len
      omega
  | log machine wrkrLid record =>
      have same : resp = ⟨.loggerSuccess, 0, none, none⟩ := answers
      rw [same]
      exact Nat.zero_le _

end Bounds

section Transactions

variable {cfg : Config} {coro : CoroId} {tx : TxState V}

theorem update_slots_reqs {vec : List Nat} {slots : List (ReqSlot V)}
    (aligned : Forall₂ (UpdateSlot coro tx) (vec.product tx.writeSet) slots) :
    slots.map ReqSlot.req = (updateBatch coro tx vec).map SizedReq.req := by
  have made : slots.map ReqSlot.req =
      (vec.product tx.writeSet).map fun pair => updateReq coro pair.1 pair.2 :=
    map_eq_of_forall₂ aligned fun _ _ both => both.1
  rw [made, updateBatch, List.product, map_flatMap, map_flatMap]
  simp only [map_map]
  rfl

/-- What a coroutine waits for is one of the batches of its transaction. -/
theorem waiting_batch_phase (inv : TxInv cfg coro tx) (waits : tx.pc ≠ .app) :
    ∃ batch, PhaseBatch cfg coro tx batch ∧ tx.batch.map ReqSlot.req = batch.map SizedReq.req := by
  have stage := inv.stage
  unfold StageInv at stage
  have gets : ∀ reqs : List (Request V), (reqs.map genericGet).map SizedReq.req = reqs := by
    intro reqs
    rw [map_map]
    exact map_id reqs
  cases pc : tx.pc with
  | app => exact absurd pc waits
  | doRead =>
      rw [pc] at stage
      obtain ⟨-, -, -, -, reads, writes, split, readSlots, writeSlots⟩ := stage
      refine ⟨_, .doRead, ?_⟩
      have reads := map_eq_of_forall₂ readSlots fun _ _ same => same
      have writes := map_eq_of_forall₂ writeSlots fun _ _ both => both.1
      rw [gets, split, map_append, doReadReqs, reads, writes]
  | validate =>
      rw [pc] at stage
      obtain ⟨-, -, -, -, -, slots⟩ := stage
      refine ⟨_, .validate, ?_⟩
      rw [gets, map_eq_of_forall₂ slots fun _ _ same => same]
  | abort =>
      rw [pc] at stage
      obtain ⟨-, -, -, slots⟩ := stage
      refine ⟨_, .abort, ?_⟩
      rw [gets, map_eq_of_forall₂ slots fun _ _ both => both.1]
  | log =>
      rw [pc] at stage
      obtain ⟨-, -, -, -, -, -, record, -, reqs⟩ := stage
      refine ⟨_, .log record, ?_⟩
      rw [reqs, map_map]
      exact (map_id _).symm
  | update vec rest =>
      rw [pc] at stage
      obtain ⟨-, -, -, -, done, split, -, -, slots⟩ := stage
      refine ⟨_, .update vec ?_, update_slots_reqs slots⟩
      rw [← split]
      exact mem_append_right done mem_cons_self

/-- In the ring of machines the replicas of a key are apart. -/
theorem ring_replicas_apart {item : RwsetItem V} (ok : ItemOk cfg item) : ReplicasApart cfg item := by
  have replicas := cfg.mappings.replicasBound
  apply Nodup.map_on _ nodup_range
  intro left leftIn right rightIn same
  rw [mem_range, Mappings.numReplicas] at leftIn rightIn
  have place : ∀ replI, replI < 1 + cfg.mappings.numBackups → replicaMn item replI =
      if replI = 0 then item.primaryMn
      else cfg.mappings.getBackupMnFromPrimary item.primaryMn (replI - 1) := by
    intro replI bound
    rw [replicaMn, ok.backupMn]
    split_ifs with primary
    · rfl
    · rw [getD_eq_getElem?_getD, getElem?_map, getElem?_range (by omega)]
      rfl
  have primary := primary_lt cfg.mappings cfg.lockServerOff (dsKeyhash cfg item.key)
  rw [← ok.primaryMn] at primary
  rw [place left leftIn, place right rightIn] at same
  simp only [Mappings.getBackupMnFromPrimary, tot_primary_off cfg.mappings cfg.lockServerOff] at same
  split_ifs at same <;> omega

/-- What a coroutine of a run waits for is the batch of a phase. -/
theorem reachable_batch_phase {init state : State V} (initial : Initial cfg init)
    (reached : Reachable cfg init state) {coro : CoroId} (waits : (state.tx coro).pc ≠ .app) :
    ∃ batch, PhaseBatch cfg coro (state.tx coro) batch ∧
      (state.tx coro).batch.map ReqSlot.req = batch.map SizedReq.req ∧
      ∀ item ∈ (state.tx coro).writeSet, ReplicasApart cfg item := by
  have inv := (reachable_inv initial reached).txInv coro
  obtain ⟨batch, phase, same⟩ := waiting_batch_phase inv waits
  exact ⟨batch, phase, same, fun item member => ring_replicas_apart (inv.writeOk item member)⟩

/-- In every phase of every transaction the messages, in both directions, have at
most `max_pkt_size` bytes. -/
theorem max_pkt_size_bounds_phases (cfg : Config) (coro : CoroId) (tx : TxState V)
    (numKeys valSize : Nat) (some_ : 1 ≤ numKeys) (few : numKeys ≤ rpcMaxMsgCoro)
    (keys : tx.readSet.length + tx.writeSet.length ≤ numKeys)
    (values : ∀ item ∈ tx.writeSet, item.obj.valSize ≤ valSize)
    (apart : ∀ item ∈ tx.writeSet, ReplicasApart cfg item) (batch : List (SizedReq V))
    (phase : PhaseBatch cfg coro tx batch) :
    batch.length ≤ rpcMaxMsgCoro ∧
      (∀ specs, Carries specs batch → ∀ mn,
        (encode (framesTo specs mn)).length ≤ maxPktSize numKeys valSize) ∧
      ∀ answered : List (Request V × Resp V),
        answered.map Prod.fst = batch.map SizedReq.req →
        (∀ pair ∈ answered, Answers valSize pair.1 pair.2) → ∀ (mn : Nat) (frames : List Frame),
          (frames.map fun frame => frame.data.length) =
            ((answered.filter fun pair => machineOf pair.1 == mn).map fun pair => pair.2.respLen) →
          (encode frames).length ≤ maxPktSize numKeys valSize := by
  obtain ⟨total, count, bound, counts, lens, fits, answersFit⟩ :=
    light_phase some_ few keys values apart phase
  refine ⟨total, ?_, ?_⟩
  · intro specs carries mn
    rw [encode_length, carried_lens carries]
    refine Nat.le_trans (coalesced_le _ bound ?_) (Nat.le_trans (Nat.mul_le_mul_right _ ?_) fits)
    · intro len member
      obtain ⟨sized, inside, rfl⟩ := mem_map.mp member
      exact lens sized (mem_of_mem_filter inside)
    · rw [length_map]
      exact counts mn
  · intro answered same answers mn frames lengths
    rw [encode_length, lengths]
    refine Nat.le_trans (coalesced_le _ (sizeofHdr + valSize) ?_)
      (Nat.le_trans (Nat.mul_le_mul_right _ ?_) answersFit)
    · intro len member
      obtain ⟨pair, inside, rfl⟩ := mem_map.mp member
      exact answer_len (answers pair (mem_of_mem_filter inside))
    · have picked := congrArg (fun reqs => (reqs.filter fun req => machineOf req == mn).length) same
      simp only [filter_map, length_map] at picked
      rw [length_map]
      exact Nat.le_trans (Nat.le_of_eq picked) (counts mn)

/-- Two insertions at the same machine, up to the batch for their backup. -/
def twoInserts : List (Label Nat) :=
  [.start ⟨0, 1⟩, .addToWriteSet ⟨0, 1⟩ 20 5 0 ⟨8, 0, 7⟩ .insert,
    .addToWriteSet ⟨0, 1⟩ 20 7 0 ⟨8, 0, 9⟩ .insert, .doRead ⟨0, 1⟩, .handle ⟨0, 1⟩ 0 0,
    .handle ⟨0, 1⟩ 1 0, .resume ⟨0, 1⟩, .commit ⟨0, 1⟩, .handle ⟨0, 1⟩ 0 0, .resume ⟨0, 1⟩]

/-- The batch that the coroutine waits for. -/
theorem max_pkt_size_bounds_phases_two_inserts :
    ∃ state batch, runLabels twoMachines (newSwarm 8 1 0 (0 : Nat)) twoInserts = some state ∧
      (state.tx ⟨0, 1⟩).batch.map ReqSlot.req = batch.map SizedReq.req ∧
      batch.map (fun sized => machineOf sized.req) = [1, 1] ∧
      ∀ specs, Carries specs batch → (encode (framesTo specs 1)).length ≤ 76 := by
  have observed : (runLabels twoMachines (newSwarm 8 1 0 (0 : Nat)) twoInserts).map (fun state =>
      (decide ((state.tx ⟨0, 1⟩).pc = .app), (state.tx ⟨0, 1⟩).batch.map fun slot => machineOf slot.req,
        decide ((state.tx ⟨0, 1⟩).readSet.length + (state.tx ⟨0, 1⟩).writeSet.length ≤ 2 ∧
          ∀ item ∈ (state.tx ⟨0, 1⟩).writeSet, item.obj.valSize ≤ 8))) =
      some (false, [1, 1], true) := by
    decide +kernel
  obtain ⟨state, ran, same⟩ := Option.map_eq_some_iff.mp observed
  obtain ⟨waits, machines, small⟩ : _ ∧ _ ∧ _ := by simpa only [Prod.mk.injEq] using same
  obtain ⟨keys, values⟩ := of_decide_eq_true small
  obtain ⟨batch, phase, reqs, apart⟩ :=
    reachable_batch_phase (new_swarm_initial twoMachines 8 1 0 (0 : Nat) (by decide))
      (run_labels_reachable _ .refl ran) (of_decide_eq_false waits)
  have bounds := max_pkt_size_bounds_phases twoMachines ⟨0, 1⟩ (state.tx ⟨0, 1⟩) 2 8 (by decide)
    (by decide) keys values apart batch phase
  refine ⟨state, batch, ran, reqs, ?_, fun specs carries => bounds.2.1 specs carries 1⟩
  have targets := congrArg (map machineOf) reqs
  rw [map_map, map_map] at targets
  exact targets.symm.trans machines

end Transactions

end Fasst.TxPacketSizes

import Fasst.TxLocal

/-!
# Calls and continuations keep the local invariant

The calls of the application and the code after a yield change neither what has
been handled nor which items there are, except that a call may add one. Under
the invariant the code after a yield never reaches an `exit`.
-/

namespace Fasst.TxCalls

open List Fasst.FixedTableModel Fasst.TxModel Fasst.TxCluster Fasst.Aligned Fasst.TxLocal

set_option autoImplicit false

variable {V : Type} {cfg : Config} {coro : CoroId} {tx next : TxState V}

section Rebuild

theorem locs_same {left right : List (RwsetItem V)} (same : Forall₂ SameItem left right) :
    right.map RwsetItem.loc = left.map RwsetItem.loc := by
  induction same with
  | nil => rfl
  | cons head _ ih => rw [map_cons, map_cons, ih, loc_same head]

/-- A transition that keeps the items, as far as they never change, and the
history needs only the claim about its program point. -/
theorem inv_of_same (inv : TxInv cfg coro tx) (handled : next.handled = tx.handled)
    (reads : Forall₂ SameItem tx.readSet next.readSet)
    (writes : Forall₂ SameItem tx.writeSet next.writeSet)
    (applied : NoApply tx ∨ next.writeSet = tx.writeSet)
    (rsBound : next.rsIndex ≤ next.readSet.length) (wsBound : next.wsIndex ≤ next.writeSet.length)
    (fresh : ∀ slot ∈ next.batch, slot.resp = none) (stage : StageInv cfg coro next) :
    TxInv cfg coro next := by
  constructor
  · rw [map_append, locs_same reads, locs_same writes, ← map_append]
    exact inv.nodup
  · intro item member
    obtain ⟨other, inside, same⟩ := forall₂_mem_right reads member
    exact item_ok_same same (inv.readOk other inside)
  · intro item member
    obtain ⟨other, inside, same⟩ := forall₂_mem_right writes member
    exact item_ok_same same (inv.writeOk other inside)
  · intro item member
    obtain ⟨other, inside, same⟩ := forall₂_mem_right writes member
    rw [same.writeMode]
    exact inv.modes other inside
  · rw [← reads.length_eq, ← writes.length_eq]
    exact inv.size
  · exact rsBound
  · exact wsBound
  · intro loc grant
    rw [locs_same writes]
    apply inv.grantedFrom loc
    rw [granted, ← handled]
    exact grant
  · intro event member loc applies
    rw [handled] at member
    rcases applied with noApply | same
    · have positive := countP_pos_iff.mpr ⟨event, member, applies⟩
      have none_applied := noApply loc
      unfold applyCount at none_applied
      omega
    · rw [same]
      exact inv.appliedFrom event member loc applies
  · intro slot member resp answered
    rw [fresh slot member] at answered
    cases answered
  · exact stage

theorem same_items (items : List (RwsetItem V)) : Forall₂ SameItem items items :=
  forall₂_same.mpr fun item _ => same_item_refl item

theorem send_fresh (tx : TxState V) (pc : Pc) (reqs : List (Request V)) :
    ∀ slot ∈ (tx.send pc reqs).batch, slot.resp = none := by
  intro slot member
  obtain ⟨_, _, same⟩ := mem_map.mp member
  rw [← same]

end Rebuild

section Starts

theorem update_reqs_product (coro : CoroId) (tx : TxState V) (vec : List Nat) :
    updateReqs coro tx vec =
      (vec.product tx.writeSet).map fun pair => updateReq coro pair.1 pair.2 := by
  unfold updateReqs List.product
  rw [map_flatMap]
  congr 1
  funext replI
  rw [map_map]
  rfl

/-- A transition that at most changes the status and sends a batch. -/
structure Sends (tx next : TxState V) : Prop where
  handled : next.handled = tx.handled
  readSet : next.readSet = tx.readSet
  writeSet : next.writeSet = tx.writeSet
  rsIndex : next.rsIndex = tx.rsIndex
  wsIndex : next.wsIndex = tx.wsIndex
  fresh : ∀ slot ∈ next.batch, slot.resp = none

theorem update_start_sends (coro : CoroId) (tx : TxState V) (vecs : List (List Nat)) :
    Sends tx (updateStart coro tx vecs) := by
  cases vecs with
  | nil => exact ⟨rfl, rfl, rfl, rfl, rfl, fun _ member => by cases member⟩
  | cons vec rest => exact ⟨rfl, rfl, rfl, rfl, rfl, send_fresh tx _ _⟩

theorem commit_start_sends (cfg : Config) (coro : CoroId) (oldWord : Nat) (tx : TxState V) :
    Sends tx (commitStart cfg coro oldWord tx) := by
  unfold commitStart
  split_ifs
  · exact ⟨rfl, rfl, rfl, rfl, rfl, fun _ member => by cases member⟩
  · exact ⟨rfl, rfl, rfl, rfl, rfl, send_fresh tx .log _⟩
  · exact update_start_sends coro tx _

theorem abort_start_sends (coro : CoroId) (tx : TxState V) : Sends tx (abortStart coro tx) := by
  simp only [abortStart]
  split_ifs
  · exact ⟨rfl, rfl, rfl, rfl, rfl, fun _ member => by cases member⟩
  · exact ⟨rfl, rfl, rfl, rfl, rfl, send_fresh _ _ _⟩

theorem sends_inv (inv : TxInv cfg coro tx) (sends : Sends tx next)
    (stage : StageInv cfg coro next) : TxInv cfg coro next := by
  refine inv_of_same inv sends.handled ?_ ?_ (Or.inr sends.writeSet) ?_ ?_ sends.fresh stage
  · rw [sends.readSet]
    exact same_items _
  · rw [sends.writeSet]
    exact same_items _
  · rw [sends.rsIndex, sends.readSet]
    exact inv.rsBound
  · rw [sends.wsIndex, sends.writeSet]
    exact inv.wsBound

theorem granted_same (handled : next.handled = tx.handled) (loc : Loc) :
    granted next loc = granted tx loc := by
  rw [granted, granted, handled]

theorem unlocked_same (handled : next.handled = tx.handled) (loc : Loc) :
    unlocked next loc = unlocked tx loc := by
  rw [unlocked, unlocked, handled]

theorem apply_count_same (handled : next.handled = tx.handled) (loc : Loc) :
    applyCount next loc = applyCount tx loc := by
  rw [applyCount, applyCount, handled]

theorem update_start_stage {done vecs : List (List Nat)} (running : tx.status = .inProgress)
    (noUnlock : NoUnlock tx) (locked : Locked tx tx.writeSet) (nonempty : tx.writeSet ≠ [])
    (split : done ++ vecs = allVecs cfg tx)
    (before : ∀ replI ∈ done.flatten, ∀ item ∈ tx.writeSet,
      applyCount tx (replicaLoc replI item.loc) = 1)
    (after : ∀ replI ∈ vecs.flatten, ∀ item ∈ tx.writeSet,
      applyCount tx (replicaLoc replI item.loc) = 0) :
    StageInv cfg coro (updateStart coro tx vecs) := by
  cases vecs with
  | nil =>
      refine ⟨rfl, ?_⟩
      intro item member replI bound
      apply before replI _ item member
      rw [append_nil] at split
      rw [split, all_vecs_flatten]
      rcases Nat.eq_zero_or_pos replI with zero | positive
      · simp [zero]
      · apply mem_append_left
        exact mem_map.mpr ⟨replI - 1, mem_range.mpr (by omega), by omega⟩
  | cons vec rest =>
      refine ⟨running, noUnlock, locked, nonempty, done, split, before, ?_, ?_⟩
      · intro replI inside
        exact after replI (by rw [flatten_cons]; exact mem_append_right _ inside)
      · change Forall₂ _ _ ((updateReqs coro tx vec).map fun req => (⟨req, none⟩ : ReqSlot V))
        rw [update_reqs_product, map_map]
        apply forall₂_map_self
        rintro ⟨replI, item⟩ member
        obtain ⟨inVec, inSet⟩ := List.mem_product.mp member
        refine ⟨rfl, ?_⟩
        exact after replI (by rw [flatten_cons]; exact mem_append_left _ inVec) item inSet

theorem commit_start_stage (oldWord : Nat) (running : tx.status = .inProgress)
    (noUnlock : NoUnlock tx) (noApply : NoApply tx) (locked : Locked tx tx.writeSet) :
    StageInv cfg coro (commitStart cfg coro oldWord tx) := by
  unfold commitStart
  split_ifs with empty backups
  · refine ⟨rfl, ?_⟩
    intro item member
    rw [show ({ tx with status := .committed, pc := .app, batch := [] } : TxState V).writeSet = []
      from empty] at member
    cases member
  · refine ⟨running, noUnlock, noApply, locked, empty, backups, _, rfl, ?_⟩
    simp only [TxState.send, map_map]
    exact map_id _
  · have split : [] ++ (backupVecs cfg tx.writeSet.length ++ [[0]]) = allVecs cfg tx := rfl
    exact update_start_stage running noUnlock locked empty split (fun _ inside => by cases inside)
      (fun _ _ _ _ => noApply _)

theorem abort_start_stage (noUnlock : NoUnlock tx) (noApply : NoApply tx)
    (flags : ∀ item ∈ tx.writeSet, granted tx item.loc = item.execWsLocked) :
    StageInv cfg coro (abortStart coro tx) := by
  simp only [abortStart]
  split_ifs with nothing
  · refine ⟨rfl, noApply, ?_⟩
    intro item member grant
    have flag : item.execWsLocked = true := by
      rw [← flags item member]
      exact grant
    have kept : item ∈ tx.writeSet.filter fun item => item.execWsLocked :=
      mem_filter.mpr ⟨member, flag⟩
    rw [nothing] at kept
    cases kept
  · refine ⟨rfl, noApply, flags, ?_⟩
    simp only [TxState.send, map_map]
    apply forall₂_map_self
    intro item member
    exact ⟨rfl, noUnlock item.loc⟩

end Starts

def writeResult (item : RwsetItem V) (resp : Resp V) : RwsetItem V × Bool :=
  let after := item.deliver resp
  if itemGranted item resp then
    if item.writeMode = .insert then ({ after with execWsLocked := true, seen := none }, true)
    else
      ({ after with
        obj := { after.obj with valSize := resp.respLen - sizeofHdr }
        execWsLocked := true
        seen := some after.obj.val }, true)
  else ({ after with execWsLocked := false }, false)

section DoRead

theorem write_response_ok {item : RwsetItem V} {resp : Resp V}
    (respOk : RespOk (lockReq coro item) resp) :
    writeResponse item resp = .ok (writeResult item resp) := by
  have mode : (item.deliver resp).writeMode = item.writeMode := rfl
  by_cases insert : item.writeMode = .insert
  · simp only [RespOk, lockReq, genericGetReq, if_pos insert] at respOk
    simp only [writeResponse, mode, if_neg (not_not.mpr insert), writeResult, itemGranted,
      if_pos insert]
    rcases respOk with same | same | same <;> simp [same]
  · simp only [RespOk, lockReq, genericGetReq, if_neg insert] at respOk
    simp only [writeResponse, mode, ne_eq, insert, not_false_eq_true, if_true, writeResult,
      itemGranted, if_false]
    rcases respOk with same | same | same <;> simp [same]

theorem write_result_same (item : RwsetItem V) (resp : Resp V) :
    SameItem item (writeResult item resp).1 := by
  simp only [writeResult]
  split_ifs <;> exact ⟨rfl, rfl, rfl, rfl, rfl, rfl⟩

theorem write_result_flag (item : RwsetItem V) (resp : Resp V) :
    (writeResult item resp).1.execWsLocked = itemGranted item resp ∧
      (writeResult item resp).2 = itemGranted item resp := by
  simp only [writeResult]
  split_ifs with grant <;> simp [grant]

/-- The batch of `do_read` and its responses, item by item. -/
theorem do_read_responses (inv : TxInv cfg coro tx) (at_ : tx.pc = .doRead)
    (complete : (tx.batch.filterMap ReqSlot.resp).length = tx.batch.length) :
    ∃ readResps writeResps, tx.batch.filterMap ReqSlot.resp = readResps ++ writeResps ∧
      Forall₂ (fun item resp => (⟨readReq coro item, some resp⟩ : ReqSlot V) ∈ tx.batch)
        (tx.readSet.drop tx.rsIndex) readResps ∧
      Forall₂ (fun item resp => (⟨lockReq coro item, some resp⟩ : ReqSlot V) ∈ tx.batch ∧
          granted tx item.loc = itemGranted item resp)
        (tx.writeSet.drop tx.wsIndex) writeResps := by
  have stage := inv.stage
  simp only [StageInv, at_] at stage
  obtain ⟨_, _, _, _, reads, writes, split, readSlots, lockSlots⟩ := stage
  have shortReads := length_filterMap_le ReqSlot.resp reads
  have shortWrites := length_filterMap_le ReqSlot.resp writes
  rw [split, filterMap_append, length_append, length_append] at complete
  refine ⟨reads.filterMap ReqSlot.resp, writes.filterMap ReqSlot.resp, ?_, ?_, ?_⟩
  · rw [split, filterMap_append]
  · have listed := forall₂_imp_mem readSlots
      (fun item _ slot member same => And.intro (show slot.req = _ from same) member)
    refine forall₂_trans listed (filterMap_full ReqSlot.resp reads (by omega)) ?_
    rintro item ⟨req, resp⟩ value ⟨same, member⟩ answered
    rw [split, ← show req = _ from same, ← show resp = _ from answered]
    exact mem_append_left _ member
  · have listed := forall₂_imp_mem lockSlots
      (fun item _ slot member same => And.intro same member)
    refine forall₂_trans listed (filterMap_full ReqSlot.resp writes (by omega)) ?_
    rintro item ⟨req, resp⟩ value ⟨⟨same, status⟩, member⟩ answered
    rw [show resp = _ from answered] at status member
    rw [show req = _ from same] at member
    exact ⟨by rw [split]; exact mem_append_right _ member, status⟩

def readState (tx : TxState V) (readResps writeResps : List (Resp V)) : TxState V :=
  let reads := zipWith readResponse (tx.readSet.drop tx.rsIndex) readResps
  let writes := zipWith writeResult (tx.writeSet.drop tx.wsIndex) writeResps
  { tx with
    status := if reads.all Prod.snd && writes.all Prod.snd then tx.status else .mustAbort
    readSet := tx.readSet.take tx.rsIndex ++ reads.map Prod.fst
    writeSet := tx.writeSet.take tx.wsIndex ++ writes.map Prod.fst
    rsIndex := (tx.readSet.take tx.rsIndex ++ reads.map Prod.fst).length
    wsIndex := (tx.writeSet.take tx.wsIndex ++ writes.map Prod.fst).length
    pc := .app
    batch := [] }

theorem do_read_finish_ok (inv : TxInv cfg coro tx) {readResps writeResps : List (Resp V)}
    (readAligned : Forall₂ (fun item resp => (⟨readReq coro item, some resp⟩ : ReqSlot V) ∈ tx.batch)
        (tx.readSet.drop tx.rsIndex) readResps)
    (writeAligned : Forall₂ (fun item resp =>
        (⟨lockReq coro item, some resp⟩ : ReqSlot V) ∈ tx.batch ∧
          granted tx item.loc = itemGranted item resp)
        (tx.writeSet.drop tx.wsIndex) writeResps) :
    doReadFinish tx (readResps ++ writeResps) = .ok (readState tx readResps writeResps) := by
  have sameLength := readAligned.length_eq
  have cut : (readResps ++ writeResps).drop (tx.readSet.drop tx.rsIndex).length = writeResps := by
    rw [sameLength, drop_left]
  have reads : zipWith readResponse (tx.readSet.drop tx.rsIndex) (readResps ++ writeResps) =
      zipWith readResponse (tx.readSet.drop tx.rsIndex) readResps :=
    zipWith_append_right_excess _ _ _ _ sameLength
  have results : (zip (tx.writeSet.drop tx.wsIndex) writeResps).mapM
      (fun pair => writeResponse pair.1 pair.2) =
        .ok (zipWith writeResult (tx.writeSet.drop tx.wsIndex) writeResps) :=
    mapM_zip_ok writeAligned
      (fun item resp related => write_response_ok (inv.respOk _ related.1 _ rfl))
  unfold doReadFinish
  simp only [cut, reads, results]
  rfl

theorem read_state_same {readResps writeResps : List (Resp V)}
    {readFact writeFact : RwsetItem V → Resp V → Prop}
    (readAligned : Forall₂ readFact (tx.readSet.drop tx.rsIndex) readResps)
    (writeAligned : Forall₂ writeFact (tx.writeSet.drop tx.wsIndex) writeResps) :
    Forall₂ SameItem tx.readSet (readState tx readResps writeResps).readSet ∧
      Forall₂ SameItem tx.writeSet (readState tx readResps writeResps).writeSet := by
  have appended : ∀ (items after : List (RwsetItem V)) (index : Nat),
      Forall₂ SameItem (items.drop index) after →
        Forall₂ SameItem items (items.take index ++ after) := by
    intro items after index same
    have whole : Forall₂ SameItem (items.take index ++ items.drop index)
        (items.take index ++ after) := rel_append (same_items (items.take index)) same
    rw [take_append_drop] at whole
    exact whole
  constructor
  · apply appended
    rw [map_zipWith]
    exact forall₂_zipWith readAligned (fun item resp _ => read_response_same item resp)
  · apply appended
    rw [map_zipWith]
    exact forall₂_zipWith writeAligned (fun item resp _ => write_result_same item resp)

/-- After `do_read` the flag of every item tells whether it is locked. -/
theorem read_state_flags (readResps : List (Resp V)) {writeResps : List (Resp V)}
    (locked : Locked tx (tx.writeSet.take tx.wsIndex))
    (writeAligned : Forall₂ (fun item resp => granted tx item.loc = itemGranted item resp)
        (tx.writeSet.drop tx.wsIndex) writeResps) :
    ∀ item ∈ (readState tx readResps writeResps).writeSet,
      granted tx item.loc = item.execWsLocked := by
  intro item member
  rcases mem_append.mp member with old | new
  · obtain ⟨flag, grant⟩ := locked item old
    rw [flag, grant]
  · have aligned : Forall₂ (fun _ (result : RwsetItem V × Bool) =>
        granted tx result.1.loc = result.1.execWsLocked) (tx.writeSet.drop tx.wsIndex)
          (zipWith writeResult (tx.writeSet.drop tx.wsIndex) writeResps) := by
      refine forall₂_zipWith writeAligned ?_
      intro item resp grant
      rw [loc_same (write_result_same item resp), (write_result_flag item resp).1]
      exact grant
    obtain ⟨result, inside, same⟩ := mem_map.mp new
    obtain ⟨_, _, fact⟩ := forall₂_mem_right aligned inside
    rw [← same]
    exact fact

theorem read_state_inv (inv : TxInv cfg coro tx) (at_ : tx.pc = .doRead)
    {readResps writeResps : List (Resp V)} {readFact : RwsetItem V → Resp V → Prop}
    (readAligned : Forall₂ readFact (tx.readSet.drop tx.rsIndex) readResps)
    (writeAligned : Forall₂ (fun item resp => granted tx item.loc = itemGranted item resp)
        (tx.writeSet.drop tx.wsIndex) writeResps) :
    TxInv cfg coro (readState tx readResps writeResps) := by
  have stage := inv.stage
  simp only [StageInv, at_] at stage
  obtain ⟨running, noUnlock, noApply, locked, _⟩ := stage
  obtain ⟨sameReads, sameWrites⟩ := read_state_same readAligned writeAligned
  have flags := read_state_flags readResps locked writeAligned
  refine inv_of_same inv rfl sameReads sameWrites (Or.inl noApply) (le_refl _) (le_refl _)
    (fun _ member => by cases member) ?_
  refine ⟨rfl, ?_⟩
  have status : (readState tx readResps writeResps).status =
      if (zipWith readResponse (tx.readSet.drop tx.rsIndex) readResps).all Prod.snd &&
          (zipWith writeResult (tx.writeSet.drop tx.wsIndex) writeResps).all Prod.snd
      then tx.status else .mustAbort := rfl
  split_ifs at status with success
  · rw [status, running]
    rw [Bool.and_eq_true] at success
    refine ⟨noUnlock, noApply, ?_, ?_⟩
    · intro item member
      have inside := mem_of_mem_take member
      have grant := flags item inside
      have flag : item.execWsLocked = true := by
        rcases mem_append.mp inside with old | new
        · exact (locked item old).1
        · obtain ⟨result, fromZip, same⟩ := mem_map.mp new
          have ok := all_eq_true.mp success.2 result fromZip
          have aligned : Forall₂ (fun _ (result : RwsetItem V × Bool) =>
              result.1.execWsLocked = result.2) (tx.writeSet.drop tx.wsIndex)
                (zipWith writeResult (tx.writeSet.drop tx.wsIndex) writeResps) :=
            forall₂_zipWith writeAligned (fun item resp _ => (write_result_flag item resp).1.trans
              (write_result_flag item resp).2.symm)
          obtain ⟨_, _, flagged⟩ := forall₂_mem_right aligned fromZip
          rw [← same, flagged]
          exact ok
      exact ⟨flag, by rw [← flag]; exact grant⟩
    · intro item member
      have empty : (readState tx readResps writeResps).writeSet.drop
          (readState tx readResps writeResps).wsIndex = [] := drop_length
      rw [empty] at member
      cases member
  · rw [status]
    exact ⟨noUnlock, noApply, ⟨rfl, rfl⟩, flags⟩

end DoRead

/-- The state after `validate` has looked at the responses. -/
def checkedState (tx : TxState V) (responses : List (Resp V)) : TxState V :=
  { tx with readSet := zipWith RwsetItem.deliver tx.readSet responses }

/-- Everything a coroutine can do between two responses. -/
inductive LocalMove (cfg : Config) (coro : CoroId) (oldWord : Nat) (tx : TxState V) :
    TxState V → Prop where
  | addRead (rpcReqtype : Nat) (key objAddr : UInt64) (obj : HotsObj V)
      (ok : AddOk tx rpcReqtype key) :
      LocalMove cfg coro oldWord tx
        { tx with readSet := tx.readSet ++ [newItem cfg rpcReqtype key objAddr obj .ignore] }
  | addWrite (rpcReqtype : Nat) (key objAddr : UInt64) (obj : HotsObj V) (writeMode : TxWriteMode)
      (ok : AddOk tx rpcReqtype key) (mode : writeMode ≠ .ignore) :
      LocalMove cfg coro oldWord tx
        { tx with writeSet := tx.writeSet ++ [newItem cfg rpcReqtype key objAddr obj writeMode] }
  | writeObj (index valSize : Nat) (val : V) (at_ : tx.pc = .app)
      (running : tx.status = .inProgress) :
      LocalMove cfg coro oldWord tx
        { tx with
          writeSet := tx.writeSet.modify index fun item =>
            { item with obj := { item.obj with valSize := valSize, val := val } } }
  | doRead (at_ : tx.pc = .app) (running : tx.status = .inProgress) :
      LocalMove cfg coro oldWord tx (tx.send .doRead (doReadReqs coro tx))
  | commit (at_ : tx.pc = .app) (running : tx.status = .inProgress) (allRead : AllRead tx)
      (noReads : tx.readSet = []) :
      LocalMove cfg coro oldWord tx (commitStart cfg coro oldWord tx)
  | validate (at_ : tx.pc = .app) (running : tx.status = .inProgress) (allRead : AllRead tx) :
      LocalMove cfg coro oldWord tx (validateStart coro tx)
  | singleRead (at_ : tx.pc = .app) (running : tx.status = .inProgress) (allRead : AllRead tx)
      (one : tx.readSet.length = 1) (noWrites : tx.writeSet = []) :
      LocalMove cfg coro oldWord tx { tx with status := .committed }
  | abort (at_ : tx.pc = .app) (status : tx.status = .inProgress ∨ tx.status = .mustAbort)
      (allRead : AllRead tx) : LocalMove cfg coro oldWord tx (abortStart coro tx)
  | abortRdonly (at_ : tx.pc = .app)
      (status : tx.status = .inProgress ∨ tx.status = .mustAbort) (noWrites : tx.writeSet = []) :
      LocalMove cfg coro oldWord tx { tx with status := .aborted }
  | readDone (readResps writeResps : List (Resp V)) (at_ : tx.pc = .doRead)
      (answers : tx.batch.filterMap ReqSlot.resp = readResps ++ writeResps)
      (readAligned : Forall₂ (fun item resp =>
        (⟨readReq coro item, some resp⟩ : ReqSlot V) ∈ tx.batch)
          (tx.readSet.drop tx.rsIndex) readResps)
      (writeAligned : Forall₂ (fun item resp =>
        (⟨lockReq coro item, some resp⟩ : ReqSlot V) ∈ tx.batch ∧
          granted tx item.loc = itemGranted item resp) (tx.writeSet.drop tx.wsIndex) writeResps) :
      LocalMove cfg coro oldWord tx (readState tx readResps writeResps)
  | validated (responses : List (Resp V)) (at_ : tx.pc = .validate)
      (aligned : Forall₂ (fun item resp =>
        (⟨readReq coro item, some resp⟩ : ReqSlot V) ∈ tx.batch ∧ validateResponse item resp = true)
          tx.readSet responses) :
      LocalMove cfg coro oldWord tx (commitStart cfg coro oldWord (checkedState tx responses))
  | refused (responses : List (Resp V)) (at_ : tx.pc = .validate)
      (sameLength : tx.readSet.length = responses.length) :
      LocalMove cfg coro oldWord tx (abortStart coro (checkedState tx responses))
  | abortDone (at_ : tx.pc = .abort)
      (complete : ∀ slot ∈ tx.batch, slot.resp.isSome = true) :
      LocalMove cfg coro oldWord tx { tx with pc := .app, batch := [] }
  | logDone (at_ : tx.pc = .log) (complete : ∀ slot ∈ tx.batch, slot.resp.isSome = true) :
      LocalMove cfg coro oldWord tx
        (updateStart coro tx (backupVecs cfg tx.writeSet.length ++ [[0]]))
  | updateDone (vec : List Nat) (rest : List (List Nat)) (at_ : tx.pc = .update vec rest)
      (complete : ∀ slot ∈ tx.batch, slot.resp.isSome = true) :
      LocalMove cfg coro oldWord tx (updateStart coro tx rest)

theorem call_move {oldWord : Nat} {label : Label V} (called : label.coro = coro)
    (next_ : callTx cfg oldWord tx label = some next) : LocalMove cfg coro oldWord tx next := by
  cases label with
  | start other => cases next_
  | addToReadSet other rpcReqtype key objAddr obj =>
      simp only [callTx, Option.ite_none_right_eq_some, Option.some.injEq] at next_
      rw [← next_.2]
      exact .addRead rpcReqtype key objAddr obj next_.1
  | addToWriteSet other rpcReqtype key objAddr obj writeMode =>
      simp only [callTx, Option.ite_none_right_eq_some, Option.some.injEq] at next_
      rw [← next_.2]
      exact .addWrite rpcReqtype key objAddr obj writeMode next_.1.1 next_.1.2
  | writeObj other index valSize val =>
      simp only [callTx, Option.ite_none_right_eq_some, Option.some.injEq] at next_
      rw [← next_.2]
      exact .writeObj index valSize val next_.1.1 next_.1.2
  | doRead other =>
      simp only [callTx, Option.ite_none_right_eq_some, Option.some.injEq] at next_
      rw [← next_.2, show other = coro from called]
      exact .doRead next_.1.1 next_.1.2.1
  | commit other =>
      simp only [callTx, Option.ite_none_right_eq_some, Option.some.injEq] at next_
      rw [← next_.2, show other = coro from called]
      obtain ⟨at_, running, allRead⟩ := next_.1
      unfold commitCall
      split_ifs with noReads
      · exact .commit at_ running allRead noReads
      · exact .validate at_ running allRead
  | commitSingleRead other =>
      simp only [callTx, Option.ite_none_right_eq_some, Option.some.injEq] at next_
      obtain ⟨⟨at_, running, allRead, one, noWrites⟩, same⟩ := next_
      rw [← same]
      exact .singleRead at_ running allRead one noWrites
  | abort other =>
      simp only [callTx, Option.ite_none_right_eq_some, Option.some.injEq] at next_
      rw [← next_.2, show other = coro from called]
      exact .abort next_.1.1 next_.1.2.1 next_.1.2.2
  | abortRdonly other =>
      simp only [callTx, Option.ite_none_right_eq_some, Option.some.injEq] at next_
      rw [← next_.2]
      exact .abortRdonly next_.1.1 next_.1.2.1 next_.1.2.2
  | handle other index stale => cases next_
  | resume other => cases next_

theorem complete_slots {batch : List (ReqSlot V)}
    (complete : (batch.filterMap ReqSlot.resp).length = batch.length) :
    ∀ slot ∈ batch, slot.resp.isSome = true := by
  intro slot member
  obtain ⟨resp, _, answered⟩ := forall₂_mem_left (filterMap_full ReqSlot.resp batch complete) member
  rw [answered]
  rfl

/-- A coroutine whose batch is complete always continues. -/
theorem resume_move (inv : TxInv cfg coro tx) (waiting : tx.pc ≠ .app)
    (complete : (tx.batch.filterMap ReqSlot.resp).length = tx.batch.length) (oldWord : Nat) :
    ∃ next, resumeTx cfg coro oldWord tx (tx.batch.filterMap ReqSlot.resp) = .ok next ∧
      LocalMove cfg coro oldWord tx next := by
  cases at_ : tx.pc with
  | app => exact absurd at_ waiting
  | doRead =>
      obtain ⟨readResps, writeResps, answers, readAligned, writeAligned⟩ :=
        do_read_responses inv at_ complete
      refine ⟨readState tx readResps writeResps, ?_, .readDone _ _ at_ answers readAligned
        writeAligned⟩
      simp only [resumeTx, at_]
      rw [answers]
      exact do_read_finish_ok inv readAligned writeAligned
  | validate =>
      have stage := inv.stage
      simp only [StageInv, at_] at stage
      obtain ⟨_, _, _, _, _, readSlots⟩ := stage
      have aligned : Forall₂ (fun item resp => (⟨readReq coro item, some resp⟩ : ReqSlot V) ∈ tx.batch)
          tx.readSet (tx.batch.filterMap ReqSlot.resp) := by
        have listed := forall₂_imp_mem readSlots
          (fun item _ slot member same => And.intro (show slot.req = _ from same) member)
        refine forall₂_trans listed (filterMap_full ReqSlot.resp tx.batch complete) ?_
        rintro item ⟨req, resp⟩ value ⟨same, member⟩ answered
        rw [← show req = _ from same, ← show resp = _ from answered]
        exact member
      simp only [resumeTx, at_, validateFinish]
      refine ⟨_, rfl, ?_⟩
      split_ifs with success
      · refine .validated _ at_ ?_
        exact forall₂_and aligned (forall₂_of_all_zipWith aligned.length_eq success)
      · exact .refused _ at_ aligned.length_eq
  | abort =>
      refine ⟨{ tx with pc := .app, batch := [] }, ?_, .abortDone at_ (complete_slots complete)⟩
      simp only [resumeTx, at_]
  | log =>
      refine ⟨_, ?_, .logDone at_ (complete_slots complete)⟩
      simp only [resumeTx, at_]
  | update vec rest =>
      refine ⟨_, ?_, .updateDone vec rest at_ (complete_slots complete)⟩
      simp only [resumeTx, at_]

section Preservation

/-- Between responses the history stands still; items may be added, at the end. -/
structure Continues (tx next : TxState V) : Prop where
  handled : next.handled = tx.handled
  items : ∃ kept fresh, next.writeSet = kept ++ fresh ∧ Forall₂ SameItem tx.writeSet kept
  applied : NoApply tx ∨ next.writeSet = tx.writeSet

theorem continues_of_same (handled : next.handled = tx.handled)
    (writes : Forall₂ SameItem tx.writeSet next.writeSet)
    (applied : NoApply tx ∨ next.writeSet = tx.writeSet) : Continues tx next :=
  ⟨handled, ⟨next.writeSet, [], (append_nil _).symm, writes⟩, applied⟩

theorem all_locked (allRead : AllRead tx) (locked : Locked tx (tx.writeSet.take tx.wsIndex)) :
    Locked tx tx.writeSet := by
  rw [allRead.2, take_length] at locked
  exact locked

/-- A transaction that has not begun to commit or abort. -/
theorem running_stage (inv : TxInv cfg coro tx) (at_ : tx.pc = .app)
    (running : tx.status = .inProgress) :
    tx.batch = [] ∧ NoUnlock tx ∧ NoApply tx ∧ Locked tx (tx.writeSet.take tx.wsIndex) ∧
      ∀ item ∈ tx.writeSet.drop tx.wsIndex, granted tx item.loc = false := by
  have stage := inv.stage
  simp only [StageInv, at_, running] at stage
  exact stage

theorem abortable_stage (inv : TxInv cfg coro tx) (at_ : tx.pc = .app)
    (status : tx.status = .inProgress ∨ tx.status = .mustAbort) (allRead : AllRead tx) :
    NoUnlock tx ∧ NoApply tx ∧ ∀ item ∈ tx.writeSet, granted tx item.loc = item.execWsLocked := by
  rcases status with running | failed
  · obtain ⟨_, noUnlock, noApply, locked, _⟩ := running_stage inv at_ running
    refine ⟨noUnlock, noApply, ?_⟩
    intro item member
    obtain ⟨flag, grant⟩ := all_locked allRead locked item member
    rw [flag, grant]
  · have stage := inv.stage
    simp only [StageInv, at_, failed] at stage
    exact ⟨stage.2.1, stage.2.2.1, stage.2.2.2.2⟩

theorem add_read_inv (inv : TxInv cfg coro tx) {rpcReqtype : Nat} {key : UInt64}
    (ok : AddOk tx rpcReqtype key) (objAddr : UInt64) (obj : HotsObj V) :
    TxInv cfg coro
      { tx with readSet := tx.readSet ++ [newItem cfg rpcReqtype key objAddr obj .ignore] } := by
  obtain ⟨at_, running, spacing, base, small, keyValid, fresh, room⟩ := ok
  have stage := running_stage inv at_ running
  constructor
  · have moved : ((tx.readSet ++ [newItem cfg rpcReqtype key objAddr obj .ignore]) ++
        tx.writeSet).Perm
          (newItem cfg rpcReqtype key objAddr obj .ignore :: (tx.readSet ++ tx.writeSet)) := by
      rw [append_assoc, singleton_append]
      exact perm_middle
    rw [(moved.map RwsetItem.loc).nodup_iff, map_cons, nodup_cons]
    exact ⟨fresh, inv.nodup⟩
  · intro item member
    rcases mem_append.mp member with old | new
    · exact inv.readOk item old
    · rw [mem_singleton.mp new]
      exact new_item_ok cfg rpcReqtype key objAddr obj .ignore spacing base small keyValid
  · exact inv.writeOk
  · exact inv.modes
  · simp only [length_append, length_singleton]
    omega
  · have bound := inv.rsBound
    simp only [length_append, length_singleton]
    omega
  · exact inv.wsBound
  · exact inv.grantedFrom
  · exact inv.appliedFrom
  · exact inv.respOk
  · simp only [StageInv, at_, running]
    exact stage

theorem add_write_inv (inv : TxInv cfg coro tx) {rpcReqtype : Nat} {key : UInt64}
    (ok : AddOk tx rpcReqtype key) (objAddr : UInt64) (obj : HotsObj V) {writeMode : TxWriteMode}
    (mode : writeMode ≠ .ignore) :
    TxInv cfg coro
      { tx with writeSet := tx.writeSet ++ [newItem cfg rpcReqtype key objAddr obj writeMode] } := by
  obtain ⟨at_, running, spacing, base, small, keyValid, fresh, room⟩ := ok
  obtain ⟨empty, noUnlock, noApply, locked, unread⟩ := running_stage inv at_ running
  have bound := inv.wsBound
  constructor
  · rw [← append_assoc, map_append, nodup_append]
    refine ⟨inv.nodup, nodup_singleton _, ?_⟩
    intro loc member other single same
    rw [map_singleton, mem_singleton] at single
    apply fresh
    rw [same, single] at member
    exact member
  · exact inv.readOk
  · intro item member
    rcases mem_append.mp member with old | new
    · exact inv.writeOk item old
    · rw [mem_singleton.mp new]
      exact new_item_ok cfg rpcReqtype key objAddr obj writeMode spacing base small keyValid
  · intro item member
    rcases mem_append.mp member with old | new
    · exact inv.modes item old
    · rw [mem_singleton.mp new]
      exact mode
  · simp only [length_append, length_singleton]
    omega
  · exact inv.rsBound
  · simp only [length_append, length_singleton]
    omega
  · intro loc grant
    rw [map_append]
    exact mem_append_left _ (inv.grantedFrom loc grant)
  · intro event member loc applied
    obtain ⟨item, inside, replI, same⟩ := inv.appliedFrom event member loc applied
    exact ⟨item, mem_append_left _ inside, replI, same⟩
  · exact inv.respOk
  · simp only [StageInv, at_, running]
    refine ⟨empty, noUnlock, noApply, ?_, ?_⟩
    · rw [take_append_of_le_length bound]
      exact locked
    · intro item member
      rw [drop_append_of_le_length bound] at member
      rcases mem_append.mp member with old | new
      · exact unread item old
      · rw [mem_singleton.mp new]
        refine Bool.eq_false_iff.mpr fun grant => fresh ?_
        rw [map_append]
        exact mem_append_right _ (inv.grantedFrom _ grant)

theorem write_obj_inv (inv : TxInv cfg coro tx) (at_ : tx.pc = .app)
    (running : tx.status = .inProgress) (index : Nat) (change : RwsetItem V → RwsetItem V)
    (same : ∀ item, SameItem item (change item) ∧ (change item).execWsLocked = item.execWsLocked) :
    TxInv cfg coro { tx with writeSet := tx.writeSet.modify index change } ∧
      Forall₂ SameItem tx.writeSet (tx.writeSet.modify index change) := by
  obtain ⟨empty, noUnlock, noApply, locked, unread⟩ := running_stage inv at_ running
  have aligned : Forall₂ (fun item after =>
      SameItem item after ∧ after.execWsLocked = item.execWsLocked) tx.writeSet
        (tx.writeSet.modify index change) :=
    forall₂_modify index (fun item => ⟨same_item_refl item, rfl⟩) same
  have items := forall₂_imp_mem aligned (fun _ _ _ _ related => related.1)
  refine ⟨?_, items⟩
  refine inv_of_same inv rfl (same_items _) items (Or.inl noApply) inv.rsBound ?_ ?_ ?_
  · rw [← items.length_eq]
    exact inv.wsBound
  · intro slot member
    rw [show _ = [] from empty] at member
    cases member
  · simp only [StageInv, at_, running]
    refine ⟨empty, noUnlock, noApply, ?_, ?_⟩
    · intro item member
      obtain ⟨before, inside, sameItem, flag⟩ :=
        forall₂_mem_right (forall₂_take tx.wsIndex aligned) member
      obtain ⟨wasFlag, grant⟩ := locked before inside
      exact ⟨flag.trans wasFlag, by rw [loc_same sameItem]; exact grant⟩
    · intro item member
      obtain ⟨before, inside, sameItem, _⟩ :=
        forall₂_mem_right (forall₂_drop tx.wsIndex aligned) member
      rw [loc_same sameItem]
      exact unread before inside

theorem checked_reads_same {responses : List (Resp V)}
    (sameLength : tx.readSet.length = responses.length) :
    Forall₂ SameItem tx.readSet (zipWith RwsetItem.deliver tx.readSet responses) := by
  have aligned : Forall₂ (fun _ _ => True) tx.readSet responses :=
    forall₂_of_length_eq sameLength
  exact forall₂_zipWith aligned (fun item resp _ => ⟨rfl, rfl, rfl, rfl, rfl, rfl⟩)

theorem checked_inv (inv : TxInv cfg coro tx) {responses : List (Resp V)}
    (sameLength : tx.readSet.length = responses.length)
    (sends : Sends (checkedState tx responses) next) (stage : StageInv cfg coro next) :
    TxInv cfg coro next := by
  have same := checked_reads_same sameLength
  refine inv_of_same inv sends.handled ?_ ?_ (Or.inr sends.writeSet) ?_ ?_ sends.fresh stage
  · rw [sends.readSet]
    exact same
  · rw [sends.writeSet]
    exact same_items _
  · rw [sends.rsIndex, sends.readSet]
    change _ ≤ (zipWith RwsetItem.deliver tx.readSet responses).length
    rw [← same.length_eq]
    exact inv.rsBound
  · rw [sends.wsIndex, sends.writeSet]
    exact inv.wsBound

theorem sends_continues (sends : Sends tx next) : Continues tx next :=
  continues_of_same sends.handled (by rw [sends.writeSet]; exact same_items _)
    (Or.inr sends.writeSet)

/-- The batch that has just been answered becomes part of what is done. -/
theorem update_done_stage (inv : TxInv cfg coro tx) {vec : List Nat} {rest : List (List Nat)}
    (at_ : tx.pc = .update vec rest) (complete : ∀ slot ∈ tx.batch, slot.resp.isSome = true) :
    StageInv cfg coro (updateStart coro tx rest) := by
  have stage := inv.stage
  simp only [StageInv, at_] at stage
  obtain ⟨running, noUnlock, locked, nonempty, done, split, before, after, slots⟩ := stage
  have shifted : (done ++ [vec]) ++ rest = allVecs cfg tx := by
    rw [append_assoc, singleton_append, split]
  refine update_start_stage running noUnlock locked nonempty shifted ?_ after
  intro replI member item inside
  rw [flatten_append, flatten_singleton] at member
  rcases mem_append.mp member with inDone | inVec
  · exact before replI inDone item inside
  · obtain ⟨slot, inBatch, _, count⟩ :=
      forall₂_mem_left slots (List.mem_product.mpr ⟨inVec, inside⟩)
    rw [complete slot inBatch] at count
    exact count

theorem commit_start_inv (oldWord : Nat) (inv : TxInv cfg coro tx) (at_ : tx.pc = .app)
    (running : tx.status = .inProgress) (allRead : AllRead tx) :
    TxInv cfg coro (commitStart cfg coro oldWord tx) ∧
      Continues tx (commitStart cfg coro oldWord tx) := by
  obtain ⟨_, noUnlock, noApply, locked, _⟩ := running_stage inv at_ running
  have sends := commit_start_sends cfg coro oldWord tx
  exact ⟨sends_inv inv sends (commit_start_stage oldWord running noUnlock noApply
    (all_locked allRead locked)), sends_continues sends⟩

/-- Whatever a coroutine does between two responses, the local invariant survives. -/
theorem move_inv {oldWord : Nat} (inv : TxInv cfg coro tx)
    (move : LocalMove cfg coro oldWord tx next) : TxInv cfg coro next ∧ Continues tx next := by
  cases move with
  | addRead rpcReqtype key objAddr obj ok =>
      exact ⟨add_read_inv inv ok objAddr obj, continues_of_same rfl (same_items _) (Or.inr rfl)⟩
  | addWrite rpcReqtype key objAddr obj writeMode ok mode =>
      obtain ⟨_, _, noApply, _⟩ := running_stage inv ok.1 ok.2.1
      exact ⟨add_write_inv inv ok objAddr obj mode, rfl, ⟨tx.writeSet, _, rfl, same_items _⟩,
        Or.inl noApply⟩
  | writeObj index valSize val at_ running =>
      obtain ⟨kept, items⟩ := write_obj_inv inv at_ running index
        (fun item => { item with obj := { item.obj with valSize := valSize, val := val } })
        (fun item => ⟨⟨rfl, rfl, rfl, rfl, rfl, rfl⟩, rfl⟩)
      obtain ⟨_, _, noApply, _⟩ := running_stage inv at_ running
      exact ⟨kept, continues_of_same rfl items (Or.inl noApply)⟩
  | doRead at_ running =>
      obtain ⟨_, noUnlock, noApply, locked, unread⟩ := running_stage inv at_ running
      have sends : Sends tx (tx.send .doRead (doReadReqs coro tx)) :=
        ⟨rfl, rfl, rfl, rfl, rfl, send_fresh tx _ _⟩
      refine ⟨sends_inv inv sends ?_, sends_continues sends⟩
      refine ⟨running, noUnlock, noApply, locked, _, _, map_append, ?_, ?_⟩
      · rw [map_map]
        exact forall₂_map_self _ _ fun item _ => rfl
      · rw [map_map]
        exact forall₂_map_self _ _ fun item member => ⟨rfl, unread item member⟩
  | commit at_ running allRead => exact commit_start_inv oldWord inv at_ running allRead
  | validate at_ running allRead =>
      obtain ⟨_, noUnlock, noApply, locked, _⟩ := running_stage inv at_ running
      have sends : Sends tx (validateStart coro tx) :=
        ⟨rfl, rfl, rfl, rfl, rfl, send_fresh tx _ _⟩
      refine ⟨sends_inv inv sends ?_, sends_continues sends⟩
      refine ⟨running, noUnlock, noApply, allRead, all_locked allRead locked, ?_⟩
      change Forall₂ _ _ ((tx.readSet.map (readReq coro)).map fun req => (⟨req, none⟩ : ReqSlot V))
      rw [map_map]
      exact forall₂_map_self _ _ fun item _ => rfl
  | singleRead at_ running allRead one noWrites =>
      have empty := (running_stage inv at_ running).1
      have sends : Sends tx { tx with status := .committed } := by
        refine ⟨rfl, rfl, rfl, rfl, rfl, ?_⟩
        simp only [empty]
        exact fun _ member => by cases member
      refine ⟨sends_inv inv sends ?_, sends_continues sends⟩
      simp only [StageInv, at_, noWrites]
      exact ⟨empty, fun _ member => by cases member⟩
  | abort at_ status allRead =>
      obtain ⟨noUnlock, noApply, flags⟩ := abortable_stage inv at_ status allRead
      have sends := abort_start_sends coro tx
      exact ⟨sends_inv inv sends (abort_start_stage noUnlock noApply flags), sends_continues sends⟩
  | abortRdonly at_ status noWrites =>
      have stage := inv.stage
      have quiet : tx.batch = [] ∧ NoApply tx := by
        rcases status with running | failed
        · simp only [StageInv, at_, running] at stage
          exact ⟨stage.1, stage.2.2.1⟩
        · simp only [StageInv, at_, failed] at stage
          exact ⟨stage.1, stage.2.2.1⟩
      have sends : Sends tx { tx with status := .aborted } := by
        refine ⟨rfl, rfl, rfl, rfl, rfl, ?_⟩
        simp only [quiet.1]
        exact fun _ member => by cases member
      refine ⟨sends_inv inv sends ?_, sends_continues sends⟩
      simp only [StageInv, at_, noWrites]
      exact ⟨quiet.1, quiet.2, fun _ member => by cases member⟩
  | readDone readResps writeResps at_ answers readAligned writeAligned =>
      have grants := forall₂_imp_mem writeAligned (fun _ _ _ _ related => related.2)
      have stage := inv.stage
      simp only [StageInv, at_] at stage
      exact ⟨read_state_inv inv at_ readAligned grants,
        continues_of_same rfl (read_state_same readAligned grants).2 (Or.inl stage.2.2.1)⟩
  | validated responses at_ aligned =>
      have stage := inv.stage
      simp only [StageInv, at_] at stage
      obtain ⟨running, noUnlock, noApply, _, locked, _⟩ := stage
      have sends := commit_start_sends cfg coro oldWord (checkedState tx responses)
      refine ⟨checked_inv inv aligned.length_eq sends ?_, continues_of_same sends.handled ?_
        (Or.inr sends.writeSet)⟩
      · exact commit_start_stage oldWord running noUnlock noApply locked
      · rw [sends.writeSet]
        exact same_items _
  | refused responses at_ sameLength =>
      have stage := inv.stage
      simp only [StageInv, at_] at stage
      obtain ⟨_, noUnlock, noApply, _, locked, _⟩ := stage
      have sends := abort_start_sends coro (checkedState tx responses)
      refine ⟨checked_inv inv sameLength sends ?_, continues_of_same sends.handled ?_
        (Or.inr sends.writeSet)⟩
      · refine abort_start_stage (show NoUnlock (checkedState tx responses) from noUnlock) noApply ?_
        intro item member
        obtain ⟨flag, grant⟩ := locked item member
        exact grant.trans flag.symm
      · rw [sends.writeSet]
        exact same_items _
  | abortDone at_ complete =>
      have stage := inv.stage
      simp only [StageInv, at_] at stage
      obtain ⟨aborted, noApply, flags, slots⟩ := stage
      have sends : Sends tx { tx with pc := .app, batch := [] } :=
        ⟨rfl, rfl, rfl, rfl, rfl, fun _ member => by cases member⟩
      refine ⟨sends_inv inv sends ?_, sends_continues sends⟩
      simp only [StageInv, aborted]
      refine ⟨trivial, noApply, ?_⟩
      intro item member grant
      have flag : item.execWsLocked = true := (flags item member).symm.trans grant
      obtain ⟨slot, inBatch, _, released⟩ :=
        forall₂_mem_left slots (mem_filter.mpr ⟨member, flag⟩)
      exact released.trans (complete slot inBatch)
  | logDone at_ complete =>
      have stage := inv.stage
      simp only [StageInv, at_] at stage
      obtain ⟨running, noUnlock, noApply, locked, nonempty, _⟩ := stage
      have split : [] ++ (backupVecs cfg tx.writeSet.length ++ [[0]]) = allVecs cfg tx := rfl
      have sends := update_start_sends coro tx (backupVecs cfg tx.writeSet.length ++ [[0]])
      exact ⟨sends_inv inv sends (update_start_stage running noUnlock locked nonempty split
        (fun _ inside => by cases inside) (fun _ _ _ _ => noApply _)), sends_continues sends⟩
  | updateDone vec rest at_ complete =>
      have sends := update_start_sends coro tx rest
      exact ⟨sends_inv inv sends (update_done_stage inv at_ complete), sends_continues sends⟩

end Preservation

end Fasst.TxCalls

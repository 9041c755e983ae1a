import Fasst.TxInvariant
import Fasst.OptimisticSteps

/-!
# A transaction seen as optimistic reads and locked writes

`View` is what the general machine records about one transaction. `ViewSim`
relates it to the state of a coroutine at each point of the protocol: the items
that have been through `do_read`, the responses that wait in the batch, and the
entries that a commit is about to write. The local moves keep the relation.
-/

namespace Fasst.TxViews

open List Fasst.FixedTableModel Fasst.Placement Fasst.TxModel Fasst.TxCluster Fasst.Aligned
open Fasst.TxLocal Fasst.TxCalls Fasst.TxHandler Fasst.TxInvariant Fasst.OptimisticLocking

set_option autoImplicit false

variable {V : Type} {cfg : Config} {coro : CoroId} {tx next : TxState V}

/-- A transaction is known by its coroutine and its number there. -/
abbrev TxId := CoroId × Nat

structure View (V : Type) where
  phase : Phase
  reads : Loc → Option (Option V × Mark)
  checked : Loc → Prop
  locked : Loc → Option (Option V)
  news : Loc → Option (Option V)
  applied : Loc → Prop

def viewOf {Bucket : Type} (occ : Occ TxId Loc Bucket (Option V)) (txn : TxId) : View V where
  phase := occ.phase txn
  reads := occ.reads txn
  checked := occ.checked txn
  locked := occ.locked txn
  news := occ.news txn
  applied := occ.applied txn

def phaseOf (tx : TxState V) : Phase :=
  match tx.pc with
  | .app => match tx.status with
      | .inProgress | .mustAbort => .running
      | .committed => .decided
      | .aborted => .failed
  | .doRead => .running
  | .validate => .called
  | .abort => .failed
  | .log | .update _ _ => .decided

/-- The entries that a transaction is to write. -/
def newsOf (tx : TxState V) (loc : Loc) : Option (Option V) :=
  (tx.writeSet.find? fun item => item.loc = loc).map entryOf

/-- A read-set item and the read that it is the result of. The version in the
item is the low part of the one that was read. -/
def ReadSim (view : View V) (item : RwsetItem V) : Prop :=
  ∃ mark, view.reads item.loc = some (item.seen, mark) ∧ item.execRsExists = item.seen.isSome ∧
    match mark with
    | .exact version => item.execRsVersion = version % 2 ^ 60
    | .held => item.seen = none

/-- A response to a read that the coroutine has not looked at yet. -/
def RespSim (view : View V) (loc : Loc) (resp : Resp V) : Prop :=
  match resp.respType with
  | .getRdonlySuccess => ∃ hdr value version, resp.hdr = some hdr ∧ resp.val = some value ∧
      versionOf hdr = version % 2 ^ 60 ∧ view.reads loc = some (some value, .exact version)
  | .getRdonlyNotFound => ∃ hdr mark, resp.hdr = some hdr ∧ view.reads loc = some (none, mark) ∧
      ∀ version, mark = .exact version → versionOf hdr = version % 2 ^ 60
  | _ => True

/-- A response to a lock request that the coroutine has not looked at yet. -/
def LockSim (view : View V) (item : RwsetItem V) (resp : Resp V) : Prop :=
  itemGranted item resp = true →
    if item.writeMode = .insert then view.locked item.loc = some none
    else ∃ value, resp.val = some value ∧ view.locked item.loc = some (some value)

structure Executed (view : View V) (tx : TxState V) : Prop where
  reads : ∀ item ∈ tx.readSet.take tx.rsIndex, ReadSim view item
  writes : ∀ item ∈ tx.writeSet.take tx.wsIndex, view.locked item.loc = some item.seen

structure Committing (view : View V) (tx : TxState V) : Prop where
  reads : ∀ item ∈ tx.readSet, ∃ mark, view.reads item.loc = some (item.seen, mark)
  writes : ∀ item ∈ tx.writeSet, view.locked item.loc = some item.seen
  news : view.news = newsOf tx

def StageSim (coro : CoroId) (view : View V) (tx : TxState V) : Prop :=
  match tx.pc with
  | .app => match tx.status with
      | .inProgress => Executed view tx
      | .committed => Committing view tx
      | _ => True
  | .doRead => Executed view tx ∧
      (∀ item ∈ tx.readSet, ∀ resp, (⟨readReq coro item, some resp⟩ : ReqSlot V) ∈ tx.batch →
        RespSim view item.loc resp) ∧
      ∀ item ∈ tx.writeSet, ∀ resp, (⟨lockReq coro item, some resp⟩ : ReqSlot V) ∈ tx.batch →
        LockSim view item resp
  | .validate => Committing view tx ∧ (∀ item ∈ tx.readSet, ReadSim view item) ∧
      ∀ item ∈ tx.readSet, ∀ resp, (⟨readReq coro item, some resp⟩ : ReqSlot V) ∈ tx.batch →
        validateResponse item resp = true → view.checked item.loc
  | .abort => True
  | .log | .update _ _ => Committing view tx

structure ViewSim (coro : CoroId) (view : View V) (tx : TxState V) : Prop where
  phase : view.phase = phaseOf tx
  readsFrom : ∀ loc, view.reads loc ≠ none → loc ∈ tx.readSet.map RwsetItem.loc
  lockedFrom : ∀ loc, view.locked loc ≠ none → loc ∈ tx.writeSet.map RwsetItem.loc
  applied : ∀ loc : Loc, loc.1 % rpcPrimaryDsReqSpacing = 0 →
    (view.applied loc ↔ applyCount tx loc ≠ 0)
  stage : StageSim coro view tx

section News

theorem news_of_item (nodup : (tx.writeSet.map RwsetItem.loc).Nodup) {item : RwsetItem V}
    (member : item ∈ tx.writeSet) : newsOf tx item.loc = some (entryOf item) := by
  unfold newsOf
  cases found : tx.writeSet.find? fun other => other.loc = item.loc with
  | none =>
      have missing := find?_eq_none.mp found item member
      simp at missing
  | some other =>
      have sameLoc : other.loc = item.loc := by simpa using find?_some found
      rw [inj_on_of_nodup_map nodup (mem_of_find?_eq_some found) member sameLoc]
      rfl

theorem news_of_from {loc : Loc} (new : newsOf tx loc ≠ none) :
    ∃ item ∈ tx.writeSet, item.loc = loc := by
  unfold newsOf at new
  cases found : tx.writeSet.find? fun other => other.loc = loc with
  | none =>
      rw [found] at new
      exact absurd rfl new
  | some item => exact ⟨item, mem_of_find?_eq_some found, by simpa using find?_some found⟩

end News

section Phases

theorem phase_of_update_start (coro : CoroId) (tx : TxState V) (vecs : List (List Nat)) :
    phaseOf (updateStart coro tx vecs) = .decided := by
  cases vecs <;> rfl

theorem phase_of_commit_start (cfg : Config) (coro : CoroId) (oldWord : Nat) (tx : TxState V) :
    phaseOf (commitStart cfg coro oldWord tx) = .decided := by
  unfold commitStart
  split_ifs
  · rfl
  · rfl
  · exact phase_of_update_start coro tx _

theorem phase_of_abort_start (coro : CoroId) (tx : TxState V) :
    phaseOf (abortStart coro tx) = .failed := by
  unfold abortStart
  dsimp only
  split_ifs <;> rfl

theorem stage_update_start {view : View V} (committing : Committing view tx)
    (vecs : List (List Nat)) : StageSim coro view (updateStart coro tx vecs) := by
  cases vecs <;> exact ⟨committing.reads, committing.writes, committing.news⟩

theorem stage_commit_start {view : View V} (committing : Committing view tx) (oldWord : Nat) :
    StageSim coro view (commitStart cfg coro oldWord tx) := by
  unfold commitStart
  split_ifs
  · exact ⟨committing.reads, committing.writes, committing.news⟩
  · exact ⟨committing.reads, committing.writes, committing.news⟩
  · exact stage_update_start committing _

theorem stage_abort_start (view : View V) : StageSim coro view (abortStart coro tx) := by
  unfold abortStart
  dsimp only
  split_ifs <;> exact trivial

end Phases

section Moves

variable {view : View V}

theorem read_sim_of_resp (coro : CoroId) {item : RwsetItem V} {resp : Resp V} (sim : RespSim view item.loc resp)
    (kind : RespOk (readReq coro item) resp) (success : (readResponse item resp).2 = true) :
    ReadSim view (readResponse item resp).1 := by
  have cases_ : resp.respType = .getRdonlySuccess ∨ resp.respType = .getRdonlyNotFound ∨
      resp.respType = .getRdonlyLocked := kind
  rcases cases_ with type | type | type
  · simp only [RespSim, type] at sim
    obtain ⟨hdr, value, version, header, val, low, read⟩ := sim
    refine ⟨.exact version, ?_, ?_, ?_⟩
    · simp only [readResponse, type, RwsetItem.deliver, header, val, RwsetItem.loc]
      exact read
    · simp only [readResponse, type]
      rfl
    · simp only [readResponse, type, RwsetItem.deliver, header]
      exact low
  · simp only [RespSim, type] at sim
    obtain ⟨hdr, mark, header, read, low⟩ := sim
    refine ⟨mark, ?_, ?_, ?_⟩
    · simp only [readResponse, type, RwsetItem.deliver, RwsetItem.loc]
      exact read
    · simp only [readResponse, type]
      rfl
    · cases mark with
      | exact version =>
          simp only [readResponse, type, RwsetItem.deliver, header]
          exact low version rfl
      | held =>
          simp only [readResponse, type]
  · simp only [readResponse, type] at success
    cases success

theorem locked_of_result {item : RwsetItem V} {resp : Resp V} (sim : LockSim view item resp)
    (success : (writeResult item resp).2 = true) :
    view.locked (writeResult item resp).1.loc = some (writeResult item resp).1.seen := by
  have grant : itemGranted item resp = true := by
    rw [← (write_result_flag item resp).2]
    exact success
  have locked := sim grant
  rw [loc_same (write_result_same item resp)]
  by_cases insert : item.writeMode = .insert
  · rw [if_pos insert] at locked
    rw [locked]
    simp only [writeResult, grant, if_true, if_pos insert]
  · rw [if_neg insert] at locked
    obtain ⟨value, val, now⟩ := locked
    rw [now]
    simp only [writeResult, grant, if_true, if_neg insert, RwsetItem.deliver, val, Option.getD_some]

/-- What a local move is for the general machine. -/
inductive ViewStep (tx : TxState V) (view : View V) : View V → Prop where
  | stay : ViewStep tx view view
  | call (running : view.phase = .running)
      (covered : ∀ loc, newsOf tx loc ≠ none → view.locked loc ≠ none) :
      ViewStep tx view { view with phase := .called, news := newsOf tx }
  | commit (running : view.phase = .running)
      (covered : ∀ loc, newsOf tx loc ≠ none → view.locked loc ≠ none)
      (noReads : ∀ loc, view.reads loc = none) :
      ViewStep tx view { view with phase := .decided, news := newsOf tx }
  | decide (called : view.phase = .called)
      (all : ∀ loc, view.reads loc ≠ none → view.checked loc) :
      ViewStep tx view { view with phase := .decided }
  | single (loc : Loc) (running : view.phase = .running) (readOnly : ∀ loc, view.locked loc = none)
      (only : ∀ other, view.reads other ≠ none → other = loc) :
      ViewStep tx view { view with phase := .decided }
  | fail (undecided : view.phase = .running ∨ view.phase = .called) :
      ViewStep tx view { view with phase := .failed }

/-- A move that keeps the items and the history. -/
theorem view_sim_of_same {after : View V} (sim : ViewSim coro view tx)
    (reads : after.reads = view.reads) (locked : after.locked = view.locked)
    (applied : after.applied = view.applied)
    (readLocs : next.readSet.map RwsetItem.loc = tx.readSet.map RwsetItem.loc)
    (writeLocs : next.writeSet.map RwsetItem.loc = tx.writeSet.map RwsetItem.loc)
    (handled : next.handled = tx.handled) (phase : after.phase = phaseOf next)
    (stage : StageSim coro after next) : ViewSim coro after next := by
  constructor
  · exact phase
  · rw [reads, readLocs]
    exact sim.readsFrom
  · rw [locked, writeLocs]
    exact sim.lockedFrom
  · intro loc spacing
    rw [applied, apply_count_same handled]
    exact sim.applied loc spacing
  · exact stage

theorem executed_of_running (sim : ViewSim coro view tx) (at_ : tx.pc = .app)
    (running : tx.status = .inProgress) : view.phase = .running ∧ Executed view tx := by
  have phase := sim.phase
  have stage := sim.stage
  simp only [phaseOf, at_, running] at phase
  simp only [StageSim, at_, running] at stage
  exact ⟨phase, stage⟩

theorem running_of_unfinished (sim : ViewSim coro view tx) (at_ : tx.pc = .app)
    (status : tx.status = .inProgress ∨ tx.status = .mustAbort) : view.phase = .running := by
  rw [sim.phase, phaseOf, at_]
  rcases status with running | failed
  · simp only [running]
  · simp only [failed]

/-- A transaction that has read all its items can be committed. -/
theorem committing_of_executed (executed : Executed view tx)
    (allRead : AllRead tx) (after : View V) (reads : after.reads = view.reads)
    (locked : after.locked = view.locked) (news : after.news = newsOf tx) :
    Committing after tx ∧ (∀ item ∈ tx.readSet, ReadSim after item) ∧
      ∀ loc, newsOf tx loc ≠ none → view.locked loc ≠ none := by
  have allReads : ∀ item ∈ tx.readSet, ReadSim after item := by
    intro item member
    have sim := executed.reads item (by rw [allRead.1, take_length]; exact member)
    obtain ⟨mark, read, rest⟩ := sim
    exact ⟨mark, by rw [reads]; exact read, rest⟩
  have allWrites : ∀ item ∈ tx.writeSet, view.locked item.loc = some item.seen := by
    intro item member
    exact executed.writes item (by rw [allRead.2, take_length]; exact member)
  refine ⟨⟨?_, ?_, news⟩, allReads, ?_⟩
  · intro item member
    obtain ⟨mark, read, _⟩ := allReads item member
    exact ⟨mark, read⟩
  · intro item member
    rw [locked]
    exact allWrites item member
  · intro loc new
    obtain ⟨item, member, same⟩ := news_of_from new
    rw [← same, allWrites item member]
    exact Option.some_ne_none _

theorem sends_locs (sends : Sends tx next) :
    next.readSet.map RwsetItem.loc = tx.readSet.map RwsetItem.loc ∧
      next.writeSet.map RwsetItem.loc = tx.writeSet.map RwsetItem.loc := by
  rw [sends.readSet, sends.writeSet]
  exact ⟨rfl, rfl⟩

theorem no_answers (tx : TxState V) (pc : Pc) (reqs : List (Request V)) {req : Request V}
    {resp : Resp V} : (⟨req, some resp⟩ : ReqSlot V) ∉ (tx.send pc reqs).batch := by
  intro member
  have fresh := send_fresh tx pc reqs _ member
  cases fresh

/-- The items after `do_read`, if it did not fail. -/
theorem read_state_executed (inv : TxInv cfg coro tx) (sim : ViewSim coro view tx)
    (at_ : tx.pc = .doRead) {readResps writeResps : List (Resp V)}
    (readAligned : Forall₂ (fun item resp =>
      (⟨readReq coro item, some resp⟩ : ReqSlot V) ∈ tx.batch) (tx.readSet.drop tx.rsIndex) readResps)
    (writeAligned : Forall₂ (fun item resp =>
      (⟨lockReq coro item, some resp⟩ : ReqSlot V) ∈ tx.batch ∧
        granted tx item.loc = itemGranted item resp) (tx.writeSet.drop tx.wsIndex) writeResps)
    (success : ((zipWith readResponse (tx.readSet.drop tx.rsIndex) readResps).all Prod.snd &&
      (zipWith writeResult (tx.writeSet.drop tx.wsIndex) writeResps).all Prod.snd) = true) :
    Executed view (readState tx readResps writeResps) := by
  have stage := sim.stage
  simp only [StageSim, at_] at stage
  obtain ⟨executed, readSlots, lockSlots⟩ := stage
  rw [Bool.and_eq_true] at success
  constructor
  · intro item member
    rcases mem_append.mp (mem_of_mem_take member) with old | new
    · exact executed.reads item old
    · obtain ⟨result, inside, same⟩ := mem_map.mp new
      have flag := all_eq_true.mp success.1 result inside
      have results : Forall₂ (fun _ (result : RwsetItem V × Bool) => result.2 = true →
          ReadSim view result.1) (tx.readSet.drop tx.rsIndex)
            (zipWith readResponse (tx.readSet.drop tx.rsIndex) readResps) := by
        refine forall₂_zipWith (forall₂_imp_mem readAligned
          fun item inDrop resp _ answered => And.intro (mem_of_mem_drop inDrop) answered) ?_
        intro item resp related passed
        exact read_sim_of_resp coro (readSlots item related.1 resp related.2)
          (inv.respOk _ related.2 _ rfl) passed
      obtain ⟨_, _, fact⟩ := forall₂_mem_right results inside
      rw [← same]
      exact fact flag
  · intro item member
    rcases mem_append.mp (mem_of_mem_take member) with old | new
    · exact executed.writes item old
    · obtain ⟨result, inside, same⟩ := mem_map.mp new
      have flag := all_eq_true.mp success.2 result inside
      have results : Forall₂ (fun _ (result : RwsetItem V × Bool) => result.2 = true →
          view.locked result.1.loc = some result.1.seen) (tx.writeSet.drop tx.wsIndex)
            (zipWith writeResult (tx.writeSet.drop tx.wsIndex) writeResps) := by
        refine forall₂_zipWith (forall₂_imp_mem writeAligned
          fun item inDrop resp _ answered => And.intro (mem_of_mem_drop inDrop) answered) ?_
        intro item resp related passed
        exact locked_of_result (lockSlots item related.1 resp related.2.1) passed
      obtain ⟨_, _, fact⟩ := forall₂_mem_right results inside
      rw [← same]
      exact fact flag

theorem write_obj_executed (executed : Executed view tx) (index : Nat)
    (change : RwsetItem V → RwsetItem V)
    (keeps : ∀ item, (change item).loc = item.loc ∧ (change item).seen = item.seen) :
    Executed view { tx with writeSet := tx.writeSet.modify index change } := by
  refine ⟨executed.reads, ?_⟩
  have aligned : Forall₂ (fun before after : RwsetItem V =>
      after.loc = before.loc ∧ after.seen = before.seen) tx.writeSet
        (tx.writeSet.modify index change) :=
    forall₂_modify index (fun _ => ⟨rfl, rfl⟩) keeps
  intro item member
  obtain ⟨before, inside, sameLoc, sameSeen⟩ :=
    forall₂_mem_right (List.forall₂_take tx.wsIndex aligned) member
  rw [sameLoc, sameSeen]
  exact executed.writes before inside

/-- The next vector of updates is sent. -/
theorem view_sim_update (sim : ViewSim coro view tx) (phase : view.phase = .decided)
    (committing : Committing view tx) (vecs : List (List Nat)) :
    ViewSim coro view (updateStart coro tx vecs) := by
  have sends := update_start_sends coro tx vecs
  exact view_sim_of_same sim rfl rfl rfl (sends_locs sends).1 (sends_locs sends).2 sends.handled
    (phase.trans (phase_of_update_start coro tx vecs).symm) (stage_update_start committing vecs)

/-- Every local move is a step of the general machine. -/
theorem view_moves {oldWord : Nat} (inv : TxInv cfg coro tx) (sim : ViewSim coro view tx)
    (idle : view.phase = .running → ∀ loc, view.news loc = none)
    (moved : LocalMove cfg coro oldWord tx next) :
    ∃ after, ViewStep tx view after ∧ ViewSim coro after next := by
  cases moved with
  | addRead rpcReqtype key objAddr obj ok =>
      obtain ⟨phase, executed⟩ := executed_of_running sim ok.1 ok.2.1
      refine ⟨view, .stay, sim.phase, ?_, sim.lockedFrom, sim.applied, ?_⟩
      · intro loc read
        rw [map_append]
        exact mem_append_left _ (sim.readsFrom loc read)
      · simp only [StageSim, ok.1, ok.2.1]
        refine ⟨?_, executed.writes⟩
        simp only [take_append_of_le_length inv.rsBound]
        exact executed.reads
  | addWrite rpcReqtype key objAddr obj writeMode ok mode =>
      obtain ⟨phase, executed⟩ := executed_of_running sim ok.1 ok.2.1
      refine ⟨view, .stay, sim.phase, sim.readsFrom, ?_, sim.applied, ?_⟩
      · intro loc locked
        rw [map_append]
        exact mem_append_left _ (sim.lockedFrom loc locked)
      · simp only [StageSim, ok.1, ok.2.1]
        refine ⟨executed.reads, ?_⟩
        simp only [take_append_of_le_length inv.wsBound]
        exact executed.writes
  | writeObj index valSize val at_ running =>
      obtain ⟨phase, executed⟩ := executed_of_running sim at_ running
      have same : Forall₂ SameItem tx.writeSet (tx.writeSet.modify index fun item =>
          { item with obj := { item.obj with valSize := valSize, val := val } }) :=
        forall₂_modify index same_item_refl (fun _ => ⟨rfl, rfl, rfl, rfl, rfl, rfl⟩)
      refine ⟨view, .stay, view_sim_of_same sim rfl rfl rfl rfl (locs_same same) rfl sim.phase ?_⟩
      simp only [StageSim, at_, running]
      have changed := write_obj_executed executed index
        (fun item => { item with obj := { item.obj with valSize := valSize, val := val } })
        (fun _ => ⟨rfl, rfl⟩)
      exact ⟨changed.reads, changed.writes⟩
  | doRead at_ running =>
      obtain ⟨phase, executed⟩ := executed_of_running sim at_ running
      refine ⟨view, .stay, view_sim_of_same sim rfl rfl rfl rfl rfl rfl phase ?_⟩
      exact ⟨⟨executed.reads, executed.writes⟩,
        fun _ _ _ member => absurd member (no_answers tx _ _),
        fun _ _ _ member => absurd member (no_answers tx _ _)⟩
  | commit at_ running allRead noReads =>
      obtain ⟨phase, executed⟩ := executed_of_running sim at_ running
      have sends := commit_start_sends cfg coro oldWord tx
      obtain ⟨committing, _, covered⟩ := committing_of_executed executed allRead
        { view with phase := .decided, news := newsOf tx } rfl rfl rfl
      have unread : ∀ loc, view.reads loc = none := by
        intro loc
        by_contra read
        have member := sim.readsFrom loc read
        rw [noReads] at member
        cases member
      exact ⟨_, .commit phase covered unread, view_sim_of_same sim rfl rfl rfl (sends_locs sends).1
        (sends_locs sends).2 sends.handled (phase_of_commit_start cfg coro oldWord tx).symm
        (stage_commit_start committing oldWord)⟩
  | validate at_ running allRead =>
      obtain ⟨phase, executed⟩ := executed_of_running sim at_ running
      obtain ⟨committing, reads, covered⟩ := committing_of_executed executed allRead
        { view with phase := .called, news := newsOf tx } rfl rfl rfl
      refine ⟨_, .call phase covered, view_sim_of_same sim rfl rfl rfl rfl rfl rfl rfl ?_⟩
      exact ⟨⟨committing.reads, committing.writes, committing.news⟩, reads,
        fun _ _ _ member => absurd member (no_answers tx _ _)⟩
  | singleRead at_ running allRead one noWrites =>
      obtain ⟨phase, executed⟩ := executed_of_running sim at_ running
      obtain ⟨item, only⟩ := length_eq_one_iff.mp one
      have silent : view.news = newsOf tx := by
        funext loc
        rw [idle phase loc, newsOf, noWrites]
        rfl
      obtain ⟨committing, _, _⟩ := committing_of_executed executed allRead
        { view with phase := .decided } rfl rfl silent
      refine ⟨_, .single item.loc phase ?_ ?_, view_sim_of_same sim rfl rfl rfl rfl rfl rfl ?_ ?_⟩
      · intro loc
        by_contra locked
        have member := sim.lockedFrom loc locked
        rw [noWrites] at member
        cases member
      · intro loc read
        have member := sim.readsFrom loc read
        rw [only] at member
        exact mem_singleton.mp member
      · simp only [phaseOf, at_]
      · simp only [StageSim, at_]
        exact ⟨committing.reads, committing.writes, committing.news⟩
  | abort at_ status allRead =>
      have sends := abort_start_sends coro tx
      exact ⟨_, .fail (Or.inl (running_of_unfinished sim at_ status)),
        view_sim_of_same sim rfl rfl rfl (sends_locs sends).1 (sends_locs sends).2 sends.handled
          (phase_of_abort_start coro tx).symm (stage_abort_start _)⟩
  | abortRdonly at_ status noWrites =>
      refine ⟨_, .fail (Or.inl (running_of_unfinished sim at_ status)),
        view_sim_of_same sim rfl rfl rfl rfl rfl rfl ?_ ?_⟩
      · simp only [phaseOf, at_]
      · simp only [StageSim, at_]
  | readDone readResps writeResps at_ answers readAligned writeAligned =>
      have stage := inv.stage
      simp only [StageInv, at_] at stage
      have running := stage.1
      have phase := sim.phase
      simp only [phaseOf, at_] at phase
      obtain ⟨sameReads, sameWrites⟩ := read_state_same readAligned writeAligned
      have status : (readState tx readResps writeResps).status =
          if (zipWith readResponse (tx.readSet.drop tx.rsIndex) readResps).all Prod.snd &&
              (zipWith writeResult (tx.writeSet.drop tx.wsIndex) writeResps).all Prod.snd
          then tx.status else .mustAbort := rfl
      have at_app : (readState tx readResps writeResps).pc = .app := rfl
      refine ⟨view, .stay, view_sim_of_same sim rfl rfl rfl (locs_same sameReads)
        (locs_same sameWrites) rfl ?_ ?_⟩
      · rw [phase, phaseOf, at_app, status]
        split_ifs
        · simp only [running]
        · rfl
      · simp only [StageSim, at_app, status]
        split_ifs with success
        · simp only [running]
          exact read_state_executed inv sim at_ readAligned writeAligned success
        · trivial
  | validated responses at_ aligned =>
      have phase := sim.phase
      have stage := sim.stage
      simp only [phaseOf, at_] at phase
      simp only [StageSim, at_] at stage
      obtain ⟨committing, _, slots⟩ := stage
      have sends := commit_start_sends cfg coro oldWord (checkedState tx responses)
      have delivered : Forall₂ (fun before after : RwsetItem V =>
          after.loc = before.loc ∧ after.seen = before.seen) tx.readSet
            (zipWith RwsetItem.deliver tx.readSet responses) :=
        forall₂_zipWith aligned fun _ _ _ => ⟨rfl, rfl⟩
      have same := checked_reads_same aligned.length_eq
      refine ⟨_, .decide phase ?_, view_sim_of_same sim rfl rfl rfl ?_ ?_ sends.handled
        (phase_of_commit_start cfg coro oldWord _).symm (stage_commit_start ?_ oldWord)⟩
      · intro loc read
        obtain ⟨item, member, sameLoc⟩ := mem_map.mp (sim.readsFrom loc read)
        obtain ⟨resp, _, answered, passed⟩ := forall₂_mem_left aligned member
        rw [← sameLoc]
        exact slots item member resp answered passed
      · exact (sends_locs sends).1.trans (locs_same same)
      · exact (sends_locs sends).2
      · refine ⟨?_, committing.writes, committing.news⟩
        intro item member
        obtain ⟨before, inside, sameLoc, sameSeen⟩ := forall₂_mem_right delivered member
        rw [sameLoc, sameSeen]
        exact committing.reads before inside
  | refused responses at_ sameLength =>
      have phase := sim.phase
      simp only [phaseOf, at_] at phase
      have sends := abort_start_sends coro (checkedState tx responses)
      exact ⟨_, .fail (Or.inr phase), view_sim_of_same sim rfl rfl rfl
        ((sends_locs sends).1.trans (locs_same (checked_reads_same sameLength)))
        (sends_locs sends).2 sends.handled (phase_of_abort_start coro _).symm (stage_abort_start _)⟩
  | abortDone at_ complete =>
      have stage := inv.stage
      simp only [StageInv, at_] at stage
      have phase := sim.phase
      simp only [phaseOf, at_] at phase
      refine ⟨view, .stay, view_sim_of_same sim rfl rfl rfl rfl rfl rfl ?_ ?_⟩
      · rw [phase]
        simp only [phaseOf, stage.1]
      · simp only [StageSim, stage.1]
  | logDone at_ complete =>
      have phase := sim.phase
      have stage := sim.stage
      simp only [phaseOf, at_] at phase
      simp only [StageSim, at_] at stage
      exact ⟨view, .stay, view_sim_update sim phase stage _⟩
  | updateDone vec rest at_ complete =>
      have phase := sim.phase
      have stage := sim.stage
      simp only [phaseOf, at_] at phase
      simp only [StageSim, at_] at stage
      exact ⟨view, .stay, view_sim_update sim phase stage _⟩

end Moves

section Responses

variable {view : View V} {index : Nat} {resp : Resp V} {item : RwsetItem V}

def reqLoc : Request V → Loc
  | .ds req => DsReq.loc req
  | .log _ _ _ => (0, 0)

theorem read_ne_lock (left right : RwsetItem V) : readReq coro left ≠ lockReq coro right := by
  intro same
  have kinds := congrArg DsReq.reqType (Request.ds.inj same)
  simp only at kinds
  split_ifs at kinds

theorem do_read_reqs (inv : TxInv cfg coro tx) (at_ : tx.pc = .doRead) :
    tx.batch.map ReqSlot.req = (tx.readSet.drop tx.rsIndex).map (readReq coro) ++
      (tx.writeSet.drop tx.wsIndex).map (lockReq coro) := by
  have stage := inv.stage
  simp only [StageInv, at_] at stage
  obtain ⟨_, _, _, _, reads, writes, split, readSlots, lockSlots⟩ := stage
  rw [split, map_append]
  rw [map_eq_of_forall₂ readSlots fun _ _ same => same,
    map_eq_of_forall₂ lockSlots fun _ _ same => same.1]

theorem validate_reqs (inv : TxInv cfg coro tx) (at_ : tx.pc = .validate) :
    tx.batch.map ReqSlot.req = tx.readSet.map (readReq coro) := by
  have stage := inv.stage
  simp only [StageInv, at_] at stage
  exact map_eq_of_forall₂ stage.2.2.2.2.2 fun _ _ same => same

/-- No two requests of a batch of reads and locks are alike. -/
theorem reqs_nodup (inv : TxInv cfg coro tx) (at_ : tx.pc = .doRead ∨ tx.pc = .validate) :
    (tx.batch.map ReqSlot.req).Nodup := by
  apply Nodup.of_map reqLoc
  have nodup := inv.nodup
  rw [map_append] at nodup
  rcases at_ with at_ | at_
  · rw [do_read_reqs inv at_, map_append, map_map, map_map]
    change ((tx.readSet.drop tx.rsIndex).map RwsetItem.loc ++
      (tx.writeSet.drop tx.wsIndex).map RwsetItem.loc).Nodup
    rw [map_drop, map_drop]
    exact nodup.sublist ((drop_sublist _ _).append (drop_sublist _ _))
  · rw [validate_reqs inv at_, map_map]
    exact (nodup_append.mp nodup).1

/-- The answered requests after one more has been answered. -/
theorem answered_after {req : Request V} (nodup : (tx.batch.map ReqSlot.req).Nodup)
    (found : tx.batch[index]? = some ⟨req, none⟩) {other : Request V} {answer : Resp V}
    (member : (⟨other, some answer⟩ : ReqSlot V) ∈ (tx.respond index req resp).batch) :
    (other = req ∧ answer = resp) ∨
      (other ≠ req ∧ (⟨other, some answer⟩ : ReqSlot V) ∈ tx.batch) := by
  rcases mem_or_eq_of_mem_set member with old | new
  · right
    refine ⟨?_, old⟩
    obtain ⟨position, bound, at_⟩ := mem_iff_getElem.mp old
    have foundOld : tx.batch[position]? = some ⟨other, some answer⟩ := by
      rw [getElem?_eq_getElem bound, at_]
    apply nodup_map_ne nodup _ foundOld found
    intro same
    rw [same, found] at foundOld
    cases foundOld
  · left
    rw [ReqSlot.mk.injEq, Option.some.injEq] at new
    exact new

/-- The item of an unanswered read of `do_read` is a new one. -/
theorem open_read_unread (inv : TxInv cfg coro tx) (at_ : tx.pc = .doRead)
    (found : tx.batch[index]? = some ⟨readReq coro item, none⟩) :
    item.loc ∉ (tx.readSet.take tx.rsIndex).map RwsetItem.loc := by
  have member : readReq coro item ∈ tx.batch.map ReqSlot.req :=
    mem_map.mpr ⟨_, mem_of_getElem? found, rfl⟩
  rw [do_read_reqs inv at_] at member
  have nodup := inv.nodup
  rw [map_append, ← take_append_drop tx.rsIndex tx.readSet, map_append] at nodup
  rcases mem_append.mp member with inReads | inWrites
  · obtain ⟨other, inDrop, same⟩ := mem_map.mp inReads
    have sameLoc : other.loc = item.loc := congrArg reqLoc same
    intro old
    refine (nodup_append.mp (nodup_append.mp nodup).1).2.2 item.loc old item.loc ?_ rfl
    rw [← sameLoc]
    exact mem_map_of_mem inDrop
  · obtain ⟨other, _, same⟩ := mem_map.mp inWrites
    exact absurd same.symm (read_ne_lock item other)

theorem open_lock_unlocked (inv : TxInv cfg coro tx) (at_ : tx.pc = .doRead)
    (found : tx.batch[index]? = some ⟨lockReq coro item, none⟩) :
    item.loc ∉ (tx.writeSet.take tx.wsIndex).map RwsetItem.loc := by
  have member : lockReq coro item ∈ tx.batch.map ReqSlot.req :=
    mem_map.mpr ⟨_, mem_of_getElem? found, rfl⟩
  rw [do_read_reqs inv at_] at member
  have nodup := inv.writeNodup
  rw [← take_append_drop tx.wsIndex tx.writeSet, map_append] at nodup
  rcases mem_append.mp member with inReads | inWrites
  · obtain ⟨other, _, same⟩ := mem_map.mp inReads
    exact absurd same (read_ne_lock other item)
  · obtain ⟨other, inDrop, same⟩ := mem_map.mp inWrites
    have sameLoc : other.loc = item.loc := congrArg reqLoc same
    intro old
    refine (nodup_append.mp nodup).2.2 item.loc old item.loc ?_ rfl
    rw [← sameLoc]
    exact mem_map_of_mem inDrop

/-- A read of `do_read` has been answered; a refused one leaves no trace. -/
theorem view_read (inv : TxInv cfg coro tx) (sim : ViewSim coro view tx) (at_ : tx.pc = .doRead)
    (member : item ∈ tx.readSet) (found : tx.batch[index]? = some ⟨readReq coro item, none⟩)
    {reads : Loc → Option (Option V × Mark)}
    (others : ∀ loc, loc ≠ item.loc → reads loc = view.reads loc)
    (now : RespSim { view with reads := reads } item.loc resp) :
    ViewSim coro { view with reads := reads } (tx.respond index (readReq coro item) resp) := by
  have stage := sim.stage
  simp only [StageSim, at_] at stage
  obtain ⟨executed, readSlots, lockSlots⟩ := stage
  have unread := open_read_unread inv at_ found
  constructor
  · exact sim.phase
  · intro loc read
    by_cases same : loc = item.loc
    · rw [same]
      exact mem_map_of_mem member
    · apply sim.readsFrom loc
      rw [← others loc same]
      exact read
  · exact sim.lockedFrom
  · intro loc spacing
    rw [apply_count_respond, applies_read]
    exact sim.applied loc spacing
  · have pcSame : (tx.respond index (readReq coro item) resp).pc = .doRead := at_
    simp only [StageSim, pcSame]
    refine ⟨⟨?_, executed.writes⟩, ?_, ?_⟩
    · intro other inTake
      obtain ⟨mark, read, rest⟩ := executed.reads other inTake
      refine ⟨mark, ?_, rest⟩
      refine (others other.loc ?_).trans read
      intro same
      exact unread (same ▸ mem_map_of_mem inTake)
    · intro other inSet answer answered
      rcases answered_after (reqs_nodup inv (Or.inl at_)) found answered with ⟨same, sameResp⟩ |
        ⟨different, old⟩
      · have sameLoc : other.loc = item.loc := congrArg reqLoc same
        rw [sameLoc, sameResp]
        exact now
      · have before := readSlots other inSet answer old
        have apart : other.loc ≠ item.loc := by
          intro sameLoc
          have nodup := inv.nodup
          rw [map_append] at nodup
          have sameItem := inj_on_of_nodup_map (nodup_append.mp nodup).1 inSet member sameLoc
          rw [sameItem] at different
          exact different rfl
        unfold RespSim at before ⊢
        simp only [others other.loc apart]
        exact before
    · intro other inSet answer answered
      rcases answered_after (reqs_nodup inv (Or.inl at_)) found answered with ⟨same, _⟩ | ⟨_, old⟩
      · exact absurd same.symm (read_ne_lock item other)
      · exact lockSlots other inSet answer old

theorem view_lock (inv : TxInv cfg coro tx) (sim : ViewSim coro view tx) (at_ : tx.pc = .doRead)
    (member : item ∈ tx.writeSet) (found : tx.batch[index]? = some ⟨lockReq coro item, none⟩)
    {locked : Loc → Option (Option V)}
    (others : ∀ loc, loc ≠ item.loc → locked loc = view.locked loc)
    (now : LockSim { view with locked := locked } item resp) :
    ViewSim coro { view with locked := locked } (tx.respond index (lockReq coro item) resp) := by
  have stage := sim.stage
  simp only [StageSim, at_] at stage
  obtain ⟨executed, readSlots, lockSlots⟩ := stage
  have unlocked := open_lock_unlocked inv at_ found
  constructor
  · exact sim.phase
  · exact sim.readsFrom
  · intro loc some_
    by_cases same : loc = item.loc
    · rw [same]
      exact mem_map_of_mem member
    · apply sim.lockedFrom loc
      rw [← others loc same]
      exact some_
  · intro loc spacing
    rw [apply_count_respond, applies_lock]
    exact sim.applied loc spacing
  · have pcSame : (tx.respond index (lockReq coro item) resp).pc = .doRead := at_
    simp only [StageSim, pcSame]
    refine ⟨⟨executed.reads, ?_⟩, ?_, ?_⟩
    · intro other inTake
      refine (others other.loc ?_).trans (executed.writes other inTake)
      intro same
      exact unlocked (same ▸ mem_map_of_mem inTake)
    · intro other inSet answer answered
      rcases answered_after (reqs_nodup inv (Or.inl at_)) found answered with ⟨same, _⟩ | ⟨_, old⟩
      · exact absurd same (read_ne_lock other item)
      · exact readSlots other inSet answer old
    · intro other inSet answer answered
      rcases answered_after (reqs_nodup inv (Or.inl at_)) found answered with ⟨same, sameResp⟩ |
        ⟨different, old⟩
      · have sameLoc : other.loc = item.loc := congrArg reqLoc same
        rw [inj_on_of_nodup_map inv.writeNodup inSet member sameLoc, sameResp]
        exact now
      · have before := lockSlots other inSet answer old
        have apart : other.loc ≠ item.loc := by
          intro sameLoc
          rw [inj_on_of_nodup_map inv.writeNodup inSet member sameLoc] at different
          exact different rfl
        unfold LockSim at before ⊢
        simp only [others other.loc apart]
        exact before

theorem view_check (inv : TxInv cfg coro tx) (sim : ViewSim coro view tx) (at_ : tx.pc = .validate)
    (member : item ∈ tx.readSet) (found : tx.batch[index]? = some ⟨readReq coro item, none⟩)
    {checked : Loc → Prop} (others : ∀ loc, view.checked loc → checked loc)
    (now : validateResponse item resp = true → checked item.loc) :
    ViewSim coro { view with checked := checked } (tx.respond index (readReq coro item) resp) := by
  have stage := sim.stage
  simp only [StageSim, at_] at stage
  obtain ⟨committing, reads, slots⟩ := stage
  refine ⟨sim.phase, sim.readsFrom, sim.lockedFrom, ?_, ?_⟩
  · intro loc spacing
    rw [apply_count_respond, applies_read]
    exact sim.applied loc spacing
  · have pcSame : (tx.respond index (readReq coro item) resp).pc = .validate := at_
    simp only [StageSim, pcSame]
    refine ⟨⟨committing.reads, committing.writes, committing.news⟩, reads, ?_⟩
    intro other inSet answer answered passed
    rcases answered_after (reqs_nodup inv (Or.inr at_)) found answered with ⟨same, sameResp⟩ |
      ⟨_, old⟩
    · have sameLoc : other.loc = item.loc := congrArg reqLoc same
      have nodup := inv.nodup
      rw [map_append] at nodup
      have sameItem := inj_on_of_nodup_map (nodup_append.mp nodup).1 inSet member sameLoc
      rw [sameItem, sameResp] at passed
      rw [sameItem]
      exact now passed
    · exact others other.loc (slots other inSet answer old passed)

/-- The phases in which the responses do not matter to the view. -/
theorem view_late {req : Request V} (sim : ViewSim coro view tx)
    (at_ : tx.pc = .abort ∨ tx.pc = .log ∨ ∃ vec rest, tx.pc = .update vec rest)
    {applied : Loc → Prop}
    (counts : ∀ loc : Loc, loc.1 % rpcPrimaryDsReqSpacing = 0 →
      (applied loc ↔ applyCount (tx.respond index req resp) loc ≠ 0)) :
    ViewSim coro { view with applied := applied } (tx.respond index req resp) := by
  refine ⟨sim.phase, sim.readsFrom, sim.lockedFrom, counts, ?_⟩
  have pcSame : (tx.respond index req resp).pc = tx.pc := rfl
  have stage := sim.stage
  rcases at_ with at_ | at_ | ⟨vec, rest, at_⟩
  · simp only [StageSim, pcSame, at_]
  · simp only [StageSim, at_] at stage
    simp only [StageSim, pcSame, at_]
    exact ⟨stage.reads, stage.writes, stage.news⟩
  · simp only [StageSim, at_] at stage
    simp only [StageSim, pcSame, at_]
    exact ⟨stage.reads, stage.writes, stage.news⟩

end Responses

end Fasst.TxViews

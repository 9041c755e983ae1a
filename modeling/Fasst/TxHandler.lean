import Fasst.TxLocal
import Fasst.FixedTableSpec

/-!
# What one executed request does

`dsFixedtableRpcHandler` on the abstract table: which answer goes with which
change of the map, the locks and the versions. Every result about the swarm
goes through this one case analysis.
-/

namespace Fasst.TxHandler

open Fasst.FixedTableModel Fasst.FixedTableLocks Fasst.FixedTableEdits Fasst.FixedTableStore
open Fasst.FixedTableOps Fasst.FixedTableSpec Fasst.TxModel Fasst.TxCluster Fasst.TxLocal

set_option autoImplicit false

variable {V : Type}

def DsReqtype.entry : DsReqtype V → Option (Option V)
  | .put val => some (some val)
  | .del => some none
  | _ => none

def opOf (req : DsReq V) : Op V :=
  match req.reqType with
  | .getRdonly => .get req.callerId req.key
  | .getForUpd => .lockBktAndGet req.callerId req.key
  | .lockForIns => .lockBktForIns req.callerId req.key
  | .unlock => .unlockBucketHash req.callerId req.keyhash
  | .del => .del req.callerId req.key
  | .put val => .set req.callerId req.key val

/-- An answer to a request together with the change of the table. -/
inductive Effect (hash : UInt64 → UInt64) (before : MapState V) (req : DsReq V) (resp : Resp V) :
    MapState V → Prop where
  | found (value : V) (kind : req.reqType = .getRdonly)
      (free : ¬ before.HeldByOther req.callerId (before.bucketOf (hash req.key)))
      (entry : before.map req.key = some value) (type : resp.respType = .getRdonlySuccess)
      (hdr : resp.hdr = some (before.word (before.bucketOf (hash req.key))))
      (val : resp.val = some value) : Effect hash before req resp before
  | absent (hdr : UInt64) (kind : req.reqType = .getRdonly)
      (free : ¬ before.HeldByOther req.callerId (before.bucketOf (hash req.key)))
      (entry : before.map req.key = none) (type : resp.respType = .getRdonlyNotFound)
      (header : resp.hdr = some hdr)
      (exact : before.lock (before.bucketOf (hash req.key)) = none →
        hdr = before.word (before.bucketOf (hash req.key)))
      (val : resp.val = none) : Effect hash before req resp before
  | readLocked (kind : req.reqType = .getRdonly)
      (held : before.HeldByOther req.callerId (before.bucketOf (hash req.key)))
      (type : resp.respType = .getRdonlyLocked) : Effect hash before req resp before
  | refused (held : before.HeldByOther req.callerId (before.bucketOf (hash req.key)))
      (kind : (req.reqType = .getForUpd ∧ resp.respType = .getForUpdLocked) ∨
        (req.reqType = .lockForIns ∧ resp.respType = .lockForInsLocked)) :
      Effect hash before req resp before
  | missed (free : ¬ before.HeldByOther req.callerId (before.bucketOf (hash req.key)))
      (kind : (req.reqType = .getForUpd ∧ resp.respType = .getForUpdNotFound) ∨
        (req.reqType = .lockForIns ∧ resp.respType = .lockForInsExists)) :
      Effect hash before req resp
        ((before.acquire req.callerId (before.bucketOf (hash req.key))).release
          (before.bucketOf (hash req.key)))
  | lockedUpd (value : V) (kind : req.reqType = .getForUpd)
      (free : ¬ before.HeldByOther req.callerId (before.bucketOf (hash req.key)))
      (entry : before.map req.key = some value) (type : resp.respType = .getForUpdSuccess)
      (val : resp.val = some value) :
      Effect hash before req resp (before.acquire req.callerId (before.bucketOf (hash req.key)))
  | lockedIns (kind : req.reqType = .lockForIns)
      (free : ¬ before.HeldByOther req.callerId (before.bucketOf (hash req.key)))
      (entry : before.map req.key = none) (type : resp.respType = .lockForInsSuccess) :
      Effect hash before req resp (before.acquire req.callerId (before.bucketOf (hash req.key)))
  | unlocked (kind : req.reqType = .unlock) (type : resp.respType = .unlockSuccess) :
      Effect hash before req resp (before.release (before.bucketOf (hash req.key)))
  | stored (entry : Option V) (kind : DsReqtype.entry req.reqType = some entry)
      (respOk : RespOk (.ds req) resp) :
      Effect hash before req resp
        ((before.store req.key entry).releaseIfPrimary (before.bucketOf (hash req.key)))

section

variable {hash : UInt64 → UInt64} {table : FixedTable V} {req : DsReq V}

theorem effect_resp_ok {before after : MapState V} {resp : Resp V}
    (effect : Effect hash before req resp after) : RespOk (.ds req) resp := by
  cases effect with
  | found _ kind _ _ type => simp [RespOk, kind, type]
  | absent _ kind _ _ type => simp [RespOk, kind, type]
  | readLocked kind _ type => simp [RespOk, kind, type]
  | refused _ kind => rcases kind with ⟨kind, type⟩ | ⟨kind, type⟩ <;> simp [RespOk, kind, type]
  | missed _ kind => rcases kind with ⟨kind, type⟩ | ⟨kind, type⟩ <;> simp [RespOk, kind, type]
  | lockedUpd _ kind _ _ type => simp [RespOk, kind, type]
  | lockedIns kind _ _ type => simp [RespOk, kind, type]
  | unlocked kind type => simp [RespOk, kind, type]
  | stored _ _ respOk => exact respOk

/-- The request met a primary table without room for a new key, or a backup in
the same situation. -/
def OutOfSpace (hash : UInt64 → UInt64) (table : FixedTable V) (req : DsReq V) : Prop :=
  (∃ val, req.reqType = .put val) ∧ contents hash table req.key = none ∧
    Exhausted hash table req.key

/-- A read of the table under its discipline. -/
theorem handler_get (stale : UInt64) (kind : req.reqType = .getRdonly)
    (keyhash : req.keyhash = hash req.key) {room : Bool}
    (refined : Refines hash table (.get req.callerId req.key) room) :
    ∃ resp, dsFixedtableRpcHandler table req stale = .ok (resp, table) ∧
      Effect hash (abstractOf hash table) req resp (abstractOf hash table) := by
  obtain ⟨after, run, _, _⟩ := refined
  rw [runOp] at run
  cases got : FixedTableModel.get table req.callerId (hash req.key) req.key with
  | error fault =>
      rw [got] at run
      cases run
  | ok out =>
      rw [got] at run
      have same : out = (specOp hash (abstractOf hash table) room (.get req.callerId req.key)).1 :=
        (Prod.mk.inj (Except.ok.inj run)).1
      simp only [specOp] at same
      simp only [dsFixedtableRpcHandler, kind, keyhash, got, assertion, bind, Except.bind]
      cases held : (abstractOf hash table).lock ((abstractOf hash table).bucketOf (hash req.key)) with
      | none =>
          have free : ¬ (abstractOf hash table).HeldByOther req.callerId
              ((abstractOf hash table).bucketOf (hash req.key)) := by
            rintro ⟨_, _, lock, _⟩
            rw [held] at lock
            cases lock
          cases entry : (abstractOf hash table).map req.key with
          | some value =>
              rw [held, entry] at same
              rw [same]
              exact ⟨_, rfl, .found value kind free entry rfl rfl rfl⟩
          | none =>
              rw [held, entry] at same
              rw [same]
              exact ⟨_, rfl, .absent _ kind free entry rfl rfl (fun _ => rfl) rfl⟩
      | some pair =>
          obtain ⟨owner, count⟩ := pair
          by_cases own : owner = req.callerId
          · have free : ¬ (abstractOf hash table).HeldByOther req.callerId
                ((abstractOf hash table).bucketOf (hash req.key)) := by
              rintro ⟨other, number, lock, different⟩
              rw [held] at lock
              cases lock
              exact different own
            cases entry : (abstractOf hash table).map req.key with
            | some value =>
                rw [held, entry, getReply, if_pos own] at same
                rw [same]
                exact ⟨_, rfl, .found value kind free entry rfl rfl rfl⟩
            | none =>
                rw [held, entry, getReply, if_pos own] at same
                rw [same]
                refine ⟨_, rfl, .absent stale kind free entry rfl rfl ?_ rfl⟩
                intro unlocked
                rw [held] at unlocked
                cases unlocked
          · have other : (abstractOf hash table).HeldByOther req.callerId
                ((abstractOf hash table).bucketOf (hash req.key)) := ⟨owner, count, held, own⟩
            cases entry : (abstractOf hash table).map req.key with
            | some value =>
                rw [held, entry, getReply, if_neg own] at same
                rw [same]
                exact ⟨_, rfl, .readLocked kind other rfl⟩
            | none =>
                rw [held, entry, getReply, if_neg own] at same
                rw [same]
                exact ⟨_, rfl, .readLocked kind other rfl⟩

/-- A locking read that found its bucket and its key as wanted, or did not. -/
theorem handler_lock (stale : UInt64) (kind : req.reqType = .getForUpd ∨ req.reqType = .lockForIns)
    (keyhash : req.keyhash = hash req.key) {room : Bool}
    (refined : Refines hash table (opOf req) room) :
    ∃ resp after, dsFixedtableRpcHandler table req stale = .ok (resp, after) ∧
      TableOk hash after ∧ Effect hash (abstractOf hash table) req resp (abstractOf hash after) := by
  obtain ⟨after, run, ok, same⟩ := refined
  rcases kind with kind | kind
  · simp only [opOf, kind, runOp] at run
    simp only [opOf, kind] at same
    simp only [dsFixedtableRpcHandler, kind, keyhash, run, assertion, bind, Except.bind]
    rw [specOp] at same ⊢
    by_cases held : (abstractOf hash table).HeldByOther req.callerId
        ((abstractOf hash table).bucketOf (hash req.key))
    · rw [if_pos held] at same ⊢
      refine ⟨_, after, rfl, ok, ?_⟩
      rw [same]
      exact .refused held (Or.inl ⟨kind, rfl⟩)
    · rw [if_neg held] at same ⊢
      cases entry : (abstractOf hash table).map req.key with
      | some value =>
          rw [entry] at same
          refine ⟨_, after, rfl, ok, ?_⟩
          rw [same]
          exact .lockedUpd value kind held entry rfl rfl
      | none =>
          rw [entry] at same
          refine ⟨_, after, rfl, ok, ?_⟩
          rw [same]
          exact .missed held (Or.inl ⟨kind, rfl⟩)
  · simp only [opOf, kind, runOp] at run
    simp only [opOf, kind] at same
    simp only [dsFixedtableRpcHandler, kind, keyhash, run, assertion, bind, Except.bind]
    rw [specOp] at same ⊢
    by_cases held : (abstractOf hash table).HeldByOther req.callerId
        ((abstractOf hash table).bucketOf (hash req.key))
    · rw [if_pos held] at same ⊢
      refine ⟨_, after, rfl, ok, ?_⟩
      rw [same]
      exact .refused held (Or.inr ⟨kind, rfl⟩)
    · rw [if_neg held] at same ⊢
      cases entry : (abstractOf hash table).map req.key with
      | none =>
          rw [entry] at same
          refine ⟨_, after, rfl, ok, ?_⟩
          rw [same]
          exact .lockedIns kind held entry rfl
      | some value =>
          rw [entry] at same
          refine ⟨_, after, rfl, ok, ?_⟩
          rw [same]
          exact .missed held (Or.inr ⟨kind, rfl⟩)

/-- The result of a call without output buffers. -/
theorem plain_run {outcome : Except Fault (Result × FixedTable V)} {reply : ReadOut V}
    {after : FixedTable V} (run : plainReply <$> outcome = .ok (reply, after)) :
    outcome = .ok (reply.result, after) := by
  cases outcome with
  | error fault => cases run
  | ok pair =>
      obtain ⟨sameReply, sameTable⟩ := Prod.mk.inj (Except.ok.inj run)
      rw [← sameReply, ← sameTable]

theorem handler_unlock (stale : UInt64) (kind : req.reqType = .unlock)
    (keyhash : req.keyhash = hash req.key) {room : Bool}
    (refined : Refines hash table (opOf req) room) :
    ∃ resp after, dsFixedtableRpcHandler table req stale = .ok (resp, after) ∧
      TableOk hash after ∧ Effect hash (abstractOf hash table) req resp (abstractOf hash after) := by
  obtain ⟨after, run, ok, same⟩ := refined
  simp only [opOf, kind, runOp, specOp] at run same
  have ran := plain_run run
  simp only [dsFixedtableRpcHandler, kind, ran, assertion, bind, Except.bind, if_true]
  refine ⟨_, after, rfl, ok, ?_⟩
  rw [same, keyhash]
  exact .unlocked kind rfl

theorem handler_del (stale : UInt64) (kind : req.reqType = .del)
    (keyhash : req.keyhash = hash req.key) {room : Bool}
    (refined : Refines hash table (opOf req) room) :
    ∃ resp after, dsFixedtableRpcHandler table req stale = .ok (resp, after) ∧
      TableOk hash after ∧ Effect hash (abstractOf hash table) req resp (abstractOf hash after) := by
  obtain ⟨after, run, ok, same⟩ := refined
  simp only [opOf, kind, runOp, specOp] at run same
  have ran := plain_run run
  simp only [dsFixedtableRpcHandler, kind, keyhash, ran, assertion, bind, Except.bind, if_true]
  refine ⟨_, after, rfl, ok, ?_⟩
  rw [same]
  exact .stored none (by simp [DsReqtype.entry, kind]) (by simp [RespOk, kind])

theorem handler_put (stale : UInt64) {val : V} (kind : req.reqType = .put val)
    (keyhash : req.keyhash = hash req.key) (refined : Refines hash table (opOf req) true) :
    ∃ resp after, dsFixedtableRpcHandler table req stale = .ok (resp, after) ∧
      TableOk hash after ∧ Effect hash (abstractOf hash table) req resp (abstractOf hash after) := by
  obtain ⟨after, run, ok, same⟩ := refined
  simp only [opOf, kind, runOp, specOp, Bool.true_eq_false, and_false, if_false] at run same
  have ran := plain_run run
  simp only [dsFixedtableRpcHandler, kind, keyhash, ran, assertion, bind, Except.bind, if_true]
  refine ⟨_, after, rfl, ok, ?_⟩
  rw [same]
  exact .stored (some val) (by simp [DsReqtype.entry, kind]) (by simp [RespOk, kind])

/-- An update without room: a primary exits, and at a backup the assertion in
the unlock fails. -/
theorem handler_put_full (stale : UInt64) {val : V} (kind : req.reqType = .put val)
    (keyhash : req.keyhash = hash req.key) (missing : contents hash table req.key = none)
    (outcome : if table.isPrimary then Refines hash table (opOf req) false
      else runOp hash table (opOf req) = .error .bucketNotLocked) :
    dsFixedtableRpcHandler table req stale =
      .error (if table.isPrimary then .exit else .assertion .bucketNotLocked) := by
  by_cases primary : table.isPrimary = true
  · rw [if_pos primary] at outcome ⊢
    obtain ⟨after, run, _, _⟩ := outcome
    have absent : (abstractOf hash table).map req.key = none := missing
    simp only [opOf, kind, runOp, specOp, absent, and_self, if_true] at run
    have ran := plain_run run
    simp [dsFixedtableRpcHandler, kind, keyhash, ran, assertion, bind, Except.bind]
  · rw [if_neg primary] at outcome ⊢
    simp only [opOf, kind, runOp] at outcome
    cases ran : FixedTableModel.set table req.callerId (hash req.key) req.key val with
    | ok pair =>
        rw [ran] at outcome
        cases outcome
    | error fault =>
        rw [ran] at outcome
        have same : fault = .bucketNotLocked := Except.error.inj outcome
        simp [dsFixedtableRpcHandler, kind, keyhash, ran, assertion, bind, Except.bind, same]

/-- The discipline of a coroutine: everything but an update goes to a primary,
and at a primary only the holder of the bucket updates or unlocks. -/
structure ReqOk (hash : UInt64 → UInt64) (state : MapState V) (req : DsReq V) : Prop where
  keyhash : req.keyhash = hash req.key
  keyValid : req.key ≠ kFtInvalidKey
  callerOk : CallerOk req.callerId
  few : ∀ count, state.lock (state.bucketOf (hash req.key)) = some (req.callerId, count) →
    count < kMaxNumLocks
  role : state.isPrimary = true ∨ ∃ entry, DsReqtype.entry req.reqType = some entry
  held : state.isPrimary = true →
    (req.reqType = .unlock ∨ ∃ entry, DsReqtype.entry req.reqType = some entry) →
      state.HeldBy req.callerId (state.bucketOf (hash req.key))
  quiet : state.isPrimary = false → ∀ bucket, state.lock bucket = none

theorem legal_of_req_ok {state : MapState V} (ok : ReqOk hash state req)
    (present : req.reqType = .del → state.map req.key ≠ none) : Legal hash state (opOf req) := by
  have keyNot : some req.key ≠ some kFtInvalidKey := fun same => ok.keyValid (Option.some.inj same)
  have role := ok.role
  have held := ok.held
  unfold opOf
  cases kind : req.reqType with
  | getRdonly =>
      simp only [kind, DsReqtype.entry, reduceCtorEq, exists_false, or_false] at role
      exact ⟨ok.callerOk, keyNot, ok.few, role⟩
  | getForUpd =>
      simp only [kind, DsReqtype.entry, reduceCtorEq, exists_false, or_false] at role
      exact ⟨ok.callerOk, keyNot, ok.few, role⟩
  | lockForIns =>
      simp only [kind, DsReqtype.entry, reduceCtorEq, exists_false, or_false] at role
      exact ⟨ok.callerOk, keyNot, ok.few, role⟩
  | unlock =>
      simp only [kind, DsReqtype.entry, reduceCtorEq, exists_false, or_false] at role
      refine ⟨ok.callerOk, nofun, ?_, role, ?_⟩
      · rw [Op.keyHash, ok.keyhash]
        exact ok.few
      · rw [ok.keyhash]
        exact held role (Or.inl kind)
  | del =>
      refine ⟨ok.callerOk, keyNot, ok.few, ?_, present kind⟩
      exact fun primary => held primary (Or.inr ⟨none, by rw [kind]; rfl⟩)
  | put val =>
      refine ⟨ok.callerOk, keyNot, ok.few, ?_⟩
      exact fun primary => held primary (Or.inr ⟨some val, by rw [kind]; rfl⟩)

/-- `del` of a key that the table does not have stops at its assertion. -/
theorem handler_del_missing (stale : UInt64) (tableOk : TableOk hash table)
    (ok : ReqOk hash (abstractOf hash table) req) (kind : req.reqType = .del)
    (missing : contents hash table req.key = none) :
    dsFixedtableRpcHandler table req stale = .error (.assertion .keyMissing) := by
  obtain ⟨lists, shape⟩ := tableOk.shaped
  obtain ⟨place, find, _, entry⟩ := lookup_spec shape ok.keyValid
  have nowhere : place = none := by
    rw [missing] at entry
    exact Option.map_eq_none_iff.mp entry.symm
  have passed := assert_holder_pass (fun primary => ok.held primary (Or.inr ⟨none, by rw [kind]; rfl⟩))
  have found := get_bucket_ok shape (hash req.key)
  rw [nowhere] at find
  have search : findItemIndex table (calcBucketIndex table (hash req.key)) req.key = .ok none := find
  simp [dsFixedtableRpcHandler, kind, ok.keyhash, del, found, passed, search, assertion, bind,
    Except.bind]

/-- A request under the discipline runs to its end and has its effect, unless it
is an update that finds no room or a removal that finds no key. -/
theorem handler_effect (tableOk : TableOk hash table)
    (ok : ReqOk hash (abstractOf hash table) req) (stale : UInt64) :
    (∃ resp after, dsFixedtableRpcHandler table req stale = .ok (resp, after) ∧
      TableOk hash after ∧ Effect hash (abstractOf hash table) req resp (abstractOf hash after)) ∨
    (OutOfSpace hash table req ∧ dsFixedtableRpcHandler table req stale =
      .error (if table.isPrimary then .exit else .assertion .bucketNotLocked)) ∨
    (req.reqType = .del ∧ contents hash table req.key = none ∧
      dsFixedtableRpcHandler table req stale = .error (.assertion .keyMissing)) := by
  have keyhash := ok.keyhash
  have refined : (∀ val, req.reqType ≠ .put val) →
      (req.reqType = .del → contents hash table req.key ≠ none) →
        ∃ room, Refines hash table (opOf req) room := by
    intro noPut present
    rcases run_op_refines tableOk (opOf req) (legal_of_req_ok ok present) ok.quiet with
      ⟨room, _, refined⟩ | stopped
    · exact ⟨room, refined⟩
    · obtain ⟨_, _, _, _, isSet, _⟩ := stopped
      unfold opOf at isSet
      split at isSet
      case h_6 val kind => exact absurd kind (noPut val)
      all_goals cases isSet
  cases kind : req.reqType with
  | getRdonly =>
      obtain ⟨room, refined⟩ := refined (by simp [kind]) (by simp [kind])
      simp only [opOf, kind] at refined
      obtain ⟨resp, run, effect⟩ := handler_get stale kind keyhash refined
      exact Or.inl ⟨resp, table, run, tableOk, effect⟩
  | getForUpd =>
      obtain ⟨room, refined⟩ := refined (by simp [kind]) (by simp [kind])
      exact Or.inl (handler_lock stale (Or.inl kind) keyhash refined)
  | lockForIns =>
      obtain ⟨room, refined⟩ := refined (by simp [kind]) (by simp [kind])
      exact Or.inl (handler_lock stale (Or.inr kind) keyhash refined)
  | unlock =>
      obtain ⟨room, refined⟩ := refined (by simp [kind]) (by simp [kind])
      exact Or.inl (handler_unlock stale kind keyhash refined)
  | del =>
      by_cases missing : contents hash table req.key = none
      · exact Or.inr (Or.inr ⟨rfl, missing, handler_del_missing stale tableOk ok kind missing⟩)
      · obtain ⟨room, refined⟩ := refined (by simp [kind]) (fun _ => missing)
        exact Or.inl (handler_del stale kind keyhash refined)
  | put val =>
      have sameOp : opOf req = .set req.callerId req.key val := by simp only [opOf, kind]
      have held := fun primary => ok.held primary (Or.inr ⟨some val, by rw [kind]; rfl⟩)
      rcases set_refines tableOk ok.callerOk ok.keyValid val held with
        refined | ⟨missing, exhausted, outcome⟩
      · rw [← sameOp] at refined
        exact Or.inl (handler_put stale kind keyhash refined)
      · refine Or.inr (Or.inl ⟨⟨⟨val, kind⟩, missing, exhausted⟩, ?_⟩)
        apply handler_put_full stale kind keyhash missing
        rw [sameOp]
        split_ifs with primary
        · rw [if_pos primary] at outcome
          exact outcome
        · rw [if_neg primary] at outcome
          exact outcome (ok.quiet (Bool.eq_false_iff.mpr primary) _)

end

end Fasst.TxHandler

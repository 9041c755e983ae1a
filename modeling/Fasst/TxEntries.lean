import Fasst.TxReplicas

/-!
# What the entries of the tables look like

An application keeps a condition on every entry of its tables, a record type for
instance, and some of its tables are never written. `Discipline` collects such
conditions and what the application promises when it commits. If every item that
is added and every commit keeps to it, all entries satisfy their condition at all
times, and so do all answers to reads; a table without writers is never locked.
-/

namespace Fasst.TxEntries

open List Relation Fasst.FixedTableModel Fasst.FixedTableEdits Fasst.FixedTableLocks
open Fasst.FixedTableSpec Fasst.FixedTableOps Fasst.FixedTableShape Fasst.Outcomes
open Fasst.TxModel Fasst.TxCluster
open Fasst.TxLocal Fasst.TxCalls Fasst.TxHandler Fasst.TxSteps Fasst.TxLocks Fasst.TxInvariant
open Fasst.TxReplicas

set_option autoImplicit false

variable {V : Type}

section ValueSizes

variable {hash : UInt64 → UInt64} {table after : FixedTable V} {req : DsReq V} {resp : Resp V}
  {stale : UInt64}

theorem lock_val_size {caller node : Nat} {taken : Bool}
    (run : lockBucketPtr table caller node = .ok (taken, after)) :
    after.valSize = table.valSize := by
  simp only [lockBucketPtr, check, bind, Except.bind] at run
  split_ifs at run <;> cases run <;> rfl

theorem unlock_val_size {caller node : Nat} (run : unlockBucketPtr table caller node = .ok after) :
    after.valSize = table.valSize := by
  simp only [unlockBucketPtr, check, bind, Except.bind] at run
  split_ifs at run <;> cases run <;> rfl

theorem reaches_val_size {node : Nat} (moves : ReflTransGen (Move hash node) table after) :
    after.valSize = table.valSize := by
  induction moves with
  | refl => rfl
  | tail _ move ih =>
      rw [← ih]
      cases move with
      | lock caller run unchanged => exact lock_val_size run
      | unlock caller run unchanged => exact unlock_val_size run
      | edit locked frame local_ => exact frame.valSize

theorem assertion_bind {Value Next : Type} {first : Except Fault Value}
    {rest : Value → Except Crash Next} {result : Next}
    (run : (assertion first >>= rest) = .ok result) :
    ∃ value, first = .ok value ∧ rest value = .ok result := by
  cases first with
  | error fault => cases run
  | ok value => exact ⟨value, rfl, run⟩

/-- The handler calls one operation of the table, and a value goes out in full. -/
theorem handler_op (keyhash : req.keyhash = hash req.key)
    (run : dsFixedtableRpcHandler table req stale = .ok (resp, after)) :
    (∃ out, runOp hash table (opOf req) = .ok (out, after)) ∧
      (resp.respType = .getRdonlySuccess ∨ resp.respType = .getForUpdSuccess →
        resp.respLen = sizeofHdr + table.valSize) := by
  unfold dsFixedtableRpcHandler at run
  rw [keyhash] at run
  cases kind : req.reqType with
  | getRdonly | getForUpd | lockForIns =>
      simp only [kind, opOf, runOp] at run ⊢
      obtain ⟨out, called, rest⟩ := assertion_bind run
      rw [called]
      split at rest <;> cases rest <;> exact ⟨⟨_, rfl⟩, by simp⟩
  | unlock | del | put val =>
      simp only [kind, opOf, runOp, keyhash] at run ⊢
      obtain ⟨out, called, rest⟩ := assertion_bind run
      rw [called]
      split_ifs at rest
      cases rest
      exact ⟨⟨_, rfl⟩, by simp⟩

theorem handler_val_size (ok : TableOk hash table) (keyhash : req.keyhash = hash req.key)
    (keyValid : req.key ≠ kFtInvalidKey)
    (run : dsFixedtableRpcHandler table req stale = .ok (resp, after)) :
    after.valSize = table.valSize := by
  obtain ⟨⟨out, called⟩, _⟩ := handler_op keyhash run
  obtain ⟨lists, shape⟩ := ok.shaped
  have valid : (opOf req).KeyValid := by
    have keyNot : some req.key ≠ some kFtInvalidKey := fun same => keyValid (Option.some.inj same)
    unfold opOf
    cases req.reqType <;> first | exact keyNot | exact fun same => by cases same
  exact reaches_val_size (ensures_elim (run_op_reaches shape (opOf req) valid) called).2

end ValueSizes

/-- The entries that a transaction has seen, and those it is to leave. -/
structure Footprint (V : Type) where
  seen : List (Loc × Option V)
  wrote : List (Loc × Option V)

def footprint (tx : TxState V) : Footprint V where
  seen := (tx.readSet ++ tx.writeSet).map fun item => (item.loc, item.seen)
  wrote := tx.writeSet.map fun item => (item.loc, entryOf item)

/-- `good` are the entries that a key may have, `written` the request types with
writers. A transaction `keeps` its promise when it commits; what it `learns` is
what it may rely on once it has committed. -/
structure Discipline (V : Type) where
  good : Loc → Option V → Prop
  written : Nat → Prop
  valSize : Nat → Nat
  keeps : Footprint V → Prop
  learns : TxState V → Prop

structure AnswerOk (rules : Discipline V) (req : DsReq V) (resp : Resp V) : Prop where
  value : resp.respType = .getRdonlySuccess ∨ resp.respType = .getForUpdSuccess →
    ∃ value, resp.val = some value ∧ rules.good (DsReq.loc req) (some value) ∧
      resp.respLen = sizeofHdr + rules.valSize req.rpcReqtype
  nothing : resp.respType = .getRdonlyNotFound ∨ resp.respType = .lockForInsSuccess →
    rules.good (DsReq.loc req) none
  busy : resp.respType = .getRdonlyLocked → rules.written req.rpcReqtype

/-- The transaction has called `commit` and may still update the tables. -/
def Applying (tx : TxState V) : Prop :=
  match tx.pc with
  | .validate | .log | .update _ _ => True
  | _ => False

structure LocalEntries (rules : Discipline V) (tx : TxState V) : Prop where
  written : ∀ item ∈ tx.writeSet, rules.written item.rpcReqtype
  pending : Applying tx → ∀ item ∈ tx.writeSet, rules.good item.loc (entryOf item)
  answers : tx.pc = .doRead → ∀ req resp, ⟨.ds req, some resp⟩ ∈ tx.batch →
    AnswerOk rules req resp

structure Entries (rules : Discipline V) (cfg : Config) (state : State V) : Prop where
  good : ∀ loc : Loc, loc.1 % rpcPrimaryDsReqSpacing = 0 →
    rules.good loc (primaryEntry cfg state loc)
  valSize : ∀ machine reqtype, (state.tables machine reqtype).valSize = rules.valSize reqtype
  locals : ∀ coro, LocalEntries rules (state.tx coro)

/-- The part of the application in keeping the discipline. -/
def Disciplined (rules : Discipline V) (tx : TxState V) : Label V → Prop
  | .addToWriteSet _ rpcReqtype _ _ _ _ => rules.written rpcReqtype
  | .commit _ => ∀ item ∈ tx.writeSet, rules.good item.loc (entryOf item)
  | _ => True

section Locals

variable {rules : Discipline V} {cfg : Config} {coro : CoroId} {tx next : TxState V}

theorem not_applying_at_app (at_ : tx.pc = .app) : ¬ Applying tx := by
  unfold Applying
  rw [at_]
  exact id

/-- A transaction that is not reading and not committing has only its write set
to account for. -/
theorem local_quiet (written : ∀ item ∈ next.writeSet, rules.written item.rpcReqtype)
    (at_ : next.pc = .app) : LocalEntries rules next := by
  refine ⟨written, ?_, ?_⟩
  · exact fun applying => absurd applying (not_applying_at_app at_)
  · intro reading
    rw [at_] at reading
    cases reading

theorem local_sends (local_ : LocalEntries rules tx) (sends : Sends tx next)
    (idle : next.pc ≠ .doRead)
    (good : Applying next → ∀ item ∈ tx.writeSet, rules.good item.loc (entryOf item)) :
    LocalEntries rules next := by
  rw [← sends.writeSet] at good
  refine ⟨?_, good, fun reading => absurd reading idle⟩
  rw [sends.writeSet]
  exact local_.written

theorem written_same (local_ : LocalEntries rules tx)
    (same : Forall₂ SameItem tx.writeSet next.writeSet) :
    ∀ item ∈ next.writeSet, rules.written item.rpcReqtype := by
  intro item member
  obtain ⟨before, inside, related⟩ := Aligned.forall₂_mem_right same member
  rw [related.rpcReqtype]
  exact local_.written before inside

theorem update_start_pc (coro : CoroId) (tx : TxState V) (vecs : List (List Nat)) :
    (updateStart coro tx vecs).pc ≠ .doRead := by
  cases vecs <;> exact Pc.noConfusion

theorem commit_start_pc (cfg : Config) (coro : CoroId) (oldWord : Nat) (tx : TxState V) :
    (commitStart cfg coro oldWord tx).pc ≠ .doRead := by
  unfold commitStart
  split_ifs
  · exact Pc.noConfusion
  · exact Pc.noConfusion
  · exact update_start_pc coro tx _

theorem abort_start_quiet (coro : CoroId) (tx : TxState V) :
    (abortStart coro tx).pc ≠ .doRead ∧ ¬ Applying (abortStart coro tx) := by
  simp only [abortStart]
  split_ifs
  · exact ⟨Pc.noConfusion, id⟩
  · exact ⟨Pc.noConfusion, id⟩

theorem local_commit_start (local_ : LocalEntries rules tx) (oldWord : Nat)
    (good : ∀ item ∈ tx.writeSet, rules.good item.loc (entryOf item)) :
    LocalEntries rules (commitStart cfg coro oldWord tx) :=
  local_sends local_ (commit_start_sends cfg coro oldWord tx) (commit_start_pc cfg coro oldWord tx)
    fun _ => good

theorem local_abort_start (local_ : LocalEntries rules tx) :
    LocalEntries rules (abortStart coro tx) :=
  local_sends local_ (abort_start_sends coro tx) (abort_start_quiet coro tx).1
    fun applying => absurd applying (abort_start_quiet coro tx).2

theorem local_call {oldWord : Nat} {label : Label V} (local_ : LocalEntries rules tx)
    (disciplined : Disciplined rules tx label)
    (called : callTx cfg oldWord tx label = some next) : LocalEntries rules next := by
  cases label with
  | start other => cases called
  | addToReadSet other rpcReqtype key objAddr obj =>
      simp only [callTx, Option.ite_none_right_eq_some, Option.some.injEq] at called
      rw [← called.2]
      exact ⟨local_.written, local_.pending, local_.answers⟩
  | addToWriteSet other rpcReqtype key objAddr obj writeMode =>
      simp only [callTx, Option.ite_none_right_eq_some, Option.some.injEq] at called
      rw [← called.2]
      refine local_quiet ?_ called.1.1.1
      intro item member
      rcases mem_append.mp member with old | new
      · exact local_.written item old
      · rw [mem_singleton.mp new]
        exact disciplined
  | writeObj other index valSize val =>
      simp only [callTx, Option.ite_none_right_eq_some, Option.some.injEq] at called
      rw [← called.2]
      refine local_quiet (written_same local_ ?_) called.1.1
      exact Aligned.forall₂_modify index same_item_refl fun _ => ⟨rfl, rfl, rfl, rfl, rfl, rfl⟩
  | doRead other =>
      simp only [callTx, Option.ite_none_right_eq_some, Option.some.injEq] at called
      rw [← called.2]
      refine ⟨local_.written, False.elim, ?_⟩
      intro _ req resp member
      obtain ⟨_, _, same⟩ := mem_map.mp member
      cases same
  | commit other =>
      simp only [callTx, Option.ite_none_right_eq_some, Option.some.injEq] at called
      rw [← called.2]
      unfold commitCall
      split_ifs
      · exact local_commit_start local_ oldWord disciplined
      · exact ⟨local_.written, fun _ => disciplined, fun reading => by cases reading⟩
  | commitSingleRead other =>
      simp only [callTx, Option.ite_none_right_eq_some, Option.some.injEq] at called
      rw [← called.2]
      exact local_quiet local_.written called.1.1
  | abort other =>
      simp only [callTx, Option.ite_none_right_eq_some, Option.some.injEq] at called
      rw [← called.2]
      exact local_abort_start local_
  | abortRdonly other =>
      simp only [callTx, Option.ite_none_right_eq_some, Option.some.injEq] at called
      rw [← called.2]
      exact local_quiet local_.written called.1.1
  | handle other index stale => cases called
  | resume other => cases called

theorem local_resume {oldWord : Nat} (local_ : LocalEntries rules tx) (waiting : tx.pc ≠ .app)
    (moved : LocalMove cfg coro oldWord tx next) : LocalEntries rules next := by
  cases moved with
  | addRead _ _ _ _ ok | addWrite _ _ _ _ _ ok _ => exact absurd ok.1 waiting
  | writeObj _ _ _ at_ _ | doRead at_ _ | commit at_ _ _ _ | validate at_ _ _
  | singleRead at_ _ _ _ _ | abort at_ _ _ | abortRdonly at_ _ _ => exact absurd at_ waiting
  | readDone readResps writeResps at_ answers readAligned writeAligned =>
      exact local_quiet (written_same local_ (read_state_same readAligned writeAligned).2) rfl
  | validated responses at_ aligned =>
      have good := local_.pending (by simp only [Applying, at_])
      have checked : LocalEntries rules (checkedState tx responses) :=
        ⟨local_.written, local_.pending, local_.answers⟩
      exact local_commit_start checked oldWord good
  | refused responses at_ sameLength =>
      have checked : LocalEntries rules (checkedState tx responses) :=
        ⟨local_.written, local_.pending, local_.answers⟩
      exact local_abort_start checked
  | abortDone at_ complete => exact local_quiet local_.written rfl
  | logDone at_ complete =>
      exact local_sends local_ (update_start_sends coro tx _) (update_start_pc coro tx _)
        fun _ => local_.pending (by simp only [Applying, at_])
  | updateDone vec rest at_ complete =>
      exact local_sends local_ (update_start_sends coro tx _) (update_start_pc coro tx _)
        fun _ => local_.pending (by simp only [Applying, at_])

theorem local_respond (local_ : LocalEntries rules tx) (index : Nat) (req : Request V)
    (resp : Resp V)
    (answer : tx.pc = .doRead → ∀ ds, req = .ds ds → AnswerOk rules ds resp) :
    LocalEntries rules (tx.respond index req resp) := by
  refine ⟨local_.written, local_.pending, ?_⟩
  intro reading ds given member
  rcases mem_or_eq_of_mem_set member with old | new
  · exact local_.answers reading ds given old
  · cases new
    exact answer reading ds rfl

end Locals

section Answers

variable {rules : Discipline V} {cfg : Config} {sizes : Nat → Nat → Nat} {state next : State V}
  {coro : CoroId} {index : Nat} {req : DsReq V} {resp : Resp V} {table : FixedTable V}
  {stale : UInt64}

/-- Whoever holds a lock has an item of that table in its write set. -/
theorem locked_table_written (cluster : ClusterInv cfg sizes state)
    (entries : Entries rules cfg state) {machine reqtype bucket owner count : Nat}
    (lock : (mapAt cfg state machine reqtype).lock bucket = some (owner, count)) :
    rules.written reqtype := by
  have locked := cluster.locks ⟨machine, reqtype, bucket⟩
  have wf := (cluster.tableOk machine reqtype).locks bucket
  have held : lockOf ((state.tables machine reqtype).buckets bucket) = some (owner, count) := lock
  simp only [LockedBy, held] at locked
  simp only [LockWf, held] at wf
  obtain ⟨holder, _, _, total, _⟩ := locked
  have positive : 0 < lockCount cfg sizes (state.tx holder) ⟨machine, reqtype, bucket⟩ := by
    rw [← total]
    exact wf.2.1
  obtain ⟨loc, member, here⟩ := countP_pos_iff.mp positive
  obtain ⟨item, inside, same⟩ := mem_map.mp member
  have placed := of_decide_eq_true (Bool.and_eq_true_iff.mp here).2
  have type : item.rpcReqtype = reqtype := by
    have first : (placeOf cfg sizes loc).reqtype = reqtype := by rw [placed]
    rw [← first, ← same]
    rfl
  rw [← type]
  exact (entries.locals holder).written item inside

/-- A request about an item finds the entry of its key at the primary. -/
theorem entry_at_primary (state : State V) {item : RwsetItem V} (ok : ItemOk cfg item) {reqType : DsReqtype V}
    (same : .ds req = genericGetReq coro reqType item) :
    (mapAt cfg state req.machine req.rpcReqtype).map req.key =
        primaryEntry cfg state (DsReq.loc req) ∧
      req.rpcReqtype % rpcPrimaryDsReqSpacing = 0 := by
  rw [ds_of_generic same]
  constructor
  · rw [primaryEntry, DsReq.loc, primaryOf, ok.primaryMn]
  · exact ok.spacing

theorem answer_ok (cluster : ClusterInv cfg sizes state) (entries : Entries rules cfg state)
    (valid : cfg.Valid coro) (reading : (state.tx coro).pc = .doRead)
    (found : (state.tx coro).batch[index]? = some ⟨.ds req, none⟩)
    (run : dsFixedtableRpcHandler (state.tables req.machine req.rpcReqtype) req stale =
      .ok (resp, table)) : AnswerOk rules req resp := by
  obtain ⟨_, effect⟩ := ds_run cluster valid found run
  obtain ⟨item, reqType, ok, same⟩ : ∃ (item : RwsetItem V) (reqType : DsReqtype V),
      ItemOk cfg item ∧ .ds req = genericGetReq coro reqType item := by
    cases open_slot (cluster.txInv coro) found rfl with
    | read item member same at_ => exact ⟨item, _, (cluster.txInv coro).readOk item member, same⟩
    | lock item member same at_ => exact ⟨item, _, (cluster.txInv coro).writeOk item member, same⟩
    | unlock item member same at_ => rw [reading] at at_; cases at_
    | update replI item member same vec rest at_ => rw [reading] at at_; cases at_
    | log backI record bound same at_ => cases same
  obtain ⟨entry, spacing⟩ := entry_at_primary state ok same
  have good := entries.good (DsReq.loc req) spacing
  rw [← entry] at good
  have keyhash : req.keyhash = dsKeyhash cfg req.key := (open_req_ok cluster valid found).keyhash
  have length := (handler_op keyhash run).2
  rw [entries.valSize] at length
  generalize abstractOf (dsKeyhash cfg) table = after at effect
  cases effect with
  | found value kind free stored type hdr val =>
      rw [stored] at good
      exact ⟨fun _ => ⟨value, val, good, length (Or.inl type)⟩, by simp [type], by simp [type]⟩
  | absent hdr kind free stored type header exact_ val =>
      rw [stored] at good
      exact ⟨by simp [type], fun _ => good, by simp [type]⟩
  | readLocked kind held type =>
      obtain ⟨owner, count, lock, _⟩ := held
      exact ⟨by simp [type], by simp [type], fun _ => locked_table_written cluster entries lock⟩
  | refused held kind =>
      rcases kind with ⟨_, type⟩ | ⟨_, type⟩ <;> exact ⟨by simp [type], by simp [type], by simp [type]⟩
  | missed free kind =>
      rcases kind with ⟨_, type⟩ | ⟨_, type⟩ <;> exact ⟨by simp [type], by simp [type], by simp [type]⟩
  | lockedUpd value kind free stored type val =>
      rw [stored] at good
      exact ⟨fun _ => ⟨value, val, good, length (Or.inr type)⟩, by simp [type], by simp [type]⟩
  | lockedIns kind free stored type =>
      rw [stored] at good
      exact ⟨by simp [type], fun _ => good, by simp [type]⟩
  | unlocked kind type => exact ⟨by simp [type], by simp [type], by simp [type]⟩
  | stored left kind respOk =>
      cases update : req.reqType with
      | put val =>
          simp only [RespOk, update] at respOk
          exact ⟨by simp [respOk], by simp [respOk], by simp [respOk]⟩
      | del =>
          simp only [RespOk, update] at respOk
          exact ⟨by simp [respOk], by simp [respOk], by simp [respOk]⟩
      | _ => simp [update, DsReqtype.entry] at kind

theorem generic_not_update {reqType : DsReqtype V} (reads : DsReqtype.entry reqType = none)
    {item other : RwsetItem V} {replI : Nat} :
    genericGetReq coro reqType item ≠ updateReq coro replI other := by
  intro same
  have kind : DsReqtype.entry reqType = some (entryOf other) :=
    (congrArg (fun given => DsReqtype.entry given.reqType) (Request.ds.inj same)).trans
      (entry_of_update other)
  rw [reads] at kind
  cases kind

/-- What a datastore request leaves in the primary tables. -/
theorem ds_good (cluster : ClusterInv cfg sizes state) (entries : Entries rules cfg state)
    (valid : cfg.Valid coro) (found : (state.tx coro).batch[index]? = some ⟨.ds req, none⟩)
    (run : dsFixedtableRpcHandler (state.tables req.machine req.rpcReqtype) req stale =
      .ok (resp, table)) {loc : Loc} (spacing : loc.1 % rpcPrimaryDsReqSpacing = 0) :
    rules.good loc (primaryEntry cfg (dsState state coro index req resp table) loc) := by
  have case_ := ds_case cluster found (ds_run cluster valid found run).2
  have unchanged : (abstractOf (dsKeyhash cfg) table).map =
        (mapAt cfg state req.machine req.rpcReqtype).map →
      rules.good loc (primaryEntry cfg (dsState state coro index req resp table) loc) := by
    intro same
    rw [primaryEntry, map_at_ds_state]
    split_ifs with here
    · rw [same, ← here.1, ← here.2]
      exact entries.good loc spacing
    · exact entries.good loc spacing
  rcases ds_case_map case_ with same | ⟨replI, item, member, same, bound, held, fresh, now⟩
  · exact unchanged same
  · rw [primary_entry_update ((cluster.txInv coro).writeOk item member) bound same now spacing]
    split_ifs with here
    · have applying : Applying (state.tx coro) := by
        cases open_slot (cluster.txInv coro) found rfl with
        | update _ _ _ _ vec rest at_ => simp only [Applying, at_]
        | read _ _ other _ => exact absurd (other.symm.trans same) (generic_not_update rfl)
        | lock _ _ other _ =>
            refine absurd (other.symm.trans same) (generic_not_update ?_)
            split_ifs <;> rfl
        | unlock _ _ other _ => exact absurd (other.symm.trans same) (generic_not_update rfl)
        | log _ _ _ other => cases other
      rw [here.2]
      exact (entries.locals coro).pending applying item member
    · exact entries.good loc spacing

theorem ds_entries (cluster : ClusterInv cfg sizes state) (entries : Entries rules cfg state)
    (valid : cfg.Valid coro) (found : (state.tx coro).batch[index]? = some ⟨.ds req, none⟩)
    (run : dsFixedtableRpcHandler (state.tables req.machine req.rpcReqtype) req stale =
      .ok (resp, table)) : Entries rules cfg (dsState state coro index req resp table) := by
  have reqOk := open_req_ok cluster valid found
  constructor
  · exact fun loc spacing => ds_good cluster entries valid found run spacing
  · intro machine reqtype
    unfold dsState
    rw [tables_set_tx, tables_set_table]
    split_ifs with here
    · rw [handler_val_size (cluster.tableOk _ _) reqOk.keyhash reqOk.keyValid run, here.2]
      exact entries.valSize _ _
    · exact entries.valSize _ _
  · intro other
    rw [tx_ds_state]
    split_ifs with mine
    · refine local_respond (entries.locals coro) index _ resp ?_
      intro reading ds same
      cases same
      exact answer_ok cluster entries valid reading found run
    · exact entries.locals other

theorem quiet_entries (entries : Entries rules cfg state) (mover : CoroId)
    (tables : next.tables = state.tables)
    (others : ∀ other, other ≠ mover → next.tx other = state.tx other)
    (own : LocalEntries rules (next.tx mover)) : Entries rules cfg next := by
  constructor
  · intro loc spacing
    rw [primaryEntry, mapAt, tables]
    exact entries.good loc spacing
  · intro machine reqtype
    rw [tables]
    exact entries.valSize machine reqtype
  · intro other
    by_cases mine : other = mover
    · rw [mine]
      exact own
    · rw [others other mine]
      exact entries.locals other

theorem move_entries (entries : Entries rules cfg state) {tx : TxState V}
    (own : LocalEntries rules tx) :
    Entries rules cfg ((state.stage cfg coro tx).setTx coro tx) := by
  refine quiet_entries entries coro ?_ ?_ ?_
  · rw [tables_set_tx, tables_stage]
  · intro other different
    rw [tx_set_tx, if_neg different, tx_stage]
  · rw [tx_set_tx_self]
    exact own

/-- One step of the swarm, if its label is a disciplined one. -/
theorem step_entries {label : Label V} (cluster : ClusterInv cfg sizes state)
    (entries : Entries rules cfg state)
    (disciplined : Disciplined rules (state.tx label.coro) label)
    (ran : step cfg state label = some (.ok next)) : Entries rules cfg next := by
  have valid := (step_cases (cluster.txInv label.coro) ran).1
  by_cases call : isCall label = true
  · rw [step_call state valid call] at ran
    obtain ⟨after, run, same⟩ := Option.map_eq_some_iff.mp ran
    rw [← Except.ok.inj same]
    unfold callStep at run
    obtain ⟨tx, called, result⟩ := Option.bind_eq_some_iff.mp run
    rw [← Option.some.inj result]
    exact move_entries entries (local_call (entries.locals label.coro) disciplined called)
  · unfold step at ran
    rw [if_pos valid] at ran
    cases label with
    | start coro =>
        obtain ⟨after, run, same⟩ := Option.map_eq_some_iff.mp ran
        obtain ⟨_, _, result⟩ := start_cases run
        rw [← Except.ok.inj same, result]
        refine quiet_entries entries coro rfl ?_ ?_
        · intro other different
          rw [tx_start_state, if_neg different]
        · rw [tx_start_state, if_pos rfl]
          exact local_quiet (fun _ member => by cases member) rfl
    | handle coro index stale =>
        rcases handle_cases ran with ⟨req, resp, table, found, run, outcome⟩ |
          ⟨req, crash, found, run, outcome⟩ | ⟨machine, wrkrLid, record, found, outcome⟩
        · rw [Except.ok.inj outcome]
          exact ds_entries cluster entries valid found run
        · cases outcome
        · rw [Except.ok.inj outcome]
          refine quiet_entries entries coro rfl ?_ ?_
          · intro other different
            unfold logState
            rw [tx_set_tx, if_neg different]
            rfl
          · unfold logState
            rw [tx_set_tx_self]
            exact local_respond (entries.locals coro) index _ _ fun _ _ same => by cases same
    | resume coro =>
        simp only [resumeStep, Option.ite_none_right_eq_some] at ran
        obtain ⟨⟨waiting, complete⟩, ran⟩ := ran
        obtain ⟨tx, run, moved⟩ :=
          resume_move (cluster.txInv coro) waiting complete (state.oldWord cfg coro)
        rw [run] at ran
        rw [← Except.ok.inj (Option.some.inj ran)]
        exact move_entries entries (local_resume (entries.locals coro) waiting moved)
    | _ => exact absurd rfl call

end Answers

end Fasst.TxEntries

import Fasst.TxEntries
import Fasst.TxSerial

/-!
# Tables without writers

A table that no transaction has in its write set stays as it was: it is never
locked, and no version of it changes. Whatever was read there is found again, so
that `validate` can refuse a transaction only because of an item of another table.
-/

namespace Fasst.TxReadOnly

open List Fasst.FixedTableModel Fasst.FixedTableSpec Fasst.TxModel Fasst.TxCluster Fasst.TxLocal
open Fasst.TxCalls Fasst.TxHandler Fasst.TxSteps Fasst.TxLocks Fasst.TxInvariant Fasst.TxReplicas
open Fasst.TxEntries Fasst.TxSerial

set_option autoImplicit false

variable {V : Type}

section Rules

variable (rules : Discipline V) (cfg : Config) (init : State V)

def homeOf (item : RwsetItem V) : MapState V := mapAt cfg init item.primaryMn item.rpcReqtype

def homeWord (item : RwsetItem V) : UInt64 :=
  (homeOf cfg init item).word ((homeOf cfg init item).bucketOf (dsKeyhash cfg item.key))

/-- The item was read from the table as it was in the beginning. -/
structure Matches (item : RwsetItem V) : Prop where
  exists_ : item.execRsExists = ((homeOf cfg init item).map item.key).isSome
  version : item.execRsVersion = versionOf (homeWord cfg init item)

structure Answers (item : RwsetItem V) (resp : Resp V) : Prop where
  type : resp.respType = if ((homeOf cfg init item).map item.key).isSome then .getRdonlySuccess
    else .getRdonlyNotFound
  hdr : resp.hdr = some (homeWord cfg init item)

structure Unchanging (coro : CoroId) (tx : TxState V) : Prop where
  items : ∀ item ∈ tx.readSet.take tx.rsIndex, ¬ rules.written item.rpcReqtype →
    Matches cfg init item
  answers : tx.pc = .doRead ∨ tx.pc = .validate → ∀ item ∈ tx.readSet, ∀ resp,
    (⟨readReq coro item, some resp⟩ : ReqSlot V) ∈ tx.batch → ¬ rules.written item.rpcReqtype →
      Answers cfg init item resp

structure ReadOnly (state : State V) : Prop where
  tables : ∀ machine reqtype, reqtype % rpcPrimaryDsReqSpacing = 0 → ¬ rules.written reqtype →
    mapAt cfg state machine reqtype = mapAt cfg init machine reqtype
  locals : ∀ coro, Unchanging rules cfg init coro (state.tx coro)

end Rules

section Locals

variable {rules : Discipline V} {cfg : Config} {init : State V} {coro : CoroId}
  {tx next : TxState V}

theorem home_same {item now : RwsetItem V} (same : SameItem item now) :
    homeOf cfg init now = homeOf cfg init item ∧
      homeWord cfg init now = homeWord cfg init item := by
  have home : homeOf cfg init now = homeOf cfg init item := by
    rw [homeOf, homeOf, same.primaryMn, same.rpcReqtype]
  exact ⟨home, by rw [homeWord, homeWord, home, same.key]⟩

theorem matches_same {item now : RwsetItem V} (same : SameItem item now)
    (exists_ : now.execRsExists = item.execRsExists)
    (version : now.execRsVersion = item.execRsVersion) (old : Matches cfg init item) :
    Matches cfg init now := by
  obtain ⟨home, word⟩ := home_same same
  exact ⟨by rw [exists_, old.exists_, home, same.key], by rw [version, old.version, word]⟩

/-- The first read of an item. -/
theorem matches_read {item : RwsetItem V} {resp : Resp V} (answers : Answers cfg init item resp) :
    Matches cfg init (readResponse item resp).1 := by
  have type := answers.type
  have same := read_response_same item resp
  obtain ⟨home, word⟩ := home_same same
  have result : (readResponse item resp).1.execRsExists =
        ((homeOf cfg init item).map item.key).isSome ∧
      (readResponse item resp).1.execRsVersion = versionOf (homeWord cfg init item) := by
    cases found : ((homeOf cfg init item).map item.key).isSome with
    | true =>
        rw [found, if_pos rfl] at type
        simp only [readResponse, type, RwsetItem.deliver, answers.hdr, Option.getD_some, and_self]
    | false =>
        rw [found, if_neg Bool.false_ne_true] at type
        simp only [readResponse, type, RwsetItem.deliver, answers.hdr, Option.getD_some, and_self]
  exact ⟨by rw [result.1, home, same.key], by rw [result.2, word]⟩

/-- The second read of an item passes. -/
theorem validate_matches {item : RwsetItem V} {resp : Resp V} (matched : Matches cfg init item)
    (answers : Answers cfg init item resp) : validateResponse item resp = true := by
  simp only [validateResponse, matched.exists_, matched.version, answers.type, RwsetItem.deliver,
    answers.hdr, Option.getD_some, and_self, decide_true]

theorem unchanging_sends (items : ∀ item ∈ tx.readSet.take tx.rsIndex,
    ¬ rules.written item.rpcReqtype → Matches cfg init item) (sends : Sends tx next) :
    Unchanging rules cfg init coro next := by
  constructor
  · rw [sends.readSet, sends.rsIndex]
    exact items
  · intro _ item _ resp member
    have fresh := sends.fresh _ member
    cases fresh

theorem unchanging_quiet (unchanging : Unchanging rules cfg init coro tx)
    (reads : next.readSet = tx.readSet) (index : next.rsIndex = tx.rsIndex)
    (batch : next.batch = []) : Unchanging rules cfg init coro next := by
  constructor
  · rw [reads, index]
    exact unchanging.items
  · intro _ item _ resp member
    rw [batch] at member
    cases member

theorem empty_at_app (inv : TxInv cfg coro tx) (at_ : tx.pc = .app) : tx.batch = [] := by
  have stage := inv.stage
  simp only [StageInv, at_] at stage
  exact stage.1

/-- What `validate` leaves of the read set. -/
theorem checked_items {responses : List (Resp V)} (sameLength : tx.readSet.length = responses.length)
    (unchanging : Unchanging rules cfg init coro tx) :
    ∀ item ∈ (checkedState tx responses).readSet.take (checkedState tx responses).rsIndex,
      ¬ rules.written item.rpcReqtype → Matches cfg init item := by
  intro now member writers
  have related : Forall₂ (fun item (now : RwsetItem V) => SameItem item now ∧
      now.execRsExists = item.execRsExists ∧ now.execRsVersion = item.execRsVersion)
      tx.readSet (checkedState tx responses).readSet :=
    Aligned.forall₂_zipWith (Aligned.forall₂_of_length_eq sameLength)
      fun _ _ _ => ⟨⟨rfl, rfl, rfl, rfl, rfl, rfl⟩, rfl, rfl⟩
  obtain ⟨item, inside, same, exists_, version⟩ :=
    Aligned.forall₂_mem_right (forall₂_take tx.rsIndex related) member
  exact matches_same same exists_ version
    (unchanging.items item inside (by rw [← same.rpcReqtype]; exact writers))

theorem move_unchanging {oldWord : Nat} (inv : TxInv cfg coro tx)
    (unchanging : Unchanging rules cfg init coro tx)
    (moved : LocalMove cfg coro oldWord tx next) : Unchanging rules cfg init coro next := by
  cases moved with
  | addRead rpcReqtype key objAddr obj ok =>
      constructor
      · intro item member
        rw [take_append_of_le_length inv.rsBound] at member
        exact unchanging.items item member
      · rintro (reading | reading) <;> rw [show _ = Pc.app from ok.1] at reading <;> cases reading
  | addWrite rpcReqtype key objAddr obj writeMode ok mode =>
      have empty := empty_at_app inv ok.1
      exact unchanging_quiet unchanging rfl rfl empty
  | writeObj index valSize val at_ running =>
      have empty := empty_at_app inv at_
      exact unchanging_quiet unchanging rfl rfl empty
  | doRead at_ running =>
      exact unchanging_sends unchanging.items ⟨rfl, rfl, rfl, rfl, rfl, send_fresh tx _ _⟩
  | commit at_ running allRead noReads =>
      exact unchanging_sends unchanging.items (commit_start_sends cfg coro oldWord tx)
  | validate at_ running allRead =>
      exact unchanging_sends unchanging.items ⟨rfl, rfl, rfl, rfl, rfl, send_fresh tx _ _⟩
  | singleRead at_ running allRead one noWrites =>
      have empty := empty_at_app inv at_
      exact unchanging_quiet unchanging rfl rfl empty
  | abort at_ status allRead => exact unchanging_sends unchanging.items (abort_start_sends coro tx)
  | abortRdonly at_ status noWrites =>
      have empty := empty_at_app inv at_
      exact unchanging_quiet unchanging rfl rfl empty
  | readDone readResps writeResps at_ answers readAligned writeAligned =>
      refine ⟨?_, fun reading => by rcases reading with other | other <;> cases other⟩
      intro now member writers
      have inside : now ∈ tx.readSet.take tx.rsIndex ++
          (zipWith readResponse (tx.readSet.drop tx.rsIndex) readResps).map Prod.fst :=
        mem_of_mem_take member
      rcases mem_append.mp inside with old | new
      · exact unchanging.items now old writers
      · rw [map_zipWith] at new
        have results : Forall₂ (fun item (now : RwsetItem V) => item ∈ tx.readSet →
            ¬ rules.written now.rpcReqtype → Matches cfg init now) (tx.readSet.drop tx.rsIndex)
            (zipWith (fun item resp => (readResponse item resp).1) (tx.readSet.drop tx.rsIndex)
              readResps) := by
          refine Aligned.forall₂_zipWith readAligned ?_
          intro item resp slot member writers
          rw [(read_response_same item resp).rpcReqtype] at writers
          exact matches_read (unchanging.answers (Or.inl at_) item member resp slot writers)
        obtain ⟨item, member, fact⟩ := Aligned.forall₂_mem_right results new
        exact fact (mem_of_mem_drop member) writers
  | validated responses at_ aligned =>
      exact unchanging_sends (checked_items aligned.length_eq unchanging)
        (commit_start_sends cfg coro oldWord _)
  | refused responses at_ sameLength =>
      exact unchanging_sends (checked_items sameLength unchanging) (abort_start_sends coro _)
  | abortDone at_ complete => exact unchanging_quiet unchanging rfl rfl rfl
  | logDone at_ complete => exact unchanging_sends unchanging.items (update_start_sends coro tx _)
  | updateDone vec rest at_ complete =>
      exact unchanging_sends unchanging.items (update_start_sends coro tx _)

theorem commit_start_not_aborted (cfg : Config) (coro : CoroId) (oldWord : Nat)
    (running : tx.status = .inProgress) : (commitStart cfg coro oldWord tx).status ≠ .aborted := by
  have still : tx.status ≠ .aborted := by
    rw [running]
    exact TxStatus.noConfusion
  unfold commitStart
  split_ifs
  · exact TxStatus.noConfusion
  · exact still
  · cases backupVecs cfg tx.writeSet.length with
    | nil => exact still
    | cons vec rest => exact still

/-- `validate` refuses only transactions with an item of a table that is written. -/
theorem refused_reason {oldWord : Nat} (inv : TxInv cfg coro tx)
    (unchanging : Unchanging rules cfg init coro tx) (at_ : tx.pc = .validate)
    (complete : (tx.batch.filterMap ReqSlot.resp).length = tx.batch.length)
    (run : resumeTx cfg coro oldWord tx (tx.batch.filterMap ReqSlot.resp) = .ok next)
    (aborted : next.status = .aborted) : ∃ item ∈ tx.readSet, rules.written item.rpcReqtype := by
  have stage := inv.stage
  simp only [StageInv, at_] at stage
  obtain ⟨running, _, _, allRead, _, readSlots⟩ := stage
  by_contra quiet
  have passes : validate tx.readSet (tx.batch.filterMap ReqSlot.resp) = true := by
    have listed := Aligned.forall₂_imp_mem readSlots
      (fun item inside slot member same =>
        And.intro inside (And.intro (show slot.req = _ from same) member))
    have aligned : Forall₂ (fun item resp => validateResponse item resp = true) tx.readSet
        (tx.batch.filterMap ReqSlot.resp) := by
      refine Aligned.forall₂_trans listed
        (Aligned.filterMap_full ReqSlot.resp tx.batch complete) ?_
      rintro item ⟨req, resp⟩ value ⟨inside, same, member⟩ answered
      rw [show req = _ from same, show resp = _ from answered] at member
      have writers : ¬ rules.written item.rpcReqtype := fun written => quiet ⟨item, inside, written⟩
      have read : item ∈ tx.readSet.take tx.rsIndex := by
        rw [allRead.1, take_length]
        exact inside
      exact validate_matches (unchanging.items item read writers)
        (unchanging.answers (Or.inr at_) item inside value member writers)
    rw [validate, all_eq_true]
    intro flag member
    have flags : Forall₂ (fun (_ : RwsetItem V) (flag : Bool) => flag = true) tx.readSet
        (zipWith validateResponse tx.readSet (tx.batch.filterMap ReqSlot.resp)) :=
      Aligned.forall₂_zipWith aligned fun _ _ passed => passed
    obtain ⟨_, _, set⟩ := Aligned.forall₂_mem_right flags member
    exact set
  simp only [resumeTx, at_, validateFinish, passes, if_true, Except.ok.injEq] at run
  rw [← run] at aborted
  refine commit_start_not_aborted cfg coro oldWord ?_ aborted
  exact running

end Locals

section Steps

variable {rules : Discipline V} {cfg : Config} {sizes : Nat → Nat → Nat} {init state next : State V}
  {coro : CoroId} {index : Nat} {req : DsReq V} {resp : Resp V} {table : FixedTable V}
  {stale : UInt64}

/-- A read of a table without locks: the answer, and no change. -/
theorem read_effect {before after : MapState V} {item : RwsetItem V}
    (same : .ds req = readReq coro item) (free : ∀ bucket, before.lock bucket = none)
    (effect : Effect (dsKeyhash cfg) before req resp after) :
    after = before ∧
      resp.respType = (if (before.map item.key).isSome then .getRdonlySuccess
        else .getRdonlyNotFound) ∧
      resp.hdr = some (before.word (before.bucketOf (dsKeyhash cfg item.key))) := by
  have shape := ds_of_generic same
  have kind : req.reqType = .getRdonly := by rw [shape]
  have key : req.key = item.key := by rw [shape]
  have unheld : ∀ caller bucket, ¬ before.HeldByOther caller bucket := by
    rintro caller bucket ⟨owner, count, lock, _⟩
    rw [free bucket] at lock
    cases lock
  rw [← key]
  cases effect with
  | found value _ _ entry type hdr _ => exact ⟨rfl, by rw [type, entry]; rfl, hdr⟩
  | absent hdr _ _ entry type header exact_ _ =>
      exact ⟨rfl, by rw [type, entry]; rfl, by rw [header, exact_ (free _)]⟩
  | readLocked _ held _ => exact absurd held (unheld _ _)
  | refused held _ => exact absurd held (unheld _ _)
  | missed _ other =>
      rcases other with ⟨other, _⟩ | ⟨other, _⟩ <;> rw [kind] at other <;> cases other
  | lockedUpd _ other | lockedIns other | unlocked other =>
      rw [kind] at other
      cases other
  | stored _ other =>
      rw [kind] at other
      cases other

theorem unwritten_free (cluster : ClusterInv cfg sizes state) (entries : Entries rules cfg state)
    {machine reqtype : Nat} (writers : ¬ rules.written reqtype) (bucket : Nat) :
    (mapAt cfg state machine reqtype).lock bucket = none := by
  cases lock : (mapAt cfg state machine reqtype).lock bucket with
  | none => rfl
  | some entry => exact absurd (locked_table_written cluster entries lock) writers

/-- The requests to a table without writers are reads. -/
theorem unwritten_read (cluster : ClusterInv cfg sizes state) (entries : Entries rules cfg state)
    (found : (state.tx coro).batch[index]? = some ⟨.ds req, none⟩)
    (spacing : req.rpcReqtype % rpcPrimaryDsReqSpacing = 0)
    (writers : ¬ rules.written req.rpcReqtype) :
    ∃ item ∈ (state.tx coro).readSet, .ds req = readReq coro item ∧
      ((state.tx coro).pc = .doRead ∨ (state.tx coro).pc = .validate) := by
  have written := (entries.locals coro).written
  cases open_slot (cluster.txInv coro) found rfl with
  | read item member same at_ => exact ⟨item, member, same, at_⟩
  | lock item member same _ =>
      rw [ds_of_generic same] at writers
      exact absurd (written item member) writers
  | unlock item member same _ =>
      rw [ds_of_generic same] at writers
      exact absurd (written item member) writers
  | update replI item member same vec rest at_ inside bound =>
      have ok := (cluster.txInv coro).writeOk item member
      have type : req.rpcReqtype = replicaReqtype item.rpcReqtype replI :=
        congrArg DsReq.rpcReqtype (Request.ds.inj same)
      have small := ok.small
      have itemSpacing := ok.spacing
      have backups := cfg.mappings.backupsBound
      simp only [replicaReqtype, rpcPrimaryDsReqSpacing, Placement.hotsMaxBackups] at *
      have sum : item.rpcReqtype + replI < 2 ^ 8 := by omega
      rw [Nat.mod_eq_of_lt sum] at type
      have primary : req.rpcReqtype = item.rpcReqtype := by omega
      rw [primary] at writers
      exact absurd (written item member) writers
  | log backI record bound same _ => cases same

theorem ds_read_only (cluster : ClusterInv cfg sizes state) (entries : Entries rules cfg state)
    (readOnly : ReadOnly rules cfg init state) (valid : cfg.Valid coro)
    (found : (state.tx coro).batch[index]? = some ⟨.ds req, none⟩)
    (run : dsFixedtableRpcHandler (state.tables req.machine req.rpcReqtype) req stale =
      .ok (resp, table)) :
    ReadOnly rules cfg init (dsState state coro index req resp table) := by
  have effect := (ds_run cluster valid found run).2
  constructor
  · intro machine reqtype spacing writers
    rw [map_at_ds_state]
    split_ifs with here
    · rw [here.2] at spacing writers
      obtain ⟨item, _, same, _⟩ := unwritten_read cluster entries found spacing writers
      rw [(read_effect same (unwritten_free cluster entries writers) effect).1,
        readOnly.tables _ _ spacing writers, here.1, here.2]
    · exact readOnly.tables machine reqtype spacing writers
  · intro other
    rw [tx_ds_state]
    split_ifs with mine
    · subst mine
      have unchanging := readOnly.locals other
      refine ⟨unchanging.items, ?_⟩
      intro reading item member answer slot writers
      rcases mem_or_eq_of_mem_set slot with old | new
      · exact unchanging.answers reading item member answer old writers
      · obtain ⟨sent, answered⟩ := ReqSlot.mk.inj new
        obtain rfl := Option.some.inj answered
        have shape := ds_of_generic sent.symm
        have ok := (cluster.txInv other).readOk item member
        have home : mapAt cfg state req.machine req.rpcReqtype = homeOf cfg init item := by
          rw [shape]
          exact readOnly.tables _ _ ok.spacing writers
        have served : ¬ rules.written req.rpcReqtype := by
          rw [shape]
          exact writers
        obtain ⟨_, type, hdr⟩ :=
          read_effect sent.symm (unwritten_free cluster entries served) effect
        rw [home] at type hdr
        exact ⟨type, hdr⟩
    · exact readOnly.locals other

theorem quiet_read_only (readOnly : ReadOnly rules cfg init state) (mover : CoroId)
    (tables : next.tables = state.tables)
    (others : ∀ other, other ≠ mover → next.tx other = state.tx other)
    (own : Unchanging rules cfg init mover (next.tx mover)) : ReadOnly rules cfg init next := by
  constructor
  · intro machine reqtype
    rw [mapAt, tables]
    exact readOnly.tables machine reqtype
  · intro other
    by_cases mine : other = mover
    · rw [mine]
      exact own
    · rw [others other mine]
      exact readOnly.locals other

/-- One step of the swarm. -/
theorem step_read_only {label : Label V} (cluster : ClusterInv cfg sizes state)
    (entries : Entries rules cfg state) (readOnly : ReadOnly rules cfg init state)
    (ran : step cfg state label = some (.ok next)) : ReadOnly rules cfg init next := by
  obtain ⟨valid, case_⟩ := step_cases (cluster.txInv label.coro) ran
  cases case_ with
  | start at_ ended =>
      refine quiet_read_only readOnly label.coro rfl ?_ ?_
      · intro other different
        rw [tx_start_state, if_neg different]
      · rw [tx_start_state, if_pos rfl]
        exact ⟨fun _ member => (by cases member), fun _ _ member => (by cases member)⟩
  | move tx moved =>
      refine quiet_read_only readOnly label.coro ?_ ?_ ?_
      · rw [tables_set_tx, tables_stage]
      · intro other different
        rw [tx_set_tx, if_neg different, tx_stage]
      · rw [tx_set_tx_self]
        exact move_unchanging (cluster.txInv _) (readOnly.locals _) moved
  | ds index req stale resp table found run =>
      exact ds_read_only cluster entries readOnly valid found run
  | log index machine wrkrLid record found =>
      refine quiet_read_only readOnly label.coro rfl ?_ ?_
      · intro other different
        unfold logState
        rw [tx_set_tx, if_neg different]
        rfl
      · unfold logState
        rw [tx_set_tx_self]
        have unchanging := readOnly.locals label.coro
        refine ⟨unchanging.items, ?_⟩
        intro reading item member answer slot
        rcases mem_or_eq_of_mem_set slot with old | new
        · exact unchanging.answers reading item member answer old
        · cases new

theorem initial_read_only (initial : Initial cfg init) : ReadOnly rules cfg init init := by
  refine ⟨fun _ _ _ _ => rfl, fun coro => ?_⟩
  rw [State.tx, initial.txns]
  exact ⟨fun _ member => (by cases member), fun _ _ member => (by cases member)⟩

end Steps

end Fasst.TxReadOnly

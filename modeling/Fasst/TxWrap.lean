import Fasst.TxSerializable

/-!
# A version field that comes back

The version of a bucket has 60 bits. A reader that waits between its reads and
its validation sees an old version again after 2 ^ 60 unlocks of the bucket, and
a writer can make that many: every attempt to update a missing key locks and
unlocks the bucket of the key. The reader then commits results that no serial
order explains.
-/

namespace Fasst.TxWrap

open List Fasst.FixedTableModel Fasst.FixedTableSpec Fasst.Placement Fasst.TxModel Fasst.TxCluster
open Fasst.TxLocal Fasst.TxHandler Fasst.TxSteps Fasst.TxLocks Fasst.TxInvariant Fasst.TxOwnership
open Fasst.TxReplicas Fasst.TxViews Fasst.TxSerial Fasst.TxSerializable Fasst.FixedTableOps

set_option autoImplicit false

section Steps

variable {V : Type} {cfg : Config} {state : State V}

/-- A call of the application that does not begin to log. -/
theorem call_step (cfg : Config) (state : State V) (label : Label V) (tx : TxState V)
    (valid : cfg.Valid label.coro) (call : isCall label = true)
    (called : callTx cfg (state.oldWord cfg label.coro) (state.tx label.coro) label = some tx)
    (noLog : tx.pc ≠ .log) : step cfg state label = some (.ok (state.setTx label.coro tx)) := by
  rw [step_call state valid call, callStep, called]
  simp only [Option.bind_eq_bind, Option.bind_some, stage_quiet state label.coro tx noLog, Option.map_some]

theorem set_tx_set_table (state : State V) (coro : CoroId) (machine reqtype : Nat)
    (table : FixedTable V) (old new : TxState V) :
    ((state.setTx coro old).setTable machine reqtype table).setTx coro new =
      (state.setTable machine reqtype table).setTx coro new := by
  simp only [State.setTx, State.setTable, Function.update_self, Function.update_idem]

theorem set_tx_set_tx (state : State V) (coro : CoroId) (old new : TxState V) :
    (state.setTx coro old).setTx coro new = state.setTx coro new := by
  simp only [State.setTx, Function.update_self, Function.update_idem]

/-- An invalid coroutine takes no step. -/
theorem invalid_coroutine_idle {init : State V} (initial : Initial cfg init)
    (reached : Reachable cfg init state) {coro : CoroId} (invalid : ¬ cfg.Valid coro) :
    state.cur coro = 0 ∧ ∀ number, state.txns coro number = .construct := by
  induction reached with
  | refl => exact ⟨initial.cur coro, initial.txns coro⟩
  | @step before next label reached ran ih =>
      obtain ⟨valid, case_⟩ := step_cases ((reachable_inv initial reached).txInv label.coro) ran
      have apart : coro ≠ label.coro := by
        intro same
        rw [same] at invalid
        exact invalid valid
      have kept : ∀ (middle : State V) (tx : TxState V), middle.cur = before.cur →
          middle.txns = before.txns → (middle.setTx label.coro tx).cur coro = 0 ∧
            ∀ number, (middle.setTx label.coro tx).txns coro number = .construct := by
        intro middle tx cur txns
        simp only [State.setTx, Function.update_of_ne apart, cur, txns]
        exact ih
      cases case_ with
      | start at_ ended =>
          simp only [startState, Function.update_of_ne apart]
          exact ih
      | move tx moved =>
          obtain ⟨sameTxns, sameCur⟩ := txns_stage cfg before label.coro tx
          exact kept _ tx sameCur sameTxns
      | ds index req stale resp table found run =>
          exact kept (before.setTable req.machine req.rpcReqtype table) _ rfl rfl
      | log index machine wrkrLid record found =>
          exact kept (before.setLogger machine wrkrLid _) _ rfl rfl

end Steps

def reader : CoroId := ⟨0, 1⟩
def writer : CoroId := ⟨0, 2⟩

/-- The reader sees no item in the first table. The writer inserts one item in
each of two tables, the reader sees the second item and has it validated, and
the writer removes both items. -/
def openingRun : List (Label Nat) :=
  [.start reader, .addToReadSet reader 20 5 0 ⟨8, 0, 0⟩, .doRead reader, .handle reader 0 0,
    .resume reader,
    .start writer, .addToWriteSet writer 20 5 0 ⟨8, 0, 1⟩ .insert,
    .addToWriteSet writer 30 5 0 ⟨8, 0, 1⟩ .insert, .doRead writer, .handle writer 0 0,
    .handle writer 1 0, .resume writer, .commit writer, .handle writer 0 0, .handle writer 1 0,
    .resume writer,
    .addToReadSet reader 30 5 0 ⟨8, 0, 0⟩, .doRead reader, .handle reader 0 0, .resume reader,
    .commit reader, .handle reader 1 0,
    .start writer, .addToWriteSet writer 20 5 0 ⟨8, 0, 1⟩ .del,
    .addToWriteSet writer 30 5 0 ⟨8, 0, 1⟩ .del, .doRead writer, .handle writer 0 0,
    .handle writer 1 0, .resume writer, .commit writer, .handle writer 0 0, .handle writer 1 0,
    .resume writer]

/-- An attempt of the writer to update a key that is not there. -/
def spinRun : List (Label Nat) :=
  [.start writer, .addToWriteSet writer 20 6 0 ⟨8, 0, 0⟩ .update, .doRead writer,
    .handle writer 0 0, .resume writer, .abort writer]

def spinItem : RwsetItem Nat := newItem oneMachine 20 6 0 ⟨8, 0, 0⟩ .update

def spinReq : DsReq Nat where
  machine := 0
  rpcReqtype := 20
  callerId := callerId writer
  reqType := .getForUpd
  key := 6
  keyhash := dsKeyhash oneMachine 6

def spunTx : TxState Nat :=
  { TxState.construct with
    writeSet := [spinItem]
    wsIndex := 1
    handled := [(.ds spinReq, ⟨.getForUpdNotFound, 0, none, none⟩)] }

def spunState (state : State Nat) (table : FixedTable Nat) : State Nat :=
  ((startState state writer).setTable 0 20 table).setTx writer spunTx

def emptySwarm : State Nat := newSwarm 8 1 0 0

theorem empty_swarm_initial : Initial oneMachine emptySwarm :=
  new_swarm_initial oneMachine 8 1 0 0 (by decide)

def firstTable (state : State Nat) : MapState Nat :=
  abstractOf (dsKeyhash oneMachine) (state.tables 0 20)

/-- The writer is between two transactions, the key of the attempts is missing
in the first table, and the one bucket of the table is not locked. -/
structure Spinning (state : State Nat) : Prop where
  reached : Reachable oneMachine emptySwarm state
  at_ : (state.tx writer).pc = .app
  ended : (state.tx writer).status = .committed ∨ (state.tx writer).status = .aborted
  missing : (firstTable state).map 6 = none
  unlocked : (firstTable state).lock 0 = none

theorem Spinning.primary {state : State Nat} (spinning : Spinning state) :
    (state.tables 0 20).isPrimary = true :=
  (reachable_inv empty_swarm_initial spinning.reached).role 0 20

theorem Spinning.tableOk {state : State Nat} (spinning : Spinning state) :
    TableOk (dsKeyhash oneMachine) (state.tables 0 20) :=
  (reachable_inv empty_swarm_initial spinning.reached).tableOk 0 20

theorem Spinning.home {state : State Nat} (spinning : Spinning state) (hash : UInt64) :
    (firstTable state).bucketOf hash = 0 := by
  have one : (firstTable state).numBuckets = 1 :=
    (reachable_inv empty_swarm_initial spinning.reached).size 0 20
  rw [MapState.bucketOf, one]
  exact Nat.and_zero _

/-- The table after one attempt: the version of its bucket has moved on. -/
def bumped (before : MapState Nat) : MapState Nat :=
  { before with version := Function.update before.version 0 (before.version 0 + 1) }

theorem acquire_release_free {before : MapState Nat} (unlocked : before.lock 0 = none)
    (caller : Nat) : (before.acquire caller 0).release 0 = bumped before := by
  simp only [MapState.acquire, unlocked, MapState.release, Function.update_self, bumped,
    Function.update_idem]
  rw [← unlocked, Function.update_eq_self]

theorem spin_handler {state : State Nat} (spinning : Spinning state) :
    ∃ table, dsFixedtableRpcHandler (state.tables 0 20) spinReq 0 =
        .ok (⟨.getForUpdNotFound, 0, none, none⟩, table) ∧
      TableOk (dsKeyhash oneMachine) table ∧
      abstractOf (dsKeyhash oneMachine) table = bumped (firstTable state) := by
  have home := spinning.home (dsKeyhash oneMachine 6)
  have free : ¬ (firstTable state).HeldByOther (callerId writer)
      ((firstTable state).bucketOf (dsKeyhash oneMachine 6)) := by
    rintro ⟨_, _, lock, _⟩
    rw [home, spinning.unlocked] at lock
    cases lock
  have few : ∀ count, (firstTable state).lock ((firstTable state).bucketOf (dsKeyhash oneMachine 6)) =
      some (callerId writer, count) → count < kMaxNumLocks := by
    intro count lock
    rw [home, spinning.unlocked] at lock
    cases lock
  obtain ⟨table, run, ok, same⟩ := lock_bkt_and_get_refines spinning.tableOk (by decide) (by decide)
    spinning.primary few true
  have outcome : specOp (dsKeyhash oneMachine) (firstTable state) true
      (.lockBktAndGet (callerId writer) 6) = (⟨.kNotFound, none, none⟩, bumped (firstTable state)) := by
    rw [specOp, if_neg free, spinning.missing, home]
    simp only [acquire_release_free spinning.unlocked]
  rw [firstTable] at outcome
  rw [outcome] at run same
  refine ⟨table, ?_, ok, same⟩
  rw [runOp] at run
  simp only [dsFixedtableRpcHandler, spinReq, run, assertion, bind, Except.bind]

def addedTx : TxState Nat := { TxState.start with writeSet := [spinItem] }

def askedTx : TxState Nat := addedTx.send .doRead [.ds spinReq]

def missedTx : TxState Nat :=
  askedTx.respond 0 (.ds spinReq) ⟨.getForUpdNotFound, 0, none, none⟩

theorem spin_asks {state : State Nat} (spinning : Spinning state) :
    runLabels oneMachine state (spinRun.take 3) =
      some ((startState state writer).setTx writer askedTx) := by
  have valid : oneMachine.Valid writer := by decide
  have begin_ : step oneMachine state (.start writer) = some (.ok (startState state writer)) := by
    simp only [step, Label.coro, if_pos valid, startStep, spinning.at_, spinning.ended, and_self,
      if_true, Option.map_some, startState]
  have add := call_step oneMachine (startState state writer)
    (.addToWriteSet writer 20 6 0 ⟨8, 0, 0⟩ .update) addedTx valid rfl
    (by simp only [Label.coro, tx_start_state, if_true]; rfl) (by decide)
  have ask := call_step oneMachine ((startState state writer).setTx writer addedTx)
    (.doRead writer) askedTx valid rfl (by simp only [Label.coro, tx_set_tx_self]; rfl) (by decide)
  simp only [Label.coro, set_tx_set_tx] at add ask
  simp only [spinRun, take_succ_cons, take_zero, runLabels, begin_, add, ask]

/-- The rest of an attempt, once its request has been executed. -/
theorem spin_ends (state : State Nat) :
    runLabels oneMachine (state.setTx writer missedTx) [.resume writer, .abort writer] =
      some (state.setTx writer spunTx) := by
  have valid : oneMachine.Valid writer := by decide
  let failed : TxState Nat := { spunTx with status := .mustAbort }
  have resume : step oneMachine (state.setTx writer missedTx) (.resume writer) =
      some (.ok (state.setTx writer failed)) := by
    rw [← set_tx_set_tx state writer missedTx failed]
    simp only [step, Label.coro, if_pos valid, resumeStep, tx_set_tx_self]
    rfl
  have abort := call_step oneMachine (state.setTx writer failed) (.abort writer) spunTx valid
    rfl (by simp only [Label.coro, tx_set_tx_self]; rfl) (by decide)
  simp only [Label.coro, set_tx_set_tx] at abort
  simp only [runLabels, resume, abort]

theorem run_labels_append {V : Type} (cfg : Config) (state middle : State V)
    (front back : List (Label V)) (ran : runLabels cfg state front = some middle) :
    runLabels cfg state (front ++ back) = runLabels cfg middle back := by
  induction front generalizing state with
  | nil =>
      rw [← Option.some.inj ran]
      rfl
  | cons label rest ih =>
      rw [cons_append, runLabels]
      rw [runLabels] at ran
      split at ran
      · rename_i after taken
        exact ih after ran
      · cases ran

theorem spin_runs {state : State Nat} (spinning : Spinning state) :
    ∃ table, runLabels oneMachine state spinRun = some (spunState state table) ∧
      TableOk (dsKeyhash oneMachine) table ∧
      abstractOf (dsKeyhash oneMachine) table = bumped (firstTable state) := by
  obtain ⟨table, handled, ok, same⟩ := spin_handler spinning
  refine ⟨table, ?_, ok, same⟩
  have handle : step oneMachine ((startState state writer).setTx writer askedTx)
      (.handle writer 0 0) =
        some (.ok (((startState state writer).setTable 0 20 table).setTx writer missedTx)) := by
    rw [← set_tx_set_table _ _ _ _ _ askedTx]
    have valid : oneMachine.Valid writer := by decide
    have same : ((startState state writer).setTx writer askedTx).tables 0 20 = state.tables 0 20 := rfl
    have first : askedTx.batch[0]? = some ⟨.ds spinReq, none⟩ := rfl
    have target : spinReq.machine = 0 ∧ spinReq.rpcReqtype = 20 := ⟨rfl, rfl⟩
    simp only [step, Label.coro, if_pos valid, handleStep, tx_set_tx_self, first,
      Option.bind_eq_bind, Option.bind_some, Option.isSome_none, Bool.false_eq_true, if_false,
      target.1, target.2, same, handled, missedTx]
  have whole : spinRun = spinRun.take 3 ++ [.handle writer 0 0, .resume writer, .abort writer] := rfl
  rw [whole, run_labels_append _ _ _ _ _ (spin_asks spinning), runLabels]
  simp only [handle]
  exact spin_ends ((startState state writer).setTable 0 20 table)

/-- Some attempts later: the version of the first table has moved on by one for
each of them, and only failed transactions of the writer have been added. -/
structure Spun (before after : State Nat) (count : Nat) : Prop where
  spinning : Spinning after
  version : (firstTable after).version 0 = (firstTable before).version 0 + count
  map : (firstTable after).map = (firstTable before).map
  readerTxns : after.txns reader = before.txns reader
  readerCur : after.cur reader = before.cur reader
  past : ∀ number, number ≤ after.cur writer →
    (number ≤ before.cur writer ∧ after.txns writer number = before.txns writer number) ∨
      after.txns writer number = spunTx

theorem spun_step {before state : State Nat} {count : Nat} (spun : Spun before state count) :
    ∃ next, Spun before next (count + 1) := by
  obtain ⟨table, ran, ok, same⟩ := spin_runs spun.spinning
  have apart : reader ≠ writer := by decide
  have first : firstTable (spunState state table) = bumped (firstTable state) := by
    have tables : (spunState state table).tables 0 20 = table := by
      simp only [spunState, tables_set_tx, tables_set_table, and_self, if_true]
    rw [firstTable, tables, same]
  have current : (spunState state table).tx writer = spunTx := by rw [spunState, tx_set_tx_self]
  refine ⟨spunState state table, ⟨?_, ?_, ?_, ?_, ?_⟩, ?_, ?_, ?_, ?_, ?_⟩
  · exact run_labels_reachable _ spun.spinning.reached ran
  · rw [current]
    rfl
  · rw [current]
    exact Or.inr rfl
  · rw [first]
    exact spun.spinning.missing
  · rw [first]
    exact spun.spinning.unlocked
  · have moved : (bumped (firstTable state)).version 0 = (firstTable state).version 0 + 1 := by
      simp only [bumped, Function.update_self]
    rw [first, moved, spun.version, Nat.add_assoc]
  · rw [first]
    exact spun.map
  · simp only [spunState, State.setTx, State.setTable, startState, Function.update_of_ne apart]
    exact spun.readerTxns
  · simp only [spunState, State.setTx, State.setTable, startState, Function.update_of_ne apart]
    exact spun.readerCur
  · intro number bound
    simp only [spunState, State.setTx, State.setTable, startState, Function.update_self,
      Function.update_idem] at bound ⊢
    by_cases last : number = state.cur writer + 1
    · rw [last, Function.update_self]
      exact Or.inr rfl
    · rw [Function.update_of_ne last]
      exact spun.past number (by omega)

theorem spun_many {state : State Nat} (spinning : Spinning state) (count : Nat) :
    ∃ after, Spun state after count := by
  induction count with
  | zero =>
      exact ⟨state, spinning, rfl, rfl, rfl, rfl, fun number bound => Or.inl ⟨bound, rfl⟩⟩
  | succ count ih =>
      obtain ⟨middle, spun⟩ := ih
      exact spun_step spun

def readerReq : DsReq Nat where
  machine := 0
  rpcReqtype := 20
  callerId := callerId reader
  reqType := .getRdonly
  key := 5
  keyhash := dsKeyhash oneMachine 5

/-- The word of an unlocked bucket after 2 ^ 60 final unlocks. -/
def wrappedWord : UInt64 := 0xc000000000000000

def wrappedResp : Resp Nat := ⟨.getRdonlyNotFound, 8, some wrappedWord, none⟩

def answeredTx (tx : TxState Nat) : TxState Nat := tx.respond 0 (.ds readerReq) wrappedResp

def answers (tx : TxState Nat) : List (Resp Nat) := (answeredTx tx).batch.filterMap ReqSlot.resp

def isReaderReq : Option (ReqSlot Nat) → Bool
  | some ⟨.ds ⟨0, 20, caller, .getRdonly, 5, hash⟩, none⟩ =>
      caller = callerId reader ∧ hash = dsKeyhash oneMachine 5
  | _ => false

theorem is_reader_req {slot : Option (ReqSlot Nat)} (passed : isReaderReq slot = true) :
    slot = some ⟨.ds readerReq, none⟩ := by
  unfold isReaderReq at passed
  split at passed
  · rw [decide_eq_true_eq] at passed
    rw [passed.1, passed.2]
    rfl
  · cases passed

def entries (tx : TxState Nat) : List (Loc × Option Nat) :=
  tx.writeSet.map fun item => (item.loc, entryOf item)

/-- What the rest of the argument needs of the state after the opening. -/
structure Opening where
  readerFirst : Pc × TxStatus
  writerFirst : Pc × TxStatus
  readerCur : Nat
  readerPc : Pc
  readerStatus : TxStatus
  waiting : Bool
  noWrites : Bool
  complete : Bool
  validated : Bool
  results : List (Loc × Option Nat)
  writerCur : Nat
  writerPc : Pc
  writerStatus : TxStatus
  inserted : List (Loc × Option Nat)
  removed : List (Loc × Option Nat)
  unlocks : Nat
  lock : Option (Nat × Nat)
  entry5 : Option Nat
  entry6 : Option Nat
  deriving DecidableEq

def observe (state : State Nat) : Opening where
  readerFirst := ((state.txns reader 0).pc, (state.txns reader 0).status)
  writerFirst := ((state.txns writer 0).pc, (state.txns writer 0).status)
  readerCur := state.cur reader
  readerPc := (state.tx reader).pc
  readerStatus := (state.tx reader).status
  waiting := isReaderReq (state.tx reader).batch[0]?
  noWrites := (state.tx reader).writeSet.isEmpty
  complete := decide ((answers (state.tx reader)).length = (answeredTx (state.tx reader)).batch.length)
  validated := validate (state.tx reader).readSet (answers (state.tx reader))
  results := (zipWith RwsetItem.deliver (state.tx reader).readSet (answers (state.tx reader))).map
    fun item => (item.loc, item.seen)
  writerCur := state.cur writer
  writerPc := (state.tx writer).pc
  writerStatus := (state.tx writer).status
  inserted := entries (state.txns writer 1)
  removed := entries (state.txns writer 2)
  unlocks := (firstTable state).version 0
  lock := (firstTable state).lock 0
  entry5 := (firstTable state).map 5
  entry6 := (firstTable state).map 6

theorem opening_observed : (runLabels oneMachine emptySwarm openingRun).map observe =
    some
      { readerFirst := (.app, .aborted), writerFirst := (.app, .aborted)
        readerCur := 1, readerPc := .validate, readerStatus := .inProgress, waiting := true
        noWrites := true, complete := true, validated := true
        results := [((20, 5), none), ((30, 5), some 1)]
        writerCur := 2, writerPc := .app, writerStatus := .committed
        inserted := [((20, 5), some 1), ((30, 5), some 1)]
        removed := [((20, 5), none), ((30, 5), none)]
        unlocks := 2, lock := none, entry5 := none, entry6 := none } := by
  decide +kernel

theorem set_table_self (state : State Nat) (machine reqtype : Nat) :
    state.setTable machine reqtype (state.tables machine reqtype) = state := by
  simp only [State.setTable, Function.update_eq_self]

/-- The old version has come back, and the read of the reader passes. -/
theorem reader_answered {state : State Nat} (spinning : Spinning state)
    (version : (firstTable state).version 0 = 2 ^ 60) (missing : (firstTable state).map 5 = none)
    (waiting : (state.tx reader).batch[0]? = some ⟨.ds readerReq, none⟩) :
    step oneMachine state (.handle reader 0 0) =
      some (.ok (state.setTx reader (answeredTx (state.tx reader)))) := by
  have word : (firstTable state).word 0 = wrappedWord := by
    rw [MapState.word, version, spinning.unlocked]
    decide
  have outcome : specOp (dsKeyhash oneMachine) (firstTable state) true
      (.get (callerId reader) 5) = (⟨.kNotFound, some wrappedWord, none⟩, firstTable state) := by
    rw [specOp, missing]
    simp only [spinning.home, spinning.unlocked, word, getReply]
  have refined : Refines (dsKeyhash oneMachine) (state.tables 0 20) (.get (callerId reader) 5) true :=
    get_refines spinning.tableOk (by decide) spinning.primary true
  obtain ⟨table, run, _, _⟩ := refined
  rw [firstTable] at outcome
  rw [outcome, runOp] at run
  have got : FixedTableModel.get (state.tables 0 20) (callerId reader) (dsKeyhash oneMachine 5) 5 =
      .ok ⟨.kNotFound, some wrappedWord, none⟩ := by
    cases read : FixedTableModel.get (state.tables 0 20) (callerId reader)
        (dsKeyhash oneMachine 5) 5 with
    | error fault =>
        rw [read] at run
        cases run
    | ok out =>
        rw [read] at run
        exact congrArg Except.ok (Prod.mk.inj (Except.ok.inj run)).1
  have handled : dsFixedtableRpcHandler (state.tables 0 20) readerReq 0 =
      .ok (wrappedResp, state.tables 0 20) := by
    simp only [dsFixedtableRpcHandler, readerReq, got, assertion, bind, Except.bind]
    rfl
  have valid : oneMachine.Valid reader := by decide
  have target : readerReq.machine = 0 ∧ readerReq.rpcReqtype = 20 := ⟨rfl, rfl⟩
  simp only [step, Label.coro, if_pos valid, handleStep, waiting, Option.bind_eq_bind,
    Option.bind_some, Option.isSome_none, Bool.false_eq_true, if_false, target.1, target.2, handled,
    set_table_self, answeredTx]

def committedTx (tx : TxState Nat) : TxState Nat :=
  { answeredTx tx with
    readSet := zipWith RwsetItem.deliver tx.readSet (answers tx)
    status := .committed
    pc := .app
    batch := [] }

theorem reader_commits {state : State Nat} {tx : TxState Nat} (at_ : tx.pc = .validate)
    (noWrites : tx.writeSet = [])
    (complete : (answers tx).length = (answeredTx tx).batch.length)
    (validated : validate tx.readSet (answers tx) = true) :
    step oneMachine (state.setTx reader (answeredTx tx)) (.resume reader) =
      some (.ok (state.setTx reader (committedTx tx))) := by
  have valid : oneMachine.Valid reader := by decide
  have waiting : (answeredTx tx).pc = .validate := at_
  have finished : resumeTx oneMachine reader
      ((state.setTx reader (answeredTx tx)).oldWord oneMachine reader) (answeredTx tx) (answers tx) =
        .ok (committedTx tx) := by
    have sameReads : (answeredTx tx).readSet = tx.readSet := rfl
    have sameWrites : (answeredTx tx).writeSet = [] := noWrites
    simp only [resumeTx, waiting, validateFinish, sameReads, validated, if_true, commitStart,
      sameWrites, committedTx]
  rw [← set_tx_set_tx state reader (answeredTx tx) (committedTx tx)]
  simp only [step, Label.coro, if_pos valid, resumeStep, tx_set_tx_self]
  rw [if_pos ⟨by rw [waiting]; decide, complete⟩]
  rw [answers] at finished
  simp only [finished]
  rfl

/-- Both tables agree on the key after the transaction if they did before it. -/
def Even (tx : TxState Nat) : Prop :=
  ∀ store : Loc → Option Nat, store (20, 5) = store (30, 5) →
    execute store tx (20, 5) = execute store tx (30, 5)

theorem execute_entries (store : Loc → Option Nat) (tx : TxState Nat) :
    execute store tx =
      (entries tx).foldl (fun store pair => Function.update store pair.1 pair.2) store := by
  rw [execute, entries, foldl_map]

theorem even_of_entries {tx : TxState Nat} {entry : Option Nat}
    (same : entries tx = [((20, 5), entry), ((30, 5), entry)]) : Even tx := by
  intro store agree
  rw [execute_entries, same]
  simp

theorem execute_all_even {state : State Nat} {order : List TxId}
    (even : ∀ txn ∈ order, Even (state.txns txn.1 txn.2)) {store : Loc → Option Nat}
    (agree : store (20, 5) = store (30, 5)) :
    executeAll store state order (20, 5) = executeAll store state order (30, 5) := by
  induction order generalizing store with
  | nil => exact agree
  | cons txn rest ih =>
      exact ih (fun other member => even other (mem_cons_of_mem _ member))
        (even txn mem_cons_self store agree)

/-- Two committed results that only a mixture of two states of the tables gives. -/
theorem not_serializable {state : State Nat} {tx : TxState Nat}
    (current : state.txns reader 1 = tx) (bound : 1 ≤ state.cur reader) (committed : Committed tx)
    (results : tx.readSet.map (fun item => (item.loc, item.seen)) =
      [((20, 5), none), ((30, 5), some 1)])
    (even : ∀ txn : TxId, txn ≠ (reader, 1) → txn.2 ≤ state.cur txn.1 →
      Committed (state.txns txn.1 txn.2) → Even (state.txns txn.1 txn.2)) (order : List TxId) :
    ¬ Serializes oneMachine emptySwarm state order := by
  intro serial
  have inside : (reader, 1) ∈ order := (serial.committed (reader, 1)).mpr
    ⟨bound, by rw [current]; exact committed⟩
  obtain ⟨front, back, split⟩ := append_of_mem inside
  have evenFront : ∀ txn ∈ front, Even (state.txns txn.1 txn.2) := by
    intro txn member
    have listed : txn ∈ order := by rw [split]; exact mem_append_left _ member
    obtain ⟨begun, done⟩ := (serial.committed txn).mp listed
    refine even txn ?_ begun done
    rintro rfl
    have nodup := serial.nodup
    rw [split] at nodup
    exact (nodup_append.mp nodup).2.2 _ member _ mem_cons_self rfl
  have seen : ∀ loc entry, (loc, entry) ∈ tx.readSet.map (fun item => (item.loc, item.seen)) →
      entry = executeAll (primaryEntry oneMachine emptySwarm) state front loc := by
    intro loc entry member
    obtain ⟨item, inReads, same⟩ := mem_map.mp member
    obtain ⟨rfl, rfl⟩ := Prod.mk.inj same
    refine serial.observed front (reader, 1) back split item ?_
    rw [current]
    exact mem_append_left _ inReads
  rw [results] at seen
  have first := seen (20, 5) none (by simp)
  have second := seen (30, 5) (some 1) (by simp)
  have agree := execute_all_even evenFront
    (show primaryEntry oneMachine emptySwarm (20, 5) = primaryEntry oneMachine emptySwarm (30, 5) by
      decide)
  rw [← first, ← second] at agree
  cases agree

theorem valid_one_machine {coro : CoroId} (valid : oneMachine.Valid coro) :
    coro = reader ∨ coro = writer := by
  obtain ⟨wrkrGid, coroId⟩ := coro
  obtain ⟨worker, lower, upper⟩ := valid
  have worker : wrkrGid < 1 * 1 := worker
  have upper : coroId < 3 := upper
  have lower : 1 ≤ coroId := lower
  obtain rfl : wrkrGid = 0 := by omega
  rcases (by omega : coroId = 1 ∨ coroId = 2) with rfl | rfl
  · exact Or.inl rfl
  · exact Or.inr rfl

theorem aborted_not_committed {tx : TxState Nat} (ended : (tx.pc, tx.status) = (.app, .aborted)) :
    ¬ Committed tx := by
  obtain ⟨at_, status⟩ := Prod.mk.inj ended
  simp [Committed, at_, status]

/-- Without a bound on the number of unlocks, some run commits results that no
serial order of the committed transactions gives. -/
theorem wrapped_version_not_serializable :
    Initial oneMachine emptySwarm ∧ ∃ state, Reachable oneMachine emptySwarm state ∧
      ∀ order, ¬ Serializes oneMachine emptySwarm state order := by
  refine ⟨empty_swarm_initial, ?_⟩
  obtain ⟨opened, ran, seen⟩ := Option.map_eq_some_iff.mp opening_observed
  have reached := run_labels_reachable _ .refl ran
  simp only [observe, Opening.mk.injEq] at seen
  obtain ⟨readerFirst, writerFirst, readerCur, readerPc, readerStatus, waiting, noWrites, complete, validated, results,
    writerCur, writerPc, writerStatus, inserted, removed, unlocks, lock, entry5, entry6⟩ := seen
  have spinning : Spinning opened := ⟨reached, writerPc, Or.inl writerStatus, entry6, lock⟩
  obtain ⟨spun, rest⟩ := spun_many spinning (2 ^ 60 - 2)
  have total : 2 + (2 ^ 60 - 2) = 2 ^ 60 := by omega
  have version : (firstTable spun).version 0 = 2 ^ 60 :=
    (rest.version.trans (by rw [unlocks])).trans total
  have sameTx : spun.tx reader = opened.tx reader := by
    rw [State.tx, rest.readerTxns, rest.readerCur, State.tx]
  have answered := reader_answered rest.spinning version (by rw [rest.map]; exact entry5)
    (by rw [sameTx]; exact is_reader_req waiting)
  rw [sameTx] at answered
  have committed := @reader_commits spun _ readerPc (isEmpty_iff.mp noWrites)
    (of_decide_eq_true complete) validated
  have last : Reachable oneMachine emptySwarm (spun.setTx reader (committedTx (opened.tx reader))) :=
    .step _ (.step _ rest.spinning.reached answered) committed
  have cur : spun.cur reader = 1 := by rw [rest.readerCur, readerCur]
  have final : Committed (committedTx (opened.tx reader)) := rfl
  refine ⟨_, last, not_serializable ?_ (Nat.le_of_eq cur.symm) final results ?_⟩
  · simp only [State.setTx, Function.update_self, cur]
  · rintro ⟨coro, number⟩ other bound done
    simp only at bound done ⊢
    by_cases valid : oneMachine.Valid coro
    · rcases valid_one_machine valid with rfl | rfl
      · have bound : number ≤ 1 := by rw [← cur]; exact bound
        have first : number = 0 := by
          by_contra later
          exact other (by rw [show number = 1 by omega])
        subst first
        simp only [State.setTx, Function.update_self, cur, rest.readerTxns] at done
        rw [Function.update_of_ne (by decide)] at done
        exact absurd done (aborted_not_committed readerFirst)
      · have apart : writer ≠ reader := by decide
        simp only [State.setTx, Function.update_of_ne apart] at bound done ⊢
        rcases rest.past number bound with ⟨early, same⟩ | same
        · rw [same] at done ⊢
          rw [writerCur] at early
          rcases (by omega : number = 0 ∨ number = 1 ∨ number = 2) with rfl | rfl | rfl
          · exact absurd done (aborted_not_committed writerFirst)
          · exact even_of_entries inserted
          · exact even_of_entries removed
        · rw [same] at done
          exact absurd done (aborted_not_committed rfl)
    · rw [(invalid_coroutine_idle empty_swarm_initial last valid).2] at done
      exact absurd done (aborted_not_committed rfl)

end Fasst.TxWrap

import Fasst.TxCalls
import Fasst.Runs

/-!
# The steps of the swarm

Every step belongs to one coroutine. It starts a transaction, moves the current
one, or answers one of its requests. `step_cases` says so once for all
invariants, and `step_crash` where a process can end.
-/

namespace Fasst.TxSteps

open Fasst.FixedTableModel Fasst.Bytes Fasst.TxModel Fasst.TxCluster Fasst.TxLocal Fasst.TxCalls
open Fasst.Runs (RunsTo)

set_option autoImplicit false

variable {V : Type} {cfg : Config} {state next : State V} {coro : CoroId}

section Frames

variable (state) (coro)

theorem txns_set_tx (tx : TxState V) (other : CoroId) (number : Nat) :
    (state.setTx coro tx).txns other number =
      if other = coro ∧ number = state.cur coro then tx else state.txns other number := by
  simp only [State.setTx]
  by_cases same : other = coro
  · subst same
    rw [Function.update_self, Function.update_apply]
    simp only [true_and]
  · rw [Function.update_of_ne same, if_neg fun both => same both.1]

theorem tx_set_tx (tx : TxState V) (other : CoroId) :
    (state.setTx coro tx).tx other = if other = coro then tx else state.tx other := by
  rw [State.tx, txns_set_tx]
  by_cases same : other = coro
  · subst same
    rw [if_pos ⟨rfl, rfl⟩, if_pos rfl]
  · rw [if_neg same, if_neg fun both => same both.1]
    rfl

@[simp] theorem tx_set_tx_self (tx : TxState V) : (state.setTx coro tx).tx coro = tx := by
  rw [tx_set_tx, if_pos rfl]

@[simp] theorem tables_set_tx (tx : TxState V) : (state.setTx coro tx).tables = state.tables := rfl

@[simp] theorem loggers_set_tx (tx : TxState V) :
    (state.setTx coro tx).loggers = state.loggers := rfl

@[simp] theorem tx_set_table (machine reqtype : Nat) (table : FixedTable V) :
    (state.setTable machine reqtype table).tx coro = state.tx coro := rfl

theorem tables_set_table (machine reqtype : Nat) (table : FixedTable V) (otherMachine other : Nat) :
    (state.setTable machine reqtype table).tables otherMachine other =
      if otherMachine = machine ∧ other = reqtype then table
      else state.tables otherMachine other := by
  simp only [State.setTable]
  by_cases sameMachine : otherMachine = machine
  · subst sameMachine
    rw [Function.update_self, Function.update_apply]
    simp only [true_and]
  · rw [Function.update_of_ne sameMachine, if_neg fun both => sameMachine both.1]

@[simp] theorem tx_stage (tx : TxState V) (other : CoroId) :
    (state.stage cfg coro tx).tx other = state.tx other := by
  unfold State.stage
  split <;> rfl

@[simp] theorem tables_stage (tx : TxState V) :
    (state.stage cfg coro tx).tables = state.tables := by
  unfold State.stage
  split <;> rfl

theorem stage_quiet (tx : TxState V) (noLog : tx.pc ≠ .log) : state.stage cfg coro tx = state := by
  unfold State.stage
  split
  · rename_i at_ _
    exact absurd at_ noLog
  · rfl

end Frames

def startState (state : State V) (coro : CoroId) : State V :=
  { state with
    cur := Function.update state.cur coro (state.cur coro + 1)
    txns := Function.update state.txns coro
      (Function.update (state.txns coro) (state.cur coro + 1) .start) }

theorem tx_start_state (state : State V) (coro other : CoroId) :
    (startState state coro).tx other = if other = coro then .start else state.tx other := by
  simp only [State.tx, startState]
  by_cases same : other = coro
  · subst same
    rw [if_pos rfl, Function.update_self, Function.update_self, Function.update_self]
  · rw [if_neg same, Function.update_of_ne same, Function.update_of_ne same]

def dsState (state : State V) (coro : CoroId) (index : Nat) (req : DsReq V) (resp : Resp V)
    (table : FixedTable V) : State V :=
  (state.setTable req.machine req.rpcReqtype table).setTx coro
    ((state.tx coro).respond index (.ds req) resp)

def logState (cfg : Config) (state : State V) (coro : CoroId) (index machine wrkrLid : Nat)
    (record : List UInt8) : State V :=
  (state.setLogger machine wrkrLid (saveLogRecord cfg (state.loggers machine wrkrLid) record)).setTx
    coro ((state.tx coro).respond index (.log machine wrkrLid record)
      ⟨.loggerSuccess, 0, none, none⟩)

inductive StepCase (cfg : Config) (state : State V) (coro : CoroId) : State V → Prop where
  | start (at_ : (state.tx coro).pc = .app)
      (ended : (state.tx coro).status = .committed ∨ (state.tx coro).status = .aborted) :
      StepCase cfg state coro (startState state coro)
  | move (tx : TxState V)
      (moved : LocalMove cfg coro (state.oldWord cfg coro) (state.tx coro) tx) :
      StepCase cfg state coro ((state.stage cfg coro tx).setTx coro tx)
  | ds (index : Nat) (req : DsReq V) (stale : UInt64) (resp : Resp V) (table : FixedTable V)
      (found : (state.tx coro).batch[index]? = some ⟨.ds req, none⟩)
      (run : dsFixedtableRpcHandler (state.tables req.machine req.rpcReqtype) req stale =
        .ok (resp, table)) :
      StepCase cfg state coro (dsState state coro index req resp table)
  | log (index machine wrkrLid : Nat) (record : List UInt8)
      (found : (state.tx coro).batch[index]? = some ⟨.log machine wrkrLid record, none⟩) :
      StepCase cfg state coro (logState cfg state coro index machine wrkrLid record)

theorem handle_cases {index : Nat} {stale : UInt64} {outcome : Except Crash (State V)}
    (ran : handleStep cfg state coro index stale = some outcome) :
    (∃ req resp table, (state.tx coro).batch[index]? = some ⟨.ds req, none⟩ ∧
      dsFixedtableRpcHandler (state.tables req.machine req.rpcReqtype) req stale =
        .ok (resp, table) ∧
      outcome = .ok (dsState state coro index req resp table)) ∨
    (∃ req crash, (state.tx coro).batch[index]? = some ⟨.ds req, none⟩ ∧
      dsFixedtableRpcHandler (state.tables req.machine req.rpcReqtype) req stale = .error crash ∧
      outcome = .error crash) ∨
    ∃ machine wrkrLid record,
      (state.tx coro).batch[index]? = some ⟨.log machine wrkrLid record, none⟩ ∧
      outcome = .ok (logState cfg state coro index machine wrkrLid record) := by
  simp only [handleStep] at ran
  cases found : (state.tx coro).batch[index]? with
  | none =>
      rw [found] at ran
      cases ran
  | some slot =>
      obtain ⟨req, resp⟩ := slot
      cases resp with
      | some answer =>
          rw [found] at ran
          cases ran
      | none =>
          rw [found] at ran
          cases req with
          | log machine wrkrLid record =>
              exact Or.inr (Or.inr ⟨machine, wrkrLid, record, rfl, (Option.some.inj ran).symm⟩)
          | ds req =>
              simp only [Option.bind_eq_bind, Option.bind_some, Option.isSome_none,
                Bool.false_eq_true, if_false] at ran
              cases run : dsFixedtableRpcHandler (state.tables req.machine req.rpcReqtype) req
                  stale with
              | error crash =>
                  rw [run] at ran
                  exact Or.inr (Or.inl ⟨req, crash, rfl, run, (Option.some.inj ran).symm⟩)
              | ok pair =>
                  rw [run] at ran
                  exact Or.inl ⟨req, pair.1, pair.2, rfl, run, (Option.some.inj ran).symm⟩

theorem resume_cases (inv : TxInv cfg coro (state.tx coro)) {outcome : Except Crash (State V)}
    (ran : resumeStep cfg state coro = some outcome) :
    ∃ tx, LocalMove cfg coro (state.oldWord cfg coro) (state.tx coro) tx ∧
      outcome = .ok ((state.stage cfg coro tx).setTx coro tx) := by
  simp only [resumeStep, Option.ite_none_right_eq_some] at ran
  obtain ⟨⟨waiting, complete⟩, ran⟩ := ran
  obtain ⟨tx, run, moved⟩ := resume_move inv waiting complete (state.oldWord cfg coro)
  rw [run] at ran
  exact ⟨tx, moved, (Option.some.inj ran).symm⟩

theorem call_cases {label : Label V} (ran : callStep cfg state label = some next) :
    ∃ tx, LocalMove cfg label.coro (state.oldWord cfg label.coro) (state.tx label.coro) tx ∧
      next = (state.stage cfg label.coro tx).setTx label.coro tx := by
  unfold callStep at ran
  cases called : callTx cfg (state.oldWord cfg label.coro) (state.tx label.coro) label with
  | none =>
      rw [called] at ran
      cases ran
  | some tx =>
      rw [called] at ran
      exact ⟨tx, call_move rfl called, (Option.some.inj ran).symm⟩

def isCall : Label V → Bool
  | .start _ | .handle _ _ _ | .resume _ => false
  | _ => true

theorem step_call (state : State V) {label : Label V} (valid : cfg.Valid label.coro)
    (call : isCall label = true) :
    step cfg state label = (callStep cfg state label).map Except.ok := by
  unfold step
  rw [if_pos valid]
  cases label <;> first | rfl | cases call

theorem start_cases (ran : startStep state coro = some next) :
    (state.tx coro).pc = .app ∧
      ((state.tx coro).status = .committed ∨ (state.tx coro).status = .aborted) ∧
      next = startState state coro := by
  simp only [startStep, Option.ite_none_right_eq_some, Option.some.injEq] at ran
  exact ⟨ran.1.1, ran.1.2, ran.2.symm⟩

/-- What a step that runs to its end can be. -/
theorem step_cases {label : Label V} (inv : TxInv cfg label.coro (state.tx label.coro))
    (ran : step cfg state label = some (.ok next)) :
    cfg.Valid label.coro ∧ StepCase cfg state label.coro next := by
  unfold step at ran
  split_ifs at ran with valid
  refine ⟨valid, ?_⟩
  have called : ∀ {label : Label V}, (callStep cfg state label).map (Except.ok (ε := Crash)) =
      some (.ok next) → StepCase cfg state label.coro next := by
    intro label ran
    obtain ⟨after, run, same⟩ := Option.map_eq_some_iff.mp ran
    obtain ⟨tx, moved, result⟩ := call_cases run
    rw [← Except.ok.inj same, result]
    exact .move tx moved
  cases label with
  | start coro =>
      obtain ⟨after, run, same⟩ := Option.map_eq_some_iff.mp ran
      obtain ⟨at_, ended, result⟩ := start_cases run
      rw [← Except.ok.inj same, result]
      exact .start at_ ended
  | handle coro index stale =>
      rcases handle_cases ran with ⟨req, resp, table, found, run, outcome⟩ |
        ⟨req, crash, found, run, outcome⟩ | ⟨machine, wrkrLid, record, found, outcome⟩
      · rw [Except.ok.inj outcome]
        exact .ds index req stale resp table found run
      · cases outcome
      · rw [Except.ok.inj outcome]
        exact .log index machine wrkrLid record found
  | resume coro =>
      obtain ⟨tx, moved, same⟩ := resume_cases inv ran
      rw [Except.ok.inj same]
      exact .move tx moved
  | addToReadSet coro rpcReqtype key objAddr obj => exact called ran
  | addToWriteSet coro rpcReqtype key objAddr obj writeMode => exact called ran
  | writeObj coro index valSize val => exact called ran
  | doRead coro => exact called ran
  | commit coro => exact called ran
  | commitSingleRead coro => exact called ran
  | abort coro => exact called ran
  | abortRdonly coro => exact called ran

/-- A process ends only in the handler of a datastore request. -/
theorem step_crash {label : Label V} {crash : Crash}
    (inv : TxInv cfg label.coro (state.tx label.coro))
    (ran : step cfg state label = some (.error crash)) :
    cfg.Valid label.coro ∧ ∃ (index : Nat) (req : DsReq V) (stale : UInt64),
      (state.tx label.coro).batch[index]? = some ⟨.ds req, none⟩ ∧
      dsFixedtableRpcHandler (state.tables req.machine req.rpcReqtype) req stale = .error crash := by
  unfold step at ran
  split_ifs at ran with valid
  refine ⟨valid, ?_⟩
  have never : ∀ {outcome : Option (State V)},
      outcome.map (Except.ok (ε := Crash)) ≠ some (.error crash) := by
    intro outcome same
    cases outcome <;> cases same
  cases label with
  | start coro => exact absurd ran never
  | handle coro index stale =>
      rcases handle_cases ran with ⟨req, resp, table, found, run, outcome⟩ |
        ⟨req, fault, found, run, outcome⟩ | ⟨machine, wrkrLid, record, found, outcome⟩
      · cases outcome
      · rw [Except.error.inj outcome]
        exact ⟨index, req, stale, found, run⟩
      · cases outcome
  | resume coro =>
      obtain ⟨tx, moved, same⟩ := resume_cases inv ran
      cases same
  | addToReadSet coro rpcReqtype key objAddr obj => exact absurd ran never
  | addToWriteSet coro rpcReqtype key objAddr obj writeMode => exact absurd ran never
  | writeObj coro index valSize val => exact absurd ran never
  | doRead coro => exact absurd ran never
  | commit coro => exact absurd ran never
  | commitSingleRead coro => exact absurd ran never
  | abort coro => exact absurd ran never
  | abortRdonly coro => exact absurd ran never

/-- The states that runs from `init` reach. -/
abbrev Reachable (cfg : Config) (init : State V) : State V → Prop :=
  RunsTo (fun state label next => step cfg state label = some (.ok next)) init

/-- The state after a run of the given steps, if each of them runs to its end. -/
def runLabels (cfg : Config) : State V → List (Label V) → Option (State V)
  | state, [] => some state
  | state, label :: rest =>
      match step cfg state label with
      | some (.ok next) => runLabels cfg next rest
      | _ => none

theorem run_labels_reachable {init : State V} (labels : List (Label V))
    (reached : Reachable cfg init state) (ran : runLabels cfg state labels = some next) :
    Reachable cfg init next := by
  induction labels generalizing state with
  | nil =>
      rw [← Option.some.inj ran]
      exact reached
  | cons label rest ih =>
      rw [runLabels] at ran
      split at ran
      · rename_i after taken
        exact ih (.step label reached taken) ran
      · cases ran

theorem start_inv (cfg : Config) (coro : CoroId) (status : TxStatus)
    (idle : status = .inProgress ∨ status = .aborted) :
    TxInv cfg coro ({ TxState.construct with status := status } : TxState V) := by
  constructor
  · exact List.nodup_nil
  · exact fun _ member => by cases member
  · exact fun _ member => by cases member
  · exact fun _ member => by cases member
  · exact Nat.zero_le _
  · exact Nat.le_refl _
  · exact Nat.le_refl _
  · exact fun _ grant => by cases grant
  · exact fun _ member => by cases member
  · exact fun _ member => by cases member
  · have nothing : ∀ {items : List (RwsetItem V)}, items = [] → ∀ item, item ∉ items := by
      intro items empty item member
      rw [empty] at member
      cases member
    rcases idle with running | ended
    · rw [running]
      exact ⟨rfl, fun _ => rfl, fun _ => rfl, fun item member => absurd member (nothing rfl item),
        fun item member => absurd member (nothing rfl item)⟩
    · rw [ended]
      exact ⟨rfl, fun _ => rfl, fun item member => absurd member (nothing rfl item)⟩

end Fasst.TxSteps

import Fasst.TxProgramRules
import Fasst.TxSerializable

/-!
# Runs of safe transaction functions

If every transaction function of a workload is safe, then in all runs of it no
coroutine reaches an `exit`, every call is made within its contract, the entries
of the tables satisfy their conditions, and every transaction that has called
`commit` keeps its promise. What a transaction learns from its commit has to
follow from that; `within` restricts the runs for which it does.
-/

namespace Fasst.TxProgramRuns

open List Fasst.Dialogues Fasst.FixedTableModel Fasst.FixedTableSpec Fasst.TxModel Fasst.TxCluster
open Fasst.TxLocal Fasst.TxCalls Fasst.TxSteps Fasst.TxInvariant Fasst.TxReplicas Fasst.TxEntries
open Fasst.TxReadOnly Fasst.TxPrograms Fasst.TxProgramRules Fasst.TxSerializable Fasst.TxViews

set_option autoImplicit false

variable {V : Type} {rules : Discipline V} {cfg : Config} {sizes : Nat → Nat → Nat}
  {coro : CoroId} {state next : State V}

/-- What a step does to the transaction of its coroutine. -/
inductive OwnStep (cfg : Config) (coro : CoroId) (tx : TxState V) : Label V → TxState V → Prop where
  | start (at_ : tx.pc = .app) (ended : tx.status = .committed ∨ tx.status = .aborted) :
      OwnStep cfg coro tx (.start coro) .start
  | call (label : Label V) (oldWord : Nat) (after : TxState V)
      (called : callTx cfg oldWord tx label = some after) : OwnStep cfg coro tx label after
  | respond (index : Nat) (stale : UInt64) (req : Request V) (resp : Resp V)
      (waiting : tx.pc ≠ .app) :
      OwnStep cfg coro tx (.handle coro index stale) (tx.respond index req resp)
  | resume (oldWord : Nat) (after : TxState V) (waiting : tx.pc ≠ .app)
      (complete : (tx.batch.filterMap ReqSlot.resp).length = tx.batch.length)
      (run : resumeTx cfg coro oldWord tx (tx.batch.filterMap ReqSlot.resp) = .ok after)
      (moved : LocalMove cfg coro oldWord tx after) : OwnStep cfg coro tx (.resume coro) after

theorem waiting_of_slot {tx : TxState V} (inv : TxInv cfg coro tx) {index : Nat}
    {slot : ReqSlot V} (found : tx.batch[index]? = some slot) : tx.pc ≠ .app := by
  intro at_
  have stage := inv.stage
  simp only [StageInv, at_] at stage
  rw [stage.1] at found
  cases found

theorem own_step {label : Label V} (inv : TxInv cfg label.coro (state.tx label.coro))
    (ran : step cfg state label = some (.ok next)) :
    (∀ other, other ≠ label.coro → next.tx other = state.tx other) ∧
      OwnStep cfg label.coro (state.tx label.coro) label (next.tx label.coro) := by
  have valid := (step_cases inv ran).1
  by_cases call : isCall label = true
  · rw [step_call state valid call] at ran
    obtain ⟨after, run, same⟩ := Option.map_eq_some_iff.mp ran
    rw [← Except.ok.inj same]
    unfold callStep at run
    obtain ⟨tx, called, result⟩ := Option.bind_eq_some_iff.mp run
    rw [← Option.some.inj result]
    constructor
    · intro other different
      rw [tx_set_tx, if_neg different, tx_stage]
    · rw [tx_set_tx_self]
      exact .call label _ tx called
  · unfold step at ran
    rw [if_pos valid] at ran
    cases label with
    | start coro =>
        simp only [Label.coro]
        obtain ⟨after, run, same⟩ := Option.map_eq_some_iff.mp ran
        obtain ⟨at_, ended, result⟩ := start_cases run
        rw [← Except.ok.inj same, result]
        constructor
        · intro other different
          rw [tx_start_state, if_neg different]
        · rw [tx_start_state, if_pos rfl]
          exact .start at_ ended
    | handle coro index stale =>
        simp only [Label.coro]
        rcases handle_cases ran with ⟨req, resp, table, found, run, outcome⟩ |
          ⟨req, crash, found, run, outcome⟩ | ⟨machine, wrkrLid, record, found, outcome⟩
        · rw [Except.ok.inj outcome]
          constructor
          · intro other different
            rw [tx_ds_state, if_neg different]
          · rw [tx_ds_state, if_pos rfl]
            exact .respond index stale _ resp (waiting_of_slot inv found)
        · cases outcome
        · rw [Except.ok.inj outcome]
          unfold logState
          constructor
          · intro other different
            rw [tx_set_tx, if_neg different]
            rfl
          · rw [tx_set_tx_self]
            exact .respond index stale _ _ (waiting_of_slot inv found)
    | resume coro =>
        simp only [Label.coro] at inv ⊢
        simp only [resumeStep, Option.ite_none_right_eq_some] at ran
        obtain ⟨⟨waiting, complete⟩, ran⟩ := ran
        obtain ⟨tx, run, moved⟩ := resume_move inv waiting complete (state.oldWord cfg coro)
        rw [run] at ran
        rw [← Except.ok.inj (Option.some.inj ran)]
        constructor
        · intro other different
          rw [tx_set_tx, if_neg different, tx_stage]
        · rw [tx_set_tx_self]
          exact .resume _ tx waiting complete run moved
    | _ => exact absurd rfl call

section Promises

variable {tx after : TxState V}

/-- The transaction has called `commit`, and it may still succeed or has. -/
def Promised (tx : TxState V) : Prop :=
  Applying tx ∨ (tx.pc = .app ∧ tx.status = .committed)

theorem promised_of_committed (committed : Committed tx) : Promised tx := by
  unfold Committed at committed
  cases at_ : tx.pc with
  | app =>
      rw [at_] at committed
      exact Or.inr ⟨at_, committed⟩
  | log => exact Or.inl (by simp only [Applying, at_])
  | update vec rest => exact Or.inl (by simp only [Applying, at_])
  | _ =>
      rw [at_] at committed
      exact committed.elim

theorem footprint_sends (sends : Sends tx after) : footprint after = footprint tx := by
  rw [footprint, footprint, sends.readSet, sends.writeSet]

theorem footprint_checked {responses : List (Resp V)}
    (sameLength : tx.readSet.length = responses.length) :
    footprint (checkedState tx responses) = footprint tx := by
  have same : (checkedState tx responses).readSet.map (fun item => (item.loc, item.seen)) =
      tx.readSet.map fun item => (item.loc, item.seen) :=
    Aligned.map_eq_of_forall₂ (checked_reads tx sameLength) fun item now checked => by
      rw [loc_same checked.same, checked.seen]
  simp only [footprint, map_append, same]
  rfl

/-- A promise is made in the call of `commit`. -/
theorem promised_call {oldWord : Nat} {label : Label V}
    (called : callTx cfg oldWord tx label = some after) (promised : Promised after) :
    footprint after = footprint tx ∧ (Promised tx ∨ label = .commit label.coro ∨
      label = .commitSingleRead label.coro) := by
  have never : ∀ {other : TxState V}, other.pc = .app → other.status ≠ .committed →
      ¬ Promised other := by
    rintro other at_ status (applying | ⟨_, committed⟩)
    · exact not_applying_at_app at_ applying
    · exact status committed
  have running : ∀ {other : TxState V}, other.pc = .app → other.status = .inProgress →
      ¬ Promised other := fun at_ status => never at_ (by rw [status]; exact TxStatus.noConfusion)
  cases label with
  | start other => cases called
  | addToReadSet other rpcReqtype key objAddr obj =>
      simp only [callTx, Option.ite_none_right_eq_some, Option.some.injEq] at called
      rw [← called.2] at promised
      exact absurd promised (running called.1.1 called.1.2.1)
  | addToWriteSet other rpcReqtype key objAddr obj writeMode =>
      simp only [callTx, Option.ite_none_right_eq_some, Option.some.injEq] at called
      rw [← called.2] at promised
      exact absurd promised (running called.1.1.1 called.1.1.2.1)
  | writeObj other index valSize val =>
      simp only [callTx, Option.ite_none_right_eq_some, Option.some.injEq] at called
      rw [← called.2] at promised
      exact absurd promised (running called.1.1 called.1.2)
  | doRead other =>
      simp only [callTx, Option.ite_none_right_eq_some, Option.some.injEq] at called
      rw [← called.2] at promised
      rcases promised with applying | ⟨at_, _⟩
      · exact applying.elim
      · cases at_
  | commit other =>
      simp only [callTx, Option.ite_none_right_eq_some, Option.some.injEq] at called
      refine ⟨?_, Or.inr (Or.inl rfl)⟩
      rw [← called.2]
      unfold commitCall
      split_ifs
      · exact footprint_sends (commit_start_sends cfg other oldWord tx)
      · rfl
  | commitSingleRead other =>
      simp only [callTx, Option.ite_none_right_eq_some, Option.some.injEq] at called
      refine ⟨?_, Or.inr (Or.inr rfl)⟩
      rw [← called.2]
      rfl
  | abort other =>
      simp only [callTx, Option.ite_none_right_eq_some, Option.some.injEq] at called
      rw [← called.2] at promised
      rcases promised with applying | ⟨_, committed⟩
      · exact absurd applying (abort_start_quiet other tx).2
      · rw [(abort_start_at other tx).1] at committed
        cases committed
  | abortRdonly other =>
      simp only [callTx, Option.ite_none_right_eq_some, Option.some.injEq] at called
      rw [← called.2] at promised
      exact absurd promised (never called.1.1 TxStatus.noConfusion)
  | handle other index stale => cases called
  | resume other => cases called

theorem promised_resume {oldWord : Nat} (inv : TxInv cfg coro tx) (waiting : tx.pc ≠ .app)
    (moved : LocalMove cfg coro oldWord tx after) (promised : Promised after) :
    footprint after = footprint tx ∧ Promised tx := by
  have aborts : ∀ other : TxState V, ¬ Promised (abortStart coro other) := by
    rintro other (applying | ⟨_, committed⟩)
    · exact (abort_start_quiet coro other).2 applying
    · rw [(abort_start_at coro other).1] at committed
      cases committed
  cases moved with
  | addRead _ _ _ _ ok | addWrite _ _ _ _ _ ok _ => exact absurd ok.1 waiting
  | writeObj _ _ _ at_ _ | doRead at_ _ | commit at_ _ _ _ | validate at_ _ _
  | singleRead at_ _ _ _ _ | abort at_ _ _ | abortRdonly at_ _ _ => exact absurd at_ waiting
  | readDone readResps writeResps at_ answers readAligned writeAligned =>
      have stage := inv.stage
      simp only [StageInv, at_] at stage
      rcases promised with applying | ⟨_, committed⟩
      · exact applying.elim
      · simp only [readState, stage.1] at committed
        split_ifs at committed
  | validated responses at_ aligned =>
      refine ⟨?_, Or.inl (by simp only [Applying, at_])⟩
      exact (footprint_sends (commit_start_sends cfg coro oldWord _)).trans
        (footprint_checked aligned.length_eq)
  | refused responses at_ sameLength => exact absurd promised (aborts _)
  | abortDone at_ complete =>
      have stage := inv.stage
      simp only [StageInv, at_] at stage
      rcases promised with applying | ⟨_, committed⟩
      · exact applying.elim
      · rw [stage.1] at committed
        cases committed
  | logDone at_ complete =>
      exact ⟨footprint_sends (update_start_sends coro tx _),
        Or.inl (by simp only [Applying, at_])⟩
  | updateDone vec rest at_ complete =>
      exact ⟨footprint_sends (update_start_sends coro tx _),
        Or.inl (by simp only [Applying, at_])⟩

end Promises

/-- The transactions that have called `commit`, the finished ones among them, keep
what they have promised. -/
def Kept (rules : Discipline V) (state : State V) : Prop :=
  ∀ coro number, number ≤ state.cur coro → Promised (state.txns coro number) →
    rules.keeps (footprint (state.txns coro number))

theorem step_kept {label : Label V} (cluster : ClusterInv cfg sizes state) (kept : Kept rules state)
    (promises : (label = .commit label.coro ∨ label = .commitSingleRead label.coro) →
      rules.keeps (footprint (state.tx label.coro)))
    (ran : step cfg state label = some (.ok next)) : Kept rules next := by
  intro coro number bound promised
  rcases Nat.lt_or_eq_of_le bound with earlier | current
  · obtain ⟨same, place⟩ := step_past cluster ran earlier
    rw [same] at promised ⊢
    exact kept coro number (by omega) promised
  · obtain ⟨others, own⟩ := own_step (cluster.txInv label.coro) ran
    have now : next.txns coro number = next.tx coro := by rw [current, State.tx]
    rw [now] at promised ⊢
    by_cases mine : coro = label.coro
    · rw [← mine] at own promises
      have before := kept coro (state.cur coro) (Nat.le_refl _)
      generalize next.tx coro = after at own promised ⊢
      cases own with
      | start at_ ended =>
          rcases promised with applying | ⟨_, committed⟩
          · exact applying.elim
          · cases committed
      | call _ oldWord _ called =>
          obtain ⟨same, already | fresh⟩ := promised_call called promised
          · rw [same]
            exact before already
          · rw [same]
            rw [← mine] at fresh
            exact promises fresh
      | respond index stale req resp waiting => exact before promised
      | resume oldWord _ waiting _ _ moved =>
          obtain ⟨same, already⟩ := promised_resume (cluster.txInv _) waiting moved promised
          rw [same]
          exact before already
    · rw [others coro mine] at promised ⊢
      exact kept coro (state.cur coro) (Nat.le_refl _) promised

structure AppInv (rules : Discipline V) (cfg : Config) (init : State V) (app : App V) : Prop where
  cluster : ClusterInv cfg (tableSizes init) app.swarm
  entries : Entries rules cfg app.swarm
  readOnly : ReadOnly rules cfg init app.swarm
  controls : ∀ coro, Holds (service rules cfg) (app.control coro) (app.swarm.tx coro)
  kept : Kept rules app.swarm

section Steps

variable {init : State V} {app after : App V} {call : Call V}

/-- A call within its contract keeps the discipline. -/
theorem allowed_disciplined {tx : TxState V} (coro : CoroId) (allowed : Allowed rules call tx) :
    Disciplined rules tx (call.label coro) := by
  cases call with
  | addToWriteSet rpcReqtype key objAddr obj writeMode => exact allowed.2.2
  | commit => exact allowed.2.2.2.1
  | _ => trivial

theorem allowed_promises {tx : TxState V} (coro : CoroId) (allowed : Allowed rules call tx)
    (commits : call.label coro = .commit (call.label coro).coro ∨
      call.label coro = .commitSingleRead (call.label coro).coro) :
    rules.keeps (footprint tx) := by
  cases call with
  | commit => exact allowed.2.2.2.2
  | commitSingleRead => exact allowed.2.2.2.2.2
  | _ => rcases commits with same | same <;> cases same

/-- A call within its contract is accepted. -/
theorem allowed_accepted (valid : cfg.Valid coro) (allowed : Allowed rules call (state.tx coro))
    (moves : idleCall (state.tx coro) call = false) :
    ∃ next, step cfg state (call.label coro) = some (.ok next) := by
  have called : ∀ {label : Label V} {tx : TxState V}, label.coro = coro → isCall label = true →
      callTx cfg (state.oldWord cfg coro) (state.tx coro) label = some tx →
      ∃ next, step cfg state label = some (.ok next) := by
    intro label tx mine kind run
    refine ⟨(state.stage cfg coro tx).setTx coro tx, ?_⟩
    rw [step_call state (by rw [mine]; exact valid) kind, callStep, mine, run]
    rfl
  cases call with
  | start =>
      refine ⟨startState state coro, ?_⟩
      have started : startStep state coro = some (startState state coro) := if_pos allowed
      have ran : step cfg state (.start coro) = (startStep state coro).map Except.ok := if_pos valid
      exact ran.trans (by rw [started]; rfl)
  | addToReadSet rpcReqtype key objAddr obj =>
      exact called rfl rfl (if_pos allowed)
  | addToWriteSet rpcReqtype key objAddr obj writeMode =>
      exact called rfl rfl (if_pos ⟨allowed.1, allowed.2.1⟩)
  | writeObj index valSize val =>
      exact called rfl rfl (if_pos ⟨allowed.1, allowed.2.1⟩)
  | doRead =>
      exact called rfl rfl (if_pos allowed)
  | commit =>
      exact called rfl rfl (if_pos ⟨allowed.1, allowed.2.1, allowed.2.2.1⟩)
  | commitSingleRead =>
      exact called rfl rfl (if_pos ⟨allowed.1, allowed.2.1, allowed.2.2.1, allowed.2.2.2.1, allowed.2.2.2.2.1⟩)
  | abort =>
      exact called rfl rfl (if_pos allowed)
  | abortRdonly =>
      obtain ⟨at_, open_, noWrites⟩ := allowed
      have status : (state.tx coro).status = .inProgress ∨ (state.tx coro).status = .mustAbort := by
        have notAborted := of_decide_eq_false moves
        cases status : (state.tx coro).status with
        | inProgress => exact Or.inl rfl
        | mustAbort => exact Or.inr rfl
        | committed => exact absurd status open_
        | aborted => exact absurd status notAborted
      exact called rfl rfl (if_pos ⟨at_, status, noWrites⟩)

/-- A step of the swarm inside a call. -/
theorem swarm_controls {label : Label V} (inv : AppInv rules cfg init app)
    (ran : step cfg app.swarm label = some (.ok next))
    (own : OwnStep cfg label.coro (app.swarm.tx label.coro) label (next.tx label.coro) →
      Holds (service rules cfg) (app.control label.coro) (next.tx label.coro)) :
    ∀ coro, Holds (service rules cfg) (app.control coro) (next.tx coro) := by
  obtain ⟨others, moved⟩ := own_step (inv.cluster.txInv label.coro) ran
  intro coro
  by_cases mine : coro = label.coro
  · rw [mine]
    exact own moved
  · rw [others coro mine]
    exact inv.controls coro

theorem allowed_at_app {tx : TxState V} (allowed : Allowed rules call tx) : tx.pc = .app := by
  cases call with
  | addToWriteSet rpcReqtype key objAddr obj writeMode => exact allowed.1.1
  | _ => exact allowed.1

theorem safe_at_app {txn : Txn V} {tx : TxState V} (safe : Safe (service rules cfg) txn tx) :
    tx.pc = .app := by
  cases txn with
  | done => exact safe.1
  | exit => exact safe.elim
  | call next rest => exact allowed_at_app safe.1

theorem waiting_moves {tx moved : TxState V} {control : Control (Call V) (Reply V)}
    (holds : Holds (service rules cfg) control tx) (waiting : tx.pc ≠ .app)
    (inside : ∀ call before, Inside rules cfg call before tx → Inside rules cfg call before moved) :
    Holds (service rules cfg) control moved := by
  cases control with
  | ready txn => exact absurd (safe_at_app holds) waiting
  | waiting call rest => exact holds_inside holds fun before => inside call before

theorem handle_controls {index : Nat} {stale : UInt64} (inv : AppInv rules cfg init app)
    (ran : step cfg app.swarm (.handle coro index stale) = some (.ok next)) :
    ∀ other, Holds (service rules cfg) (app.control other) (next.tx other) := by
  refine swarm_controls inv ran fun own => ?_
  have holds := inv.controls coro
  simp only [Label.coro] at own ⊢
  generalize next.tx coro = moved at own ⊢
  cases own with
  | call _ _ _ called => cases called
  | respond _ _ req resp waiting =>
      exact waiting_moves holds waiting fun call before inside =>
        respond_inside waiting inside index req resp

theorem resume_controls (inv : AppInv rules cfg init app)
    (ran : step cfg app.swarm (.resume coro) = some (.ok next)) :
    ∀ other, Holds (service rules cfg) (app.control other) (next.tx other) := by
  refine swarm_controls inv ran fun own => ?_
  have holds := inv.controls coro
  simp only [Label.coro] at own ⊢
  generalize next.tx coro = moved at own ⊢
  cases own with
  | call _ _ _ called => cases called
  | resume oldWord _ waiting complete run moved =>
      exact waiting_moves holds waiting fun call before inside =>
        resume_inside (inv.cluster.txInv coro) (inv.entries.locals coro) waiting inside moved
          fun at_ aborted => refused_reason (inv.cluster.txInv coro) (inv.readOnly.locals coro) at_
            complete run aborted

theorem call_controls {rest : Reply V → Txn V} (inv : AppInv rules cfg init app)
    (at_ : app.control coro = .ready (.call call rest))
    (ran : step cfg app.swarm (call.label coro) = some (.ok next)) (other : CoroId) :
    Holds (service rules cfg) ((app.setControl coro (.waiting call rest)).control other)
      (next.tx other) := by
  obtain ⟨others, own⟩ := own_step (inv.cluster.txInv _) ran
  rw [label_coro] at others own
  rw [control_set_control]
  split_ifs with mine
  · have holds := inv.controls coro
    rw [at_] at holds
    rw [mine]
    refine holds_call holds ?_
    change Inside rules cfg call (app.swarm.tx coro) (next.tx coro)
    generalize next.tx coro = moved at own ⊢
    generalize given : call.label coro = label at own
    cases own with
    | start _ _ =>
        cases call with
        | start => rfl
        | _ => cases given
    | call _ oldWord _ called => exact call_inside (by rw [given]; exact called)
    | respond _ _ _ _ _ => cases call <;> cases given
    | resume _ _ _ _ _ _ => cases call <;> cases given
  · rw [others other mine]
    exact inv.controls other

/-- One step of the applications. -/
theorem app_step_inv {workload : Txn V → Prop} {label : AppLabel V}
    (safe : ∀ txn, workload txn → ∀ tx, (service rules cfg).ended tx →
      Safe (service rules cfg) txn tx)
    (learned : ∀ coro, (app.swarm.tx coro).pc = .app → (app.swarm.tx coro).status = .committed →
      rules.learns (app.swarm.tx coro))
    (inv : AppInv rules cfg init app) (listed : Listed workload label)
    (ran : appStep cfg app label = some (.ok after)) : AppInv rules cfg init after := by
  have quiet : ∀ (coro : CoroId) (control : Control (Call V) (Reply V)),
      Holds (service rules cfg) control (app.swarm.tx coro) →
        AppInv rules cfg init (app.setControl coro control) := by
    intro coro control holds
    refine ⟨inv.cluster, inv.entries, inv.readOnly, ?_, inv.kept⟩
    intro other
    rw [control_set_control]
    split_ifs with mine
    · rw [mine]
      exact holds
    · exact inv.controls other
  cases app_step_cases ran with
  | begin_ coro txn at_ =>
      have holds := inv.controls coro
      rw [at_] at holds
      exact quiet coro _ (safe txn listed _ holds)
  | idle coro rest at_ aborted =>
      have holds := inv.controls coro
      rw [at_] at holds
      exact quiet coro _ (holds_call holds ⟨holds.1.1, aborted⟩)
  | call coro call rest swarm at_ taken =>
      have holds := inv.controls coro
      rw [at_] at holds
      have allowed : Allowed rules call (app.swarm.tx coro) := holds.1
      refine ⟨step_inv inv.cluster taken, ?_, step_read_only inv.cluster inv.entries inv.readOnly taken,
        call_controls inv at_ taken, ?_⟩
      · refine step_entries inv.cluster inv.entries ?_ taken
        rw [label_coro]
        exact allowed_disciplined coro allowed
      · refine step_kept inv.cluster inv.kept ?_ taken
        rw [label_coro]
        intro commits
        exact allowed_promises coro allowed (by rw [label_coro]; exact commits)
  | return_ coro call rest at_ back =>
      have holds := inv.controls coro
      rw [at_] at holds
      exact quiet coro _ (holds_return holds ⟨back, learned coro back⟩)
  | handle coro index stale swarm taken =>
      have entries : Entries rules cfg swarm := step_entries inv.cluster inv.entries (by trivial) taken
      have controls := handle_controls inv taken
      have readOnly := step_read_only inv.cluster inv.entries inv.readOnly taken
      refine ⟨step_inv inv.cluster taken, entries, readOnly, controls,
        step_kept inv.cluster inv.kept ?_ taken⟩
      rintro (same | same) <;> cases same
  | resume coro swarm taken =>
      have entries : Entries rules cfg swarm := step_entries inv.cluster inv.entries (by trivial) taken
      have controls := resume_controls inv taken
      have readOnly := step_read_only inv.cluster inv.entries inv.readOnly taken
      refine ⟨step_inv inv.cluster taken, entries, readOnly, controls,
        step_kept inv.cluster inv.kept ?_ taken⟩
      rintro (same | same) <;> cases same

end Steps

section Runs

variable {workload : Txn V → Prop} {init : State V} {app : App V}

theorem launch_inv (initial : Initial cfg init) (entries : Entries rules cfg init) :
    AppInv rules cfg init (.launch init) := by
  refine ⟨initial_inv initial, entries, initial_read_only initial, ?_, ?_⟩
  · intro coro
    have idle : init.tx coro = .construct := initial.txns coro _
    change (service rules cfg).ended (init.tx coro)
    rw [idle]
    exact ⟨rfl, Or.inr rfl⟩
  · intro coro number _ promised
    change Promised (init.txns coro number) at promised
    rw [initial.txns] at promised
    rcases promised with applying | ⟨_, committed⟩
    · exact applying.elim
    · cases committed

/-- The run lemma. -/
theorem app_inv (initial : Initial cfg init) (entries : Entries rules cfg init)
    (safe : ∀ txn, workload txn → ∀ tx, (service rules cfg).ended tx →
      Safe (service rules cfg) txn tx)
    {within : State V → Prop}
    (earlier : ∀ state label next, Reachable cfg init state →
      step cfg state label = some (.ok next) → within next → within state)
    (teaches : ∀ app, AppReachable cfg workload (.launch init) app → within app.swarm →
      AppInv rules cfg init app → ∀ coro, (app.swarm.tx coro).pc = .app →
        (app.swarm.tx coro).status = .committed → rules.learns (app.swarm.tx coro))
    (reached : AppReachable cfg workload (.launch init) app) (inside : within app.swarm) :
    AppInv rules cfg init app := by
  induction reached with
  | refl => exact launch_inv initial entries
  | @step before next label reached move ih =>
      obtain ⟨listed, ran⟩ := move
      have below := swarm_reachable reached
      have still : within before.swarm := by
        rcases app_step_swarm ran with same | ⟨moved, _, taken⟩
        · rw [← same]
          exact inside
        · exact earlier _ moved _ below taken inside
      have inv := ih still
      exact app_step_inv safe (teaches before reached still inv) inv listed ran

/-- A workload that relies on nothing after its commits. -/
theorem app_inv_always (initial : Initial cfg init) (entries : Entries rules cfg init)
    (safe : ∀ txn, workload txn → ∀ tx, (service rules cfg).ended tx →
      Safe (service rules cfg) txn tx)
    (learns : ∀ tx, rules.learns tx)
    (reached : AppReachable cfg workload (.launch init) app) :
    AppInv rules cfg init app := by
  have always : ∀ state label next, Reachable cfg init state →
      step cfg state label = some (.ok next) → True → True := fun _ _ _ _ _ within => within
  exact app_inv initial entries safe always (fun _ _ _ _ _ _ _ => learns _) reached trivial

theorem few_unlocks_of_app_run {labels : List (AppLabel V)} (initial : Initial cfg init)
    (ran : runApp cfg (.launch init) labels = some app) (short : labels.length < 2 ^ 60) :
    FewUnlocks init app.swarm := by
  obtain ⟨below, length, _, run⟩ := run_app_labels ran
  exact few_unlocks_of_run initial run (Nat.lt_of_le_of_lt length short)

/-- A run changes the transactions of the coroutines that take part in it. -/
theorem run_others {labels : List (Label V)} (cluster : ClusterInv cfg sizes state)
    (ran : runLabels cfg state labels = some next)
    (others : ∀ label ∈ labels, coro ≠ label.coro) : next.tx coro = state.tx coro := by
  induction labels generalizing state with
  | nil => rw [Option.some.inj ran]
  | cons label rest ih =>
      rw [runLabels] at ran
      split at ran
      · rename_i after taken
        have later := ih (step_inv cluster taken) ran
          fun other member => others other (mem_cons_of_mem _ member)
        exact later.trans ((own_step (cluster.txInv _) taken).1 coro (others label mem_cons_self))
      · cases ran

theorem settled_of_app_run {labels : List (AppLabel V)} (initial : Initial cfg init)
    (ran : runApp cfg (.launch init) labels = some app) (coros : List CoroId)
    (covered : ∀ label ∈ labels, label.coro ∈ coros)
    (ended : ∀ coro ∈ coros, (app.swarm.tx coro).pc = .app ∧
      ((app.swarm.tx coro).status = .committed ∨ (app.swarm.tx coro).status = .aborted))
    (coro : CoroId) : ¬ InProgress (app.swarm.tx coro) := by
  rw [InProgress, not_not]
  by_cases member : coro ∈ coros
  · exact ended coro member
  · obtain ⟨below, _, coros, run⟩ := run_app_labels ran
    have others : ∀ label ∈ below, coro ≠ label.coro := by
      rintro label inside rfl
      obtain ⟨driver, listed, same⟩ := mem_map.mp (coros label inside)
      exact member (by rw [← same]; exact covered driver listed)
    rw [run_others (initial_inv initial) run others, State.tx, initial.txns]
    exact ⟨rfl, Or.inr rfl⟩

/-- The steps of a call that sends batches of the given sizes. -/
def callSteps (coro : CoroId) (batches : List Nat) : List (AppLabel V) :=
  .call coro :: batches.flatMap (fun requests =>
    (range requests).map (.handle coro · 0) ++ [.resume coro]) ++ [.return_ coro]

/-- A transaction function on its own, by the batches of its calls. -/
def turn (coro : CoroId) (txn : Txn V) (batches : List (List Nat)) : List (AppLabel V) :=
  .begin_ coro txn :: batches.flatMap (callSteps coro)

theorem turn_listed {txn : Txn V} (listed : workload txn) (coro : CoroId)
    (batches : List (List Nat)) : ∀ label ∈ turn coro txn batches, Listed workload label := by
  intro label member
  cases label with
  | begin_ other started =>
      simp only [turn, callSteps, mem_cons, mem_flatMap, mem_append, mem_map, AppLabel.begin_.injEq,
        reduceCtorEq, and_false, exists_false, not_mem_nil, or_false] at member
      rw [member.2]
      exact listed
  | _ => trivial

/-- The process of a coroutine has ended at an `exit` of its program. -/
def Exited (app : App V) (coro : CoroId) : Prop := app.control coro = .ready .exit

/-- No coroutine has exited, and a coroutine that is about to make a call can make it. -/
structure Undisturbed (cfg : Config) (app : App V) : Prop where
  running : ∀ coro, ¬ Exited app coro
  accepted : ∀ coro, cfg.Valid coro → ∀ call rest, app.control coro = .ready (.call call rest) →
    ∃ next, appStep cfg app (.call coro) = some (.ok next)

theorem undisturbed_of_inv (inv : AppInv rules cfg init app) : Undisturbed cfg app := by
  constructor
  · intro coro exited
    have holds := inv.controls coro
    rw [show app.control coro = _ from exited] at holds
    exact holds
  · intro coro valid call rest at_
    have holds := inv.controls coro
    rw [at_] at holds
    simp only [appStep, at_]
    by_cases idle : idleCall (app.swarm.tx coro) call = true
    · exact ⟨_, if_pos idle⟩
    · rw [if_neg idle]
      obtain ⟨next, taken⟩ := allowed_accepted valid holds.1 (Bool.eq_false_iff.mpr idle)
      refine ⟨{ app.setControl coro (.waiting call rest) with swarm := next }, ?_⟩
      rw [swarmStep, swarm_set_control, taken]
      rfl

end Runs

end Fasst.TxProgramRuns

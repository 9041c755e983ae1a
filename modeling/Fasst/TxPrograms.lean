import Fasst.TxSteps
import Fasst.Dialogues

/-!
# Applications on top of the swarm

The loop of a coroutine picks one transaction function after the other. Such a
function is a program of calls of `Tx` and of writes to the buffers of its write
set; between two calls it sees its status and its buffers. All coroutines run
their programs over one swarm, and every step of the swarm inside a call is a
step of its own.

`abort_rdonly` only assigns the status, so that it changes nothing when the
transaction is aborted already. `exit` stands for `exit(-1)` and for an assertion
of the application that fails.
-/

namespace Fasst.TxPrograms

open Fasst.Dialogues Fasst.TxModel Fasst.TxCluster Fasst.TxSteps
open Fasst.Runs (RunsTo)

set_option autoImplicit false

variable {V : Type}

inductive Call (V : Type) where
  | start
  | addToReadSet (rpcReqtype : Nat) (key objAddr : UInt64) (obj : HotsObj V)
  | addToWriteSet (rpcReqtype : Nat) (key objAddr : UInt64) (obj : HotsObj V)
      (writeMode : TxWriteMode)
  | writeObj (index valSize : Nat) (val : V)
  | doRead
  | commit
  | commitSingleRead
  | abort
  | abortRdonly

def Call.label (coro : CoroId) : Call V → Label V
  | .start => .start coro
  | .addToReadSet rpcReqtype key objAddr obj => .addToReadSet coro rpcReqtype key objAddr obj
  | .addToWriteSet rpcReqtype key objAddr obj writeMode =>
      .addToWriteSet coro rpcReqtype key objAddr obj writeMode
  | .writeObj index valSize val => .writeObj coro index valSize val
  | .doRead => .doRead coro
  | .commit => .commit coro
  | .commitSingleRead => .commitSingleRead coro
  | .abort => .abort coro
  | .abortRdonly => .abortRdonly coro

/-- What the application sees of its transaction. -/
structure Reply (V : Type) where
  status : TxStatus
  reads : List (HotsObj V)
  writes : List (HotsObj V)

def replyOf (tx : TxState V) : Reply V where
  status := tx.status
  reads := tx.readSet.map RwsetItem.obj
  writes := tx.writeSet.map RwsetItem.obj

abbrev Txn (V : Type) := Program (Call V) (Reply V)

/-- A key that an application adds, with the place and the contents of its buffer. -/
structure Addition (V : Type) where
  key : UInt64
  objAddr : UInt64
  obj : HotsObj V

def Addition.item (cfg : Config) (rpcReqtype : Nat) (writeMode : TxWriteMode)
    (addition : Addition V) : RwsetItem V :=
  newItem cfg rpcReqtype addition.key addition.objAddr addition.obj writeMode

def Addition.read (rpcReqtype : Nat) (addition : Addition V) : Call V :=
  .addToReadSet rpcReqtype addition.key addition.objAddr addition.obj

def Addition.write (rpcReqtype : Nat) (writeMode : TxWriteMode) (addition : Addition V) : Call V :=
  .addToWriteSet rpcReqtype addition.key addition.objAddr addition.obj writeMode

structure App (V : Type) where
  swarm : State V
  control : CoroId → Control (Call V) (Reply V)

inductive AppLabel (V : Type) where
  | begin_ (coro : CoroId) (txn : Txn V)
  | call (coro : CoroId)
  | return_ (coro : CoroId)
  | handle (coro : CoroId) (index : Nat) (stale : UInt64)
  | resume (coro : CoroId)

def AppLabel.coro : AppLabel V → CoroId
  | .begin_ coro _ => coro
  | .call coro => coro
  | .return_ coro => coro
  | .handle coro _ _ => coro
  | .resume coro => coro

namespace App

def setControl (app : App V) (coro : CoroId) (control : Control (Call V) (Reply V)) : App V :=
  { app with control := Function.update app.control coro control }

def launch (swarm : State V) : App V where
  swarm := swarm
  control _ := .ready .done

end App

def idleCall (tx : TxState V) : Call V → Bool
  | .abortRdonly => decide (tx.status = .aborted)
  | _ => false

def swarmStep (cfg : Config) (app : App V) (label : Label V) : Option (Except Crash (App V)) :=
  (step cfg app.swarm label).map fun outcome =>
    outcome.map fun swarm => { app with swarm := swarm }

def appStep (cfg : Config) (app : App V) : AppLabel V → Option (Except Crash (App V))
  | .begin_ coro txn =>
      match app.control coro with
      | .ready .done => some (.ok (app.setControl coro (.ready txn)))
      | _ => none
  | .call coro =>
      match app.control coro with
      | .ready (.call next rest) =>
          let after := app.setControl coro (.waiting next rest)
          if idleCall (app.swarm.tx coro) next then some (.ok after)
          else swarmStep cfg after (next.label coro)
      | _ => none
  | .return_ coro =>
      match app.control coro with
      | .waiting _ rest =>
          if (app.swarm.tx coro).pc = .app then
            some (.ok (app.setControl coro (.ready (rest (replyOf (app.swarm.tx coro))))))
          else none
      | _ => none
  | .handle coro index stale => swarmStep cfg app (.handle coro index stale)
  | .resume coro => swarmStep cfg app (.resume coro)

/-- The transactions that a step begins are those of the workload. -/
def Listed (workload : Txn V → Prop) : AppLabel V → Prop
  | .begin_ _ txn => workload txn
  | _ => True

abbrev AppReachable (cfg : Config) (workload : Txn V → Prop) (init : App V) : App V → Prop :=
  RunsTo (fun app label next => Listed workload label ∧ appStep cfg app label = some (.ok next)) init

/-- The state after a run of the given steps, if each of them runs to its end. -/
def runApp (cfg : Config) : App V → List (AppLabel V) → Option (App V)
  | app, [] => some app
  | app, label :: rest =>
      match appStep cfg app label with
      | some (.ok next) => runApp cfg next rest
      | _ => none

section Steps

variable {cfg : Config} {workload : Txn V → Prop} {init app next : App V}

@[simp] theorem swarm_set_control (coro : CoroId) (control : Control (Call V) (Reply V)) :
    (app.setControl coro control).swarm = app.swarm := rfl

theorem control_set_control (coro other : CoroId) (control : Control (Call V) (Reply V)) :
    (app.setControl coro control).control other =
      if other = coro then control else app.control other := by
  simp only [App.setControl, Function.update_apply]

theorem swarm_step_cases {label : Label V} (ran : swarmStep cfg app label = some (.ok next)) :
    ∃ swarm, step cfg app.swarm label = some (.ok swarm) ∧
      next = { app with swarm := swarm } := by
  obtain ⟨outcome, taken, same⟩ := Option.map_eq_some_iff.mp ran
  cases outcome with
  | error crash => cases same
  | ok swarm => exact ⟨swarm, taken, (Except.ok.inj same).symm⟩

/-- What a step of the applications that runs to its end can be. -/
inductive AppCase (cfg : Config) (app : App V) : AppLabel V → App V → Prop where
  | begin_ (coro : CoroId) (txn : Txn V) (at_ : app.control coro = .ready .done) :
      AppCase cfg app (.begin_ coro txn) (app.setControl coro (.ready txn))
  | idle (coro : CoroId) (rest : Reply V → Txn V)
      (at_ : app.control coro = .ready (.call .abortRdonly rest))
      (aborted : (app.swarm.tx coro).status = .aborted) :
      AppCase cfg app (.call coro) (app.setControl coro (.waiting .abortRdonly rest))
  | call (coro : CoroId) (next : Call V) (rest : Reply V → Txn V) (swarm : State V)
      (at_ : app.control coro = .ready (.call next rest))
      (taken : step cfg app.swarm (next.label coro) = some (.ok swarm)) :
      AppCase cfg app (.call coro)
        { app.setControl coro (.waiting next rest) with swarm := swarm }
  | return_ (coro : CoroId) (call : Call V) (rest : Reply V → Txn V)
      (at_ : app.control coro = .waiting call rest) (back : (app.swarm.tx coro).pc = .app) :
      AppCase cfg app (.return_ coro)
        (app.setControl coro (.ready (rest (replyOf (app.swarm.tx coro)))))
  | handle (coro : CoroId) (index : Nat) (stale : UInt64) (swarm : State V)
      (taken : step cfg app.swarm (.handle coro index stale) = some (.ok swarm)) :
      AppCase cfg app (.handle coro index stale) { app with swarm := swarm }
  | resume (coro : CoroId) (swarm : State V)
      (taken : step cfg app.swarm (.resume coro) = some (.ok swarm)) :
      AppCase cfg app (.resume coro) { app with swarm := swarm }

theorem app_step_cases {label : AppLabel V} (ran : appStep cfg app label = some (.ok next)) :
    AppCase cfg app label next := by
  cases label with
  | begin_ coro txn =>
      simp only [appStep] at ran
      split at ran
      · rename_i at_
        cases ran
        exact .begin_ coro txn at_
      · cases ran
  | call coro =>
      simp only [appStep] at ran
      split at ran
      · rename_i call rest at_
        split_ifs at ran with idle
        · cases ran
          cases call with
          | abortRdonly => exact .idle coro rest at_ (of_decide_eq_true idle)
          | _ => cases idle
        · obtain ⟨swarm, taken, same⟩ := swarm_step_cases ran
          rw [same]
          exact .call coro call rest swarm at_ taken
      · cases ran
  | return_ coro =>
      simp only [appStep] at ran
      split at ran
      · rename_i call rest at_
        split_ifs at ran with back
        cases ran
        exact .return_ coro call rest at_ back
      · cases ran
  | handle coro index stale =>
      obtain ⟨swarm, taken, same⟩ := swarm_step_cases ran
      rw [same]
      exact .handle coro index stale swarm taken
  | resume coro =>
      obtain ⟨swarm, taken, same⟩ := swarm_step_cases ran
      rw [same]
      exact .resume coro swarm taken

theorem label_coro (coro : CoroId) (call : Call V) : (call.label coro).coro = coro := by
  cases call <;> rfl

/-- A step of the applications leaves the swarm, or it is a step of the swarm. -/
theorem app_step_swarm {label : AppLabel V} (ran : appStep cfg app label = some (.ok next)) :
    next.swarm = app.swarm ∨ ∃ below : Label V, below.coro = label.coro ∧
      step cfg app.swarm below = some (.ok next.swarm) := by
  cases app_step_cases ran with
  | begin_ coro txn at_ => exact Or.inl rfl
  | idle coro rest at_ aborted => exact Or.inl rfl
  | call coro call rest swarm at_ taken => exact Or.inr ⟨_, label_coro coro call, taken⟩
  | return_ coro call rest at_ back => exact Or.inl rfl
  | handle coro index stale swarm taken => exact Or.inr ⟨_, rfl, taken⟩
  | resume coro swarm taken => exact Or.inr ⟨_, rfl, taken⟩

/-- A run of applications is a run of the swarm below them. -/
theorem swarm_reachable (reached : AppReachable cfg workload init app) :
    Reachable cfg init.swarm app.swarm := by
  induction reached with
  | refl => exact .refl
  | step label _ ran ih =>
      rcases app_step_swarm ran.2 with same | ⟨below, _, taken⟩
      · rw [same]
        exact ih
      · exact .step below ih taken

theorem run_app_labels {labels : List (AppLabel V)} (ran : runApp cfg app labels = some next) :
    ∃ below : List (Label V), below.length ≤ labels.length ∧
      (∀ label ∈ below, label.coro ∈ labels.map AppLabel.coro) ∧
      runLabels cfg app.swarm below = some next.swarm := by
  induction labels generalizing app with
  | nil =>
      rw [Option.some.inj ran]
      exact ⟨[], Nat.le_refl _, fun _ member => (by cases member), rfl⟩
  | cons label rest ih =>
      rw [runApp] at ran
      split at ran
      · rename_i after taken
        obtain ⟨below, length, coros, run⟩ := ih ran
        have later : ∀ other ∈ below, other.coro ∈ (label :: rest).map AppLabel.coro :=
          fun other member => List.mem_cons_of_mem _ (coros other member)
        rcases app_step_swarm taken with same | ⟨first, coro, moved⟩
        · rw [same] at run
          exact ⟨below, Nat.le_succ_of_le length, later, run⟩
        · refine ⟨first :: below, Nat.succ_le_succ length, ?_, by rw [runLabels, moved]; exact run⟩
          intro other member
          rcases List.mem_cons.mp member with rfl | inside
          · rw [coro]
            exact List.mem_cons_self
          · exact later other inside
      · cases ran

theorem run_app_reachable (labels : List (AppLabel V)) (listed : ∀ label ∈ labels, Listed workload label)
    (reached : AppReachable cfg workload init app) (ran : runApp cfg app labels = some next) :
    AppReachable cfg workload init next := by
  induction labels generalizing app with
  | nil =>
      rw [← Option.some.inj ran]
      exact reached
  | cons label rest ih =>
      rw [runApp] at ran
      split at ran
      · rename_i after taken
        exact ih (fun other member => listed other (List.mem_cons_of_mem _ member))
          (.step label reached ⟨listed label List.mem_cons_self, taken⟩) ran
      · cases ran

end Steps

end Fasst.TxPrograms

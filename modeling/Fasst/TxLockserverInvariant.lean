import Fasst.TxLockserver
import Fasst.TxInvariant

/-!
# Grants and bucket locks in lock-server mode

A step is careful when it keeps to transactions that call `do_read` once, after
all their items have been added, and that have no item locked in a table when
they abort after the lock server has granted their request. Careful steps keep
the ledger in line with what each coroutine is doing: its grants are those of
the request it is making or holds.
-/

namespace Fasst.TxLockserverInvariant

open List Fasst.FixedTableModel Fasst.FixedTableLocks Fasst.FixedTableEdits Fasst.FixedTableSpec
open Fasst.TxModel Fasst.TxCluster Fasst.Aligned Fasst.TxLocal Fasst.TxCalls Fasst.TxSteps
open Fasst.TxLocks Fasst.TxInvariant Fasst.LockserverModel Fasst.LockserverGrants Fasst.TxLockserver

set_option autoImplicit false

variable {V : Type} {cfg : LsConfig} {debug : Bool} {sizes : Nat → Nat → Nat}
  {state next : LsState V} {coro : CoroId}

def Careful (state : LsState V) : LsLabel V → Prop
  | .addToReadSet coro _ _ _ _ | .addToWriteSet coro _ _ _ _ _ | .doRead coro =>
      (state.locals coro).lockserverLocked = false
  | .abort coro => (state.locals coro).lockserverLocked = true →
      ∀ item ∈ (state.tx coro).writeSet, item.execWsLocked = false
  | _ => True

instance (state : LsState V) : (label : LsLabel V) → Decidable (Careful state label)
  | .addToReadSet _ _ _ _ _ | .addToWriteSet _ _ _ _ _ _ | .doRead _ =>
      inferInstanceAs (Decidable (_ = _))
  | .abort coro => inferInstanceAs (Decidable (_ → ∀ item ∈ (state.tx coro).writeSet, _ = _))
  | .start _ | .writeObj _ _ _ _ | .commit _ | .serve _ | .answered _ | .handle _ _ _
  | .resume _ => inferInstanceAs (Decidable True)

def okStep (cfg : LsConfig) (debug : Bool) (state : LsState V) (label : LsLabel V) :
    Option (LsState V) :=
  match lsStep cfg debug state label with
  | some (.ok next) => some next
  | _ => none

def carefulStep (cfg : LsConfig) (debug : Bool) (state : LsState V) (label : LsLabel V) :
    Option (LsState V) :=
  if Careful state label then okStep cfg debug state label else none

/-- Where a coroutine is, and the entries it has been granted at that point. -/
inductive Phase (tx : TxState V) (own : LsLocal) : List LockKey → Prop where
  | idle (call : own.call = none) (unlocked : own.lockserverLocked = false) (at_ : tx.pc = .app)
      (untouched : ∀ loc, granted tx loc = false)
      (refused : own.refused = true → tx.status = .inProgress) : Phase tx own []
  | locking (grantedKeys todo : List LockKey) (call : own.call = some (.locking grantedKeys todo))
      (unlocked : own.lockserverLocked = false) (calm : own.refused = false) (at_ : tx.pc = .app)
      (untouched : ∀ loc, granted tx loc = false) (running : tx.status = .inProgress)
      (all : grantedKeys.reverse ++ todo = lockserverKeys tx) : Phase tx own grantedKeys
  | rolling (todo : List LockKey) (call : own.call = some (.releasing todo .fail))
      (unlocked : own.lockserverLocked = false) (at_ : tx.pc = .app)
      (untouched : ∀ loc, granted tx loc = false) (running : tx.status = .inProgress)
      (few : todo.length ≤ rpcMaxMsgCoro) : Phase tx own todo
  | running (call : own.call = none) (locked : own.lockserverLocked = true)
      (calm : own.refused = false) (active : tx.status = .inProgress ∨ tx.status = .mustAbort)
      (notValidating : tx.pc ≠ .validate) (notAborting : tx.pc ≠ .abort) :
      Phase tx own (lockserverKeys tx)
  | releasing (todo : List LockKey) (call : own.call = some (.releasing todo .success))
      (calm : own.refused = false) (at_ : tx.pc = .app)
      (ended : tx.status = .committed ∨ tx.status = .aborted)
      (few : todo.length ≤ rpcMaxMsgCoro) : Phase tx own todo
  | ended (call : own.call = none) (calm : own.refused = false) (at_ : tx.pc = .app)
      (ended : tx.status = .committed ∨ tx.status = .aborted) : Phase tx own []

/-- The grants in the ledger are those the coroutines know of. -/
structure Booked (cfg : LsConfig) (state : LsState V) : Prop where
  phases : ∀ coro, cfg.data.Valid coro → ∃ held,
    Phase (state.tx coro) (state.locals coro) held ∧
      ∀ key, state.ledger.grants.count ⟨callerId coro, key⟩ = held.count key
  requesters : ∀ grant ∈ state.ledger.grants, ∃ coro, cfg.data.Valid coro ∧
    grant.requesterId = callerId coro

structure LsInv (cfg : LsConfig) (sizes : Nat → Nat → Nat) (state : LsState V) : Prop where
  data : ClusterInv cfg.data sizes state.cluster
  power : state.ledger.server.numLocks = 2 ^ cfg.lockBits
  slots : state.ledger.Inv
  booked : Booked cfg state

section Keys

variable {tx after : TxState V} {own : LsLocal} {held : List LockKey}

theorem lockserver_keys_same (reads : Forall₂ SameItem tx.readSet after.readSet)
    (writes : Forall₂ SameItem tx.writeSet after.writeSet) :
    lockserverKeys after = lockserverKeys tx := by
  unfold lockserverKeys
  congr 1
  · exact map_eq_of_forall₂ writes fun item entry same => by rw [same.keyhash]
  · exact map_eq_of_forall₂ reads fun item entry same => by rw [same.keyhash]

theorem lockserver_keys_length (tx : TxState V) :
    (lockserverKeys tx).length = tx.readSet.length + tx.writeSet.length := by
  rw [lockserverKeys, length_append, length_map, length_map, Nat.add_comm]

theorem phase_few {config : Config} (inv : TxInv config coro tx) (phase : Phase tx own held) :
    held.length ≤ rpcMaxMsgCoro := by
  have size := inv.size
  rw [← lockserver_keys_length] at size
  cases phase with
  | idle => exact Nat.zero_le _
  | locking grantedKeys todo call unlocked calm at_ untouched running all =>
      rw [← all, length_append, length_reverse] at size
      omega
  | rolling todo call unlocked at_ untouched running few => exact few
  | running => exact size
  | releasing todo call calm at_ ended few => exact few
  | ended => exact Nat.zero_le _

end Keys

section Counting

variable {grants : List Grant}

theorem requester_count {held : List LockKey} {requesterId : Nat}
    (counts : ∀ key, grants.count ⟨requesterId, key⟩ = held.count key) :
    grants.countP (fun grant => grant.requesterId = requesterId) = held.length := by
  have perm : ((grants.filter fun grant => grant.requesterId = requesterId).map Grant.key).Perm
      held := by
    rw [perm_iff_count]
    intro key
    rw [← counts, count_eq_countP, countP_map, countP_filter, count_eq_countP]
    apply countP_congr
    intro grant _
    obtain ⟨other, otherKey⟩ := grant
    simp [and_comm]
  rw [countP_eq_length_filter, ← perm.length_eq, length_map]

theorem count_below (bound : Nat) (each : ∀ requesterId,
      grants.countP (fun grant => grant.requesterId = requesterId) ≤ rpcMaxMsgCoro) :
    grants.countP (fun grant => grant.requesterId < bound) ≤ bound * rpcMaxMsgCoro := by
  induction bound with
  | zero => simp
  | succ bound ih =>
      have split : grants.countP (fun grant => grant.requesterId < bound + 1) ≤
          grants.countP (fun grant => grant.requesterId < bound) +
            grants.countP (fun grant => grant.requesterId = bound) := by
        clear ih each
        induction grants with
        | nil => simp
        | cons grant rest ih =>
            simp only [countP_cons, decide_eq_true_eq]
            split_ifs <;> omega
      have last := each bound
      rw [Nat.succ_mul]
      omega

theorem booked_few (booked : Booked cfg state)
    (txInv : ∀ coro, TxInv cfg.data coro (state.tx coro)) : state.ledger.Few := by
  intro slot _
  have each : ∀ requesterId, state.ledger.grants.countP
      (fun grant => grant.requesterId = requesterId) ≤ rpcMaxMsgCoro := by
    intro requesterId
    by_cases known : ∃ coro, cfg.data.Valid coro ∧ requesterId = callerId coro
    · obtain ⟨coro, valid, same⟩ := known
      obtain ⟨held, phase, counts⟩ := booked.phases coro valid
      rw [same, requester_count counts]
      exact phase_few (txInv coro) phase
    · have none_ : state.ledger.grants.countP (fun grant => grant.requesterId = requesterId) = 0 := by
        rw [countP_eq_zero]
        intro grant member
        rw [decide_eq_true_eq]
        intro same
        obtain ⟨coro, valid, owner⟩ := booked.requesters grant member
        exact known ⟨coro, valid, same.symm.trans owner⟩
      rw [none_]
      exact Nat.zero_le _
  have all : outstanding state.ledger.server.numLocks state.ledger.grants slot ≤
      state.ledger.grants.countP (fun grant => grant.requesterId < 2 ^ 18) := by
    unfold outstanding
    apply countP_mono_left
    intro grant member _
    obtain ⟨coro, valid, owner⟩ := booked.requesters grant member
    obtain ⟨value, smallCoro, smallWorker⟩ := caller_id_value valid
    simp only [hotsCoroIdBits] at value smallCoro
    rw [decide_eq_true_eq, owner]
    omega
  have total := count_below (2 ^ 18) each
  simp only [rpcMaxMsgCoro] at total
  omega

end Counting

section Steps

theorem data_step_ok {label : Label V} (ran : dataStep cfg state label = some (.ok next)) :
    ∃ cluster, step cfg.data state.cluster label = some (.ok cluster) ∧
      next = { state with cluster := cluster } := by
  unfold dataStep at ran
  split at ran
  · cases ran
  · cases ran
  · rename_i cluster stepped
    exact ⟨cluster, stepped, (Except.ok.inj (Option.some.inj ran)).symm⟩

/-- A step of one coroutine that leaves the lock server alone. -/
theorem quiet_ls_inv (mover : CoroId) (inv : LsInv cfg sizes state)
    (ledger : next.ledger = state.ledger) (data : ClusterInv cfg.data sizes next.cluster)
    (others : ∀ other, other ≠ mover →
      next.tx other = state.tx other ∧ next.locals other = state.locals other)
    (moved : ∀ held, Phase (state.tx mover) (state.locals mover) held →
      ∃ after, Phase (next.tx mover) (next.locals mover) after ∧ after.Perm held) :
    LsInv cfg sizes next := by
  refine ⟨data, ?_, ?_, ?_, ?_⟩
  · rw [ledger]
    exact inv.power
  · rw [ledger]
    exact inv.slots
  · intro coro valid
    obtain ⟨held, phase, counts⟩ := inv.booked.phases coro valid
    rw [ledger]
    by_cases same : coro = mover
    · subst same
      obtain ⟨after, now, perm⟩ := moved held phase
      exact ⟨after, now, fun key => (counts key).trans (perm.count_eq key).symm⟩
    · obtain ⟨sameTx, sameLocal⟩ := others coro same
      rw [sameTx, sameLocal]
      exact ⟨held, phase, counts⟩
  · rw [ledger]
    exact inv.booked.requesters

theorem tx_set_local (state : LsState V) (coro other : CoroId) (own : LsLocal) :
    (state.setLocal coro own).tx other = state.tx other := rfl

theorem locals_set_local (state : LsState V) (coro other : CoroId) (own : LsLocal) :
    (state.setLocal coro own).locals other = if other = coro then own else state.locals other :=
  Function.update_apply _ _ _ _

theorem locals_send (state : LsState V) (coro other : CoroId) (reqtype : LocksrvReqtype) :
    (state.sendLockserverReq coro reqtype).locals other = if other = coro then
      { state.locals coro with call := some (.request reqtype (lockserverKeys (state.tx coro))) }
      else state.locals other :=
  Function.update_apply _ _ _ _

/-- A transaction without a lock in the tables may just stop. -/
theorem abandon_inv {config : Config} {tx : TxState V} (inv : TxInv config coro tx)
    (at_ : tx.pc = .app) (status : tx.status = .inProgress ∨ tx.status = .mustAbort)
    (free : ∀ item ∈ tx.writeSet, granted tx item.loc = false) :
    TxInv config coro { tx with status := .aborted } ∧
      Continues tx { tx with status := .aborted } := by
  have stage := inv.stage
  have quiet : tx.batch = [] ∧ NoApply tx := by
    rcases status with running | failed
    · simp only [StageInv, at_, running] at stage
      exact ⟨stage.1, stage.2.2.1⟩
    · simp only [StageInv, at_, failed] at stage
      exact ⟨stage.1, stage.2.2.1⟩
  have sends : Sends tx { tx with status := .aborted } := by
    refine ⟨rfl, rfl, rfl, rfl, rfl, ?_⟩
    simp only [quiet.1]
    exact fun _ member => by cases member
  refine ⟨sends_inv inv sends ?_, sends_continues sends⟩
  simp only [StageInv, at_]
  refine ⟨quiet.1, quiet.2, ?_⟩
  intro item member grant
  have none_ := free item member
  rw [show granted tx item.loc = true from grant] at none_
  cases none_

/-- An open batch belongs to a transaction that holds its grants. -/
theorem waiting_running {tx : TxState V} {own : LsLocal} {held : List LockKey}
    (phase : Phase tx own held) (waiting : tx.pc ≠ .app) :
    held = lockserverKeys tx ∧ own.call = none ∧ own.lockserverLocked = true ∧
      own.refused = false ∧ (tx.status = .inProgress ∨ tx.status = .mustAbort) ∧
      tx.pc ≠ .validate ∧ tx.pc ≠ .abort := by
  cases phase with
  | idle call unlocked at_ => exact absurd at_ waiting
  | locking grantedKeys todo call unlocked calm at_ => exact absurd at_ waiting
  | rolling todo call unlocked at_ => exact absurd at_ waiting
  | running call locked calm active notValidating notAborting =>
      exact ⟨rfl, call, locked, calm, active, notValidating, notAborting⟩
  | releasing todo call calm at_ => exact absurd at_ waiting
  | ended call calm at_ => exact absurd at_ waiting

/-- A transaction that has not ended and waits for nobody. -/
theorem calm_phase {tx : TxState V} {own : LsLocal} {held : List LockKey}
    (phase : Phase tx own held) (call : own.call.isNone = true)
    (active : tx.status = .inProgress ∨ tx.status = .mustAbort) :
    (held = [] ∧ own.lockserverLocked = false ∧ ∀ loc, granted tx loc = false) ∨
      held = lockserverKeys tx ∧ own.lockserverLocked = true ∧ own.refused = false ∧
        tx.pc ≠ .validate ∧ tx.pc ≠ .abort := by
  cases phase with
  | idle _ unlocked _ untouched => exact Or.inl ⟨rfl, unlocked, untouched⟩
  | locking grantedKeys todo waiting =>
      rw [waiting] at call
      cases call
  | rolling todo waiting =>
      rw [waiting] at call
      cases call
  | running _ locked calm _ notValidating notAborting =>
      exact Or.inr ⟨rfl, locked, calm, notValidating, notAborting⟩
  | releasing todo waiting =>
      rw [waiting] at call
      cases call
  | ended _ _ _ finished =>
      rcases active with active | active <;> rcases finished with finished | finished <;>
        rw [active] at finished <;> cases finished

theorem calm_call (calm : Calm state coro) : (state.locals coro).call = none :=
  Option.isNone_iff_eq_none.mp calm.1

theorem start_ls_inv (inv : LsInv cfg sizes state) (valid : cfg.data.Valid coro)
    (calm : Calm state coro) (ran : startStepLs cfg state coro = some (.ok next)) :
    LsInv cfg sizes next := by
  obtain ⟨outcome, stepped, mapped⟩ := Option.map_eq_some_iff.mp ran
  cases outcome with
  | error crash => cases mapped
  | ok middle =>
      obtain ⟨cluster, run, same⟩ := data_step_ok stepped
      have data := step_inv inv.data run
      unfold step at run
      rw [if_pos (show cfg.data.Valid (Label.coro (.start coro : Label V)) from valid)] at run
      obtain ⟨after, started, equal⟩ := Option.map_eq_some_iff.mp run
      obtain ⟨at_, ended, shape⟩ := start_cases started
      have fresh : cluster.tx coro = .start := by
        rw [← Except.ok.inj equal, shape, tx_start_state, if_pos rfl]
      rw [← Except.ok.inj mapped, same]
      refine quiet_ls_inv coro inv rfl data ?_ ?_
      · intro other different
        rw [locals_set_local, if_neg different, tx_set_local]
        refine ⟨?_, rfl⟩
        change cluster.tx other = _
        rw [← Except.ok.inj equal, shape, tx_start_state, if_neg different]
      · intro held phase
        rw [locals_set_local, if_pos rfl, tx_set_local]
        change ∃ after, Phase (cluster.tx coro) _ after ∧ _
        rw [fresh]
        refine ⟨[], .idle rfl rfl rfl (fun _ => rfl) (fun refused => by cases refused), ?_⟩
        have none_ : held = [] := by
          cases phase with
          | idle => rfl
          | locking grantedKeys todo call =>
              rw [calm_call calm] at call
              cases call
          | rolling todo call =>
              rw [calm_call calm] at call
              cases call
          | running _ _ _ active =>
              rcases active with active | active <;> rcases ended with finished | finished <;>
                rw [show (state.cluster.tx coro).status = _ from active] at finished <;>
                cases finished
          | releasing todo call =>
              rw [calm_call calm] at call
              cases call
          | ended => rfl
        rw [none_]

/-- A call that only changes the read or write set. -/
theorem call_ls_inv {label : Label V} (ran : dataStep cfg state label = some (.ok next))
    (mine : label.coro = coro) (inv : LsInv cfg sizes state)
    (valid : cfg.data.Valid coro) (call : isCall label = true)
    (moved : ∀ tx, callTx cfg.data (state.cluster.oldWord cfg.data coro) (state.tx coro) label =
        some tx →
      ∀ held, Phase (state.tx coro) (state.locals coro) held →
        ∃ after, Phase tx (state.locals coro) after ∧ after.Perm held) :
    LsInv cfg sizes next := by
  subst mine
  obtain ⟨cluster, run, same⟩ := data_step_ok ran
  have data := step_inv inv.data run
  rw [step_call state.cluster valid call] at run
  obtain ⟨after, stepped, equal⟩ := Option.map_eq_some_iff.mp run
  obtain ⟨tx, called, shape⟩ := Option.bind_eq_some_iff.mp stepped
  rw [Except.ok.inj equal] at shape
  have shape := Option.some.inj shape
  rw [same]
  refine quiet_ls_inv label.coro inv rfl data ?_ ?_
  · intro other different
    refine ⟨?_, rfl⟩
    change cluster.tx other = _
    rw [← shape, tx_set_tx, if_neg different, tx_stage]
  · intro held phase
    change ∃ after, Phase (cluster.tx label.coro) _ after ∧ _
    rw [← shape, tx_set_tx_self]
    exact moved tx called held phase

/-- Items are added while nothing is locked anywhere. -/
theorem add_phase {tx after : TxState V} {own : LsLocal} {held : List LockKey}
    (phase : Phase tx own held) (call : own.call.isNone = true) (calm : own.refused = false)
    (unlocked : own.lockserverLocked = false) (running : tx.status = .inProgress)
    (at_ : after.pc = .app) (handled : after.handled = tx.handled) :
    ∃ now, Phase after own now ∧ now.Perm held := by
  rcases calm_phase phase call (Or.inl running) with ⟨none_, _, untouched⟩ | ⟨_, locked, _⟩
  · rw [none_]
    refine ⟨[], .idle (Option.isNone_iff_eq_none.mp call) unlocked at_ ?_ ?_, .nil⟩
    · intro loc
      rw [granted_same handled]
      exact untouched loc
    · intro refused
      rw [calm] at refused
      cases refused
  · rw [unlocked] at locked
    cases locked

theorem add_read_ls_inv {rpcReqtype : Nat} {key objAddr : UInt64} {obj : HotsObj V}
    (inv : LsInv cfg sizes state) (valid : cfg.data.Valid coro) (calm : Calm state coro)
    (careful : (state.locals coro).lockserverLocked = false)
    (ran : dataStep cfg state (.addToReadSet coro rpcReqtype key objAddr obj) = some (.ok next)) :
    LsInv cfg sizes next := by
  refine call_ls_inv ran rfl inv valid rfl ?_
  intro tx called held phase
  simp only [callTx, Option.ite_none_right_eq_some, Option.some.injEq] at called
  obtain ⟨ok, rfl⟩ := called
  exact add_phase phase calm.1 calm.2 careful ok.2.1 ok.1 rfl

theorem add_write_ls_inv {rpcReqtype : Nat} {key objAddr : UInt64} {obj : HotsObj V}
    {writeMode : TxWriteMode} (inv : LsInv cfg sizes state) (valid : cfg.data.Valid coro)
    (calm : Calm state coro) (careful : (state.locals coro).lockserverLocked = false)
    (ran : dataStep cfg state (.addToWriteSet coro rpcReqtype key objAddr obj writeMode) =
      some (.ok next)) : LsInv cfg sizes next := by
  refine call_ls_inv ran rfl inv valid rfl ?_
  intro tx called held phase
  simp only [callTx, Option.ite_none_right_eq_some, Option.some.injEq] at called
  obtain ⟨⟨ok, _⟩, rfl⟩ := called
  exact add_phase phase calm.1 calm.2 careful ok.2.1 ok.1 rfl

theorem write_obj_ls_inv {index valSize : Nat} {val : V} (inv : LsInv cfg sizes state)
    (valid : cfg.data.Valid coro) (calm : Calm state coro)
    (ran : dataStep cfg state (.writeObj coro index valSize val) = some (.ok next)) :
    LsInv cfg sizes next := by
  refine call_ls_inv ran rfl inv valid rfl ?_
  intro tx called held phase
  simp only [callTx, Option.ite_none_right_eq_some, Option.some.injEq] at called
  obtain ⟨⟨at_, running⟩, rfl⟩ := called
  rcases calm_phase phase calm.1 (Or.inl running) with ⟨_, unlocked, _⟩ | ⟨keys, locked, _, rest⟩
  · exact add_phase phase calm.1 calm.2 unlocked running at_ rfl
  · refine ⟨_, .running (calm_call calm) locked calm.2 (Or.inl running) rest.1 rest.2, ?_⟩
    rw [keys]
    apply Perm.of_eq
    exact lockserver_keys_same (same_items _)
      (forall₂_modify index same_item_refl fun item => ⟨rfl, rfl, rfl, rfl, rfl, rfl⟩)

theorem do_read_ls_inv (inv : LsInv cfg sizes state)
    (careful : (state.locals coro).lockserverLocked = false)
    (ran : doReadStep state coro = some next) : LsInv cfg sizes next := by
  simp only [doReadStep, Option.ite_none_right_eq_some, Option.some.injEq] at ran
  obtain ⟨⟨calm, at_, running, _⟩, rfl⟩ := ran
  refine quiet_ls_inv coro inv rfl inv.data ?_ ?_
  · intro other different
    rw [locals_send, if_neg different]
    exact ⟨rfl, rfl⟩
  · intro held phase
    rw [locals_send, if_pos rfl]
    rcases calm_phase phase calm.1 (Or.inl running) with ⟨none_, _, untouched⟩ | ⟨_, locked, _⟩
    · rw [none_]
      exact ⟨[], .locking [] _ rfl careful calm.2 at_ untouched running rfl, .nil⟩
    · rw [careful] at locked
      cases locked

theorem update_start_shape (coro : CoroId) (tx : TxState V) (vecs : List (List Nat)) :
    ((updateStart coro tx vecs).status = .committed ∧ (updateStart coro tx vecs).pc = .app) ∨
      (updateStart coro tx vecs).status = tx.status ∧
        ∃ vec rest, (updateStart coro tx vecs).pc = .update vec rest := by
  cases vecs with
  | nil => exact Or.inl ⟨rfl, rfl⟩
  | cons vec rest => exact Or.inr ⟨rfl, vec, rest, rfl⟩

/-- Once its last batch is answered, a committed transaction sends the unlock
request; before that it goes on holding its grants. -/
theorem committing_phase {tx : TxState V} {own : LsLocal} (few : (lockserverKeys tx).length ≤
      rpcMaxMsgCoro) (call : own.call = none) (locked : own.lockserverLocked = true)
    (calm : own.refused = false)
    (shape : tx.status = .committed ∧ tx.pc = .app ∨
      (tx.status = .inProgress ∨ tx.status = .mustAbort) ∧ tx.pc ≠ .validate ∧ tx.pc ≠ .abort) :
    ∃ held, Phase tx (if tx.status = .committed then
        { own with call := some (.request .unlock (lockserverKeys tx)) } else own) held ∧
      held.Perm (lockserverKeys tx) := by
  rcases shape with ⟨committed, at_⟩ | ⟨active, notValidating, notAborting⟩
  · rw [if_pos committed]
    refine ⟨_, .releasing (lockserverKeys tx).reverse rfl calm at_ (Or.inl committed) ?_,
      reverse_perm _⟩
    rw [length_reverse]
    exact few
  · have open_ : tx.status ≠ .committed := by
      rcases active with active | active <;> rw [active] <;> simp
    rw [if_neg open_]
    exact ⟨_, .running call locked calm active notValidating notAborting, .refl _⟩

theorem release_if_committed_inv (inv : LsInv cfg sizes state) {cluster : State V}
    (data : ClusterInv cfg.data sizes cluster)
    (others : ∀ other, other ≠ coro → cluster.tx other = state.tx other)
    (locked : (state.locals coro).lockserverLocked = true)
    (moved : ∀ held, Phase (state.tx coro) (state.locals coro) held →
      held = lockserverKeys (cluster.tx coro) ∧ (state.locals coro).call = none ∧
        (state.locals coro).refused = false ∧
        ((cluster.tx coro).status = .committed ∧ (cluster.tx coro).pc = .app ∨
          ((cluster.tx coro).status = .inProgress ∨ (cluster.tx coro).status = .mustAbort) ∧
            (cluster.tx coro).pc ≠ .validate ∧ (cluster.tx coro).pc ≠ .abort)) :
    LsInv cfg sizes (LsState.releaseIfCommitted { state with cluster := cluster } coro) := by
  have few : (lockserverKeys (cluster.tx coro)).length ≤ rpcMaxMsgCoro := by
    rw [lockserver_keys_length]
    exact (data.txInv coro).size
  have released : ∀ other, (LsState.releaseIfCommitted { state with cluster := cluster } coro).locals
      other = if other = coro then (if (cluster.tx coro).status = .committed then
        { state.locals coro with call := some (.request .unlock (lockserverKeys (cluster.tx coro))) }
        else state.locals coro) else state.locals other := by
    intro other
    unfold LsState.releaseIfCommitted
    change (if (cluster.tx coro).status = .committed then _ else _ : LsState V).locals other = _
    by_cases committed : (cluster.tx coro).status = .committed
    · rw [if_pos committed, if_pos committed, locals_send]
    · rw [if_neg committed, if_neg committed]
      by_cases same : other = coro
      · rw [if_pos same, same]
      · rw [if_neg same]
  have unchanged : (LsState.releaseIfCommitted { state with cluster := cluster } coro).cluster =
      cluster ∧ (LsState.releaseIfCommitted { state with cluster := cluster } coro).ledger =
        state.ledger := by
    unfold LsState.releaseIfCommitted
    split_ifs <;> exact ⟨rfl, rfl⟩
  refine quiet_ls_inv coro inv unchanged.2 (by rw [unchanged.1]; exact data) ?_ ?_
  · intro other different
    rw [released, if_neg different]
    refine ⟨?_, rfl⟩
    rw [LsState.tx, unchanged.1]
    exact others other different
  · intro held phase
    obtain ⟨keys, call, calm, shape⟩ := moved held phase
    rw [released, if_pos rfl, LsState.tx, unchanged.1, keys]
    exact committing_phase few call locked calm shape

theorem commit_ls_inv (inv : LsInv cfg sizes state) (ran : commitStep cfg state coro = some next) :
    LsInv cfg sizes next := by
  simp only [commitStep, Option.ite_none_right_eq_some, Option.some.injEq] at ran
  obtain ⟨⟨calm, at_, running, allRead, locked⟩, rfl⟩ := ran
  obtain ⟨txInv, continues⟩ := commit_start_inv (state.cluster.oldWord cfg.data coro)
    (inv.data.txInv coro) at_ running allRead
  have sends := commit_start_sends cfg.data coro (state.cluster.oldWord cfg.data coro)
    (state.tx coro)
  refine release_if_committed_inv inv (continues_cluster_inv inv.data txInv continues) ?_ locked ?_
  · intro other different
    rw [tx_set_tx, if_neg different, tx_stage]
  · intro held phase
    rw [tx_set_tx_self]
    refine ⟨?_, calm_call calm, calm.2, ?_⟩
    · rcases calm_phase phase calm.1 (Or.inl running) with ⟨_, unlocked, _⟩ | ⟨keys, _⟩
      · rw [locked] at unlocked
        cases unlocked
      · rw [keys, lockserverKeys, lockserverKeys, sends.writeSet, sends.readSet]
    · unfold commitStart
      split_ifs
      · exact Or.inl ⟨rfl, rfl⟩
      · exact Or.inr ⟨Or.inl running, by simp [TxState.send], by simp [TxState.send]⟩
      · rcases update_start_shape coro (state.tx coro) _ with done | ⟨same, vec, rest, pc⟩
        · exact Or.inl done
        · refine Or.inr ⟨Or.inl (same.trans running), ?_, ?_⟩
          · rw [pc]
            simp
          · rw [pc]
            simp

theorem abort_ls_inv (inv : LsInv cfg sizes state) (valid : cfg.data.Valid coro)
    (careful : (state.locals coro).lockserverLocked = true →
      ∀ item ∈ (state.tx coro).writeSet, item.execWsLocked = false)
    (ran : abortStep state coro = some next) : LsInv cfg sizes next := by
  simp only [abortStep, Option.ite_none_right_eq_some, Option.some.injEq] at ran
  obtain ⟨⟨call, at_, status⟩, rfl⟩ := ran
  obtain ⟨held, phase, _⟩ := inv.booked.phases coro valid
  have txInv := inv.data.txInv coro
  have active : (state.tx coro).status = .inProgress ∨ (state.tx coro).status = .mustAbort := by
    rcases status with refused | ⟨active, _⟩
    · cases phase with
      | idle _ _ _ _ running => exact Or.inl (running refused)
      | locking _ _ waiting _ _ _ _ running => exact Or.inl running
      | rolling _ _ _ _ _ running => exact Or.inl running
      | running _ _ _ active => exact active
      | releasing _ waiting =>
          rw [waiting] at call
          cases call
      | ended _ calm =>
          rw [calm] at refused
          cases refused
    · exact active
  have free : ∀ item ∈ (state.tx coro).writeSet, granted (state.tx coro) item.loc = false := by
    rcases calm_phase phase call active with ⟨_, _, untouched⟩ | ⟨_, locked, calm, _⟩
    · exact fun item _ => untouched item.loc
    · rcases status with refused | ⟨_, allRead⟩
      · rw [calm] at refused
        cases refused
      · intro item member
        rw [(abortable_stage txInv at_ active allRead).2.2 item member]
        exact careful locked item member
  obtain ⟨ended, continues⟩ := abandon_inv txInv at_ active free
  have data := continues_cluster_inv inv.data ended continues
  rw [stage_quiet _ _ _ (by simp [at_])] at data
  by_cases locked : (state.locals coro).lockserverLocked = true
  · rw [if_pos locked]
    refine quiet_ls_inv coro inv rfl data ?_ ?_
    · intro other different
      rw [locals_send, if_neg different, locals_set_local, if_neg different]
      refine ⟨?_, rfl⟩
      change (state.cluster.setTx coro _).tx other = _
      rw [tx_set_tx, if_neg different]
    · intro held phase
      rcases calm_phase phase call active with ⟨_, unlocked, _⟩ | ⟨keys, _⟩
      · rw [locked] at unlocked
        cases unlocked
      · have own : (state.cluster.setTx coro { state.tx coro with status := .aborted }).tx coro = _ :=
          tx_set_tx_self _ _ _
        rw [locals_send, if_pos rfl, locals_set_local, if_pos rfl, keys]
        refine ⟨_, .releasing (lockserverKeys (state.tx coro)).reverse ?_ rfl ?_ ?_ ?_, reverse_perm _⟩
        · change some (Service.request .unlock (lockserverKeys ((state.cluster.setTx coro _).tx coro))) = _
          rw [own]
          rfl
        · exact (congrArg TxState.pc own).trans at_
        · exact Or.inr (congrArg TxState.status own)
        · rw [length_reverse, lockserver_keys_length]
          exact txInv.size
  · rw [if_neg locked]
    refine quiet_ls_inv coro inv rfl data ?_ ?_
    · intro other different
      rw [locals_set_local, if_neg different]
      refine ⟨?_, rfl⟩
      change (state.cluster.setTx coro _).tx other = _
      rw [tx_set_tx, if_neg different]
    · intro held phase
      rw [locals_set_local, if_pos rfl]
      change ∃ after, Phase ((state.cluster.setTx coro _).tx coro) _ after ∧ _
      rw [tx_set_tx_self]
      rcases calm_phase phase call active with ⟨none_, _⟩ | ⟨_, taken, _⟩
      · rw [none_]
        exact ⟨[], .ended (Option.isNone_iff_eq_none.mp call) rfl at_ (Or.inr rfl), .nil⟩
      · exact absurd taken locked

theorem locking_phase {tx : TxState V} {own : LsLocal} {held grantedKeys todo : List LockKey}
    (phase : Phase tx own held) (call : own.call = some (.locking grantedKeys todo)) :
    held = grantedKeys ∧ own.lockserverLocked = false ∧ own.refused = false ∧ tx.pc = .app ∧
      (∀ loc, granted tx loc = false) ∧ tx.status = .inProgress ∧
      grantedKeys.reverse ++ todo = lockserverKeys tx := by
  cases phase with
  | locking others rest waiting unlocked calm at_ untouched running all =>
      rw [call] at waiting
      obtain ⟨rfl, rfl⟩ := Service.locking.inj (Option.some.inj waiting)
      exact ⟨rfl, unlocked, calm, at_, untouched, running, all⟩
  | idle waiting | rolling _ waiting | running waiting | releasing _ waiting | ended waiting =>
      rw [call] at waiting
      cases waiting

theorem releasing_phase {tx : TxState V} {own : LsLocal} {held todo : List LockKey}
    {answer : LocksrvResptype} (phase : Phase tx own held)
    (call : own.call = some (.releasing todo answer)) :
    held = todo ∧ tx.pc = .app ∧ todo.length ≤ rpcMaxMsgCoro ∧ match answer with
      | .fail => own.lockserverLocked = false ∧ (∀ loc, granted tx loc = false) ∧
          tx.status = .inProgress
      | .success => own.refused = false ∧ (tx.status = .committed ∨ tx.status = .aborted) := by
  cases phase with
  | rolling rest waiting unlocked at_ untouched running few =>
      rw [call] at waiting
      obtain ⟨rfl, rfl⟩ := Service.releasing.inj (Option.some.inj waiting)
      exact ⟨rfl, at_, few, unlocked, untouched, running⟩
  | releasing rest waiting calm at_ finished few =>
      rw [call] at waiting
      obtain ⟨rfl, rfl⟩ := Service.releasing.inj (Option.some.inj waiting)
      exact ⟨rfl, at_, few, calm, finished⟩
  | idle waiting | locking _ _ waiting | running waiting | ended waiting =>
      rw [call] at waiting
      cases waiting

theorem answered_ls_inv (inv : LsInv cfg sizes state) (valid : cfg.data.Valid coro)
    (ran : answeredStep state coro = some next) : LsInv cfg sizes next := by
  simp only [answeredStep] at ran
  split at ran
  · rename_i grantedKeys call
    rw [← Option.some.inj ran]
    obtain ⟨_, known, _⟩ := inv.booked.phases coro valid
    obtain ⟨_, _, calm, at_, _, running, all⟩ := locking_phase known call
    have moved : LocalMove cfg.data coro 0 (state.tx coro)
        ((state.tx coro).send .doRead (doReadReqs coro (state.tx coro))) := .doRead at_ running
    obtain ⟨txInv, continues⟩ := move_inv (inv.data.txInv coro) moved
    have data := continues_cluster_inv inv.data txInv continues
    rw [stage_quiet _ _ _ (by simp [TxState.send])] at data
    refine quiet_ls_inv coro inv rfl data ?_ ?_
    · intro other different
      rw [locals_set_local, if_neg different]
      refine ⟨?_, rfl⟩
      change (state.cluster.setTx coro _).tx other = _
      rw [tx_set_tx, if_neg different]
    · intro held phase
      have own : (state.cluster.setTx coro
          ((state.tx coro).send .doRead (doReadReqs coro (state.tx coro)))).tx coro = _ :=
        tx_set_tx_self _ _ _
      rw [locals_set_local, if_pos rfl, (locking_phase phase call).1]
      change ∃ after, Phase ((state.cluster.setTx coro _).tx coro) _ after ∧ _
      rw [own]
      refine ⟨_, .running rfl rfl calm (Or.inl running) (by simp [TxState.send])
        (by simp [TxState.send]), ?_⟩
      change (lockserverKeys (state.tx coro)).Perm grantedKeys
      rw [← all, append_nil]
      exact reverse_perm grantedKeys
  · rename_i call
    rw [← Option.some.inj ran]
    refine quiet_ls_inv coro inv rfl inv.data ?_ ?_
    · intro other different
      rw [locals_set_local, if_neg different]
      exact ⟨rfl, rfl⟩
    · intro held phase
      obtain ⟨none_, at_, _, unlocked, untouched, running⟩ := releasing_phase phase call
      rw [locals_set_local, if_pos rfl, none_]
      exact ⟨[], .idle rfl unlocked at_ untouched (fun _ => running), .nil⟩
  · rename_i call
    rw [← Option.some.inj ran]
    refine quiet_ls_inv coro inv rfl inv.data ?_ ?_
    · intro other different
      rw [locals_set_local, if_neg different]
      exact ⟨rfl, rfl⟩
    · intro held phase
      obtain ⟨none_, at_, _, calm, finished⟩ := releasing_phase phase call
      rw [locals_set_local, if_pos rfl, none_]
      exact ⟨[], .ended rfl calm at_ finished, .nil⟩
  · cases ran

theorem handle_ls_inv {index : Nat} {stale : UInt64} (inv : LsInv cfg sizes state)
    (valid : cfg.data.Valid coro)
    (ran : dataStep cfg state (.handle coro index stale) = some (.ok next)) :
    LsInv cfg sizes next := by
  obtain ⟨cluster, run, same⟩ := data_step_ok ran
  have data := step_inv inv.data run
  unfold step at run
  rw [if_pos (show cfg.data.Valid (Label.coro (.handle coro index stale : Label V)) from valid)] at run
  have answered : ∃ req resp slot, (state.tx coro).batch[index]? = some slot ∧
      ∀ other, cluster.tx other =
        if other = coro then (state.tx coro).respond index req resp else state.tx other := by
    rcases handle_cases run with ⟨req, resp, table, found, _, outcome⟩ | ⟨_, _, _, _, outcome⟩ |
      ⟨machine, wrkrLid, record, found, outcome⟩
    · refine ⟨.ds req, resp, _, found, ?_⟩
      intro other
      rw [Except.ok.inj outcome]
      exact tx_set_tx _ _ _ _
    · cases outcome
    · refine ⟨.log machine wrkrLid record, ⟨.loggerSuccess, 0, none, none⟩, _, found, ?_⟩
      intro other
      rw [Except.ok.inj outcome]
      exact tx_set_tx _ _ _ _
  obtain ⟨req, resp, slot, found, after⟩ := answered
  rw [same]
  refine quiet_ls_inv coro inv rfl data ?_ ?_
  · intro other different
    refine ⟨?_, rfl⟩
    change cluster.tx other = _
    rw [after, if_neg different]
  · intro held phase
    have waiting : (state.tx coro).pc ≠ .app := by
      intro at_
      have stage := (inv.data.txInv coro).stage
      simp only [StageInv, at_] at stage
      rw [stage.1] at found
      cases found
    obtain ⟨keys, call, locked, calm, active, notValidating, notAborting⟩ :=
      waiting_running phase waiting
    change ∃ after, Phase (cluster.tx coro) _ after ∧ _
    rw [after, if_pos rfl, keys]
    exact ⟨_, .running call locked calm active notValidating notAborting, .refl _⟩

theorem resume_ls_inv (inv : LsInv cfg sizes state) (valid : cfg.data.Valid coro)
    (ran : dataStep cfg state (.resume coro) = some (.ok next)) :
    LsInv cfg sizes (next.releaseIfCommitted coro) := by
  obtain ⟨cluster, run, same⟩ := data_step_ok ran
  have data := step_inv inv.data run
  unfold step at run
  rw [if_pos (show cfg.data.Valid (Label.coro (.resume coro : Label V)) from valid)] at run
  have waiting : (state.tx coro).pc ≠ .app := by
    simp only [resumeStep, Option.ite_none_right_eq_some] at run
    exact run.1.1
  obtain ⟨tx, moved, outcome⟩ := resume_cases (inv.data.txInv coro) run
  have shape := Except.ok.inj outcome
  obtain ⟨_, phase, _⟩ := inv.booked.phases coro valid
  obtain ⟨_, _, locked, _⟩ := waiting_running phase waiting
  rw [same]
  refine release_if_committed_inv inv data ?_ locked ?_
  · intro other different
    rw [shape, tx_set_tx, if_neg different, tx_stage]
  · intro held phase
    obtain ⟨keys, call, _, calm, active, notValidating, notAborting⟩ :=
      waiting_running phase waiting
    rw [shape, tx_set_tx_self]
    have updated : ∀ vecs, tx = updateStart coro (state.tx coro) vecs →
        lockserverKeys (state.tx coro) = lockserverKeys tx ∧
          (tx.status = .committed ∧ tx.pc = .app ∨
            (tx.status = .inProgress ∨ tx.status = .mustAbort) ∧
              tx.pc ≠ .validate ∧ tx.pc ≠ .abort) := by
      intro vecs result
      have sends := update_start_sends coro (state.tx coro) vecs
      rw [result, lockserverKeys, lockserverKeys, sends.writeSet, sends.readSet]
      refine ⟨rfl, ?_⟩
      rcases update_start_shape coro (state.tx coro) vecs with done | ⟨kept, vec, rest, pc⟩
      · exact Or.inl done
      · rw [kept, pc]
        exact Or.inr ⟨active, by simp, by simp⟩
    rw [keys]
    cases moved with
    | readDone readResps writeResps at_ answers readAligned writeAligned =>
        obtain ⟨reads, writes⟩ := read_state_same readAligned writeAligned
        refine ⟨(lockserver_keys_same reads writes).symm, call, calm, Or.inr ⟨?_, ?_, ?_⟩⟩
        · simp only [readState]
          split_ifs
          · exact active
          · exact Or.inr rfl
        · simp [readState]
        · simp [readState]
    | logDone at_ complete =>
        obtain ⟨kept, result⟩ := updated _ rfl
        exact ⟨kept, call, calm, result⟩
    | updateDone vec rest at_ complete =>
        obtain ⟨kept, result⟩ := updated _ rfl
        exact ⟨kept, call, calm, result⟩
    | validated _ at_ => exact absurd at_ notValidating
    | refused _ at_ => exact absurd at_ notValidating
    | abortDone at_ => exact absurd at_ notAborting
    | addRead _ _ _ _ ok => exact absurd ok.1 waiting
    | addWrite _ _ _ _ _ ok => exact absurd ok.1 waiting
    | writeObj _ _ _ at_ => exact absurd at_ waiting
    | doRead at_ => exact absurd at_ waiting
    | commit at_ => exact absurd at_ waiting
    | validate at_ => exact absurd at_ waiting
    | singleRead at_ => exact absurd at_ waiting
    | abort at_ => exact absurd at_ waiting
    | abortRdonly at_ => exact absurd at_ waiting

theorem serve_once_cases {requesterId : Nat} {ledger after : Ledger} {service rest : Service}
    (ran : serveOnce debug requesterId ledger service = some (.ok (after, rest))) :
    (∃ grantedKeys key todo server success, service = .locking grantedKeys (key :: todo) ∧
      ledger.server.lock debug requesterId key = .ok (success, server) ∧
      after = ⟨server, if success then ⟨requesterId, key⟩ :: ledger.grants else ledger.grants⟩ ∧
      rest = if success then .locking (key :: grantedKeys) todo else .releasing grantedKeys .fail) ∨
    ∃ key todo answer server, service = .releasing (key :: todo) answer ∧
      ledger.server.unlock debug requesterId key = .ok server ∧
      after = ⟨server, ledger.grants.erase ⟨requesterId, key⟩⟩ ∧ rest = .releasing todo answer := by
  cases service with
  | locking grantedKeys todo =>
      cases todo with
      | nil => cases ran
      | cons key todo =>
          have ran := Option.some.inj ran
          cases run : ledger.server.lock debug requesterId key with
          | error fault =>
              rw [run] at ran
              cases ran
          | ok out =>
              obtain ⟨success, server⟩ := out
              rw [run] at ran
              refine Or.inl ⟨grantedKeys, key, todo, server, success, rfl, run, ?_⟩
              cases success with
              | true =>
                  obtain ⟨rfl, rfl⟩ := Prod.mk.inj (Except.ok.inj ran)
                  exact ⟨rfl, rfl⟩
              | false =>
                  obtain ⟨rfl, rfl⟩ := Prod.mk.inj (Except.ok.inj ran)
                  exact ⟨rfl, rfl⟩
  | releasing todo answer =>
      cases todo with
      | nil => cases ran
      | cons key todo =>
          have ran := Option.some.inj ran
          cases run : ledger.server.unlock debug requesterId key with
          | error fault =>
              rw [run] at ran
              cases ran
          | ok server =>
              rw [run] at ran
              obtain ⟨rfl, rfl⟩ := Prod.mk.inj (Except.ok.inj ran)
              exact Or.inr ⟨key, todo, answer, server, rfl, run, rfl, rfl⟩

/-- A call of the lock server books what it does under the coroutine it serves. -/
theorem served_booked (booked : Booked cfg state) (valid : cfg.data.Valid coro)
    {ledger : Ledger} {service : Service}
    (others : ∀ grant, grant.requesterId ≠ callerId coro →
      ledger.grants.count grant = state.ledger.grants.count grant)
    (own : ∃ held, Phase (state.tx coro) { state.locals coro with call := some service } held ∧
      ∀ key, ledger.grants.count ⟨callerId coro, key⟩ = held.count key) :
    Booked cfg (LsState.setLocal { state with ledger := ledger } coro
      { state.locals coro with call := some service }) := by
  constructor
  · intro other otherValid
    rw [locals_set_local]
    by_cases same : other = coro
    · rw [if_pos same, same]
      exact own
    · obtain ⟨held, phase, counts⟩ := booked.phases other otherValid
      rw [if_neg same]
      refine ⟨held, phase, ?_⟩
      intro key
      rw [← counts key]
      apply others
      intro equal
      exact same (caller_id_injective otherValid valid equal)
  · intro grant member
    by_cases mine : grant.requesterId = callerId coro
    · exact ⟨coro, valid, mine⟩
    · have kept := others grant mine
      exact booked.requesters grant (count_pos_iff.mp (by rw [← kept]; exact count_pos_iff.mpr member))

theorem lock_served (inv : LsInv cfg sizes state) (valid : cfg.data.Valid coro)
    {grantedKeys todo : List LockKey} {key : LockKey} {server : Lockserver} {success : Bool}
    (call : (state.locals coro).call = some (.locking grantedKeys (key :: todo)))
    (run : state.ledger.server.lock debug (callerId coro) key = .ok (success, server)) :
    LsInv cfg sizes (LsState.setLocal
      { state with ledger :=
          ⟨server, if success then ⟨callerId coro, key⟩ :: state.ledger.grants
            else state.ledger.grants⟩ } coro
      { state.locals coro with
        call := some (if success then .locking (key :: grantedKeys) todo
          else .releasing grantedKeys .fail) }) := by
  obtain ⟨held, phase, counts⟩ := inv.booked.phases coro valid
  obtain ⟨same, unlocked, calm, at_, untouched, running, all⟩ := locking_phase phase call
  rw [same] at counts
  have few : grantedKeys.length ≤ rpcMaxMsgCoro := by
    rw [← same]
    exact phase_few (inv.data.txInv coro) phase
  have booked : Booked cfg (LsState.setLocal
      { state with ledger :=
          ⟨server, if success then ⟨callerId coro, key⟩ :: state.ledger.grants
            else state.ledger.grants⟩ } coro
      { state.locals coro with
        call := some (if success then .locking (key :: grantedKeys) todo
          else .releasing grantedKeys .fail) }) := by
    refine served_booked inv.booked valid ?_ ?_
    · intro grant other
      simp only
      split_ifs
      · exact count_cons_of_ne fun equal => other (by rw [← equal])
      · rfl
    · cases success with
      | true =>
          refine ⟨key :: grantedKeys, .locking _ todo rfl unlocked calm at_ untouched running ?_, ?_⟩
          · rw [reverse_cons, append_assoc]
            exact all
          · intro other
            simp only [if_true, count_cons, counts, beq_iff_eq, Grant.mk.injEq, true_and]
      | false => exact ⟨grantedKeys, .rolling _ rfl unlocked at_ untouched running few, counts⟩
  have ran : state.ledger.lock debug ⟨callerId coro, key⟩ =
      .ok ⟨server, if success then ⟨callerId coro, key⟩ :: state.ledger.grants
        else state.ledger.grants⟩ := by
    rw [Ledger.lock, run]
    rfl
  obtain ⟨slots, sameLocks⟩ := lock_inv inv.power inv.slots ran (booked_few booked inv.data.txInv)
  exact ⟨inv.data, sameLocks.trans inv.power, slots, booked⟩

/-- The entry that is unlocked next has been granted to this coroutine. -/
theorem released_granted (booked : Booked cfg state) (valid : cfg.data.Valid coro)
    {todo : List LockKey} {key : LockKey} {answer : LocksrvResptype}
    (call : (state.locals coro).call = some (.releasing (key :: todo) answer)) :
    ⟨callerId coro, key⟩ ∈ state.ledger.grants := by
  obtain ⟨held, phase, counts⟩ := booked.phases coro valid
  rw [← count_pos_iff, counts, (releasing_phase phase call).1, count_cons_self]
  exact Nat.succ_pos _

theorem unlock_served (inv : LsInv cfg sizes state) (valid : cfg.data.Valid coro)
    {todo : List LockKey} {key : LockKey} {answer : LocksrvResptype} {server : Lockserver}
    (call : (state.locals coro).call = some (.releasing (key :: todo) answer))
    (run : state.ledger.server.unlock debug (callerId coro) key = .ok server) :
    LsInv cfg sizes (LsState.setLocal
      { state with ledger := ⟨server, state.ledger.grants.erase ⟨callerId coro, key⟩⟩ } coro
      { state.locals coro with call := some (.releasing todo answer) }) := by
  obtain ⟨held, phase, counts⟩ := inv.booked.phases coro valid
  obtain ⟨same, at_, few, rest⟩ := releasing_phase phase call
  have member := released_granted inv.booked valid call
  have booked : Booked cfg (LsState.setLocal
      { state with ledger := ⟨server, state.ledger.grants.erase ⟨callerId coro, key⟩⟩ } coro
      { state.locals coro with call := some (.releasing todo answer) }) := by
    refine served_booked inv.booked valid ?_ ?_
    · intro grant other
      exact count_erase_of_ne fun equal => other (by rw [equal])
    · refine ⟨todo, ?_, ?_⟩
      · rw [length_cons] at few
        cases answer with
        | fail => exact .rolling todo rfl rest.1 at_ rest.2.1 rest.2.2 (by omega)
        | success => exact .releasing todo rfl rest.1 at_ rest.2 (by omega)
      · intro other
        have before := counts other
        rw [same, count_cons] at before
        simp only [count_erase, before, beq_iff_eq, Grant.mk.injEq, true_and]
        omega
  have ran : state.ledger.unlock debug ⟨callerId coro, key⟩ =
      .ok ⟨server, state.ledger.grants.erase ⟨callerId coro, key⟩⟩ := by
    rw [Ledger.unlock, run]
    rfl
  obtain ⟨slots, _, sameLocks⟩ := unlock_inv inv.power inv.slots
    (booked_few inv.booked inv.data.txInv) member ran
  exact ⟨inv.data, sameLocks.trans inv.power, slots, booked⟩

theorem serve_ls_inv (inv : LsInv cfg sizes state) (valid : cfg.data.Valid coro)
    (ran : serveStep debug state coro = some (.ok next)) : LsInv cfg sizes next := by
  obtain ⟨service, call, ran⟩ := Option.bind_eq_some_iff.mp ran
  obtain ⟨outcome, served, ran⟩ := Option.bind_eq_some_iff.mp ran
  cases outcome with
  | error fault => cases ran
  | ok out =>
      obtain ⟨ledger, rest⟩ := out
      rw [← Except.ok.inj (Option.some.inj ran)]
      rcases serve_once_cases served with
        ⟨grantedKeys, key, todo, server, success, rfl, run, rfl, rfl⟩ |
        ⟨key, todo, answer, server, rfl, run, rfl, rfl⟩
      · exact lock_served inv valid call run
      · exact unlock_served inv valid call run

end Steps

end Fasst.TxLockserverInvariant

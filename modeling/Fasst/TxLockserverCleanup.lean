import Fasst.Runs
import Fasst.TxLockserverInvariant

/-!
# Clean-up in lock-server mode

In a careful run no grant and no bucket lock of a coroutine is left when its
`commit` or `abort` has returned, and what it unlocks was granted to it. Three
short runs show what happens otherwise.
-/

namespace Fasst.TxLockserverCleanup

open List Fasst.FixedTableModel Fasst.FixedTableLocks Fasst.FixedTableSpec Fasst.TxModel
open Fasst.TxCluster Fasst.TxLocal Fasst.TxSteps Fasst.TxLocks Fasst.TxInvariant
open Fasst.LockserverModel Fasst.LockserverGrants Fasst.TxLockserver Fasst.TxLockserverInvariant

set_option autoImplicit false

variable {V : Type} {cfg : LsConfig} {debug : Bool} {sizes : Nat → Nat → Nat}
  {state next : LsState V} {coro : CoroId}

theorem careful_step_inv (inv : LsInv cfg sizes state) (label : LsLabel V)
    (ran : carefulStep cfg debug state label = some next) : LsInv cfg sizes next := by
  simp only [carefulStep, Option.ite_none_right_eq_some] at ran
  obtain ⟨careful, ran⟩ := ran
  have stepped : lsStep cfg debug state label = some (.ok next) := by
    unfold okStep at ran
    split at ran
    · rename_i after found
      rw [found, Option.some.inj ran]
    · cases ran
  unfold lsStep at stepped
  rw [Option.ite_none_right_eq_some] at stepped
  obtain ⟨valid, stepped⟩ := stepped
  have plain : ∀ {result : Option (LsState V)}, result.map (Except.ok (ε := LsCrash)) =
      some (.ok next) → result = some next := by
    intro result mapped
    obtain ⟨after, found, same⟩ := Option.map_eq_some_iff.mp mapped
    rw [found, Except.ok.inj same]
  cases label with
  | start coro =>
      rw [Option.ite_none_right_eq_some] at stepped
      exact start_ls_inv inv valid stepped.1 stepped.2
  | addToReadSet coro rpcReqtype key objAddr obj =>
      rw [Option.ite_none_right_eq_some] at stepped
      exact add_read_ls_inv inv valid stepped.1 careful stepped.2
  | addToWriteSet coro rpcReqtype key objAddr obj writeMode =>
      rw [Option.ite_none_right_eq_some] at stepped
      exact add_write_ls_inv inv valid stepped.1 careful stepped.2
  | writeObj coro index valSize val =>
      rw [Option.ite_none_right_eq_some] at stepped
      exact write_obj_ls_inv inv valid stepped.1 stepped.2
  | doRead coro => exact do_read_ls_inv inv careful (plain stepped)
  | commit coro => exact commit_ls_inv inv (plain stepped)
  | abort coro => exact abort_ls_inv inv valid careful (plain stepped)
  | serve coro => exact serve_ls_inv inv valid stepped
  | answered coro => exact answered_ls_inv inv valid (plain stepped)
  | handle coro index stale => exact handle_ls_inv inv valid stepped
  | resume coro =>
      obtain ⟨outcome, resumed, mapped⟩ := Option.map_eq_some_iff.mp stepped
      cases outcome with
      | error crash => cases mapped
      | ok after =>
          rw [← Except.ok.inj mapped]
          exact resume_ls_inv inv valid resumed

structure LsInitial (cfg : LsConfig) (state : LsState V) : Prop where
  cluster : Initial cfg.data state.cluster
  ledger : ∃ oldOwner, state.ledger = ⟨Lockserver.construct (2 ^ cfg.lockBits) oldOwner, []⟩
  locals : ∀ coro, state.locals coro = ⟨false, false, none⟩

theorem ls_initial_inv (initial : LsInitial cfg state) :
    LsInv cfg (tableSizes state.cluster) state := by
  obtain ⟨oldOwner, ledger⟩ := initial.ledger
  refine ⟨initial_inv initial.cluster, ?_, ?_, ?_, ?_⟩
  · rw [ledger]
    rfl
  · rw [ledger]
    exact construct_inv _ _
  · intro coro _
    have idle : state.tx coro = .construct := initial.cluster.txns coro _
    rw [ledger, idle, initial.locals]
    exact ⟨[], .idle rfl rfl rfl (fun _ => rfl) (fun refused => by cases refused), fun _ => rfl⟩
  · rw [ledger]
    exact fun _ member => by cases member

/-- `commit` or `abort` has returned, or nothing has been started yet. -/
def Returned (state : LsState V) (coro : CoroId) : Prop :=
  (state.locals coro).call = none ∧ (state.locals coro).refused = false ∧
    (state.tx coro).pc = .app ∧
    ((state.tx coro).status = .committed ∨ (state.tx coro).status = .aborted)

theorem returned_no_grant (booked : Booked cfg state) (valid : cfg.data.Valid coro)
    (returned : Returned state coro) :
    ∀ grant ∈ state.ledger.grants, grant.requesterId ≠ callerId coro := by
  obtain ⟨call, _, _, finished⟩ := returned
  obtain ⟨held, phase, counts⟩ := booked.phases coro valid
  have none_ : held = [] := by
    cases phase with
    | idle => rfl
    | ended => rfl
    | running _ _ _ active =>
        rcases active with active | active <;> rcases finished with finished | finished <;>
          rw [active] at finished <;> cases finished
    | locking _ _ waiting | rolling _ waiting | releasing _ waiting =>
        rw [call] at waiting
        cases waiting
  intro grant member mine
  have positive := count_pos_iff.mpr member
  obtain ⟨requesterId, key⟩ := grant
  rw [show requesterId = _ from mine, counts, none_] at positive
  cases positive

theorem returned_no_bucket {config : Config} {swarm : State V} (inv : ClusterInv config sizes swarm)
    (valid : config.Valid coro) (at_ : (swarm.tx coro).pc = .app)
    (finished : (swarm.tx coro).status = .committed ∨ (swarm.tx coro).status = .aborted)
    (machine reqtype bucket : Nat) :
    isLocked ((swarm.tables machine reqtype).buckets bucket).timestamp →
      ((swarm.tables machine reqtype).buckets bucket).lockerId ≠ callerId coro := by
  intro taken mine
  have locked := inv.locks ⟨machine, reqtype, bucket⟩
  simp only at locked
  cases lock : lockOf ((swarm.tables machine reqtype).buckets bucket) with
  | none => exact (not_locked_iff _).mpr ((lock_of_none_iff _).mp lock) taken
  | some pair =>
      obtain ⟨owner, count⟩ := pair
      obtain ⟨_, sameOwner, _⟩ := lock_of_some _ owner count lock
      have wf := (inv.tableOk machine reqtype).locks bucket
      rw [LockWf, lock] at wf
      rw [lock] at locked
      obtain ⟨holder, holderValid, isHolder, total, _⟩ := locked
      have self : holder = coro :=
        caller_id_injective holderValid valid (isHolder.symm.trans (sameOwner.symm.trans mine))
      have zero : lockCount config sizes (swarm.tx coro) ⟨machine, reqtype, bucket⟩ = 0 := by
        rw [lockCount, countP_eq_zero]
        intro loc _
        rw [finished_holds (inv.txInv coro) at_ finished loc, Bool.false_and]
        exact Bool.false_ne_true
      rw [self] at total
      have positive := wf.2.1
      rw [show count = 0 from total.trans zero] at positive
      cases positive

theorem lock_server_mode_cleans_up {init : LsState V} (initial : LsInitial cfg init)
    (reached : Runs.Reachable (carefulStep cfg debug) init state) (coro : CoroId)
    (valid : cfg.data.Valid coro) :
    state.ledger.Inv ∧
      (Returned state coro →
        (∀ grant ∈ state.ledger.grants, grant.requesterId ≠ callerId coro) ∧
        ∀ machine reqtype bucket,
          isLocked ((state.cluster.tables machine reqtype).buckets bucket).timestamp →
            ((state.cluster.tables machine reqtype).buckets bucket).lockerId ≠ callerId coro) ∧
      ∀ key todo answer, (state.locals coro).call = some (.releasing (key :: todo) answer) →
        ⟨callerId coro, key⟩ ∈ state.ledger.grants := by
  have inv := Runs.reachable_invariant (ls_initial_inv initial)
    (fun _ label _ inv ran => careful_step_inv inv label ran) reached
  refine ⟨inv.slots, ?_, ?_⟩
  · intro returned
    exact ⟨returned_no_grant inv.booked valid returned,
      returned_no_bucket inv.data valid returned.2.2.1 returned.2.2.2⟩
  · intro key todo answer call
    exact released_granted inv.booked valid call

/-- One data machine and the lock server, with four lock slots. -/
def lsPair : LsConfig where
  mappings := ⟨2, 1, 0, true, Placement.two_workers_fit, Placement.one_thread_fits,
    Nat.zero_le Placement.hotsMaxBackups, by decide⟩
  lockServerOn := rfl
  dataReplicas := by decide
  numCoro := 3
  numCoroBound := three_coros_fit
  hash := id
  lockBits := 2

def lsStart : LsState Nat where
  cluster := newSwarm 8 1 0 0
  ledger := ⟨Lockserver.construct (2 ^ 2) fun _ => 0, []⟩
  locals _ := ⟨false, false, none⟩

theorem ls_start_initial : LsInitial lsPair lsStart :=
  ⟨new_swarm_initial lsPair.data 8 1 0 (0 : Nat) (by decide), ⟨fun _ => 0, rfl⟩, fun _ => rfl⟩

structure LsView where
  waiting : Bool
  refused : Bool
  pc : Pc
  status : TxStatus
  grants : List Grant
  slots : List LocksrvLock
  bucketLocked : Bool
  bucketLocker : Nat
  deriving DecidableEq

def lsView (coro : CoroId) (state : LsState Nat) : LsView where
  waiting := (state.locals coro).call.isSome
  refused := (state.locals coro).refused
  pc := (state.tx coro).pc
  status := (state.tx coro).status
  grants := state.ledger.grants
  slots := [state.ledger.server.lockArr 1, state.ledger.server.lockArr 2]
  bucketLocked := decide (isLocked ((state.cluster.tables 0 20).buckets 0).timestamp)
  bucketLocker := ((state.cluster.tables 0 20).buckets 0).lockerId

theorem returned_of_view {state : LsState Nat} (waiting : (lsView coro state).waiting = false)
    (refused : (lsView coro state).refused = false) (at_ : (lsView coro state).pc = .app)
    (finished : (lsView coro state).status = .committed ∨ (lsView coro state).status = .aborted) :
    Returned state coro :=
  ⟨Option.isSome_eq_false_iff.mp waiting |> Option.isNone_iff_eq_none.mp, refused, at_, finished⟩

/-- A key is inserted and everything is given back. -/
theorem lock_server_mode_cleans_up_insert :
    ∃ state, Runs.Reachable (carefulStep lsPair false) lsStart state ∧ Returned state ⟨0, 1⟩ ∧
      (state.tx ⟨0, 1⟩).status = .committed ∧
      ∀ grant ∈ state.ledger.grants, grant.requesterId ≠ callerId ⟨0, 1⟩ := by
  have observed : ([.start ⟨0, 1⟩, .addToWriteSet ⟨0, 1⟩ 20 5 0 ⟨8, 0, 7⟩ .insert, .doRead ⟨0, 1⟩,
      .serve ⟨0, 1⟩, .answered ⟨0, 1⟩, .handle ⟨0, 1⟩ 0 0, .resume ⟨0, 1⟩, .commit ⟨0, 1⟩,
      .handle ⟨0, 1⟩ 0 0, .resume ⟨0, 1⟩, .serve ⟨0, 1⟩, .answered ⟨0, 1⟩].foldlM
        (carefulStep lsPair false) lsStart).map (lsView ⟨0, 1⟩) =
      some ⟨false, false, .app, .committed, [], [⟨.unlocked, 0, 1⟩, ⟨.unlocked, 0, 0⟩], false,
        kInvalidCallerId⟩ := by
    decide +kernel
  obtain ⟨state, ran, same⟩ := Option.map_eq_some_iff.mp observed
  have reached := Runs.reachable_of_run _ .refl ran
  have returned : Returned state ⟨0, 1⟩ :=
    returned_of_view (by rw [same]) (by rw [same]) (by rw [same]) (by rw [same]; exact Or.inl rfl)
  have facts := lock_server_mode_cleans_up ls_start_initial reached ⟨0, 1⟩ (by decide)
  exact ⟨state, reached, returned, congrArg LsView.status same, (facts.2.1 returned).1⟩

/-- Two calls of `do_read` lock the first key twice, and `commit` unlocks it once. -/
def twoReads : List (LsLabel Nat) :=
  [.start ⟨0, 1⟩, .addToReadSet ⟨0, 1⟩ 20 5 0 ⟨8, 0, 7⟩, .doRead ⟨0, 1⟩, .serve ⟨0, 1⟩,
    .answered ⟨0, 1⟩, .handle ⟨0, 1⟩ 0 0, .resume ⟨0, 1⟩, .addToReadSet ⟨0, 1⟩ 20 6 0 ⟨8, 0, 7⟩,
    .doRead ⟨0, 1⟩, .serve ⟨0, 1⟩, .serve ⟨0, 1⟩, .answered ⟨0, 1⟩, .handle ⟨0, 1⟩ 0 0,
    .resume ⟨0, 1⟩, .commit ⟨0, 1⟩, .serve ⟨0, 1⟩, .serve ⟨0, 1⟩, .answered ⟨0, 1⟩]

/-- `abort` returns before it comes to the bucket of the insert. -/
def abortedInsert : List (LsLabel Nat) :=
  [.start ⟨0, 1⟩, .addToWriteSet ⟨0, 1⟩ 20 5 0 ⟨8, 0, 7⟩ .insert, .doRead ⟨0, 1⟩, .serve ⟨0, 1⟩,
    .answered ⟨0, 1⟩, .handle ⟨0, 1⟩ 0 0, .resume ⟨0, 1⟩, .abort ⟨0, 1⟩, .serve ⟨0, 1⟩,
    .answered ⟨0, 1⟩]

/-- The second request is refused because of the other coroutine's entry, which
`abort` then unlocks. -/
def foreignUnlock : List (LsLabel Nat) :=
  [.start ⟨0, 2⟩, .addToReadSet ⟨0, 2⟩ 20 6 0 ⟨8, 0, 7⟩, .doRead ⟨0, 2⟩, .serve ⟨0, 2⟩,
    .start ⟨0, 1⟩, .addToReadSet ⟨0, 1⟩ 20 5 0 ⟨8, 0, 7⟩, .doRead ⟨0, 1⟩, .serve ⟨0, 1⟩,
    .answered ⟨0, 1⟩, .handle ⟨0, 1⟩ 0 0, .resume ⟨0, 1⟩,
    .addToWriteSet ⟨0, 1⟩ 20 6 0 ⟨8, 0, 7⟩ .insert, .doRead ⟨0, 1⟩, .serve ⟨0, 1⟩,
    .answered ⟨0, 1⟩, .abort ⟨0, 1⟩, .serve ⟨0, 1⟩, .serve ⟨0, 1⟩]

theorem lock_server_mode_leaks :
    (∃ state, Runs.Reachable (okStep lsPair false) lsStart state ∧ Returned state ⟨0, 1⟩ ∧
      state.ledger.grants = [⟨callerId ⟨0, 1⟩, ⟨false, 5⟩⟩] ∧
      (state.ledger.server.lockArr 1).counter = 1) ∧
    (∃ state, Runs.Reachable (okStep lsPair false) lsStart state ∧ Returned state ⟨0, 1⟩ ∧
      isLocked ((state.cluster.tables 0 20).buckets 0).timestamp ∧
      ((state.cluster.tables 0 20).buckets 0).lockerId = callerId ⟨0, 1⟩) ∧
    ∃ state, Runs.Reachable (okStep lsPair false) lsStart state ∧
      state.ledger.grants = [⟨callerId ⟨0, 2⟩, ⟨false, 6⟩⟩] ∧
      (state.ledger.server.lockArr 2).lockMode = .unlocked := by
  refine ⟨?_, ?_, ?_⟩
  · have observed : (twoReads.foldlM (okStep lsPair false) lsStart).map (lsView ⟨0, 1⟩) =
        some ⟨false, false, .app, .committed, [⟨1, ⟨false, 5⟩⟩],
          [⟨.shared, 1, 0⟩, ⟨.unlocked, 0, 0⟩], false, kInvalidCallerId⟩ := by
      decide +kernel
    obtain ⟨state, ran, same⟩ := Option.map_eq_some_iff.mp observed
    refine ⟨state, Runs.reachable_of_run _ .refl ran, ?_, congrArg LsView.grants same, ?_⟩
    · exact returned_of_view (by rw [same]) (by rw [same]) (by rw [same])
        (by rw [same]; exact Or.inl rfl)
    · have slots := congrArg LsView.slots same
      exact congrArg LocksrvLock.counter (cons.inj slots).1
  · have observed : (abortedInsert.foldlM (okStep lsPair false) lsStart).map (lsView ⟨0, 1⟩) =
        some ⟨false, false, .app, .aborted, [], [⟨.unlocked, 0, 1⟩, ⟨.unlocked, 0, 0⟩], true, 1⟩ := by
      decide +kernel
    obtain ⟨state, ran, same⟩ := Option.map_eq_some_iff.mp observed
    refine ⟨state, Runs.reachable_of_run _ .refl ran, ?_, ?_, congrArg LsView.bucketLocker same⟩
    · exact returned_of_view (by rw [same]) (by rw [same]) (by rw [same])
        (by rw [same]; exact Or.inr rfl)
    · exact of_decide_eq_true (congrArg LsView.bucketLocked same)
  · have observed : (foreignUnlock.foldlM (okStep lsPair false) lsStart).map (lsView ⟨0, 1⟩) =
        some ⟨true, false, .app, .aborted, [⟨2, ⟨false, 6⟩⟩],
          [⟨.unlocked, 0, 0⟩, ⟨.unlocked, 0, 0⟩], false, kInvalidCallerId⟩ := by
      decide +kernel
    obtain ⟨state, ran, same⟩ := Option.map_eq_some_iff.mp observed
    refine ⟨state, Runs.reachable_of_run _ .refl ran, congrArg LsView.grants same, ?_⟩
    have slots := congrArg LsView.slots same
    exact congrArg LocksrvLock.lockMode (cons.inj (cons.inj slots).2).1

end Fasst.TxLockserverCleanup

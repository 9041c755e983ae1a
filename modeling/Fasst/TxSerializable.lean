import Fasst.TxSerial

/-!
# Committed transactions are serializable

The results of all committed transactions are those of a serial execution on
the initial contents of the primaries. The condition is that no bucket has gone
through all values of its version field since the start.
-/

namespace Fasst.TxSerializable

open List Fasst.FixedTableModel Fasst.FixedTableSpec Fasst.Placement Fasst.TxModel Fasst.TxCluster
open Fasst.TxLocal Fasst.TxCalls Fasst.TxHandler Fasst.TxSteps Fasst.TxLocks Fasst.TxInvariant
open Fasst.TxOwnership Fasst.TxReplicas Fasst.TxViews Fasst.TxSerial Fasst.OptimisticLocking
open Fasst.OptimisticSteps

set_option autoImplicit false

variable {V : Type} {cfg : Config} {init state : State V} {coro : CoroId}

/-- The commit of a transaction has returned or can no longer fail. -/
def Committed (tx : TxState V) : Prop :=
  match tx.pc with
  | .app => tx.status = .committed
  | .log | .update _ _ => True
  | _ => False

def InProgress (tx : TxState V) : Prop :=
  ¬ (tx.pc = .app ∧ (tx.status = .committed ∨ tx.status = .aborted))

/-- One transaction alone on a store. -/
def execute (store : Loc → Option V) (tx : TxState V) : Loc → Option V :=
  tx.writeSet.foldl (fun store item => Function.update store item.loc (entryOf item)) store

def executeAll (store : Loc → Option V) (state : State V) (order : List TxId) : Loc → Option V :=
  order.foldl (fun store txn => execute store (state.txns txn.1 txn.2)) store

/-- `order` lists the committed transactions, each of them has seen what the
ones before it have left, and together they have made the present store. -/
structure Serializes (cfg : Config) (init state : State V) (order : List TxId) : Prop where
  nodup : order.Nodup
  committed : ∀ txn : TxId, txn ∈ order ↔
    txn.2 ≤ state.cur txn.1 ∧ Committed (state.txns txn.1 txn.2)
  observed : ∀ front txn back, order = front ++ txn :: back →
    ∀ item ∈ (state.txns txn.1 txn.2).readSet ++ (state.txns txn.1 txn.2).writeSet,
      item.seen = executeAll (primaryEntry cfg init) state front item.loc
  final : (∀ coro, ¬ InProgress (state.tx coro)) →
    ∀ loc : Loc, loc.1 % rpcPrimaryDsReqSpacing = 0 →
      primaryEntry cfg state loc = executeAll (primaryEntry cfg init) state order loc

/-- Fewer final unlocks of every bucket than its version field has values. -/
def FewUnlocks (init state : State V) : Prop :=
  ∀ machine reqtype bucket, ((state.tables machine reqtype).buckets bucket).finalUnlocks <
    ((init.tables machine reqtype).buckets bucket).finalUnlocks + 2 ^ 60

section Unlocks

theorem release_version_range (before : MapState V) (bucket target : Nat) :
    before.version target ≤ (before.release bucket).version target ∧
      (before.release bucket).version target ≤ before.version target + 1 := by
  unfold MapState.release
  split
  · exact ⟨Nat.le_refl _, Nat.le_succ _⟩
  · simp only [Function.update_apply]
    split_ifs with here
    · rw [here]
      exact ⟨Nat.le_succ _, Nat.le_refl _⟩
    · exact ⟨Nat.le_refl _, Nat.le_succ _⟩

/-- A request changes a version by one at most, and never down. -/
theorem ds_version_range {req : DsReq V} {resp : Resp V} {tx : TxState V} {before after : MapState V}
    (case_ : DsCase cfg coro tx req resp before after) (bucket : Nat) :
    before.version bucket ≤ after.version bucket ∧
      after.version bucket ≤ before.version bucket + 1 := by
  have stays : before.version bucket ≤ before.version bucket ∧
      before.version bucket ≤ before.version bucket + 1 := ⟨Nat.le_refl _, Nat.le_succ _⟩
  cases case_ with
  | read item member same unchanged => rw [unchanged]; exact stays
  | denied item member same refused now =>
      rcases now with now | ⟨_, now⟩
      · rw [now]; exact stays
      · have range := release_version_range (before.acquire (callerId coro)
          (before.bucketOf (dsKeyhash cfg item.key))) (before.bucketOf (dsKeyhash cfg item.key)) bucket
        rw [acquire_version] at range
        rw [now]
        exact range
  | granted item member same accepted fresh noUnlock noApply free now =>
      rw [now, acquire_version]
      exact stays
  | unlocked item member same held noApply now =>
      rw [now]
      exact release_version_range before _ bucket
  | applied replI item member same vec rest at_ inside bound held fresh now =>
      rw [now, store_release_version]
      split_ifs
      · exact release_version_range before _ bucket
      · exact stays

theorem step_version_range {label : Label V} {next : State V} {sizes : Nat → Nat → Nat}
    (cluster : ClusterInv cfg sizes state) (ran : step cfg state label = some (.ok next))
    (place : Place) : versionAt cfg state place ≤ versionAt cfg next place ∧
      versionAt cfg next place ≤ versionAt cfg state place + 1 := by
  obtain ⟨valid, case_⟩ := step_cases (cluster.txInv label.coro) ran
  have stays : versionAt cfg state place ≤ versionAt cfg state place ∧
      versionAt cfg state place ≤ versionAt cfg state place + 1 := ⟨Nat.le_refl _, Nat.le_succ _⟩
  cases case_ with
  | start at_ ended => exact stays
  | move tx moved =>
      have same : versionAt cfg ((state.stage cfg label.coro tx).setTx label.coro tx) place =
          versionAt cfg state place := by
        rw [versionAt, mapAt, tables_set_tx, tables_stage, versionAt, mapAt]
      rw [same]
      exact stays
  | ds index req stale resp table found run =>
      have range := ds_version_range
        (ds_case cluster found (ds_run cluster valid found run).2) place.bucket
      rw [version_at_ds]
      split_ifs with here
      · rw [versionAt, here.1, here.2]
        exact range
      · exact stays
  | log index machine wrkrLid record found => exact stays

/-- A run of fewer steps than the version field has values is safe. -/
theorem few_unlocks_of_run (initial : Initial cfg init) {labels : List (Label V)}
    (ran : runLabels cfg init labels = some state) (short : labels.length < 2 ^ 60) :
    FewUnlocks init state := by
  have counted : ∀ (labels : List (Label V)) (before : State V), Reachable cfg init before →
      runLabels cfg before labels = some state →
      ∀ place, versionAt cfg state place ≤ versionAt cfg before place + labels.length := by
    intro labels
    induction labels with
    | nil =>
        intro before _ same place
        rw [Option.some.inj same]
        exact Nat.le_refl _
    | cons label rest ih =>
        intro before reached ran place
        rw [runLabels] at ran
        split at ran
        · rename_i after taken
          have later := ih after (.step label reached taken) ran place
          have now := (step_version_range (reachable_inv initial reached) taken place).2
          rw [length_cons]
          omega
        · cases ran
  intro machine reqtype bucket
  have bound := counted labels init .refl ran ⟨machine, reqtype, bucket⟩
  exact Nat.lt_of_le_of_lt bound (Nat.add_lt_add_left short _)

end Unlocks

section Serial

/-- A step leaves the finished transactions as they are. -/
theorem step_past {label : Label V} {next : State V} {sizes : Nat → Nat → Nat}
    (cluster : ClusterInv cfg sizes state) (ran : step cfg state label = some (.ok next))
    {number : Nat} (earlier : number < next.cur coro) :
    next.txns coro number = state.txns coro number ∧
      (number < state.cur coro ∨ (number = state.cur coro ∧ ¬ InProgress (state.tx coro))) := by
  have kept : ∀ (tx : TxState V) (middle : State V), number < middle.cur coro →
      (middle.setTx label.coro tx).txns coro number = middle.txns coro number := by
    intro tx middle bound
    refine txns_set_tx_other middle label.coro tx fun same => ?_
    obtain ⟨rfl, rfl⟩ := Prod.mk.inj same
    exact Nat.lt_irrefl _ bound
  obtain ⟨_, case_⟩ := step_cases (cluster.txInv label.coro) ran
  cases case_ with
  | start at_ ended =>
      simp only [startState] at earlier ⊢
      by_cases mine : coro = label.coro
      · subst mine
        rw [Function.update_self] at earlier
        rw [Function.update_self, Function.update_of_ne (by omega)]
        refine ⟨rfl, ?_⟩
        rcases Nat.lt_succ_iff_lt_or_eq.mp earlier with before | last
        · exact Or.inl before
        · exact Or.inr ⟨last, fun open_ => open_ ⟨at_, ended⟩⟩
      · rw [Function.update_of_ne mine] at earlier
        rw [Function.update_of_ne mine]
        exact ⟨rfl, Or.inl earlier⟩
  | move tx moved =>
      obtain ⟨sameTxns, sameCur⟩ := txns_stage cfg state label.coro tx
      have bound : number < state.cur coro := by
        rw [← sameCur]
        exact earlier
      rw [kept tx _ (by rw [sameCur]; exact bound), sameTxns]
      exact ⟨rfl, Or.inl bound⟩
  | ds index req stale resp table found run =>
      exact ⟨kept _ (state.setTable req.machine req.rpcReqtype table) earlier, Or.inl earlier⟩
  | log index machine wrkrLid record found =>
      exact ⟨kept _ (state.setLogger machine wrkrLid _) earlier, Or.inl earlier⟩

theorem past_inv (initial : Initial cfg init) (reached : Reachable cfg init state) {number : Nat}
    (bound : number ≤ state.cur coro) : TxInv cfg coro (state.txns coro number) := by
  induction reached with
  | refl =>
      rw [initial.txns]
      exact start_inv cfg coro .aborted (Or.inr rfl)
  | @step before next label reached ran ih =>
      rcases Nat.lt_or_eq_of_le bound with earlier | current
      · obtain ⟨same, place⟩ := step_past (reachable_inv initial reached) ran earlier
        rw [same]
        exact ih (by omega)
      · rw [current]
        exact (reachable_inv initial (.step label reached ran)).txInv coro

theorem past_over (initial : Initial cfg init) (reached : Reachable cfg init state) {number : Nat}
    (earlier : number < state.cur coro) : ¬ InProgress (state.txns coro number) := by
  induction reached with
  | refl =>
      rw [initial.cur] at earlier
      exact absurd earlier (Nat.not_lt_zero _)
  | @step before next label reached ran ih =>
      obtain ⟨same, place⟩ := step_past (reachable_inv initial reached) ran earlier
      rw [same]
      rcases place with before | ⟨last, ended⟩
      · exact ih before
      · rw [last]
        exact ended

theorem committed_iff (tx : TxState V) : Committed tx ↔ phaseOf tx = .decided := by
  unfold Committed phaseOf
  cases tx.pc with
  | app => cases tx.status <;> simp
  | doRead => simp
  | validate => simp
  | abort => simp
  | log => simp
  | update vec rest => simp

theorem execute_news {tx : TxState V} (nodup : (tx.writeSet.map RwsetItem.loc).Nodup)
    (store : Loc → Option V) (loc : Loc) :
    execute store tx loc = (newsOf tx loc).getD (store loc) := by
  unfold execute newsOf
  generalize tx.writeSet = items at nodup
  induction items generalizing store with
  | nil => rfl
  | cons item rest ih =>
      rw [map_cons, nodup_cons] at nodup
      rw [foldl_cons, ih _ nodup.2, find?_cons]
      by_cases here : item.loc = loc
      · have absent : (rest.find? fun other => other.loc = loc) = none := by
          rw [find?_eq_none]
          intro other member same
          rw [decide_eq_true_eq] at same
          apply nodup.1
          rw [here, ← same]
          exact mem_map_of_mem member
        simp [here, absent]
      · simp [here, Function.update_of_ne (Ne.symm here)]

theorem execute_all_replay {occ : Occ TxId Loc Place (Option V)} {order : List TxId}
    (news : ∀ txn ∈ order, ∀ store loc,
      execute store (state.txns txn.1 txn.2) loc = (occ.news txn loc).getD (store loc))
    (store : Loc → Option V) (loc : Loc) :
    executeAll store state order loc = replay occ.news store order loc := by
  induction order generalizing store with
  | nil => rfl
  | cons txn rest ih =>
      rw [replay_cons, executeAll, foldl_cons]
      have first : execute store (state.txns txn.1 txn.2) =
          fun loc => (occ.news txn loc).getD (store loc) := by
        funext loc
        exact news txn mem_cons_self store loc
      rw [← first]
      exact ih (fun other member => news other (mem_cons_of_mem _ member)) _

theorem initial_simulated (initial : Initial cfg init) :
    Simulated cfg (tableSizes init) (versionAt cfg init) (primaryEntry cfg init) init := by
  let occ : Occ TxId Loc Place (Option V) :=
    { store := primaryEntry cfg init
      version := versionAt cfg init
      owner := fun _ => none
      phase := fun txn => if txn.2 = 0 then .failed else .running
      reads := fun _ _ => none
      checked := fun _ _ => False
      locked := fun _ _ => none
      news := fun _ _ => none
      applied := fun _ _ => False }
  have fresh : Fresh occ := by
    refine ⟨fun txn => ?_, fun _ _ => rfl, fun _ _ => id, fun _ _ => rfl, fun _ _ => rfl,
      fun _ _ => id⟩
    by_cases first : txn.2 = 0
    · exact Or.inr (if_pos first)
    · exact Or.inl (if_neg first)
  refine ⟨occ, [], fresh_inv fresh, fun _ _ => rfl, rfl, ?_, ?_, ?_, fun _ => Nat.le_refl _, ?_⟩
  · intro place txn
    have idle : init.tx txn.1 = .construct := initial.txns txn.1 _
    rw [idle]
    constructor
    · intro owner
      cases owner
    · rintro ⟨_, positive⟩
      exact absurd positive (Nat.lt_irrefl 0)
  · intro coro number bound
    rw [initial.cur] at bound
    obtain rfl := Nat.le_zero.mp bound
    rw [initial.txns]
    exact ⟨rfl, fun _ read => absurd rfl read, fun _ locked => absurd rfl locked,
      fun _ _ => ⟨False.elim, fun count => absurd rfl count⟩, trivial⟩
  · intro coro number later
    rw [initial.cur] at later
    exact ⟨if_neg (by simp only; omega), fun _ => rfl, fun _ => id, fun _ => rfl, fun _ => rfl,
      fun _ => id⟩
  · intro txn loc entry version read
    cases read

theorem reachable_simulated (initial : Initial cfg init) (reached : Reachable cfg init state)
    (few : FewUnlocks init state) :
    Simulated cfg (tableSizes init) (versionAt cfg init) (primaryEntry cfg init) state := by
  induction reached with
  | refl => exact initial_simulated initial
  | @step before next label reached ran ih =>
      have cluster := reachable_inv initial reached
      have noWrap : NoWrap cfg (versionAt cfg init) before := by
        intro place
        exact Nat.lt_of_le_of_lt (step_version_range cluster ran place).1
          (few place.machine place.reqtype place.bucket)
      have simulated := ih fun machine reqtype bucket => noWrap ⟨machine, reqtype, bucket⟩
      obtain ⟨valid, case_⟩ := step_cases (cluster.txInv label.coro) ran
      cases case_ with
      | start at_ ended => exact start_simulated cluster simulated at_ ended
      | move tx moved => exact move_simulated cluster simulated moved
      | ds index req stale resp table found run =>
          exact ds_simulated cluster valid simulated noWrap found run
      | log index machine wrkrLid record found => exact log_simulated simulated cluster found

/-- A committed transaction as the general machine sees it. -/
theorem committing_of_committed {view : View V} {tx : TxState V} (sim : ViewSim coro view tx)
    (committed : Committed tx) : Committing view tx := by
  have stage := sim.stage
  unfold Committed at committed
  cases at_ : tx.pc with
  | app =>
      rw [at_] at committed
      simp only [StageSim, at_, show tx.status = _ from committed] at stage
      exact stage
  | doRead => rw [at_] at committed; exact committed.elim
  | validate => rw [at_] at committed; exact committed.elim
  | abort => rw [at_] at committed; exact committed.elim
  | log => simp only [StageSim, at_] at stage; exact stage
  | update vec rest => simp only [StageSim, at_] at stage; exact stage

/-- A transaction of the run whose commit has returned or can no longer fail. -/
def CommittedIn (state : State V) (txn : TxId) : Prop :=
  txn.2 ≤ state.cur txn.1 ∧ Committed (state.txns txn.1 txn.2)

section Explanation

variable {sizes : Nat → Nat → Nat} {base : Place → Nat} {occ : Occ TxId Loc Place (Option V)}

theorem decided_iff (sim : Sim cfg sizes base state occ) (txn : TxId) :
    occ.phase txn = .decided ↔ CommittedIn state txn := by
  by_cases bound : txn.2 ≤ state.cur txn.1
  · have phase : occ.phase txn = phaseOf (state.txns txn.1 txn.2) :=
      (sim.views txn.1 txn.2 bound).phase
    rw [phase, CommittedIn, committed_iff]
    exact ⟨fun same => ⟨bound, same⟩, And.right⟩
  · have fresh : occ.phase txn = .running := (sim.future txn.1 txn.2 (by omega)).phase
    rw [fresh]
    exact ⟨fun same => absurd same Phase.noConfusion, fun both => absurd both.1 bound⟩

theorem committed_view (sim : Sim cfg sizes base state occ) {txn : TxId}
    (committed : CommittedIn state txn) :
    Committing (viewOf occ txn) (state.txns txn.1 txn.2) :=
  committing_of_committed (sim.views txn.1 txn.2 committed.1) committed.2

theorem execute_view (initial : Initial cfg init) (reached : Reachable cfg init state)
    (sim : Sim cfg sizes base state occ) {txn : TxId} (committed : CommittedIn state txn)
    (store : Loc → Option V) (loc : Loc) :
    execute store (state.txns txn.1 txn.2) loc = (occ.news txn loc).getD (store loc) := by
  rw [execute_news (past_inv initial reached committed.1).writeNodup,
    ← congrFun (committed_view sim committed).news loc]
  rfl

/-- Once no transaction is in progress, no committed one has writes to apply. -/
theorem nothing_pending (initial : Initial cfg init) (reached : Reachable cfg init state)
    (sim : Sim cfg sizes base state occ) (settled : ∀ coro, ¬ InProgress (state.tx coro))
    (txn : TxId) (loc : Loc) : ¬ occ.Pending txn loc := by
  rintro ⟨phase, wrote, waiting⟩
  have committed := (decided_iff sim txn).mp phase
  have txInv := past_inv initial reached committed.1
  rw [show occ.news txn = newsOf _ from (committed_view sim committed).news] at wrote
  obtain ⟨item, member, same⟩ := news_of_from wrote
  have ended : ¬ InProgress (state.txns txn.1 txn.2) := by
    rcases Nat.lt_or_eq_of_le committed.1 with earlier | current
    · exact past_over initial reached earlier
    · rw [current]
      exact settled txn.1
  have at_ := (not_not.mp ended).1
  have status : (state.txns txn.1 txn.2).status = .committed := by
    have decided := committed.2
    unfold Committed at decided
    rw [at_] at decided
    exact decided
  have stage := txInv.stage
  simp only [StageInv, at_, status] at stage
  have ok := txInv.writeOk item member
  have count := stage.2 item member 0 (Nat.zero_le _)
  rw [replica_loc_zero ok] at count
  apply waiting
  rw [← same]
  refine ((sim.views txn.1 txn.2 committed.1).applied item.loc ok.spacing).mpr ?_
  rw [count]
  exact Nat.one_ne_zero

theorem simulated_serializes (initial : Initial cfg init) (reached : Reachable cfg init state)
    (simulated : Simulated cfg sizes base (primaryEntry cfg init) state) :
    ∃ order, Serializes cfg init state order := by
  obtain ⟨occ, calls, serial, sim⟩ := simulated
  obtain ⟨order, nodup, listed, observed, final⟩ := serial_order serial
  have members : ∀ txn, txn ∈ order ↔ CommittedIn state txn :=
    fun txn => (listed txn).trans (decided_iff sim txn)
  have replayed : ∀ front back, order = front ++ back → ∀ loc,
      executeAll (primaryEntry cfg init) state front loc =
        replay occ.news (primaryEntry cfg init) front loc := by
    intro front back split loc
    apply execute_all_replay
    intro txn inside store loc
    refine execute_view initial reached sim ((members txn).mp ?_) store loc
    rw [split]
    exact mem_append_left _ inside
  refine ⟨order, nodup, members, ?_, ?_⟩
  · intro front txn back split item member
    have committed : CommittedIn state txn := (members txn).mp (by rw [split]; simp)
    rw [replayed front _ split]
    refine (observed front txn back split item.loc item.seen ?_).symm
    rcases mem_append.mp member with read | write
    · exact Or.inr ((committed_view sim committed).reads item read)
    · exact Or.inl ((committed_view sim committed).writes item write)
  · intro settled loc spacing
    rw [replayed order [] (append_nil order).symm, ← sim.store loc spacing]
    exact (final (nothing_pending initial reached sim settled) loc).symm

end Explanation

/-- In every reachable state there is a serial order of the committed
transactions that explains what they saw and, once no transaction is in
progress, the contents of the primaries. -/
theorem committed_transactions_serializable (initial : Initial cfg init)
    (reached : Reachable cfg init state) (few : FewUnlocks init state) :
    ∃ order, Serializes cfg init state order :=
  simulated_serializes initial reached (reachable_simulated initial reached few)

/-- A transaction inserts a key; one of the other machine reads it and inserts another. -/
def insertThenRead : List (Label Nat) :=
  insertRun ++ [.handle ⟨0, 1⟩ 0 0, .resume ⟨0, 1⟩, .handle ⟨0, 1⟩ 0 0, .resume ⟨0, 1⟩] ++
    [.start ⟨1, 1⟩, .addToReadSet ⟨1, 1⟩ 20 5 0 ⟨8, 0, 0⟩,
      .addToWriteSet ⟨1, 1⟩ 20 7 0 ⟨8, 0, 9⟩ .insert, .doRead ⟨1, 1⟩, .handle ⟨1, 1⟩ 0 0,
      .handle ⟨1, 1⟩ 1 0, .resume ⟨1, 1⟩, .commit ⟨1, 1⟩] ++
    (replicate 4 [.handle ⟨1, 1⟩ 0 0, .resume ⟨1, 1⟩]).flatten

theorem committed_transactions_serializable_insert_then_read :
    ∃ state, runLabels twoMachines (newSwarm 8 1 0 (0 : Nat)) insertThenRead = some state ∧
      FewUnlocks (newSwarm 8 1 0 0) state ∧
      ∃ order, (⟨0, 1⟩, 1) ∈ order ∧ (⟨1, 1⟩, 1) ∈ order ∧
        Serializes twoMachines (newSwarm 8 1 0 0) state order := by
  have observed : (runLabels twoMachines (newSwarm 8 1 0 (0 : Nat)) insertThenRead).map
      (fun state => decide (∀ coro ∈ [(⟨0, 1⟩ : CoroId), ⟨1, 1⟩],
        1 ≤ state.cur coro ∧ (state.txns coro 1).pc = .app ∧
          (state.txns coro 1).status = .committed)) = some true := by
    decide +kernel
  obtain ⟨state, ran, same⟩ := Option.map_eq_some_iff.mp observed
  have ended := of_decide_eq_true same
  have initial := new_swarm_initial twoMachines 8 1 0 (0 : Nat) (by decide)
  have few := few_unlocks_of_run initial ran (by decide)
  obtain ⟨order, serial⟩ :=
    committed_transactions_serializable initial (run_labels_reachable _ .refl ran) few
  have member : ∀ coro ∈ [(⟨0, 1⟩ : CoroId), ⟨1, 1⟩], (coro, 1) ∈ order := by
    intro coro listed
    obtain ⟨bound, at_, status⟩ := ended coro listed
    exact (serial.committed (coro, 1)).mpr ⟨bound, by simp only [Committed, at_, status]⟩
  exact ⟨state, ran, few, order, member _ (by decide), member _ (by decide), serial⟩

end Serial

end Fasst.TxSerializable

import Fasst.TxProgramRuns

/-!
# Serial histories of committed transactions

What every committed transaction keeps, if it ran alone on a store that it has
seen, holds along a serial history of all of them: before each transaction, on
the store that it has seen, and at the end, on the contents of the primaries.

An application keeps an object in the tables, and each of its transactions does one
operation of the object. Its committed transactions are then a run of the object, in
which each of them has seen what the operations before it have left.
-/

namespace Fasst.TxHistories

open List Fasst.FixedTableModel Fasst.TxModel Fasst.TxCluster Fasst.TxLocal Fasst.TxSteps
open Fasst.TxInvariant Fasst.TxReplicas Fasst.TxViews Fasst.TxSerializable Fasst.TxEntries

set_option autoImplicit false

variable {V : Type} {cfg : Config} {init state : State V}

def Saw (store : Loc → Option V) (print : Footprint V) : Prop :=
  ∀ pair ∈ print.seen, store pair.1 = pair.2

def writeAll (store : Loc → Option V) (print : Footprint V) : Loc → Option V :=
  print.wrote.foldl (fun store pair => Function.update store pair.1 pair.2) store

theorem execute_footprint (store : Loc → Option V) (tx : TxState V) :
    execute store tx = writeAll store (footprint tx) := by
  rw [execute, writeAll, footprint, foldl_map]

/-- `inv` relates the transactions that have been executed and the store they
have left. -/
structure History (cfg : Config) (init state : State V)
    (inv : List TxId → (Loc → Option V) → Prop) (order : List TxId) : Prop where
  nodup : order.Nodup
  members : ∀ txn : TxId, txn ∈ order ↔ CommittedIn state txn
  before : ∀ front txn back, order = front ++ txn :: back →
    inv front (executeAll (primaryEntry cfg init) state front) ∧
      Saw (executeAll (primaryEntry cfg init) state front) (footprint (state.txns txn.1 txn.2))
  after : inv order (executeAll (primaryEntry cfg init) state order)
  final : (∀ coro, ¬ InProgress (state.tx coro)) →
    ∀ loc : Loc, loc.1 % rpcPrimaryDsReqSpacing = 0 →
      primaryEntry cfg state loc = executeAll (primaryEntry cfg init) state order loc

theorem execute_all_snoc (store : Loc → Option V) (state : State V) (front : List TxId)
    (txn : TxId) : executeAll store state (front ++ [txn]) =
      writeAll (executeAll store state front) (footprint (state.txns txn.1 txn.2)) := by
  rw [executeAll, foldl_append, ← execute_footprint]
  rfl

theorem serial_history (initial : Initial cfg init) (reached : Reachable cfg init state)
    (few : FewUnlocks init state) {inv : List TxId → (Loc → Option V) → Prop}
    (start : inv [] (primaryEntry cfg init))
    (keeps : ∀ front txn store, CommittedIn state txn → inv front store →
      Saw store (footprint (state.txns txn.1 txn.2)) →
        inv (front ++ [txn]) (writeAll store (footprint (state.txns txn.1 txn.2)))) :
    ∃ order, History cfg init state inv order := by
  obtain ⟨order, serial⟩ :=
    simulated_serializes initial reached (reachable_simulated initial reached few)
  have saw : ∀ front txn back, order = front ++ txn :: back →
      Saw (executeAll (primaryEntry cfg init) state front)
        (footprint (state.txns txn.1 txn.2)) := by
    intro front txn back split pair inside
    obtain ⟨item, member, rfl⟩ := mem_map.mp inside
    exact (serial.observed front txn back split item member).symm
  -- Along the order, one transaction at a time.
  have along : ∀ front back, order = front ++ back →
      inv front (executeAll (primaryEntry cfg init) state front) := by
    intro front
    induction front using List.reverseRecOn with
    | nil => exact fun _ _ => start
    | append_singleton front txn ih =>
        intro back split
        rw [append_assoc] at split
        rw [execute_all_snoc]
        exact keeps front txn _ ((serial.committed txn).mp (by rw [split]; simp)) (ih _ split)
          (saw front txn back split)
  exact ⟨order, serial.nodup, serial.committed, fun front txn back split =>
    ⟨along front _ split, saw front txn back split⟩, along order [] (append_nil order).symm,
    serial.final⟩

section Objects

variable {Op A : Type}

/-- What the transactions work on. `Executes` gives the footprint of a transaction that
does an operation, and `Holds` the stores that have a value of the object in them. -/
structure Object (V Op A : Type) where
  run : A → Op → Option A
  Executes : Op → Footprint V → Prop
  Holds : (Loc → Option V) → A → Prop
  simulates : ∀ {op print store value}, Executes op print → Holds store value → Saw store print →
    ∃ after, run value op = some after ∧ Holds (writeAll store print) after

def Object.runAll (object : Object V Op A) (value : A) (ops : List Op) : Option A :=
  ops.foldlM object.run value

theorem Object.run_all_snoc (object : Object V Op A) {value middle after : A} {ops : List Op}
    {op : Op} (ran : object.runAll value ops = some middle) (run : object.run middle op = some after) :
    object.runAll value (ops ++ [op]) = some after := by
  rw [Object.runAll] at ran
  rw [Object.runAll, foldlM_append, ran]
  simp only [Option.bind_eq_bind, Option.bind_some, foldlM_cons, foldlM_nil, run]
  rfl

/-- The transaction `txn` of the order has done the operation `op txn`. -/
structure Served (object : Object V Op A) (cfg : Config) (init state : State V) (opening : A)
    (order : List TxId) (op : TxId → Op) : Prop where
  nodup : order.Nodup
  members : ∀ txn : TxId, txn ∈ order ↔ CommittedIn state txn
  executes : ∀ txn ∈ order, object.Executes (op txn) (footprint (state.txns txn.1 txn.2))
  before : ∀ front txn back, order = front ++ txn :: back →
    ∃ middle, object.runAll opening (front.map op) = some middle ∧
      object.Holds (executeAll (primaryEntry cfg init) state front) middle ∧
      Saw (executeAll (primaryEntry cfg init) state front) (footprint (state.txns txn.1 txn.2))
  after : ∃ last, object.runAll opening (order.map op) = some last ∧
    object.Holds (executeAll (primaryEntry cfg init) state order) last
  final : (∀ coro, ¬ InProgress (state.tx coro)) →
    ∀ loc : Loc, loc.1 % rpcPrimaryDsReqSpacing = 0 →
      primaryEntry cfg state loc = executeAll (primaryEntry cfg init) state order loc

theorem served_in_order [Nonempty Op] (object : Object V Op A) (initial : Initial cfg init)
    (reached : Reachable cfg init state) (few : FewUnlocks init state) {opening : A}
    (start : object.Holds (primaryEntry cfg init) opening)
    (kept : ∀ txn, CommittedIn state txn →
      ∃ op, object.Executes op (footprint (state.txns txn.1 txn.2))) :
    ∃ order op, Served object cfg init state opening order op := by
  have each : ∀ txn, ∃ op, CommittedIn state txn →
      object.Executes op (footprint (state.txns txn.1 txn.2)) := by
    intro txn
    by_cases committed : CommittedIn state txn
    · obtain ⟨op, executes⟩ := kept txn committed
      exact ⟨op, fun _ => executes⟩
    · exact ⟨Classical.arbitrary Op, fun claimed => absurd claimed committed⟩
  choose op executes using each
  -- The operations of the transactions so far lead to a value that the store holds.
  let inv := fun (front : List TxId) (store : Loc → Option V) =>
    ∃ value, object.runAll opening (front.map op) = some value ∧ object.Holds store value
  have keeps : ∀ front txn store, CommittedIn state txn → inv front store →
      Saw store (footprint (state.txns txn.1 txn.2)) →
        inv (front ++ [txn]) (writeAll store (footprint (state.txns txn.1 txn.2))) := by
    rintro front txn store committed ⟨value, ran, holds⟩ saw
    obtain ⟨after, run, held⟩ := object.simulates (executes txn committed) holds saw
    refine ⟨after, ?_, held⟩
    rw [map_append]
    exact object.run_all_snoc ran run
  obtain ⟨order, history⟩ := serial_history initial reached few ⟨opening, rfl, start⟩ keeps
  refine ⟨order, op, history.nodup, history.members,
    fun txn member => executes txn ((history.members txn).mp member), ?_, history.after,
    history.final⟩
  intro front txn back split
  obtain ⟨⟨middle, ran, holds⟩, saw⟩ := history.before front txn back split
  exact ⟨middle, ran, holds, saw⟩

end Objects

end Fasst.TxHistories

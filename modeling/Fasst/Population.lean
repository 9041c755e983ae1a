import Fasst.FixedTableMap
import Fasst.Runs
import Mathlib.Algebra.Order.BigOperators.Group.Finset

/-!
# Workers that fill tables together

The workers of a machine share its tables, one for each replica index, and each
worker makes a fixed sequence of calls of `set_spinlock`. A call takes three steps:
it takes the lock of the bucket, which may have to be tried many times; it stores
the item, which reads and writes the chain of this bucket and, under a lock of its
own, the free list; it releases the lock. Steps of different workers interleave in any way.
A call that finds no space ends the process.

A worker may also pass assertions on a table, which are those of the function that
it runs. `done` is a history variable.
-/

namespace Fasst.Population

open Fasst.FixedTableModel Fasst.FixedTableEdits Fasst.FixedTableLocks Fasst.FixedTableStore
open Fasst.FixedTableShape Fasst.FixedTableOps Fasst.FixedTableSpec Fasst.FixedTableMap
open Fasst.Outcomes Fasst.Runs

set_option autoImplicit false

variable {V : Type}

structure Insertion (V : Type) where
  repl : Nat
  key : UInt64
  value : V

inductive Instr (V : Type) where
  | enter (repl : Nat)
  | setSpinlock (call : Insertion V)

inductive Phase (V : Type) where
  | idle
  | locked (call : Insertion V)
  | stored (call : Insertion V)

structure Worker (V : Type) where
  phase : Phase V
  todo : List (Instr V)
  done : List (Insertion V)

/-- A table is named by its machine and the replica index. -/
structure State (V : Type) where
  tables : Nat × Nat → FixedTable V
  workers : Nat → Worker V

inductive Stop where
  | assertion
  | table (fault : Fault)
  | outOfSpace
  deriving DecidableEq, Repr

structure Setup (V : Type) where
  hash : UInt64 → UInt64
  numWorkers : Nat
  machineId : Nat → Nat
  asserts : Bool → Nat → Nat → Bool
  script : Nat → List (Instr V)
  tables : Nat × Nat → FixedTable V

def initial (setup : Setup V) : State V where
  tables := setup.tables
  workers wrkrGid := ⟨.idle, setup.script wrkrGid, []⟩

section Steps

variable (hash : UInt64 → UInt64) (table : FixedTable V) (wrkrGid : Nat) (call : Insertion V)

/-- The beginning of `set_spinlock`, up to one attempt to take the lock. -/
def lockStep : Except Fault (Bool × FixedTable V) := do
  let node ← getBucket table (calcBucketIndex table (hash call.key))
  lockBucketPtr table wrkrGid node

/-- The middle of `set_spinlock`; without space, the rest of it. -/
def storeStep : Except Fault (Bool × FixedTable V) := do
  let node := calcBucketIndex table (hash call.key)
  let (place, placed) ← placeItem table node call.key
  match place with
  | none =>
      let unlocked ← unlockBucketPtr placed wrkrGid node
      .ok (false, unlocked)
  | some (located, slot) => .ok (true, setItem placed located slot call.key call.value)

def unlockStep : Except Fault (FixedTable V) :=
  unlockBucketPtr table wrkrGid (calcBucketIndex table (hash call.key))

end Steps

def State.update (state : State V) (place : Nat × Nat) (table : FixedTable V) (wrkrGid : Nat)
    (worker : Worker V) : State V where
  tables := Function.update state.tables place table
  workers := Function.update state.workers wrkrGid worker

def workerStep (setup : Setup V) (state : State V) (wrkrGid : Nat) : Except Stop (State V) :=
  let worker := state.workers wrkrGid
  let place := fun call : Insertion V => (setup.machineId wrkrGid, call.repl)
  match worker.phase with
  | .idle =>
      match worker.todo with
      | [] => .ok state
      | .enter repl :: rest =>
          let table := state.tables (setup.machineId wrkrGid, repl)
          if setup.asserts table.isPrimary table.valSize repl then
            .ok (state.update (setup.machineId wrkrGid, repl) table wrkrGid
              { worker with todo := rest })
          else .error .assertion
      | .setSpinlock call :: rest => do
          let (lockSuccess, locked) ←
            (lockStep setup.hash (state.tables (place call)) wrkrGid call).mapError .table
          if lockSuccess then
            .ok (state.update (place call) locked wrkrGid
              { worker with phase := .locked call, todo := rest })
          else .ok state
  | .locked call => do
      let (room, stored) ←
        (storeStep setup.hash (state.tables (place call)) wrkrGid call).mapError .table
      if room then
        .ok (state.update (place call) stored wrkrGid
          { worker with phase := .stored call, done := worker.done ++ [call] })
      else .error .outOfSpace
  | .stored call => do
      let unlocked ←
        (unlockStep setup.hash (state.tables (place call)) wrkrGid call).mapError .table
      .ok (state.update (place call) unlocked wrkrGid { worker with phase := .idle })

/-- A step of one of the workers, if it does not end the process. -/
def step (setup : Setup V) (state : State V) (wrkrGid : Nat) : Option (State V) :=
  if wrkrGid < setup.numWorkers then (workerStep setup state wrkrGid).toOption else none

def Phase.call? : Phase V → Option (Insertion V)
  | .idle => none
  | .locked call | .stored call => some call

def Finished (setup : Setup V) (state : State V) : Prop :=
  ∀ wrkrGid, wrkrGid < setup.numWorkers →
    (state.workers wrkrGid).phase.call? = none ∧ (state.workers wrkrGid).todo = []

instance (setup : Setup V) (state : State V) : Decidable (Finished setup state) :=
  inferInstanceAs (Decidable (∀ wrkrGid, wrkrGid < setup.numWorkers → _ ∧ _))

def calls (instrs : List (Instr V)) : List (Insertion V) :=
  instrs.filterMap fun
    | .enter _ => none
    | .setSpinlock call => some call

def Worker.pending (worker : Worker V) : List (Insertion V) :=
  match worker.phase with
  | .locked call => call :: calls worker.todo
  | _ => calls worker.todo

def bucketIn (setup : Setup V) (place : Nat × Nat) (key : UInt64) : Nat :=
  calcBucketIndex (setup.tables place) (setup.hash key)

def Holds (setup : Setup V) (workers : Nat → Worker V) (wrkrGid : Nat) (place : Nat × Nat)
    (bucket : Nat) : Prop :=
  ∃ call, (workers wrkrGid).phase.call? = some call ∧
    place = (setup.machineId wrkrGid, call.repl) ∧ bucket = bucketIn setup place call.key

def Inserted (setup : Setup V) (workers : Nat → Worker V) (wrkrGid : Nat) (place : Nat × Nat)
    (key : UInt64) (value : V) : Prop :=
  place.1 = setup.machineId wrkrGid ∧ ⟨place.2, key, value⟩ ∈ (workers wrkrGid).done

/-- The assumptions on the calls: worker numbers are caller ids, no call uses the
reserved key, and the calls to one table agree on the value of a key. -/
structure ScriptOk (setup : Setup V) : Prop where
  callers : ∀ wrkrGid, wrkrGid < setup.numWorkers → CallerOk wrkrGid
  keys : ∀ wrkrGid, wrkrGid < setup.numWorkers → ∀ call ∈ calls (setup.script wrkrGid),
    call.key ≠ kFtInvalidKey
  values : ∀ left right, left < setup.numWorkers → right < setup.numWorkers →
    setup.machineId left = setup.machineId right →
    ∀ first ∈ calls (setup.script left), ∀ second ∈ calls (setup.script right),
      first.repl = second.repl → first.key = second.key → first.value = second.value

/-- The tables as maps with locks, and what the workers have done. -/
structure Consistent (setup : Setup V) (spec : Nat × Nat → MapState V)
    (workers : Nat → Worker V) : Prop where
  sizes : ∀ place, (spec place).numBuckets = (setup.tables place).numBuckets
  locks : ∀ place bucket owner count, (spec place).lock bucket = some (owner, count) ↔
    count = 1 ∧ owner < setup.numWorkers ∧ Holds setup workers owner place bucket
  stores : ∀ place key value, (spec place).map key = some value ↔
    ∃ wrkrGid, wrkrGid < setup.numWorkers ∧ Inserted setup workers wrkrGid place key value
  order : ∀ wrkrGid, wrkrGid < setup.numWorkers →
    (workers wrkrGid).done ++ (workers wrkrGid).pending = calls (setup.script wrkrGid)
  rest : ∀ wrkrGid, wrkrGid < setup.numWorkers →
    (workers wrkrGid).todo <:+ setup.script wrkrGid

section Abstract

variable {setup : Setup V} {spec : Nat × Nat → MapState V} {workers : Nat → Worker V}
  {wrkrGid : Nat} {call : Insertion V}

theorem holds_update_other {worker : Worker V} {owner bucket : Nat} {place : Nat × Nat}
    (other : owner ≠ wrkrGid) :
    Holds setup (Function.update workers wrkrGid worker) owner place bucket ↔
      Holds setup workers owner place bucket := by
  rw [Holds, Holds, Function.update_of_ne other]

theorem holds_update_same {worker : Worker V} {bucket : Nat} {place : Nat × Nat} :
    Holds setup (Function.update workers wrkrGid worker) wrkrGid place bucket ↔
      ∃ call, worker.phase.call? = some call ∧ place = (setup.machineId wrkrGid, call.repl) ∧
        bucket = bucketIn setup place call.key := by
  rw [Holds, Function.update_self]

theorem lock_update {place : Nat × Nat} {bucket : Nat} {after : MapState V}
    {entry : Option (Nat × Nat)}
    (changed : after.lock = Function.update (spec place).lock bucket entry)
    (other : Nat × Nat) (otherBucket : Nat) :
    (Function.update spec place after other).lock otherBucket =
      if other = place ∧ otherBucket = bucket then entry else (spec other).lock otherBucket := by
  by_cases same : other = place
  · rw [same, Function.update_self, changed, Function.update_apply]
    by_cases here : otherBucket = bucket
    · rw [if_pos here, if_pos ⟨rfl, here⟩]
    · rw [if_neg here, if_neg fun both => here both.2]
  · rw [Function.update_of_ne same, if_neg fun both => same both.1]

/-- The lock that a worker takes or gives back is the one change of the locks. -/
theorem locks_update (consistent : Consistent setup spec workers)
    (inRange : wrkrGid < setup.numWorkers) (worker : Worker V) {after : MapState V}
    {place : Nat × Nat} {bucket : Nat} {entry : Option (Nat × Nat)}
    (changed : after.lock = Function.update (spec place).lock bucket entry)
    (free : ∀ owner, owner ≠ wrkrGid → (spec place).lock bucket ≠ some (owner, 1))
    (own : ∀ other otherBucket, Holds setup workers wrkrGid other otherBucket →
      other = place ∧ otherBucket = bucket)
    (taken : ∀ other otherBucket,
      Holds setup (Function.update workers wrkrGid worker) wrkrGid other otherBucket ↔
        entry = some (wrkrGid, 1) ∧ other = place ∧ otherBucket = bucket)
    (entries : entry = none ∨ entry = some (wrkrGid, 1))
    (other : Nat × Nat) (otherBucket owner count : Nat) :
    (Function.update spec place after other).lock otherBucket = some (owner, count) ↔
      count = 1 ∧ owner < setup.numWorkers ∧
        Holds setup (Function.update workers wrkrGid worker) owner other otherBucket := by
  rw [lock_update changed]
  by_cases self : owner = wrkrGid
  · subst owner
    rw [taken]
    split_ifs with here
    · rcases entries with empty | full
      · simp [empty]
      · simp [full, here, inRange, eq_comm]
    · constructor
      · intro held
        have holds := ((consistent.locks other otherBucket wrkrGid count).mp held).2.2
        exact absurd (own other otherBucket holds) here
      · rintro ⟨_, _, _, there⟩
        exact absurd there here
  · rw [holds_update_other self]
    split_ifs with here
    · rw [here.1, here.2]
      constructor
      · intro held
        rcases entries with empty | full
        · rw [empty] at held
          cases held
        · rw [full] at held
          cases held
          exact absurd rfl self
      · rintro ⟨_, bound, holds⟩
        exact absurd ((consistent.locks place bucket owner 1).mpr ⟨rfl, bound, holds⟩)
          (free owner self)
    · exact consistent.locks other otherBucket owner count

theorem sizes_update (consistent : Consistent setup spec workers) {place : Nat × Nat}
    {after : MapState V} (same : after.numBuckets = (spec place).numBuckets) (other : Nat × Nat) :
    (Function.update spec place after other).numBuckets = (setup.tables other).numBuckets := by
  by_cases here : other = place
  · rw [here, Function.update_self, same, consistent.sizes]
  · rw [Function.update_of_ne here, consistent.sizes]

theorem stores_update (consistent : Consistent setup spec workers) {place : Nat × Nat}
    {after : MapState V} {worker : Worker V} (same : after.map = (spec place).map)
    (history : worker.done = (workers wrkrGid).done) (other : Nat × Nat) (key : UInt64)
    (value : V) :
    (Function.update spec place after other).map key = some value ↔
      ∃ owner, owner < setup.numWorkers ∧
        Inserted setup (Function.update workers wrkrGid worker) owner other key value := by
  have maps : (Function.update spec place after other).map = (spec other).map := by
    by_cases here : other = place
    · rw [here, Function.update_self, same]
    · rw [Function.update_of_ne here]
  have histories : ∀ owner, (Function.update workers wrkrGid worker owner).done =
      (workers owner).done := by
    intro owner
    by_cases self : owner = wrkrGid
    · rw [self, Function.update_self, history]
    · rw [Function.update_of_ne self]
  simp only [maps, Inserted, histories]
  exact consistent.stores other key value

theorem order_update (consistent : Consistent setup spec workers) {worker : Worker V}
    (same : worker.done ++ worker.pending = (workers wrkrGid).done ++ (workers wrkrGid).pending)
    (owner : Nat) (inRange : owner < setup.numWorkers) :
    (Function.update workers wrkrGid worker owner).done ++
      (Function.update workers wrkrGid worker owner).pending = calls (setup.script owner) := by
  by_cases self : owner = wrkrGid
  · subst owner
    rw [Function.update_self, same, consistent.order wrkrGid inRange]
  · rw [Function.update_of_ne self, consistent.order owner inRange]

theorem rest_update (consistent : Consistent setup spec workers) {worker : Worker V}
    (shorter : worker.todo <:+ (workers wrkrGid).todo) (owner : Nat)
    (inRange : owner < setup.numWorkers) :
    (Function.update workers wrkrGid worker owner).todo <:+ setup.script owner := by
  by_cases self : owner = wrkrGid
  · subst owner
    rw [Function.update_self]
    exact shorter.trans (consistent.rest wrkrGid inRange)
  · rw [Function.update_of_ne self]
    exact consistent.rest owner inRange

theorem consistent_enter (consistent : Consistent setup spec workers) {repl : Nat}
    {rest : List (Instr V)} (idle : (workers wrkrGid).phase = .idle)
    (todo : (workers wrkrGid).todo = .enter repl :: rest) :
    Consistent setup spec
      (Function.update workers wrkrGid { workers wrkrGid with todo := rest }) := by
  have unchanged := Function.update_eq_self (0, 0) spec
  rw [← unchanged]
  constructor
  · exact sizes_update consistent rfl
  · rw [unchanged]
    intro place bucket owner count
    rw [consistent.locks place bucket owner count]
    by_cases self : owner = wrkrGid
    · rw [self, holds_update_same]
      rfl
    · rw [holds_update_other self]
  · exact stores_update consistent rfl rfl
  · apply order_update consistent
    simp [Worker.pending, idle, todo, calls]
  · apply rest_update consistent
    rw [todo]
    exact List.suffix_cons _ rest

theorem acquire_free {state : MapState V} {caller bucket : Nat} (free : state.lock bucket = none) :
    state.acquire caller bucket =
      { state with lock := Function.update state.lock bucket (some (caller, 1)) } := by
  rw [MapState.acquire, free]

theorem consistent_lock (consistent : Consistent setup spec workers)
    (inRange : wrkrGid < setup.numWorkers) {rest : List (Instr V)}
    (idle : (workers wrkrGid).phase = .idle)
    (todo : (workers wrkrGid).todo = .setSpinlock call :: rest)
    {place : Nat × Nat} (at_ : place = (setup.machineId wrkrGid, call.repl))
    (free : (spec place).lock (bucketIn setup place call.key) = none) :
    Consistent setup
      (Function.update spec place
        ((spec place).acquire wrkrGid (bucketIn setup place call.key)))
      (Function.update workers wrkrGid
        { workers wrkrGid with phase := .locked call, todo := rest }) := by
  rw [acquire_free free]
  constructor
  · exact sizes_update consistent rfl
  · apply locks_update consistent inRange _ rfl
    · intro owner _ held
      rw [free] at held
      cases held
    · rintro other bucket ⟨held, phase, _⟩
      rw [idle] at phase
      cases phase
    · intro other bucket
      rw [holds_update_same]
      constructor
      · rintro ⟨held, same, rfl, rfl⟩
        cases same
        exact ⟨rfl, at_.symm, by rw [at_]⟩
      · rintro ⟨_, rfl, rfl⟩
        exact ⟨call, rfl, at_, rfl⟩
    · exact .inr rfl
  · exact stores_update consistent rfl rfl
  · apply order_update consistent
    simp [Worker.pending, idle, todo, calls]
  · apply rest_update consistent
    rw [todo]
    exact List.suffix_cons _ rest

/-- What a worker stores is in its script. -/
theorem inserted_in_script (consistent : Consistent setup spec workers) {owner : Nat}
    (inRange : owner < setup.numWorkers) {entry : Insertion V}
    (member : entry ∈ (workers owner).done) : entry ∈ calls (setup.script owner) := by
  rw [← consistent.order owner inRange]
  exact List.mem_append_left _ member

theorem locked_in_script (consistent : Consistent setup spec workers)
    (inRange : wrkrGid < setup.numWorkers) (phase : (workers wrkrGid).phase = .locked call) :
    call ∈ calls (setup.script wrkrGid) := by
  rw [← consistent.order wrkrGid inRange, Worker.pending, phase]
  simp

theorem inserted_append {worker : Worker V} (history : worker.done = (workers wrkrGid).done ++ [call])
    (owner : Nat) (place : Nat × Nat) (key : UInt64) (value : V) :
    Inserted setup (Function.update workers wrkrGid worker) owner place key value ↔
      Inserted setup workers owner place key value ∨
        owner = wrkrGid ∧ place = (setup.machineId wrkrGid, call.repl) ∧ key = call.key ∧
          value = call.value := by
  by_cases self : owner = wrkrGid
  · subst owner
    rcases place with ⟨machine, repl⟩
    rcases call with ⟨callRepl, callKey, callValue⟩
    simp only [Inserted, Function.update_self, history, List.mem_append, List.mem_singleton,
      Insertion.mk.injEq, Prod.mk.injEq, true_and]
    tauto
  · simp [Inserted, self]

theorem map_update_store (place other : Nat × Nat) (stored key : UInt64) (entry : Option V) :
    (Function.update spec place ((spec place).store stored entry) other).map key =
      if other = place ∧ key = stored then entry else (spec other).map key := by
  by_cases same : other = place
  · have map : ((spec place).store stored entry).map key =
        if key = stored then entry else (spec place).map key := Function.update_apply _ _ _ _
    rw [same, Function.update_self, map]
    simp
  · rw [Function.update_of_ne same, if_neg fun both => same both.1]

theorem stores_append (scriptOk : ScriptOk setup) (consistent : Consistent setup spec workers)
    (inRange : wrkrGid < setup.numWorkers) (listed : call ∈ calls (setup.script wrkrGid))
    {worker : Worker V} (history : worker.done = (workers wrkrGid).done ++ [call])
    {place : Nat × Nat} (at_ : place = (setup.machineId wrkrGid, call.repl))
    (other : Nat × Nat) (key : UInt64) (value : V) :
    (Function.update spec place ((spec place).store call.key (some call.value)) other).map key =
        some value ↔
      ∃ owner, owner < setup.numWorkers ∧
        Inserted setup (Function.update workers wrkrGid worker) owner other key value := by
  simp only [inserted_append history, ← at_]
  rw [map_update_store]
  split_ifs with here
  · rcases here with ⟨rfl, rfl⟩
    rw [Option.some.injEq]
    constructor
    · intro same
      exact ⟨wrkrGid, inRange, .inr ⟨rfl, rfl, rfl, same.symm⟩⟩
    · rintro ⟨owner, bound, ⟨machine, member⟩ | ⟨_, _, _, same⟩⟩
      · have stored := inserted_in_script consistent bound member
        apply scriptOk.values wrkrGid owner inRange bound _ call listed _ stored _ rfl
        · rw [← machine, at_]
        · rw [at_]
      · exact same.symm
  · rw [consistent.stores other key value]
    apply exists_congr
    intro owner
    apply and_congr_right
    intro _
    exact ⟨.inl, fun either => either.elim id fun new => absurd ⟨new.2.1, new.2.2.1⟩ here⟩

theorem consistent_store (scriptOk : ScriptOk setup) (consistent : Consistent setup spec workers)
    (inRange : wrkrGid < setup.numWorkers) (phase : (workers wrkrGid).phase = .locked call)
    {place : Nat × Nat} (at_ : place = (setup.machineId wrkrGid, call.repl)) :
    Consistent setup
      (Function.update spec place ((spec place).store call.key (some call.value)))
      (Function.update workers wrkrGid
        { workers wrkrGid with
          phase := .stored call
          done := (workers wrkrGid).done ++ [call] }) := by
  have listed := locked_in_script consistent inRange phase
  constructor
  · exact sizes_update consistent rfl
  · intro other bucket owner count
    have locks : (Function.update spec place ((spec place).store call.key (some call.value))
        other).lock = (spec other).lock := by
      by_cases here : other = place
      · rw [here, Function.update_self]
        rfl
      · rw [Function.update_of_ne here]
    rw [locks, consistent.locks other bucket owner count]
    by_cases self : owner = wrkrGid
    · rw [self, holds_update_same, Holds, phase]
      rfl
    · rw [holds_update_other self]
  · exact stores_append scriptOk consistent inRange listed rfl at_
  · apply order_update consistent
    simp [Worker.pending, phase]
  · exact rest_update consistent (List.suffix_refl _)

theorem consistent_unlock (consistent : Consistent setup spec workers)
    (inRange : wrkrGid < setup.numWorkers) (phase : (workers wrkrGid).phase = .stored call)
    {place : Nat × Nat} (at_ : place = (setup.machineId wrkrGid, call.repl)) :
    Consistent setup
      (Function.update spec place ((spec place).release (bucketIn setup place call.key)))
      (Function.update workers wrkrGid { workers wrkrGid with phase := .idle }) := by
  have held : (spec place).lock (bucketIn setup place call.key) = some (wrkrGid, 1) := by
    apply (consistent.locks _ _ _ _).mpr
    exact ⟨rfl, inRange, call, by rw [phase]; rfl, at_, rfl⟩
  rw [MapState.release, held]
  constructor
  · exact sizes_update consistent rfl
  · apply locks_update consistent inRange _ rfl
    · intro owner other same
      rw [held] at same
      cases same
      exact other rfl
    · rintro other bucket ⟨same, current, rfl, rfl⟩
      rw [phase] at current
      cases current
      exact ⟨at_.symm, by rw [at_]⟩
    · intro other bucket
      rw [holds_update_same]
      constructor
      · rintro ⟨_, impossible, _⟩
        cases impossible
      · rintro ⟨impossible, _⟩
        cases impossible
    · exact .inl rfl
  · exact stores_update consistent rfl rfl
  · apply order_update consistent
    simp [Worker.pending, phase]
  · exact rest_update consistent (List.suffix_refl _)

end Abstract

def specOf (setup : Setup V) (state : State V) (place : Nat × Nat) : MapState V :=
  abstractOf setup.hash (state.tables place)

structure Inv (setup : Setup V) (state : State V) : Prop where
  tables : ∀ place, TableOk setup.hash (state.tables place)
  roles : ∀ place, (state.tables place).isPrimary = (setup.tables place).isPrimary ∧
    (state.tables place).valSize = (setup.tables place).valSize
  consistent : Consistent setup (specOf setup state) state.workers

def Allowed (setup : Setup V) (wrkrGid : Nat) (stop : Stop) : Prop :=
  stop = .outOfSpace ∨
    stop = .assertion ∧ ∃ repl, .enter repl ∈ setup.script wrkrGid ∧
      setup.asserts (setup.tables (setup.machineId wrkrGid, repl)).isPrimary
        (setup.tables (setup.machineId wrkrGid, repl)).valSize repl = false

section Tables

variable {hash : UInt64 → UInt64} {table : FixedTable V} {wrkrGid : Nat} {call : Insertion V}

def After (hash : UInt64 → UInt64) (table : FixedTable V) (spec : MapState V)
    (after : FixedTable V) : Prop :=
  TableOk hash after ∧ abstractOf hash after = spec ∧ after.isPrimary = table.isPrimary ∧
    after.valSize = table.valSize

theorem lock_step_refused (ok : TableOk hash table) (callerOk : CallerOk wrkrGid)
    (held : (abstractOf hash table).HeldByOther wrkrGid (calcBucketIndex table (hash call.key))) :
    lockStep hash table wrkrGid call = .ok (false, table) := by
  rcases ok.shaped with ⟨lists, shape⟩
  rw [lockStep, get_bucket_ok shape]
  exact lock_refused callerOk held

theorem lock_step_free (ok : TableOk hash table) (callerOk : CallerOk wrkrGid)
    (free : (abstractOf hash table).lock (calcBucketIndex table (hash call.key)) = none) :
    ∃ after, lockStep hash table wrkrGid call = .ok (true, after) ∧
      After hash table
        ((abstractOf hash table).acquire wrkrGid (calcBucketIndex table (hash call.key))) after := by
  rcases ok.shaped with ⟨lists, shape⟩
  have run := lock_bucket_free table wrkrGid _ callerOk
    (ok.locks (calcBucketIndex table (hash call.key))) free
  have unheld : ¬ (abstractOf hash table).HeldByOther wrkrGid
      (calcBucketIndex table (hash call.key)) := by
    rintro ⟨owner, count, held, _⟩
    rw [free] at held
    cases held
  rcases lock_refines ok callerOk unheld (by rw [free]; intro _ impossible; cases impossible) with
    ⟨after, ran, afterOk, same⟩
  have result := run.symm.trans ran
  rw [lockStep, get_bucket_ok shape]
  refine ⟨after, ran, afterOk, same, ?_⟩
  cases result
  exact ⟨rfl, rfl⟩

theorem store_step_spec (ok : TableOk hash table) (valid : call.key ≠ kFtInvalidKey)
    (held : (abstractOf hash table).HeldBy wrkrGid (calcBucketIndex table (hash call.key))) :
    (∃ after, storeStep hash table wrkrGid call = .ok (true, after) ∧
      After hash table ((abstractOf hash table).store call.key (some call.value)) after) ∨
    ∃ after, storeStep hash table wrkrGid call = .ok (false, after) := by
  rcases ok.shaped with ⟨lists, shape⟩
  rcases place_item_spec shape valid call.value with
    ⟨located, slot, placed, newLists, place, stored, updated, frame⟩ | ⟨place, _, _⟩
  · left
    rw [homeOf] at place
    rcases edit_refines ok ⟨newLists, stored⟩ frame updated with ⟨afterOk, same⟩
    refine ⟨_, ?_, afterOk, same, frame.isPrimary, frame.valSize⟩
    rw [storeStep, place]
    rfl
  · right
    rw [homeOf] at place
    rcases unlock_refines ok wrkrGid _ held with ⟨after, unlock, _⟩
    refine ⟨after, ?_⟩
    rw [storeStep, place]
    exact congrArg (fun outcome => outcome >>= fun unlocked => .ok (false, unlocked)) unlock

theorem unlock_step_spec (ok : TableOk hash table)
    (held : (abstractOf hash table).lock (calcBucketIndex table (hash call.key)) =
      some (wrkrGid, 1)) :
    ∃ after, unlockStep hash table wrkrGid call = .ok after ∧
      After hash table
        ((abstractOf hash table).release (calcBucketIndex table (hash call.key))) after := by
  have run := unlock_bucket_last table wrkrGid _
    (ok.locks (calcBucketIndex table (hash call.key))) held
  rcases unlock_refines ok wrkrGid _ ⟨1, held⟩ with ⟨after, ran, afterOk, same⟩
  have result := run.symm.trans ran
  refine ⟨after, ran, afterOk, same, ?_⟩
  cases result
  exact ⟨rfl, rfl⟩

end Tables

/-- Each step of a call takes one off. -/
def weight (worker : Worker V) : Nat :=
  3 * worker.todo.length +
    match worker.phase with
    | .idle => 0
    | .locked _ => 2
    | .stored _ => 1

def rank (setup : Setup V) (state : State V) : Nat :=
  ∑ wrkrGid ∈ Finset.range setup.numWorkers, weight (state.workers wrkrGid)

section Concrete

variable {setup : Setup V} {state : State V} {wrkrGid : Nat} {call : Insertion V}

theorem update_tables (place : Nat × Nat) (table : FixedTable V) (worker : Worker V) :
    (state.update place table wrkrGid worker).tables = Function.update state.tables place table :=
  rfl

theorem update_workers (place : Nat × Nat) (table : FixedTable V) (worker : Worker V) :
    (state.update place table wrkrGid worker).workers =
      Function.update state.workers wrkrGid worker :=
  rfl

theorem rank_update {place : Nat × Nat} {table : FixedTable V} {worker : Worker V}
    (inRange : wrkrGid < setup.numWorkers)
    (lighter : weight worker < weight (state.workers wrkrGid)) :
    rank setup (state.update place table wrkrGid worker) < rank setup state := by
  apply Finset.sum_lt_sum
  · intro owner _
    by_cases self : owner = wrkrGid
    · rw [self, update_workers, Function.update_self]
      exact Nat.le_of_lt lighter
    · rw [update_workers, Function.update_of_ne self]
  · refine ⟨wrkrGid, Finset.mem_range.mpr inRange, ?_⟩
    rw [update_workers, Function.update_self]
    exact lighter

def Advances (setup : Setup V) (state : State V) (wrkrGid : Nat) : Prop :=
  ∃ next, workerStep setup state wrkrGid = .ok next ∧ Inv setup next ∧
    rank setup next < rank setup state

theorem inv_update (inv : Inv setup state) {place : Nat × Nat} {after : FixedTable V}
    {spec : MapState V} {worker : Worker V}
    (table : After setup.hash (state.tables place) spec after)
    (consistent : Consistent setup (Function.update (specOf setup state) place spec)
      (Function.update state.workers wrkrGid worker)) :
    Inv setup (state.update place after wrkrGid worker) := by
  rcases table with ⟨afterOk, same, role, size⟩
  have specs : specOf setup (state.update place after wrkrGid worker) =
      Function.update (specOf setup state) place spec := by
    rw [← same]
    exact Function.comp_update (abstractOf setup.hash) state.tables place after
  constructor
  · intro other
    by_cases here : other = place
    · rw [here, update_tables, Function.update_self]
      exact afterOk
    · rw [update_tables, Function.update_of_ne here]
      exact inv.tables other
  · intro other
    by_cases here : other = place
    · rw [here, update_tables, Function.update_self, role, size]
      exact inv.roles place
    · rw [update_tables, Function.update_of_ne here]
      exact inv.roles other
  · rw [specs]
    exact consistent

theorem bucket_in_state (inv : Inv setup state) (place : Nat × Nat) (key : UInt64) :
    calcBucketIndex (state.tables place) (setup.hash key) = bucketIn setup place key :=
  calc_bucket_index_congr (setup.tables place) (state.tables place)
    (inv.consistent.sizes place) (setup.hash key)

theorem worker_step_enter {repl : Nat} {rest : List (Instr V)}
    (idle : (state.workers wrkrGid).phase = .idle)
    (todo : (state.workers wrkrGid).todo = .enter repl :: rest) :
    workerStep setup state wrkrGid =
      let table := state.tables (setup.machineId wrkrGid, repl)
      if setup.asserts table.isPrimary table.valSize repl then
        .ok (state.update (setup.machineId wrkrGid, repl) table wrkrGid
          { state.workers wrkrGid with todo := rest })
      else .error .assertion := by
  simp only [workerStep, idle, todo]

theorem worker_step_lock {rest : List (Instr V)} (idle : (state.workers wrkrGid).phase = .idle)
    (todo : (state.workers wrkrGid).todo = .setSpinlock call :: rest) {lockSuccess : Bool}
    {locked : FixedTable V}
    (run : lockStep setup.hash (state.tables (setup.machineId wrkrGid, call.repl)) wrkrGid call =
      .ok (lockSuccess, locked)) :
    workerStep setup state wrkrGid =
      if lockSuccess then
        .ok (state.update (setup.machineId wrkrGid, call.repl) locked wrkrGid
          { state.workers wrkrGid with phase := .locked call, todo := rest })
      else .ok state := by
  simp only [workerStep, idle, todo, run]
  rfl

theorem worker_step_store (phase : (state.workers wrkrGid).phase = .locked call) {room : Bool}
    {stored : FixedTable V}
    (run : storeStep setup.hash (state.tables (setup.machineId wrkrGid, call.repl)) wrkrGid call =
      .ok (room, stored)) :
    workerStep setup state wrkrGid =
      if room then
        .ok (state.update (setup.machineId wrkrGid, call.repl) stored wrkrGid
          { state.workers wrkrGid with
            phase := .stored call
            done := (state.workers wrkrGid).done ++ [call] })
      else .error .outOfSpace := by
  simp only [workerStep, phase, run]
  rfl

theorem worker_step_unlock (phase : (state.workers wrkrGid).phase = .stored call)
    {unlocked : FixedTable V}
    (run : unlockStep setup.hash (state.tables (setup.machineId wrkrGid, call.repl)) wrkrGid
      call = .ok unlocked) :
    workerStep setup state wrkrGid =
      .ok (state.update (setup.machineId wrkrGid, call.repl) unlocked wrkrGid
        { state.workers wrkrGid with phase := .idle }) := by
  simp only [workerStep, phase, run]
  rfl

theorem enter_advances (inv : Inv setup state) (inRange : wrkrGid < setup.numWorkers) {repl : Nat}
    {rest : List (Instr V)} (idle : (state.workers wrkrGid).phase = .idle)
    (todo : (state.workers wrkrGid).todo = .enter repl :: rest) :
    Advances setup state wrkrGid ∨
      ∃ stop, workerStep setup state wrkrGid = .error stop ∧ Allowed setup wrkrGid stop := by
  rcases inv.roles (setup.machineId wrkrGid, repl) with ⟨role, size⟩
  have unchanged := Function.update_eq_self (setup.machineId wrkrGid, repl) (specOf setup state)
  rw [Advances, worker_step_enter idle todo]
  by_cases passes : setup.asserts (state.tables (setup.machineId wrkrGid, repl)).isPrimary
      (state.tables (setup.machineId wrkrGid, repl)).valSize repl = true
  · left
    refine ⟨_, if_pos passes, ?_, ?_⟩
    · apply inv_update inv ⟨inv.tables _, rfl, rfl, rfl⟩
      rw [← specOf, unchanged]
      exact consistent_enter inv.consistent idle todo
    · apply rank_update inRange
      simp [weight, idle, todo]
  · right
    refine ⟨_, if_neg passes, .inr ⟨rfl, repl, ?_, ?_⟩⟩
    · apply (inv.consistent.rest wrkrGid inRange).subset
      rw [todo]
      exact List.mem_cons_self
    · rw [← role, ← size]
      exact Bool.eq_false_of_not_eq_true passes

theorem lock_advances (scriptOk : ScriptOk setup) (inv : Inv setup state)
    (inRange : wrkrGid < setup.numWorkers) {rest : List (Instr V)}
    (idle : (state.workers wrkrGid).phase = .idle)
    (todo : (state.workers wrkrGid).todo = .setSpinlock call :: rest) :
    Advances setup state wrkrGid ∨
      workerStep setup state wrkrGid = .ok state ∧
        ∃ owner, owner < setup.numWorkers ∧ (state.workers owner).phase.call? ≠ none := by
  have callerOk := scriptOk.callers wrkrGid inRange
  have ok := inv.tables (setup.machineId wrkrGid, call.repl)
  have bucket := bucket_in_state inv (setup.machineId wrkrGid, call.repl) call.key
  cases held : (specOf setup state (setup.machineId wrkrGid, call.repl)).lock
      (bucketIn setup (setup.machineId wrkrGid, call.repl) call.key) with
  | none =>
      left
      rcases lock_step_free ok callerOk (bucket ▸ held) with ⟨after, run, table⟩
      rw [bucket] at table
      refine ⟨_, worker_step_lock idle todo run, ?_, ?_⟩
      · exact inv_update inv table (consistent_lock inv.consistent inRange idle todo rfl held)
      · apply rank_update inRange
        simp [weight, idle, todo]
        omega
  | some entry =>
      right
      rcases entry with ⟨owner, count⟩
      rcases (inv.consistent.locks _ _ owner count).mp held with ⟨_, bound, other, phase, _⟩
      have different : owner ≠ wrkrGid := by
        rintro rfl
        rw [idle] at phase
        cases phase
      have refused := lock_step_refused ok callerOk ⟨owner, count, bucket ▸ held, different⟩
      refine ⟨worker_step_lock idle todo refused, owner, bound, ?_⟩
      rw [phase]
      exact Option.some_ne_none other

/-- A worker that is in a call holds the lock of its bucket. -/
theorem lock_of_phase (inv : Inv setup state) (inRange : wrkrGid < setup.numWorkers)
    (phase : (state.workers wrkrGid).phase.call? = some call) :
    (abstractOf setup.hash (state.tables (setup.machineId wrkrGid, call.repl))).lock
      (calcBucketIndex (state.tables (setup.machineId wrkrGid, call.repl))
        (setup.hash call.key)) = some (wrkrGid, 1) := by
  rw [bucket_in_state inv]
  apply (inv.consistent.locks _ _ wrkrGid 1).mpr
  exact ⟨rfl, inRange, call, phase, rfl, rfl⟩

theorem store_advances (scriptOk : ScriptOk setup) (inv : Inv setup state)
    (inRange : wrkrGid < setup.numWorkers)
    (phase : (state.workers wrkrGid).phase = .locked call) :
    Advances setup state wrkrGid ∨ workerStep setup state wrkrGid = .error .outOfSpace := by
  have held := lock_of_phase inv inRange (congrArg Phase.call? phase)
  have valid := scriptOk.keys wrkrGid inRange call
    (locked_in_script inv.consistent inRange phase)
  rcases store_step_spec (inv.tables _) valid ⟨1, held⟩ with ⟨after, run, table⟩ | ⟨after, run⟩
  · left
    refine ⟨_, worker_step_store phase run, ?_, ?_⟩
    · exact inv_update inv table (consistent_store scriptOk inv.consistent inRange phase rfl)
    · apply rank_update inRange
      simp [weight, phase]
  · right
    exact worker_step_store phase run

theorem unlock_advances (inv : Inv setup state) (inRange : wrkrGid < setup.numWorkers)
    (phase : (state.workers wrkrGid).phase = .stored call) : Advances setup state wrkrGid := by
  have held := lock_of_phase inv inRange (congrArg Phase.call? phase)
  rcases unlock_step_spec (inv.tables _) held with ⟨after, run, table⟩
  rw [bucket_in_state inv] at table
  refine ⟨_, worker_step_unlock phase run, ?_, ?_⟩
  · exact inv_update inv table (consistent_unlock inv.consistent inRange phase rfl)
  · apply rank_update inRange
    simp [weight, phase]

/-- A worker in a call can always go on, unless the table is full. -/
theorem holder_advances (scriptOk : ScriptOk setup) (inv : Inv setup state)
    (inRange : wrkrGid < setup.numWorkers)
    (busy : (state.workers wrkrGid).phase.call? ≠ none) :
    Advances setup state wrkrGid ∨ workerStep setup state wrkrGid = .error .outOfSpace := by
  cases phase : (state.workers wrkrGid).phase with
  | idle =>
      rw [phase] at busy
      exact absurd rfl busy
  | locked call => exact store_advances scriptOk inv inRange phase
  | stored call => exact .inl (unlock_advances inv inRange phase)

/-- What a step of a worker can do: it goes on, it ends the process, it has nothing
left to do, or it waits for a worker that is in a call. -/
theorem worker_step_cases (scriptOk : ScriptOk setup) (inv : Inv setup state)
    (inRange : wrkrGid < setup.numWorkers) :
    Advances setup state wrkrGid ∨
      (∃ stop, workerStep setup state wrkrGid = .error stop ∧ Allowed setup wrkrGid stop) ∨
      workerStep setup state wrkrGid = .ok state ∧
        ((state.workers wrkrGid).phase.call? = none ∧ (state.workers wrkrGid).todo = [] ∨
          ∃ owner, owner < setup.numWorkers ∧ (state.workers owner).phase.call? ≠ none) := by
  by_cases busy : (state.workers wrkrGid).phase.call? = none
  · cases phase : (state.workers wrkrGid).phase with
    | idle =>
        cases todo : (state.workers wrkrGid).todo with
        | nil =>
            right; right
            refine ⟨?_, .inl ⟨rfl, rfl⟩⟩
            simp only [workerStep, phase, todo]
        | cons instr rest =>
            cases instr with
            | enter repl =>
                rcases enter_advances inv inRange phase todo with advances | stops
                · exact .inl advances
                · exact .inr (.inl stops)
            | setSpinlock call =>
                rcases lock_advances scriptOk inv inRange phase todo with advances | ⟨run, waits⟩
                · exact .inl advances
                · exact .inr (.inr ⟨run, .inr waits⟩)
    | locked call =>
        rw [phase] at busy
        cases busy
    | stored call =>
        rw [phase] at busy
        cases busy
  · rcases holder_advances scriptOk inv inRange busy with advances | stops
    · exact .inl advances
    · exact .inr (.inl ⟨_, stops, .inl rfl⟩)

theorem worker_step_ensures (scriptOk : ScriptOk setup) (inv : Inv setup state)
    (inRange : wrkrGid < setup.numWorkers) :
    Ensures (Allowed setup wrkrGid) (Inv setup) (workerStep setup state wrkrGid) := by
  rcases worker_step_cases scriptOk inv inRange with ⟨next, run, kept, _⟩ | ⟨stop, run, allowed⟩ |
    ⟨run, _⟩
  · rw [run]
    exact kept
  · rw [run]
    exact allowed
  · rw [run]
    exact inv

theorem step_some {next : State V} (ran : step setup state wrkrGid = some next) :
    wrkrGid < setup.numWorkers ∧ workerStep setup state wrkrGid = .ok next := by
  unfold step at ran
  split_ifs at ran with inRange
  refine ⟨inRange, ?_⟩
  cases run : workerStep setup state wrkrGid with
  | ok other =>
      rw [run] at ran
      cases ran
      rfl
  | error stop =>
      rw [run] at ran
      cases ran

theorem step_inv (scriptOk : ScriptOk setup) (state : State V) (wrkrGid : Nat) (next : State V)
    (inv : Inv setup state) (ran : step setup state wrkrGid = some next) : Inv setup next := by
  rcases step_some ran with ⟨inRange, run⟩
  exact ensures_elim (worker_step_ensures scriptOk inv inRange) run

theorem initial_inv (fresh : ∀ place, TableOk setup.hash (setup.tables place))
    (empty : ∀ place, abstractOf setup.hash (setup.tables place) =
      emptyState (setup.tables place).isPrimary (setup.tables place).numBuckets) :
    Inv setup (initial setup) := by
  have spec : specOf setup (initial setup) = fun place =>
      emptyState (setup.tables place).isPrimary (setup.tables place).numBuckets :=
    funext empty
  refine ⟨fresh, fun _ => ⟨rfl, rfl⟩, ?_⟩
  rw [spec]
  constructor
  · intro _
    rfl
  · intro place bucket owner count
    constructor
    · intro impossible
      cases impossible
    · rintro ⟨_, _, _, impossible, _⟩
      cases impossible
  · intro place key value
    constructor
    · intro impossible
      cases impossible
    · rintro ⟨_, _, _, impossible⟩
      cases impossible
  · intro owner _
    rfl
  · intro owner _
    exact List.suffix_refl _

theorem run_inv (scriptOk : ScriptOk setup) (start : Inv setup (initial setup))
    (reached : Reachable (step setup) (initial setup) state) : Inv setup state :=
  reachable_invariant start (step_inv scriptOk) reached

theorem finished_done (inv : Inv setup state) (finished : Finished setup state)
    (inRange : wrkrGid < setup.numWorkers) :
    (state.workers wrkrGid).done = calls (setup.script wrkrGid) := by
  rcases finished wrkrGid inRange with ⟨phase, todo⟩
  have order := inv.consistent.order wrkrGid inRange
  have nothing : (state.workers wrkrGid).pending = [] := by
    unfold Worker.pending
    cases current : (state.workers wrkrGid).phase with
    | locked call =>
        rw [current] at phase
        cases phase
    | _ => rw [todo]; rfl
  rw [nothing, List.append_nil] at order
  exact order

/-- When all workers are done the tables hold what the scripts store. -/
theorem finished_contents (inv : Inv setup state) (finished : Finished setup state)
    (place : Nat × Nat) (key : UInt64) (value : V) :
    contents setup.hash (state.tables place) key = some value ↔
      ∃ wrkrGid, wrkrGid < setup.numWorkers ∧ place.1 = setup.machineId wrkrGid ∧
        ⟨place.2, key, value⟩ ∈ calls (setup.script wrkrGid) := by
  have stores := inv.consistent.stores place key value
  apply stores.trans
  apply exists_congr
  intro owner
  apply and_congr_right
  intro inRange
  rw [Inserted, finished_done inv finished inRange]

theorem finished_unlocked (inv : Inv setup state) (finished : Finished setup state)
    (place : Nat × Nat) (bucket : Nat) :
    isUnlocked ((state.tables place).buckets bucket).timestamp ∧
      ((state.tables place).buckets bucket).lockerId = kInvalidCallerId ∧
      ((state.tables place).buckets bucket).numLocks = 0 := by
  have unlocked : lockOf ((state.tables place).buckets bucket) = none := by
    cases held : lockOf ((state.tables place).buckets bucket) with
    | none => rfl
    | some entry =>
        rcases (inv.consistent.locks place bucket entry.1 entry.2).mp held with
          ⟨_, inRange, call, phase, _⟩
        rw [(finished entry.1 inRange).1] at phase
        cases phase
  have wf := (inv.tables place).locks bucket
  rw [LockWf, unlocked] at wf
  exact ⟨(lock_of_none_iff _).mp unlocked, wf⟩

/-- The workers cannot block each other for ever: from every state on, they can all
come to their end, or one of them ends the process. -/
theorem run_completes (scriptOk : ScriptOk setup) (inv : Inv setup state) :
    ∃ final, Reachable (step setup) state final ∧
      (Finished setup final ∨
        ∃ wrkrGid stop, wrkrGid < setup.numWorkers ∧
          workerStep setup final wrkrGid = .error stop ∧ Allowed setup wrkrGid stop) := by
  apply reachable_goal (rank setup) (step_inv scriptOk) _ inv
  intro current kept unfinished
  have advance : ∀ wrkrGid, wrkrGid < setup.numWorkers → Advances setup current wrkrGid →
      ∃ label next, step setup current label = some next ∧
        rank setup next < rank setup current := by
    rintro owner inRange ⟨next, run, _, lower⟩
    refine ⟨owner, next, ?_, lower⟩
    rw [step, if_pos inRange, run]
    rfl
  rcases not_or.mp unfinished with ⟨busy, running⟩
  simp only [Finished, not_forall] at busy
  rcases busy with ⟨worker, inRange, rest⟩
  rcases worker_step_cases scriptOk kept inRange with advances | stops | ⟨_, idle | ⟨owner, bound, waits⟩⟩
  · exact advance worker inRange advances
  · exact absurd ⟨worker, _, inRange, stops.choose_spec⟩ running
  · exact absurd idle rest
  · rcases holder_advances scriptOk kept bound waits with advances | stops
    · exact advance owner bound advances
    · exact absurd ⟨owner, _, bound, stops, .inl rfl⟩ running

end Concrete

end Fasst.Population

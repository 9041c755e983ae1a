import Fasst.PlacementChecks
import Fasst.Population
import Fasst.TxModel

/-!
# Initial population and the routing of requests

Every worker goes through all keys for every replica index and inserts those for
which `should_i_populate` says that it is the owner. The machine of the owner is
computed there, and again for every request in `add_to_write_set`; the worker on that
machine comes from other bits of the hash.

`populationSetup` is the swarm whose workers run `ds_fixedtable_populate` with
`use_partitions`, each for the replica indices in an order of its own.
-/

namespace Fasst.PopulationRouting

open Fasst.Placement Fasst.PlacementChecks Fasst.Population Fasst.FixedTableModel
open Fasst.FixedTableEdits Fasst.FixedTableLocks Fasst.FixedTableOps Fasst.FixedTableSpec
open Fasst.FixedTableMap
open Fasst.Runs Fasst.Outcomes

set_option autoImplicit false

def hotsMaxReplicas : Nat := hotsMaxBackups + 1

section Owner

variable (mappings : Mappings)

def shouldIPopulate (wrkrGid : Nat) (keyhash : UInt64) (replI : Nat) : Bool :=
  let ownerWn :=
    if replI = 0 then
      mappings.getPrimaryMn keyhash * mappings.workersPerMachine +
        keyhash.toNat / 2 ^ 20 % mappings.workersPerMachine
    else
      getBackupMn mappings keyhash (replI - 1) * mappings.workersPerMachine +
        keyhash.toNat / 2 ^ 20 % mappings.workersPerMachine
  wrkrGid == ownerWn

/-- The replica of a key as `add_to_write_set` computes it and `commit` uses it. -/
def routedMn (keyhash : UInt64) (replI : Nat) : Nat :=
  let primaryMn := mappings.getPrimaryMn keyhash
  let backupMn := (List.range mappings.numBackups).map fun backI =>
    mappings.getBackupMnFromPrimary primaryMn backI
  if replI = 0 then primaryMn else backupMn.getD (replI - 1) 0

def ownerOf (keyhash : UInt64) (replI : Nat) : Nat :=
  routedMn mappings keyhash replI * mappings.workersPerMachine +
    keyhash.toNat / 2 ^ 20 % mappings.workersPerMachine

end Owner

theorem routed_mn_item {V : Type} (cfg : TxModel.Config) (rpcReqtype : Nat) (key objAddr : UInt64)
    (obj : TxModel.HotsObj V) (writeMode : TxModel.TxWriteMode) (replI : Nat) :
    TxModel.replicaMn (TxModel.newItem cfg rpcReqtype key objAddr obj writeMode) replI =
      routedMn cfg.mappings (TxModel.dsKeyhash cfg key) replI :=
  rfl

section Routing

variable {mappings : Mappings} {keyhash : UInt64} {replI : Nat}

theorem routed_mn_backup (index : replI < mappings.numReplicas) (backup : replI ≠ 0) :
    routedMn mappings keyhash replI = getBackupMn mappings keyhash (replI - 1) := by
  have bound : replI - 1 < mappings.numBackups := by
    rw [Mappings.numReplicas] at index
    omega
  simp [routedMn, backup, bound, getBackupMn]

theorem should_i_populate_iff (wrkrGid : Nat) (index : replI < mappings.numReplicas) :
    shouldIPopulate mappings wrkrGid keyhash replI = true ↔
      wrkrGid = ownerOf mappings keyhash replI := by
  rw [shouldIPopulate, ownerOf, beq_iff_eq]
  split_ifs with primary
  · rw [primary]
    rfl
  · rw [routed_mn_backup index primary]

theorem routed_mn_lt (some_ : 1 ≤ mappings.totPrimaryMachines)
    (index : replI < mappings.numReplicas) :
    routedMn mappings keyhash replI < mappings.numMachines := by
  have below := primary_mn_lt some_ keyhash
  have ring := backups_le_ring mappings
  have machines : mappings.totPrimaryMachines ≤ mappings.numMachines := by
    rw [Mappings.totPrimaryMachines]
    split_ifs <;> omega
  by_cases primary : replI = 0
  · rw [primary]
    exact Nat.lt_of_lt_of_le below machines
  · rw [Mappings.numReplicas] at index
    rw [routed_mn_backup (by rw [Mappings.numReplicas]; omega) primary, getBackupMn,
      backup_in_ring below (by omega)]
    exact Nat.lt_of_lt_of_le (Nat.mod_lt _ some_) machines

variable (workers : 0 < mappings.workersPerMachine)

include workers

theorem owner_machine : mappings.machineId (ownerOf mappings keyhash replI) =
    routedMn mappings keyhash replI := by
  have slice := Nat.mod_lt (keyhash.toNat / 2 ^ 20) workers
  rw [Mappings.machineId, ownerOf, Nat.mul_comm, Nat.mul_add_div workers, Nat.div_eq_of_lt slice,
    Nat.add_zero]

theorem owner_lt (some_ : 1 ≤ mappings.totPrimaryMachines)
    (index : replI < mappings.numReplicas) :
    ownerOf mappings keyhash replI < mappings.numMachines * mappings.workersPerMachine := by
  apply (Nat.div_lt_iff_lt_mul workers).mp
  have machine : ownerOf mappings keyhash replI / mappings.workersPerMachine =
      routedMn mappings keyhash replI := owner_machine workers
  rw [machine]
  exact routed_mn_lt some_ index

end Routing

/-- The workers load a relation from keys to values into new tables, every key of it
by its owners. -/
structure Partitioned {V : Type} (mappings : Mappings) (loads : UInt64 → V → Prop)
    (setup : Setup V) : Prop where
  numWorkers : setup.numWorkers = mappings.numMachines * mappings.workersPerMachine
  machineId : setup.machineId = mappings.machineId
  calls_iff : ∀ wrkrGid replI key value,
    (⟨replI, key, value⟩ : Insertion V) ∈ calls (setup.script wrkrGid) ↔
      replI < mappings.numReplicas ∧ wrkrGid = ownerOf mappings (setup.hash key) replI ∧
        loads key value
  functional : ∀ key left right, loads key left → loads key right → left = right
  reserved : ∀ value, ¬ loads kFtInvalidKey value
  fresh : ∀ place, TableOk setup.hash (setup.tables place) ∧
    abstractOf setup.hash (setup.tables place) =
      emptyState (setup.tables place).isPrimary (setup.tables place).numBuckets

section Partition

variable {V : Type} {mappings : Mappings} {loads : UInt64 → V → Prop} {setup : Setup V}
  {state : State V}

theorem caller_ok_of_worker {wrkrGid : Nat}
    (inRange : wrkrGid < mappings.numMachines * mappings.workersPerMachine) : CallerOk wrkrGid := by
  have bound := mappings.workersBound
  simp only [CallerOk, hotsMaxWorkers, kInvalidCallerId, kMaxCallerId, kCallerIdBits,
    kNumLocksBits] at bound ⊢
  omega

theorem partitioned_script_ok (partitioned : Partitioned mappings loads setup) :
    ScriptOk setup := by
  constructor
  · intro wrkrGid inRange
    rw [partitioned.numWorkers] at inRange
    exact caller_ok_of_worker inRange
  · rintro wrkrGid _ ⟨replI, key, value⟩ member rfl
    exact partitioned.reserved value ((partitioned.calls_iff _ _ _ _).mp member).2.2
  · rintro left right _ _ _ ⟨leftRepl, key, first⟩ leftMember ⟨rightRepl, _, second⟩ rightMember
      rfl rfl
    have leftLoads := ((partitioned.calls_iff _ _ _ _).mp leftMember).2.2
    have rightLoads := ((partitioned.calls_iff _ _ _ _).mp rightMember).2.2
    exact partitioned.functional key first second leftLoads rightLoads

theorem partitioned_run (partitioned : Partitioned mappings loads setup)
    (reached : Reachable (step setup) (initial setup) state) : Inv setup state := by
  apply run_inv (partitioned_script_ok partitioned) _ reached
  apply initial_inv
  · intro place
    exact (partitioned.fresh place).1
  · intro place
    exact (partitioned.fresh place).2

variable (some_ : 1 ≤ mappings.totPrimaryMachines) (workers : 0 < mappings.workersPerMachine)

include some_ workers

/-- A table has what is routed to it. -/
theorem partitioned_contents (partitioned : Partitioned mappings loads setup)
    (inv : Inv setup state) (finished : Finished setup state) {machine replI : Nat}
    (index : replI < mappings.numReplicas) (key : UInt64) (value : V) :
    contents setup.hash (state.tables (machine, replI)) key = some value ↔
      routedMn mappings (setup.hash key) replI = machine ∧ loads key value := by
  rw [finished_contents inv finished]
  simp only [partitioned.calls_iff, partitioned.machineId, partitioned.numWorkers]
  constructor
  · rintro ⟨wrkrGid, _, same, _, rfl, loaded⟩
    rw [owner_machine workers] at same
    exact ⟨same.symm, loaded⟩
  · rintro ⟨same, loaded⟩
    refine ⟨_, owner_lt workers some_ index, ?_, index, rfl, loaded⟩
    rw [owner_machine workers]
    exact same.symm

/-- Exactly one worker has inserted a key in a table. -/
theorem partitioned_unique (partitioned : Partitioned mappings loads setup)
    (inv : Inv setup state) (finished : Finished setup state) {replI : Nat}
    (index : replI < mappings.numReplicas) {key : UInt64} {value : V} (loaded : loads key value) :
    ∃! wrkrGid, wrkrGid < setup.numWorkers ∧
      ∃ stored, ⟨replI, key, stored⟩ ∈ (state.workers wrkrGid).done := by
  refine ⟨ownerOf mappings (setup.hash key) replI, ⟨?_, value, ?_⟩, ?_⟩
  · rw [partitioned.numWorkers]
    exact owner_lt workers some_ index
  · rw [finished_done inv finished, partitioned.calls_iff]
    · exact ⟨index, rfl, loaded⟩
    · rw [partitioned.numWorkers]
      exact owner_lt workers some_ index
  · rintro other ⟨inRange, stored, member⟩
    rw [finished_done inv finished inRange, partitioned.calls_iff] at member
    exact member.2.1

/-- A read at the primary finds what was loaded. -/
theorem partitioned_get (partitioned : Partitioned mappings loads setup) (inv : Inv setup state)
    (finished : Finished setup state)
    (primary : ∀ machine, (setup.tables (machine, 0)).isPrimary = true) {key : UInt64} {value : V}
    (loaded : loads key value) (caller : Nat) :
    ∃ timestamp, FixedTableModel.get (state.tables (routedMn mappings (setup.hash key) 0, 0))
      caller (setup.hash key) key = .ok ⟨.kSuccess, some timestamp, some value⟩ := by
  have index : 0 < mappings.numReplicas := Nat.lt_of_lt_of_le Nat.one_pos (Nat.le_add_right 1 _)
  have present := (partitioned_contents some_ workers partitioned inv finished index key value).mpr
    ⟨rfl, loaded⟩
  have valid : key ≠ kFtInvalidKey := by
    rintro rfl
    exact partitioned.reserved value loaded
  generalize place : (routedMn mappings (setup.hash key) 0, 0) = primaryPlace at present ⊢
  have role : (state.tables primaryPlace).isPrimary = true := by
    rw [(inv.roles primaryPlace).1, ← place]
    exact primary _
  have unlocked := (finished_unlocked inv finished primaryPlace
    (homeOf setup.hash (state.tables primaryPlace) key)).1
  rcases (inv.tables primaryPlace).shaped with ⟨lists, shape⟩
  rw [get_spec shape caller valid role, (lock_of_none_iff _).mpr unlocked, present]
  exact ⟨_, rfl⟩

end Partition

section Populate

variable (mappings : Mappings) (hash : UInt64 → UInt64) (numKeys valSize : Nat) (constVal : Int)

/-- The value of key `i`; the argument `const_val` is `-1` when it is not passed. -/
def populationValue (i : Nat) : List UInt8 :=
  let valByte :=
    if constVal = -1 then UInt8.ofNat (i % 256) else UInt8.ofNat (constVal % 256).toNat
  List.replicate valSize valByte

/-- The assertions of `ds_fixedtable_populate`. -/
def populateAsserts (isPrimary : Bool) (tableValSize replI : Nat) : Bool :=
  (if replI = 0 then isPrimary else !isPrimary) && decide (1 ≤ numKeys) &&
    valSize == tableValSize && decide (replI < hotsMaxReplicas)

def dsFixedtablePopulate (replI wrkrGid : Nat) : List (Instr (List UInt8)) :=
  let keys := (List.range numKeys).filter fun i =>
    shouldIPopulate mappings wrkrGid (hash (UInt64.ofNat i)) replI
  .enter replI :: keys.map fun i =>
    .setSpinlock ⟨replI, UInt64.ofNat i, populationValue valSize constVal i⟩

variable (orders : Nat → List Nat) (numBuckets numExtraBuckets : Nat × Nat → Nat)

def populationSetup : Setup (List UInt8) where
  hash := hash
  numWorkers := mappings.numMachines * mappings.workersPerMachine
  machineId := mappings.machineId
  asserts := populateAsserts numKeys valSize
  script wrkrGid := (orders wrkrGid).flatMap fun replI =>
    dsFixedtablePopulate mappings hash numKeys valSize constVal replI wrkrGid
  tables place := construct (place.2 == 0) valSize (numBuckets place) (numExtraBuckets place)
    (List.replicate valSize 0)

variable {mappings hash numKeys valSize constVal orders numBuckets numExtraBuckets}

theorem mem_calls {V : Type} (instrs : List (Instr V)) (call : Insertion V) :
    call ∈ calls instrs ↔ .setSpinlock call ∈ instrs := by
  rw [calls, List.mem_filterMap]
  constructor
  · rintro ⟨instr, member, same⟩
    cases instr with
    | enter repl => cases same
    | setSpinlock other =>
        cases same
        exact member
  · intro member
    exact ⟨_, member, rfl⟩

theorem mem_populate {replI wrkrGid repl : Nat} {key : UInt64} {value : List UInt8} :
    .setSpinlock ⟨repl, key, value⟩ ∈
        dsFixedtablePopulate mappings hash numKeys valSize constVal replI wrkrGid ↔
      ∃ i, i < numKeys ∧ shouldIPopulate mappings wrkrGid (hash (UInt64.ofNat i)) replI = true ∧
        repl = replI ∧ key = UInt64.ofNat i ∧ value = populationValue valSize constVal i := by
  simp only [dsFixedtablePopulate, List.mem_cons, reduceCtorEq, false_or, List.mem_map,
    List.mem_filter, List.mem_range, Instr.setSpinlock.injEq, Insertion.mk.injEq, and_assoc]
  apply exists_congr
  intro i
  simp only [eq_comm]

/-- `load_into_table` of the workloads; `rpcReqtype` is the request type of the primary. -/
def loadIntoTable {V : Type} (mappings : Mappings) (hash : UInt64 → UInt64)
    (wrkrGid rpcReqtype replI : Nat) (key : UInt64) (value : V) : List (Instr V) :=
  .enter (rpcReqtype + replI) ::
    if shouldIPopulate mappings wrkrGid (hash key) replI then
      [.setSpinlock ⟨rpcReqtype + replI, key, value⟩]
    else []

/-- The assertions of `load_into_table`. -/
def loadAsserts (valSize : Nat → Nat) (_isPrimary : Bool) (tableValSize reqtype : Nat) : Bool :=
  decide (valSize reqtype ≤ TxModel.hotsMaxValue) && valSize reqtype == tableValSize

theorem mem_load_into_table {V : Type} {wrkrGid rpcReqtype replI reqtype : Nat} {row key : UInt64}
    {entry value : V} :
    .setSpinlock ⟨reqtype, key, value⟩ ∈
        loadIntoTable mappings hash wrkrGid rpcReqtype replI row entry ↔
      shouldIPopulate mappings wrkrGid (hash row) replI = true ∧ reqtype = rpcReqtype + replI ∧
        key = row ∧ value = entry := by
  rw [loadIntoTable]
  split_ifs with mine
  · simp [mine]
  · simp [mine]

def Populates (numKeys valSize : Nat) (constVal : Int) (key : UInt64) (value : List UInt8) : Prop :=
  key.toNat < numKeys ∧ value = populationValue valSize constVal key.toNat

theorem populate_partitioned (fits : numKeys < 2 ^ 64)
    (replicas : ∀ wrkrGid replI, replI ∈ orders wrkrGid ↔ replI < mappings.numReplicas)
    (positive : ∀ place, 0 < numBuckets place) :
    Partitioned mappings (Populates numKeys valSize constVal)
      (populationSetup mappings hash numKeys valSize constVal orders numBuckets
        numExtraBuckets) := by
  constructor
  · rfl
  · rfl
  · intro wrkrGid replI key value
    simp only [populationSetup, mem_calls, List.mem_flatMap, mem_populate]
    constructor
    · rintro ⟨_, listed, i, below, populates, rfl, rfl, rfl⟩
      have index := (replicas wrkrGid replI).mp listed
      have same : (UInt64.ofNat i).toNat = i :=
        Nat.mod_eq_of_lt (Nat.lt_trans below fits)
      rw [Populates, same]
      exact ⟨index, (should_i_populate_iff wrkrGid index).mp populates, below, rfl⟩
    · rintro ⟨index, owner, below, rfl⟩
      refine ⟨replI, (replicas wrkrGid replI).mpr index, key.toNat, below, ?_, rfl, ?_, rfl⟩
      · rw [UInt64.ofNat_toNat]
        exact (should_i_populate_iff wrkrGid index).mpr owner
      · exact UInt64.ofNat_toNat.symm
  · rintro key left right ⟨_, rfl⟩ ⟨_, rfl⟩
    rfl
  · rintro value ⟨below, _⟩
    have top : kFtInvalidKey.toNat = 2 ^ 64 - 1 := by decide
    omega
  · intro place
    exact construct_ok hash _ valSize (numBuckets place) (numExtraBuckets place) _ (positive place)

theorem populate_asserts_fail {wrkrGid replI : Nat}
    (replicas : ∀ wrkrGid replI, replI ∈ orders wrkrGid ↔ replI < mappings.numReplicas)
    (listed : .enter replI ∈ (populationSetup mappings hash numKeys valSize constVal orders
      numBuckets numExtraBuckets).script wrkrGid)
    (fails : populateAsserts numKeys valSize (replI == 0) valSize replI = false) :
    numKeys = 0 := by
  have index : replI < mappings.numReplicas := by
    simp only [populationSetup, List.mem_flatMap, dsFixedtablePopulate, List.mem_cons,
      Instr.enter.injEq, List.mem_map, reduceCtorEq, and_false, exists_false, or_false] at listed
    rcases listed with ⟨_, member, rfl⟩
    exact (replicas wrkrGid replI).mp member
  have few : replI < hotsMaxReplicas := by
    have backups := mappings.backupsBound
    rw [Mappings.numReplicas] at index
    rw [hotsMaxReplicas]
    omega
  have role : (if replI = 0 then replI == 0 else !(replI == 0)) = true := by
    by_cases primary : replI = 0
    · simp [primary]
    · simp [primary]
  rw [populateAsserts, role] at fails
  simp only [Bool.true_and, beq_self_eq_true, Bool.and_true, few, decide_true,
    decide_eq_false_iff_not] at fails
  omega

end Populate

/-- However the workers of the swarm take turns, no assertion fails (but the one on
`num_keys`), they can all finish as long as no table is full, and then every table
has exactly the keys that are routed to it, each inserted by one worker, with all
its buckets unlocked. -/
theorem population_matches_routing (worker : WorkerMappings)
    (some_ : 1 ≤ worker.totPrimaryMachines) (hash : UInt64 → UInt64) (numKeys valSize : Nat)
    (fits : numKeys < 2 ^ 64) (constVal : Int) (orders : Nat → List Nat)
    (each : ∀ wrkrGid, (orders wrkrGid).Perm (List.range worker.numReplicas))
    (numBuckets numExtraBuckets : Nat × Nat → Nat) (positive : ∀ place, 0 < numBuckets place)
    (state : State (List UInt8)) :
    let setup := populationSetup worker.toMappings hash numKeys valSize constVal orders numBuckets
      numExtraBuckets
    Reachable (step setup) (initial setup) state →
      (∀ wrkrGid, wrkrGid < setup.numWorkers →
        Ensures (fun stop => stop = .outOfSpace ∨ stop = .assertion ∧ numKeys = 0)
          (fun _ => True) (workerStep setup state wrkrGid)) ∧
      (∃ final, Reachable (step setup) state final ∧
        (Finished setup final ∨ ∃ wrkrGid stop, wrkrGid < setup.numWorkers ∧
          workerStep setup final wrkrGid = .error stop ∧
            (stop = .outOfSpace ∨ stop = .assertion ∧ numKeys = 0))) ∧
      (Finished setup state → ∀ machine replI, replI < worker.numReplicas →
        (∀ key value, contents hash (state.tables (machine, replI)) key = some value ↔
          routedMn worker.toMappings (hash key) replI = machine ∧ key.toNat < numKeys ∧
            value = populationValue valSize constVal key.toNat) ∧
        (∀ key, key.toNat < numKeys → ∃! wrkrGid, wrkrGid < setup.numWorkers ∧
          ∃ stored, ⟨replI, key, stored⟩ ∈ (state.workers wrkrGid).done) ∧
        ∀ bucket, isUnlocked ((state.tables (machine, replI)).buckets bucket).timestamp ∧
          ((state.tables (machine, replI)).buckets bucket).lockerId = kInvalidCallerId ∧
          ((state.tables (machine, replI)).buckets bucket).numLocks = 0) := by
  intro setup reached
  have replicas : ∀ wrkrGid replI, replI ∈ orders wrkrGid ↔ replI < worker.numReplicas := by
    intro wrkrGid replI
    rw [(each wrkrGid).mem_iff, List.mem_range]
  have workers := workers_per_machine_pos worker
  have partitioned : Partitioned worker.toMappings (Populates numKeys valSize constVal) setup :=
    populate_partitioned fits replicas positive
  have scriptOk := partitioned_script_ok partitioned
  have inv := partitioned_run partitioned reached
  have stops : ∀ wrkrGid stop, Allowed setup wrkrGid stop →
      stop = .outOfSpace ∨ stop = .assertion ∧ numKeys = 0 := by
    rintro wrkrGid stop (space | ⟨assertion, replI, listed, fails⟩)
    · exact .inl space
    · exact .inr ⟨assertion, populate_asserts_fail replicas listed fails⟩
  refine ⟨?_, ?_, ?_⟩
  · intro wrkrGid inRange
    have ensured := ensures_weaken (worker_step_ensures scriptOk inv inRange) (stops wrkrGid)
    exact ensures_mono ensured fun _ _ => trivial
  · rcases run_completes scriptOk inv with
      ⟨final, later, finished | ⟨wrkrGid, stop, inRange, run, allowed⟩⟩
    · exact ⟨final, later, .inl finished⟩
    · exact ⟨final, later, .inr ⟨wrkrGid, stop, inRange, run, stops wrkrGid stop allowed⟩⟩
  · intro finished machine replI index
    refine ⟨?_, ?_, ?_⟩
    · exact partitioned_contents some_ workers partitioned inv finished index
    · intro key below
      exact partitioned_unique some_ workers partitioned inv finished index ⟨below, rfl⟩
    · exact finished_unlocked inv finished (machine, replI)

def twoMachines : WorkerMappings := (PlacementChecks.construct 0 2 1 1 false).get rfl

def twoMachinesConfig : TxModel.Config where
  mappings := twoMachines.toMappings
  lockServerOff := rfl
  numCoro := 2
  numCoroBound := by decide
  hash key := key <<< 32

def threeKeys : Setup (List UInt8) :=
  populationSetup twoMachines.toMappings (TxModel.dsKeyhash twoMachinesConfig) 3 8 (-1)
    (fun _ => [0, 1]) (fun _ => 1) (fun _ => 0)

/-- The two workers in turn; a key is then where `add_to_write_set` looks for it. -/
theorem population_matches_routing_three_keys :
    ∃ state, Reachable (step threeKeys) (initial threeKeys) state ∧ Finished threeKeys state ∧
      (∀ replI, replI < 2 → contents threeKeys.hash (state.tables (TxModel.replicaMn
        (TxModel.newItem twoMachinesConfig 20 1 0 ⟨8, 0, ()⟩ .update) replI, replI)) 1 =
          some (List.replicate 8 1)) ∧
      contents threeKeys.hash (state.tables (1, 0)) 2 = none := by
  have run : (((List.range 24).map (· % 2)).foldlM (step threeKeys) (initial threeKeys)).any
      (fun state => decide (Finished threeKeys state)) = true := by decide +kernel
  rcases reachable_of_any _ run with ⟨state, reached, done⟩
  have finished := of_decide_eq_true done
  have result := (population_matches_routing twoMachines (by decide)
    (TxModel.dsKeyhash twoMachinesConfig) 3 8 (by decide) (-1) (fun _ => [0, 1])
    (fun _ => List.Perm.refl _) (fun _ => 1) (fun _ => 0) (fun _ => Nat.one_pos) state
    reached).2.2 finished
  refine ⟨state, reached, finished, ?_, ?_⟩
  · intro replI index
    rw [routed_mn_item]
    exact ((result _ replI index).1 1 _).mpr ⟨rfl, by decide, by decide⟩
  · apply Option.eq_none_iff_forall_ne_some.mpr
    intro value present
    exact absurd (((result 1 0 (by decide)).1 2 value).mp present).1 (by decide)

end Fasst.PopulationRouting

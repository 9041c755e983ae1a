import Fasst.PopulationRouting
import Fasst.TxReplicas

/-!
# From the populated tables to the swarm

The applications load their tables before any transaction runs: every worker goes
through the rows of all tables and inserts those that it owns. A table is named by
its machine and the request type it is registered for. When all workers have passed
the barrier, the tables are as the transactions need them, and a primary has exactly
the rows that requests for it will look for.
-/

namespace Fasst.PopulatedSwarm

open List Fasst.FixedTableModel Fasst.FixedTableLocks Fasst.FixedTableEdits Fasst.FixedTableSpec
open Fasst.FixedTableMap
open Fasst.Placement Fasst.Population Fasst.PopulationRouting Fasst.TxModel Fasst.TxLocal
open Fasst.TxLocks Fasst.TxInvariant Fasst.TxReplicas

set_option autoImplicit false

variable {V : Type}

/-- The rows of the tables; `loads` has the request type of the primary. -/
structure Loading (cfg : Config) (loads : Nat → UInt64 → V → Prop) (setup : Setup V) : Prop where
  hash : setup.hash = dsKeyhash cfg
  numWorkers : setup.numWorkers = cfg.mappings.numMachines * cfg.mappings.workersPerMachine
  machineId : setup.machineId = cfg.mappings.machineId
  calls_iff : ∀ wrkrGid reqtype key value,
    (⟨reqtype, key, value⟩ : Insertion V) ∈ calls (setup.script wrkrGid) ↔
      ∃ base replI, reqtype = base + replI ∧ replI < cfg.mappings.numReplicas ∧
        shouldIPopulate cfg.mappings wrkrGid (dsKeyhash cfg key) replI = true ∧ loads base key value
  spacing : ∀ base key value, loads base key value → base % rpcPrimaryDsReqSpacing = 0
  functional : ∀ base key left right, loads base key left → loads base key right → left = right
  reserved : ∀ base value, ¬ loads base kFtInvalidKey value
  fresh : ∀ place, TableOk setup.hash (setup.tables place) ∧
    abstractOf setup.hash (setup.tables place) =
      emptyState (setup.tables place).isPrimary (setup.tables place).numBuckets
  role : ∀ place : Nat × Nat,
    (setup.tables place).isPrimary = decide (place.2 % rpcPrimaryDsReqSpacing = 0)

/-- All workers have gone through their rows, in some order of their steps. -/
structure Populated (setup : Setup V) (loaded : Population.State V) : Prop where
  reached : Runs.Reachable (step setup) (initial setup) loaded
  finished : Finished setup loaded

/-- The swarm when the workers have passed the barrier. -/
def swarmOf (loaded : Population.State V) : TxCluster.State V where
  tables machine reqtype := loaded.tables (machine, reqtype)
  loggers _ _ _ _ := 0
  cur _ := 0
  txns _ _ := .construct

section Loaded

variable {cfg : Config} {loads : Nat → UInt64 → V → Prop} {setup : Setup V}
  {loaded : Population.State V}

/-- The tables of different primaries are far enough apart. -/
theorem base_of_sum {base other replI otherI : Nat} (spacing : base % rpcPrimaryDsReqSpacing = 0)
    (otherSpacing : other % rpcPrimaryDsReqSpacing = 0) (index : replI < cfg.mappings.numReplicas)
    (otherIndex : otherI < cfg.mappings.numReplicas) (same : base + replI = other + otherI) :
    base = other ∧ replI = otherI := by
  have backups := cfg.mappings.backupsBound
  simp only [rpcPrimaryDsReqSpacing, Mappings.numReplicas, hotsMaxBackups] at *
  omega

theorem loading_script_ok (loading : Loading cfg loads setup) : ScriptOk setup := by
  constructor
  · intro wrkrGid inRange
    rw [loading.numWorkers] at inRange
    exact caller_ok_of_worker inRange
  · rintro wrkrGid _ ⟨reqtype, key, value⟩ member rfl
    obtain ⟨base, _, _, _, _, row⟩ := (loading.calls_iff _ _ _ _).mp member
    exact loading.reserved base value row
  · rintro left right _ _ _ ⟨leftType, key, first⟩ leftMember ⟨rightType, _, second⟩ rightMember
      rfl rfl
    obtain ⟨base, replI, shape, index, _, row⟩ := (loading.calls_iff _ _ _ _).mp leftMember
    obtain ⟨other, otherI, otherShape, otherIndex, _, otherRow⟩ :=
      (loading.calls_iff _ _ _ _).mp rightMember
    obtain ⟨rfl, _⟩ := base_of_sum (loading.spacing _ _ _ row) (loading.spacing _ _ _ otherRow)
      index otherIndex (shape.symm.trans otherShape)
    exact loading.functional base key first second row otherRow

theorem loading_inv (loading : Loading cfg loads setup) (populated : Populated setup loaded) :
    Inv setup loaded :=
  run_inv (loading_script_ok loading)
    (Population.initial_inv (fun place => (loading.fresh place).1)
      fun place => (loading.fresh place).2) populated.reached

theorem loaded_initial (loading : Loading cfg loads setup) (populated : Populated setup loaded) :
    Initial cfg (swarmOf loaded) := by
  have inv := loading_inv loading populated
  constructor
  · exact fun _ => rfl
  · exact fun _ _ => rfl
  · intro machine reqtype
    rw [← loading.hash]
    exact inv.tables (machine, reqtype)
  · intro machine reqtype
    exact (inv.roles (machine, reqtype)).1.trans (loading.role (machine, reqtype))
  · intro machine reqtype bucket
    exact (lock_of_none_iff _).mpr (finished_unlocked inv populated.finished (machine, reqtype) bucket).1

/-- Every replica of a key has its row, and no other row. -/
theorem loaded_replica (loading : Loading cfg loads setup) (populated : Populated setup loaded)
    (workers : 0 < cfg.mappings.workersPerMachine) {base : Nat}
    (spacing : base % rpcPrimaryDsReqSpacing = 0) (key : UInt64) {replI : Nat}
    (index : replI < cfg.mappings.numReplicas) (value : V) :
    contents (dsKeyhash cfg)
        (loaded.tables (routedMn cfg.mappings (dsKeyhash cfg key) replI, base + replI)) key =
      some value ↔ loads base key value := by
  have some_ : 1 ≤ cfg.mappings.totPrimaryMachines := by
    rw [tot_primary_off _ cfg.lockServerOff]
    exact Nat.le_trans (Nat.le_add_right 1 _) cfg.mappings.replicasBound
  have stored := finished_contents (loading_inv loading populated) populated.finished
    (routedMn cfg.mappings (dsKeyhash cfg key) replI, base + replI) key value
  rw [loading.hash, loading.numWorkers, loading.machineId] at stored
  rw [stored]
  constructor
  · rintro ⟨wrkrGid, _, _, member⟩
    obtain ⟨other, otherI, shape, small, _, row⟩ := (loading.calls_iff _ _ _ _).mp member
    obtain ⟨rfl, _⟩ := base_of_sum spacing (loading.spacing _ _ _ row) index small shape
    exact row
  · intro row
    refine ⟨ownerOf cfg.mappings (dsKeyhash cfg key) replI, owner_lt workers some_ index,
      (owner_machine workers).symm,
      (loading.calls_iff _ _ _ _).mpr ⟨base, replI, rfl, index, ?_, row⟩⟩
    exact (should_i_populate_iff _ index).mpr rfl

theorem loaded_entry (loading : Loading cfg loads setup) (populated : Populated setup loaded)
    (workers : 0 < cfg.mappings.workersPerMachine) (loc : Loc)
    (spacing : loc.1 % rpcPrimaryDsReqSpacing = 0) (value : V) :
    primaryEntry cfg (swarmOf loaded) loc = some value ↔ loads loc.1 loc.2 value :=
  loaded_replica loading populated workers spacing loc.2
    (Nat.lt_of_lt_of_le Nat.one_pos (Nat.le_add_right 1 _)) value

theorem loaded_agree (loading : Loading cfg loads setup) (populated : Populated setup loaded)
    (workers : 0 < cfg.mappings.workersPerMachine) : ReplicasAgree cfg (swarmOf loaded) := by
  intro loc spacing backI bound
  have routed : routedMn cfg.mappings (dsKeyhash cfg loc.2) (backI + 1) =
      cfg.mappings.getBackupMnFromPrimary (primaryOf cfg loc) backI := by
    rw [routedMn, if_neg (Nat.succ_ne_zero backI), getD_eq_getElem?_getD, getElem?_map,
      Nat.add_sub_cancel, getElem?_range bound]
    rfl
  apply Option.ext
  intro value
  have backup := loaded_replica loading populated workers spacing loc.2
    (show backI + 1 < cfg.mappings.numReplicas by rw [Mappings.numReplicas]; omega) value
  rw [routed] at backup
  exact backup.trans (loaded_entry loading populated workers loc spacing value).symm

theorem loaded_val_size (loading : Loading cfg loads setup) (populated : Populated setup loaded)
    (machine reqtype : Nat) :
    ((swarmOf loaded).tables machine reqtype).valSize =
      (setup.tables (machine, reqtype)).valSize :=
  ((loading_inv loading populated).roles (machine, reqtype)).2

end Loaded

section Setups

variable (cfg : Config) (valSize : Nat → Nat) (numBuckets numExtraBuckets : Nat × Nat → Nat)
  (zero : V) (script : Nat → List (Instr V))

def appSetup : Setup V where
  hash := dsKeyhash cfg
  numWorkers := cfg.mappings.numMachines * cfg.mappings.workersPerMachine
  machineId := cfg.mappings.machineId
  asserts := loadAsserts valSize
  script := script
  tables place := construct (decide (place.2 % rpcPrimaryDsReqSpacing = 0)) (valSize place.2)
    (numBuckets place) (numExtraBuckets place) zero

variable {cfg valSize numBuckets numExtraBuckets zero script}

theorem app_loading {loads : Nat → UInt64 → V → Prop} (positive : ∀ place, 0 < numBuckets place)
    (loaded : ∀ wrkrGid reqtype key value,
      .setSpinlock ⟨reqtype, key, value⟩ ∈ script wrkrGid ↔
        ∃ base replI, reqtype = base + replI ∧ replI < cfg.mappings.numReplicas ∧
          shouldIPopulate cfg.mappings wrkrGid (dsKeyhash cfg key) replI = true ∧
            loads base key value)
    (spacing : ∀ base key value, loads base key value → base % rpcPrimaryDsReqSpacing = 0)
    (functional : ∀ base key left right, loads base key left → loads base key right → left = right)
    (reserved : ∀ base value, ¬ loads base kFtInvalidKey value) :
    Loading cfg loads (appSetup cfg valSize numBuckets numExtraBuckets zero script) := by
  refine ⟨rfl, rfl, rfl, ?_, spacing, functional, reserved, ?_, fun _ => rfl⟩
  · intro wrkrGid reqtype key value
    rw [mem_calls]
    exact loaded wrkrGid reqtype key value
  · intro place
    exact construct_ok _ _ _ _ _ _ (positive place)

end Setups

end Fasst.PopulatedSwarm

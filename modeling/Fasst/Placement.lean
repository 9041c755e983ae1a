import Mathlib.Algebra.Group.Nat.Defs
import Mathlib.Tactic.Common

/-!
# Placement of keys and replicas

The constructor of `Mappings` asserts the bounds that are fields here. With the
lock server on, its machine is the last one and holds no data.
-/

namespace Fasst.Placement

set_option autoImplicit false

def hotsMaxBackups : Nat := 2
def hotsMaxMachines : Nat := 126
def hotsMaxWorkers : Nat := 8192
def hotsMaxServerThreads : Nat := 56

structure Mappings where
  numMachines : Nat
  workersPerMachine : Nat
  numBackups : Nat
  useLockServer : Bool
  workersBound : numMachines * workersPerMachine ≤ hotsMaxWorkers
  threadsBound : workersPerMachine ≤ hotsMaxServerThreads
  backupsBound : numBackups ≤ hotsMaxBackups
  replicasBound : 1 + numBackups ≤ numMachines

namespace Mappings

def numReplicas (mappings : Mappings) : Nat := 1 + mappings.numBackups

def machineId (mappings : Mappings) (wrkrGid : Nat) : Nat := wrkrGid / mappings.workersPerMachine

def wrkrLid (mappings : Mappings) (wrkrGid : Nat) : Nat := wrkrGid % mappings.workersPerMachine

def totPrimaryMachines (mappings : Mappings) : Nat :=
  if mappings.useLockServer then mappings.numMachines - 1 else mappings.numMachines

def getPrimaryMn (mappings : Mappings) (keyhash : UInt64) : Nat :=
  keyhash.toNat / 2 ^ 32 % mappings.totPrimaryMachines

/-- Backups are the next machines in the ring. -/
def getBackupMnFromPrimary (mappings : Mappings) (primaryMn backI : Nat) : Nat :=
  let backupMn := primaryMn + (backI + 1)
  if backupMn ≥ mappings.totPrimaryMachines then backupMn - mappings.totPrimaryMachines
  else backupMn

def getLogMn (mappings : Mappings) (machine backI : Nat) : Nat :=
  mappings.getBackupMnFromPrimary machine backI

end Mappings

theorem two_workers_fit : 2 * 1 ≤ hotsMaxWorkers := by decide

theorem one_thread_fits : 1 ≤ hotsMaxServerThreads := by decide

variable (mappings : Mappings) (off : mappings.useLockServer = false)

include off in
theorem tot_primary_off : mappings.totPrimaryMachines = mappings.numMachines := by
  simp [Mappings.totPrimaryMachines, off]

include off in
theorem primary_lt (keyhash : UInt64) : mappings.getPrimaryMn keyhash < mappings.numMachines := by
  have replicas := mappings.replicasBound
  rw [Mappings.getPrimaryMn, tot_primary_off mappings off]
  exact Nat.mod_lt _ (by omega)

include off in
/-- A machine is not its own backup. -/
theorem backup_ne_primary (primaryMn backI : Nat)
    (index : backI < mappings.numBackups) :
    mappings.getBackupMnFromPrimary primaryMn backI ≠ primaryMn := by
  have replicas := mappings.replicasBound
  simp only [Mappings.getBackupMnFromPrimary, tot_primary_off mappings off]
  split_ifs <;> omega

include off in
/-- In the ring, the backup with a given index determines its primary. -/
theorem backup_injective (left right backI : Nat) (leftBound : left < mappings.numMachines)
    (rightBound : right < mappings.numMachines)
    (same : mappings.getBackupMnFromPrimary left backI =
      mappings.getBackupMnFromPrimary right backI) : left = right := by
  have replicas := mappings.replicasBound
  simp only [Mappings.getBackupMnFromPrimary, tot_primary_off mappings off] at same
  split_ifs at same <;> omega

end Fasst.Placement

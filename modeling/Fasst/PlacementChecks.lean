import Fasst.Placement
import Fasst.RingSlots
import Mathlib.Data.List.Perm.Subperm

/-!
# What the constructor of `Mappings` accepts

The arguments are `int`s; a product of them that does not fit an `int` is
undefined in the source and not accepted here. `num_replicas` is compared with
the number of machines, while the replicas of a key are consecutive machines of
the ring of `tot_primary_machines`, which with a lock server has one machine less.
-/

namespace Fasst.PlacementChecks

open Fasst.Placement Fasst.RingSlots

set_option autoImplicit false

structure WorkerMappings extends Mappings where
  wrkrGid : Nat
  gidBound : wrkrGid < numMachines * workersPerMachine

theorem workers_per_machine_pos (worker : WorkerMappings) : 0 < worker.workersPerMachine :=
  Nat.pos_of_mul_pos_left (Nat.lt_of_le_of_lt (Nat.zero_le _) worker.gidBound)

def Accepts (wrkrGid numMachines workersPerMachine numBackups : Int) : Prop :=
  numMachines * workersPerMachine ≤ hotsMaxWorkers ∧
  workersPerMachine ≤ hotsMaxServerThreads ∧
  (numBackups ≥ 0 ∧ numBackups ≤ hotsMaxBackups) ∧
  (wrkrGid ≥ 0 ∧ wrkrGid < numMachines * workersPerMachine) ∧
  1 + numBackups ≤ numMachines

instance (wrkrGid numMachines workersPerMachine numBackups : Int) :
    Decidable (Accepts wrkrGid numMachines workersPerMachine numBackups) :=
  inferInstanceAs (Decidable (_ ∧ _))

theorem accepts_bounds {wrkrGid numMachines workersPerMachine numBackups : Int}
    (accepted : Accepts wrkrGid numMachines workersPerMachine numBackups) :
    numMachines.toNat * workersPerMachine.toNat ≤ hotsMaxWorkers ∧
      workersPerMachine.toNat ≤ hotsMaxServerThreads ∧ numBackups.toNat ≤ hotsMaxBackups ∧
      1 + numBackups.toNat ≤ numMachines.toNat ∧
      wrkrGid.toNat < numMachines.toNat * workersPerMachine.toNat := by
  obtain ⟨workersBound, threads, ⟨backups, few⟩, ⟨gid, product⟩, replicas⟩ := accepted
  have machines : 0 < numMachines := by omega
  have workers : 0 < workersPerMachine := by
    by_contra none
    have negative := Int.mul_nonpos_of_nonneg_of_nonpos (Int.le_of_lt machines)
      (Int.not_lt.mp none)
    omega
  obtain ⟨count, rfl⟩ := Int.eq_ofNat_of_zero_le (Int.le_of_lt machines)
  obtain ⟨perMachine, rfl⟩ := Int.eq_ofNat_of_zero_le (Int.le_of_lt workers)
  have exact_ : ((count * perMachine : Nat) : Int) = (count : Int) * perMachine :=
    Int.natCast_mul count perMachine
  rw [Int.toNat_natCast, Int.toNat_natCast]
  refine ⟨?_, ?_, ?_, ?_, ?_⟩ <;> omega

def construct (wrkrGid numMachines workersPerMachine numBackups : Int) (useLockServer : Bool) :
    Option WorkerMappings :=
  if accepted : Accepts wrkrGid numMachines workersPerMachine numBackups then
    some
      { numMachines := numMachines.toNat
        workersPerMachine := workersPerMachine.toNat
        numBackups := numBackups.toNat
        useLockServer := useLockServer
        wrkrGid := wrkrGid.toNat
        workersBound := (accepts_bounds accepted).1
        threadsBound := (accepts_bounds accepted).2.1
        backupsBound := (accepts_bounds accepted).2.2.1
        replicasBound := (accepts_bounds accepted).2.2.2.1
        gidBound := (accepts_bounds accepted).2.2.2.2 }
  else
    none

section Ring

variable (mappings : Mappings)

/-- `none` is the division by zero. -/
def getPrimaryMn? (keyhash : UInt64) : Option Nat :=
  if mappings.totPrimaryMachines = 0 then none else some (mappings.getPrimaryMn keyhash)

def getBackupMn (keyhash : UInt64) (backI : Nat) : Nat :=
  mappings.getBackupMnFromPrimary (mappings.getPrimaryMn keyhash) backI

def getBackupMn? (keyhash : UInt64) (backI : Nat) : Option Nat :=
  if mappings.totPrimaryMachines = 0 then none else some (getBackupMn mappings keyhash backI)

def replicaMns (keyhash : UInt64) : List (Option Nat) :=
  getPrimaryMn? mappings keyhash ::
    (List.range mappings.numBackups).map (getBackupMn? mappings keyhash)

def getLockserverMn : Nat := mappings.totPrimaryMachines

variable {mappings}

theorem backup_in_ring {primaryMn backI : Nat} (below : primaryMn < mappings.totPrimaryMachines)
    (index : backI < mappings.totPrimaryMachines) :
    mappings.getBackupMnFromPrimary primaryMn backI =
      (primaryMn + (backI + 1)) % mappings.totPrimaryMachines := by
  simp only [Mappings.getBackupMnFromPrimary]
  split_ifs with wraps
  · rw [Nat.mod_eq_sub_mod wraps, Nat.mod_eq_of_lt (by omega)]
  · rw [Nat.mod_eq_of_lt (by omega)]

/-- At least the backups fit in the ring. -/
theorem backups_le_ring (mappings : Mappings) :
    mappings.numBackups ≤ mappings.totPrimaryMachines := by
  have replicas := mappings.replicasBound
  rw [Mappings.totPrimaryMachines]
  split_ifs <;> omega

theorem primary_mn_lt (some_ : 0 < mappings.totPrimaryMachines) (keyhash : UInt64) :
    mappings.getPrimaryMn keyhash < mappings.totPrimaryMachines :=
  Nat.mod_lt _ some_

theorem replica_mns_ring (some_ : 0 < mappings.totPrimaryMachines) (keyhash : UInt64) :
    replicaMns mappings keyhash =
      (slotsFrom mappings.totPrimaryMachines (mappings.getPrimaryMn keyhash)
        mappings.numReplicas).map some := by
  have ring := Nat.pos_iff_ne_zero.mp some_
  have below := primary_mn_lt some_ keyhash
  have backups := backups_le_ring mappings
  rw [replicaMns, getPrimaryMn?, if_neg ring, Mappings.numReplicas, Nat.add_comm 1, slotsFrom,
    List.range_succ_eq_map, List.map_cons, List.map_cons, Nat.add_zero, Nat.mod_eq_of_lt below,
    List.map_map, List.map_map]
  congr 1
  apply List.map_congr_left
  intro backI inside
  have index := List.mem_range.mp inside
  rw [getBackupMn?, if_neg ring, getBackupMn, backup_in_ring below (by omega)]
  rfl

/-- The placement of a key: every machine number is defined, they are distinct and
in the ring, so none is the lock server's machine. -/
structure Placed (mappings : Mappings) (keyhash : UInt64) : Prop where
  defined : ∀ mn ∈ replicaMns mappings keyhash, mn ≠ none
  distinct : (replicaMns mappings keyhash).Nodup
  inRing : ∀ mn, some mn ∈ replicaMns mappings keyhash → mn < mappings.totPrimaryMachines
  notLockserver : mappings.useLockServer = true →
    some (getLockserverMn mappings) ∉ replicaMns mappings keyhash ∧
      getLockserverMn mappings = mappings.numMachines - 1

theorem placed_of_room (room : mappings.numReplicas ≤ mappings.totPrimaryMachines)
    (keyhash : UInt64) : Placed mappings keyhash := by
  have some_ : 0 < mappings.totPrimaryMachines := by
    rw [Mappings.numReplicas] at room
    omega
  have inRing : ∀ mn, some mn ∈ replicaMns mappings keyhash → mn < mappings.totPrimaryMachines := by
    intro mn member
    rw [replica_mns_ring some_] at member
    obtain ⟨slot, inside, same⟩ := List.mem_map.mp member
    obtain ⟨i, -, rfl⟩ := List.mem_map.mp inside
    rw [← Option.some.inj same]
    exact Nat.mod_lt _ some_
  refine ⟨?_, ?_, inRing, ?_⟩
  · intro mn member
    rw [replica_mns_ring some_] at member
    obtain ⟨slot, -, rfl⟩ := List.mem_map.mp member
    exact Option.some_ne_none slot
  · rw [replica_mns_ring some_]
    apply List.Nodup.map (Option.some_injective Nat)
    exact slots_from_nodup _ _ room
  · intro lockServer
    refine ⟨?_, ?_⟩
    · intro member
      exact Nat.lt_irrefl _ (inRing _ member)
    · rw [getLockserverMn, Mappings.totPrimaryMachines, if_pos lockServer]

/-- Without room in the ring no key is placed properly. -/
theorem room_of_placed {keyhash : UInt64} (placed : Placed mappings keyhash) :
    mappings.numReplicas ≤ mappings.totPrimaryMachines := by
  have some_ : 0 < mappings.totPrimaryMachines := by
    by_contra none_
    apply placed.defined (getPrimaryMn? mappings keyhash) List.mem_cons_self
    exact if_pos (Nat.eq_zero_of_not_pos none_)
  have distinct := placed.distinct
  rw [replica_mns_ring some_] at distinct
  have slots := List.Nodup.of_map _ distinct
  have inside : slotsFrom mappings.totPrimaryMachines (mappings.getPrimaryMn keyhash)
      mappings.numReplicas ⊆ List.range mappings.totPrimaryMachines := by
    intro slot member
    obtain ⟨i, -, rfl⟩ := List.mem_map.mp member
    exact List.mem_range.mpr (Nat.mod_lt _ some_)
  have count := (slots.subperm inside).length_le
  rw [slots_from_length, List.length_range] at count
  exact count

end Ring

/-- For the arguments that the constructor accepts, the replicas of every key are
placed properly exactly if the ring has a machine for each of them. -/
theorem replicas_placed_iff_room (wrkrGid numMachines workersPerMachine numBackups : Int)
    (useLockServer : Bool) (worker : WorkerMappings)
    (accepted : construct wrkrGid numMachines workersPerMachine numBackups useLockServer =
      some worker) (keyhash : UInt64) :
    Placed worker.toMappings keyhash ↔
      1 + numBackups ≤ if useLockServer then numMachines - 1 else numMachines := by
  unfold construct at accepted
  split_ifs at accepted with checks
  rw [← Option.some.inj accepted]
  obtain ⟨-, -, ⟨backups, -⟩, -, replicas⟩ := checks
  have room : ∀ mappings : Mappings, Placed mappings keyhash ↔
      mappings.numReplicas ≤ mappings.totPrimaryMachines :=
    fun mappings => ⟨room_of_placed, fun enough => placed_of_room enough keyhash⟩
  rw [room]
  simp only [Mappings.numReplicas, Mappings.totPrimaryMachines]
  split_ifs <;> omega

theorem replicas_placed_iff_room_three_machines :
    ∃ worker, construct 0 3 2 1 true = some worker ∧ Placed worker.toMappings 0x100000000 := by
  refine ⟨_, rfl, ?_⟩
  rw [replicas_placed_iff_room 0 3 2 1 true _ rfl]
  decide

/-- A single machine that is the lock server, and two machines of which one is. -/
theorem accepted_without_room :
    (∃ worker, construct 0 1 1 0 true = some worker ∧
      ∀ keyhash, getPrimaryMn? worker.toMappings keyhash = none) ∧
    ∃ worker, construct 0 2 1 1 true = some worker ∧
      replicaMns worker.toMappings 0x100000000 = [some 0, some 0] := by
  refine ⟨⟨_, rfl, ?_⟩, ⟨_, rfl, ?_⟩⟩
  · intro keyhash
    exact if_pos rfl
  · decide

end Fasst.PlacementChecks

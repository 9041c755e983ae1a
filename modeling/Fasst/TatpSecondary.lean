import Fasst.PopulationRouting
import Fasst.TatpSubNbr

/-!
# The secondary subscriber table

It is populated under the numbers of `tatp_sub_nbr_from_sid`, and the transactions
look a subscriber up under the number of `tatp_sub_nbr_from_sid_fast`. Of
`tatp_sec_sub_val_t` the members that are written are kept.
-/

namespace Fasst.TatpSecondary

open Fasst.Placement Fasst.PlacementChecks Fasst.Population Fasst.PopulationRouting
open Fasst.FixedTableModel Fasst.FixedTableMap Fasst.Runs Fasst.TatpSubNbr

set_option autoImplicit false

structure SecSubVal where
  sId : UInt32
  magic : UInt8
  deriving DecidableEq, Repr

def sizeofSecSubVal : Nat := 8
def tatpMagic : UInt8 := 97
def tatpSecSubMagic : UInt8 := tatpMagic + 1

section Populate

variable (mappings : Mappings) (hash : UInt64 → UInt64) (subscriberSize : Nat)

/-- The rows of some subscribers; `none` is a failed assertion in `tatp_sub_nbr_from_sid`. -/
def secondaryRows (sIds : List UInt32) : Option (List (UInt64 × SecSubVal)) :=
  sIds.mapM fun sId => do
    let key ← tatpSubNbrFromSid sId
    some (key, ⟨sId, tatpSecSubMagic⟩)

def populateSecondarySubscriberTable (wrkrGid : Nat) : Option (List (Instr SecSubVal)) := do
  let rows ← secondaryRows ((List.range subscriberSize).map UInt32.ofNat)
  some (rows.flatMap fun row => (List.range mappings.numReplicas).flatMap fun replI =>
    loadIntoTable mappings hash wrkrGid 0 replI row.1 row.2)

def secondarySetup (script : Nat → List (Instr SecSubVal))
    (numBuckets numExtraBuckets : Nat × Nat → Nat) : Setup SecSubVal where
  hash := hash
  numWorkers := mappings.numMachines * mappings.workersPerMachine
  machineId := mappings.machineId
  asserts := loadAsserts fun _ => sizeofSecSubVal
  script := script
  tables place := construct (place.2 == 0) sizeofSecSubVal (numBuckets place)
    (numExtraBuckets place) ⟨0, 0⟩

end Populate

def Subscribes (subscriberSize : Nat) (key : UInt64) (value : SecSubVal) : Prop :=
  ∃ sId : UInt32, sId.toNat < subscriberSize ∧ key = UInt64.ofNat (bcd sId.toNat) ∧
    value = ⟨sId, tatpSecSubMagic⟩

section Proofs

variable {mappings : Mappings} {hash : UInt64 → UInt64} {subscriberSize : Nat}

theorem secondary_rows_some (sIds : List UInt32) :
    secondaryRows sIds = some (sIds.map fun sId =>
      (UInt64.ofNat (bcd sId.toNat), ⟨sId, tatpSecSubMagic⟩)) := by
  simp only [secondaryRows, simple_is_bcd]
  exact List.mapM_pure

variable (mappings hash subscriberSize) in
/-- What a worker does in `populate_secondary_subscriber_table`. -/
def subscriberScript (wrkrGid : Nat) : List (Instr SecSubVal) :=
  (List.range subscriberSize).flatMap fun sId =>
    (List.range mappings.numReplicas).flatMap fun replI =>
      loadIntoTable mappings hash wrkrGid 0 replI (UInt64.ofNat (bcd (UInt32.ofNat sId).toNat))
        ⟨UInt32.ofNat sId, tatpSecSubMagic⟩

theorem populate_some (wrkrGid : Nat) :
    populateSecondarySubscriberTable mappings hash subscriberSize wrkrGid =
      some (subscriberScript mappings hash subscriberSize wrkrGid) := by
  simp only [populateSecondarySubscriberTable, secondary_rows_some, List.map_map]
  apply congrArg some
  rw [List.flatMap_map]
  rfl

theorem secondary_partitioned (fits : subscriberSize ≤ tatpMaxSubscribers)
    {numBuckets numExtraBuckets : Nat × Nat → Nat} (positive : ∀ place, 0 < numBuckets place) :
    Partitioned mappings (Subscribes subscriberSize)
      (secondarySetup mappings hash (subscriberScript mappings hash subscriberSize) numBuckets
        numExtraBuckets) := by
  simp only [tatpMaxSubscribers] at fits
  constructor
  · rfl
  · rfl
  · intro wrkrGid replI key value
    simp only [secondarySetup, subscriberScript, mem_calls, List.mem_flatMap, List.mem_range,
      mem_load_into_table, Nat.zero_add]
    constructor
    · rintro ⟨sId, below, _, index, populates, rfl, rfl, rfl⟩
      have same : (UInt32.ofNat sId).toNat = sId := Nat.mod_eq_of_lt (by omega)
      refine ⟨index, (should_i_populate_iff wrkrGid index).mp populates, UInt32.ofNat sId, ?_, rfl,
        rfl⟩
      rw [same]
      exact below
    · rintro ⟨index, owner, sId, below, rfl, rfl⟩
      refine ⟨sId.toNat, below, replI, index, ?_, rfl, ?_, ?_⟩
      · rw [UInt32.ofNat_toNat]
        exact (should_i_populate_iff wrkrGid index).mpr owner
      · rw [UInt32.ofNat_toNat]
      · rw [UInt32.ofNat_toNat]
  · rintro key left right ⟨first, _, rfl, rfl⟩ ⟨second, _, same, rfl⟩
    rw [bcd_key_injective same]
  · rintro value ⟨sId, _, same, _⟩
    have words := congrArg UInt64.toNat same
    have bound := sId.toNat_lt
    have small := bcd_lt 11 sId.toNat (by omega)
    have top : kFtInvalidKey.toNat = 2 ^ 64 - 1 := by decide
    rw [bcd_key_value, top] at words
    omega
  · intro place
    exact construct_ok hash _ sizeofSecSubVal (numBuckets place) (numExtraBuckets place) _
      (positive place)

end Proofs

/-- The two ways to compute the number of a subscriber agree, they give its
binary-coded decimal, and a read under the fast number finds the subscriber in the
populated table. -/
theorem subscriber_numbers_agree (sId : UInt32) (below : sId.toNat < tatpMaxSubscribers) :
    tatpSubNbrFromSid sId = some (tatpSubNbrFromSidFast sId) ∧
      (tatpSubNbrFromSidFast sId).toNat = bcd sId.toNat ∧
      (∀ other : UInt32, other.toNat < tatpMaxSubscribers → other ≠ sId →
        tatpSubNbrFromSidFast other ≠ tatpSubNbrFromSidFast sId) ∧
      ∀ (worker : WorkerMappings) (hash : UInt64 → UInt64) (subscriberSize : Nat)
        (numBuckets numExtraBuckets : Nat × Nat → Nat) (script : Nat → List (Instr SecSubVal)),
        1 ≤ worker.totPrimaryMachines → subscriberSize ≤ tatpMaxSubscribers →
        sId.toNat < subscriberSize → (∀ place, 0 < numBuckets place) →
        (∀ wrkrGid, (populateSecondarySubscriberTable worker.toMappings hash subscriberSize
          wrkrGid).isSome) ∧
        ((∀ wrkrGid, populateSecondarySubscriberTable worker.toMappings hash subscriberSize
            wrkrGid = some (script wrkrGid)) →
          let setup := secondarySetup worker.toMappings hash script numBuckets numExtraBuckets
          ∀ state, Reachable (step setup) (initial setup) state → Finished setup state →
            ∀ caller, ∃ timestamp, FixedTableModel.get
              (state.tables (routedMn worker.toMappings (hash (tatpSubNbrFromSidFast sId)) 0, 0))
              caller (hash (tatpSubNbrFromSidFast sId)) (tatpSubNbrFromSidFast sId) =
                .ok ⟨.kSuccess, some timestamp, some ⟨sId, tatpSecSubMagic⟩⟩) := by
  have fast := fast_is_bcd sId below
  refine ⟨?_, ?_, ?_, ?_⟩
  · rw [simple_is_bcd, fast]
  · rw [fast, bcd_key_value]
  · intro other otherBelow different same
    rw [fast, fast_is_bcd other otherBelow] at same
    exact different (bcd_key_injective same)
  · intro worker hash subscriberSize numBuckets numExtraBuckets script some_ fits listed positive
    constructor
    · intro wrkrGid
      rw [populate_some]
      rfl
    · intro populates setup state reached finished caller
      have scripts : script = subscriberScript worker.toMappings hash subscriberSize := by
        funext wrkrGid
        exact Option.some.inj ((populates wrkrGid).symm.trans (populate_some wrkrGid))
      subst script
      have workers := workers_per_machine_pos worker
      have partitioned : Partitioned worker.toMappings (Subscribes subscriberSize) setup :=
        secondary_partitioned fits positive
      rw [fast]
      have inv := partitioned_run partitioned reached
      exact partitioned_get some_ workers partitioned inv finished (fun _ => rfl)
        ⟨sId, listed, rfl, rfl⟩ caller

def threeSubscribers : Setup SecSubVal :=
  secondarySetup twoMachines.toMappings (fun key => key <<< 32)
    (subscriberScript twoMachines.toMappings (fun key => key <<< 32) 3) (fun _ => 1) (fun _ => 0)

/-- Subscriber 2 of three, on two machines. -/
theorem subscriber_numbers_agree_three_subscribers :
    ∃ state, Reachable (step threeSubscribers) (initial threeSubscribers) state ∧
      Finished threeSubscribers state ∧
      ∃ timestamp, FixedTableModel.get (state.tables (0, 0)) 77 ((2 : UInt64) <<< 32) 2 =
        .ok ⟨.kSuccess, some timestamp, some ⟨2, tatpSecSubMagic⟩⟩ := by
  have run : (((List.range 36).map (· % 2)).foldlM (step threeSubscribers)
      (initial threeSubscribers)).any
        (fun state => decide (Finished threeSubscribers state)) = true := by decide +kernel
  rcases reachable_of_any _ run with ⟨state, reached, done⟩
  have finished := of_decide_eq_true done
  have agree := subscriber_numbers_agree 2 (by decide)
  have found := (agree.2.2.2 twoMachines (fun key => key <<< 32) 3 (fun _ => 1) (fun _ => 0) _
    (by decide) (by decide) (by decide) (fun _ => Nat.one_pos)).2 populate_some state reached
    finished 77
  have number : tatpSubNbrFromSidFast 2 = 2 := by decide +kernel
  rw [number] at found
  exact ⟨state, reached, finished, found⟩

end Fasst.TatpSecondary

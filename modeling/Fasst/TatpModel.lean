import Fasst.TatpSecondary
import Fasst.TxPrograms
import Fasst.HrdRandom
import Fasst.PopulatedSwarm

/-!
# The TATP transactions

Five tables for the subscribers of a telephone company. The value of a row has the
type of its table; a value of another type fails the first assertion on it. Of the
values the members that are assigned somewhere are kept. All assertions are modelled,
and a process ends at one that fails.
-/

namespace Fasst.TatpModel

open List Fasst.Dialogues Fasst.Congruential Fasst.HrdRandom Fasst.TxModel Fasst.TxPrograms
open Fasst.Placement Fasst.Population Fasst.TatpSubNbr
open Fasst.TatpSecondary (SecSubVal tatpMagic tatpSecSubMagic secondaryRows)
open Fasst.PopulationRouting (loadIntoTable)

set_option autoImplicit false

def rpcSubscriberReq : Nat := 20
def rpcSecSubscriberReq : Nat := 30
def rpcSpecialFacilityReq : Nat := 40
def rpcAccessInfoReq : Nat := 50
def rpcCallForwardingReq : Nat := 60

def tatpValSize (reqtype : Nat) : Nat :=
  match reqtype / rpcPrimaryDsReqSpacing with
  | 2 => 40
  | 3 => 8
  | 4 => 8
  | 5 => 16
  | 6 => 16
  | _ => 0

def tatpSubMscLocationMagic : UInt32 := 97
def tatpAccinfData1Magic : UInt8 := tatpMagic + 2
def tatpSpecfacDataB0Magic : UInt8 := tatpMagic + 3
def tatpCallfwdNumberx0Magic : UInt8 := tatpMagic + 4

section Rows

structure SubVal where
  subNbr : UInt64
  hex : List UInt8
  bytes : List UInt8
  bits : UInt16
  mscLocation : UInt32
  vlrLocation : UInt32
  deriving DecidableEq, Repr

structure AccinfVal where
  data1 : UInt8
  deriving DecidableEq, Repr

/-- `data_a` is first assigned by a transaction. -/
structure SpecfacVal where
  isActive : UInt8
  dataA : Option UInt8
  dataB0 : UInt8
  deriving DecidableEq, Repr

structure CallfwdVal where
  endTime : UInt8
  numberx0 : UInt8
  deriving DecidableEq, Repr

inductive TatpVal where
  | sub (val : SubVal)
  | secSub (val : SecSubVal)
  | accinf (val : AccinfVal)
  | specfac (val : SpecfacVal)
  | callfwd (val : CallfwdVal)
  deriving DecidableEq, Repr

def subKey (sId : UInt32) : UInt64 := sId.toUInt64

/-- The keys of access info and special facility rows have the same layout. -/
def typedKey (sId : UInt32) (type : UInt8) : UInt64 := sId.toUInt64 ||| type.toUInt64 <<< 32

def callfwdKey (sId : UInt32) (sfType startTime : UInt8) : UInt64 :=
  typedKey sId sfType ||| startTime.toUInt64 <<< 40

end Rows

structure Tatp where
  subscriberSize : UInt32
  a : UInt32
  deriving DecidableEq, Repr

structure Tatp.Ok (tatp : Tatp) : Prop where
  positive : 0 < tatp.subscriberSize.toNat
  fits : tatp.subscriberSize.toNat ≤ tatpMaxSubscribers

def subscribersPerMachine : Nat := 1000000

/-- `none` stands for the assertion on the number of subscribers. -/
def newTatp (numMachines : UInt32) : Option Tatp :=
  if numMachines.toNat * subscribersPerMachine ≤ tatpMaxSubscribers then
    let size := numMachines * UInt32.ofNat subscribersPerMachine
    some ⟨size, if size ≤ 1000000 then 65535 else if size ≤ 10000000 then 1048575 else 2097151⟩
  else none

theorem new_tatp_ok {numMachines : UInt32} {tatp : Tatp} (machines : 0 < numMachines.toNat)
    (built : newTatp numMachines = some tatp) : tatp.Ok := by
  simp only [newTatp, Option.ite_none_right_eq_some, Option.some.injEq] at built
  obtain ⟨bound, rfl⟩ := built
  simp only [subscribersPerMachine, tatpMaxSubscribers] at bound
  -- The assertion keeps the product below 2^32.
  have size : (numMachines * UInt32.ofNat subscribersPerMachine).toNat =
      numMachines.toNat * 1000000 := by
    rw [UInt32.toNat_mul, show (UInt32.ofNat subscribersPerMachine).toNat = 1000000 from rfl]
    omega
  constructor
  · simp only [size]
    omega
  · simp only [size, tatpMaxSubscribers]
    exact bound

def getNurandSubscriber (tatp : Tatp) (seed : UInt64) : UInt32 × UInt64 :=
  let first := hrdFastrand seed
  let second := hrdFastrand first.2
  (((first.1 % tatp.subscriberSize) ||| (second.1 &&& tatp.a)) % tatp.subscriberSize, second.2)

inductive TatpTxnType where
  | getSubscriberData
  | getAccessData
  | getNewDestination
  | updateSubscriberData
  | updateLocation
  | insertCallForwarding
  | deleteCallForwarding
  deriving DecidableEq, Repr

def createWorkgenArray : List TatpTxnType :=
  replicate 35 .getSubscriberData ++ replicate 35 .getAccessData ++
    replicate 10 .getNewDestination ++ replicate 2 .updateSubscriberData ++
    replicate 14 .updateLocation ++ replicate 2 .insertCallForwarding ++
    replicate 2 .deleteCallForwarding

section Transactions

/-- What is on the stack when a transaction function begins. -/
structure Stack where
  objAddr : Nat → UInt64
  obj : Nat → HotsObj TatpVal

def tatpDassert (condition : Prop) [Decidable condition] (rest : Txn TatpVal) : Txn TatpVal :=
  if condition then rest else .exit

def asSub (obj : HotsObj TatpVal) (rest : SubVal → Txn TatpVal) : Txn TatpVal :=
  match obj.val with
  | .sub val => tatpDassert (val.mscLocation = tatpSubMscLocationMagic) (rest val)
  | _ => .exit

def asSecSub (sId : UInt32) (obj : HotsObj TatpVal) (rest : SecSubVal → Txn TatpVal) :
    Txn TatpVal :=
  match obj.val with
  | .secSub val =>
      tatpDassert (val.magic = tatpSecSubMagic) <| tatpDassert (val.sId = sId) (rest val)
  | _ => .exit

def asSpecfac (obj : HotsObj TatpVal) (rest : SpecfacVal → Txn TatpVal) : Txn TatpVal :=
  match obj.val with
  | .specfac val => tatpDassert (val.dataB0 = tatpSpecfacDataB0Magic) (rest val)
  | _ => .exit

def abortRdonly : Txn TatpVal := .call .abortRdonly fun _ => .done

def abort : Txn TatpVal := .call .abort fun _ => .done

def commit : Txn TatpVal := .call .commit fun _ => .done

def mustCommit : Txn TatpVal :=
  .call .commit fun result => tatpDassert (result.status = .committed) .done

variable (stack : Stack)

def addForRead (rpcReqtype : Nat) (key : UInt64) (index : Nat) : Call TatpVal :=
  .addToReadSet rpcReqtype key (stack.objAddr index) (stack.obj index)

def addForWrite (rpcReqtype : Nat) (key : UInt64) (index : Nat) (writeMode : TxWriteMode) :
    Call TatpVal :=
  .addToWriteSet rpcReqtype key (stack.objAddr index) (stack.obj index) writeMode

def txnGetSubscriberData (sId : UInt32) : Txn TatpVal :=
  .call .start fun _ =>
  .call (addForRead stack rpcSubscriberReq (subKey sId) 0) fun _ =>
  .call .doRead fun executed =>
  if executed.status ≠ .inProgress then abortRdonly
  else
    match executed.reads with
    | [obj] =>
        tatpDassert (0 < obj.valSize) <|
        asSub obj fun _ =>
        .call .commitSingleRead fun _ => .done
    | _ => .exit

def callfwdMagic : TatpVal → Bool
  | .callfwd val => decide (val.numberx0 = tatpCallfwdNumberx0Magic)
  | _ => false

def callfwdHit (startTime endTime : UInt8) (entry : HotsObj TatpVal × Nat) : Bool :=
  decide (entry.1.valSize ≠ 0) && decide (entry.2 * 8 ≤ startTime.toNat) &&
    match entry.1.val with
    | .callfwd val => decide (endTime < val.endTime)
    | _ => false

def callfwdKeys (sId : UInt32) (sfType : UInt8) (cfToFetch : Nat) : List (Addition TatpVal) :=
  (range cfToFetch).map fun i =>
    ⟨callfwdKey sId sfType (UInt8.ofNat (i * 8)), stack.objAddr (i + 1), stack.obj (i + 1)⟩

def txnGetNewDestination (sId : UInt32) (sfType startTime endTime : UInt8) : Txn TatpVal :=
  let cfToFetch := startTime.toNat / 8 + 1
  .call .start fun _ =>
  tatpDassert (1 ≤ cfToFetch ∧ cfToFetch ≤ 3) <|
  .call (addForRead stack rpcSpecialFacilityReq (typedKey sId sfType) 0) fun _ =>
  .call .doRead fun executed =>
  if executed.status ≠ .inProgress then abortRdonly
  else
    match executed.reads with
    | [specfacObj] =>
        if specfacObj.valSize = 0 then abortRdonly
        else
          asSpecfac specfacObj fun specfacVal =>
          if specfacVal.isActive = 0 then abortRdonly
          else
            callAll ((callfwdKeys stack sId sfType cfToFetch).map
              (Addition.read rpcCallForwardingReq)) <|
            .call .doRead fun fetched =>
            if fetched.status ≠ .inProgress then abortRdonly
            else
              let callfwdObjs := fetched.reads.drop 1
              tatpDassert (∀ obj ∈ callfwdObjs, obj.valSize ≠ 0 → callfwdMagic obj.val = true) <|
              if callfwdObjs.zipIdx.any (callfwdHit startTime endTime) then commit
              else abortRdonly
    | _ => .exit

def txnGetAccessData (sId : UInt32) (aiType : UInt8) : Txn TatpVal :=
  .call .start fun _ =>
  .call (addForRead stack rpcAccessInfoReq (typedKey sId aiType) 0) fun _ =>
  .call .doRead fun executed =>
  tatpDassert (executed.status = .inProgress) <|
    match executed.reads with
    | [obj] =>
        if 0 < obj.valSize then
          match obj.val with
          | .accinf val =>
              tatpDassert (val.data1 = tatpAccinfData1Magic) <|
              .call .commitSingleRead fun _ => .done
          | _ => .exit
        else abortRdonly
    | _ => .exit

/-- The assertion on the result of a `do_read` that takes locks. -/
def assertLocking (executed : Reply TatpVal) (rest : Txn TatpVal) : Txn TatpVal :=
  tatpDassert (executed.status = .inProgress ∨ executed.status = .mustAbort) rest

def txnUpdateSubscriberData (sId : UInt32) (sfType : UInt8) (bits dataA : UInt32) : Txn TatpVal :=
  .call .start fun _ =>
  .call (addForWrite stack rpcSubscriberReq (subKey sId) 0 .update) fun _ =>
  .call (addForWrite stack rpcSpecialFacilityReq (typedKey sId sfType) 1 .update) fun _ =>
  .call .doRead fun executed =>
  assertLocking executed <|
  if executed.status = .mustAbort then abort
  else
    match executed.writes with
    | [subObj, specfacObj] =>
        asSub subObj fun subVal =>
        .call (.writeObj 0 subObj.valSize (.sub { subVal with bits := bits.toUInt16 })) fun _ =>
        asSpecfac specfacObj fun specfacVal =>
        .call (.writeObj 1 specfacObj.valSize
          (.specfac { specfacVal with dataA := some dataA.toUInt8 })) fun _ =>
        mustCommit
    | _ => .exit

/-- The common beginning of the transactions that start from a subscriber number. -/
def readSecSub (sId : UInt32) (locked : Txn TatpVal) (rest : SecSubVal → Txn TatpVal) :
    Txn TatpVal :=
  .call .start fun _ =>
  .call (addForRead stack rpcSecSubscriberReq (tatpSubNbrFromSidFast sId) 0) fun _ =>
  .call .doRead fun executed =>
  if executed.status ≠ .inProgress then locked
  else
    match executed.reads with
    | [secSubObj] => tatpDassert (0 < secSubObj.valSize) <| asSecSub sId secSubObj rest
    | _ => .exit

/-- An update of the row that the secondary row names. A locked secondary row fails
an assertion. -/
def txnUpdateLocation (sId vlrLocation : UInt32) : Txn TatpVal :=
  readSecSub stack sId .exit fun secSubVal =>
  .call (addForWrite stack rpcSubscriberReq (subKey secSubVal.sId) 1 .update) fun _ =>
  .call .doRead fun executed =>
  assertLocking executed <|
  if executed.status = .inProgress then
    match executed.writes with
    | [subObj] =>
        asSub subObj fun subVal =>
        .call (.writeObj 0 subObj.valSize (.sub { subVal with vlrLocation := vlrLocation })) fun _ =>
        mustCommit
    | _ => .exit
  else abort

def txnInsertCallForwarding (sId : UInt32) (sfType startTime endTime : UInt8) : Txn TatpVal :=
  readSecSub stack sId .exit fun _ =>
  .call (addForRead stack rpcSpecialFacilityReq (typedKey sId sfType) 1) fun _ =>
  .call .doRead fun found =>
  if found.status ≠ .inProgress then abortRdonly
  else
    match found.reads with
    | [_, specfacObj] =>
        if specfacObj.valSize = 0 then abortRdonly
        else
          asSpecfac specfacObj fun _ =>
          .call (addForWrite stack rpcCallForwardingReq (callfwdKey sId sfType startTime) 2 .insert)
            fun _ =>
          .call .doRead fun executed =>
          assertLocking executed <|
          if executed.status = .inProgress then
            .call (.writeObj 0 (tatpValSize rpcCallForwardingReq)
              (.callfwd ⟨endTime, tatpCallfwdNumberx0Magic⟩)) fun _ =>
            commit
          else abort
    | _ => .exit

def txnDeleteCallForwarding (sId : UInt32) (sfType startTime : UInt8) : Txn TatpVal :=
  readSecSub stack sId abortRdonly fun _ =>
  .call (addForWrite stack rpcCallForwardingReq (callfwdKey sId sfType startTime) 1 .del) fun _ =>
  .call .doRead fun executed =>
  assertLocking executed <|
  if executed.status = .inProgress then
    match executed.writes with
    | [callfwdObj] => tatpDassert (callfwdMagic callfwdObj.val = true) commit
    | _ => .exit
  else abort

/-- The numbers that a transaction function draws. -/
structure Draws where
  seed : UInt64
  aiType : UInt32
  sfType : UInt32
  startTime : UInt32
  endTime : UInt32
  first : UInt32
  second : UInt32

/-- One turn of the loop of `slave_func`. -/
def slaveTxn (tatp : Tatp) (roll : UInt32) (draws : Draws) : Txn TatpVal :=
  let sId := (getNurandSubscriber tatp draws.seed).1
  let sfType := ((draws.sfType % 4) + 1).toUInt8
  let startTime := ((draws.startTime % 3) * 8).toUInt8
  let endTime := ((draws.endTime % 24) * 1).toUInt8
  match createWorkgenArray[(roll % 100).toNat]? with
  | some .getSubscriberData => txnGetSubscriberData stack sId
  | some .getAccessData => txnGetAccessData stack sId ((draws.aiType &&& 3) + 1).toUInt8
  | some .getNewDestination => txnGetNewDestination stack sId sfType startTime endTime
  | some .updateSubscriberData =>
      txnUpdateSubscriberData stack sId sfType draws.first draws.second
  | some .updateLocation => txnUpdateLocation stack sId draws.first
  | some .insertCallForwarding => txnInsertCallForwarding stack sId sfType startTime endTime
  | some .deleteCallForwarding => txnDeleteCallForwarding stack sId sfType startTime
  | none => .exit

def Workload (tatp : Tatp) (txn : Txn TatpVal) : Prop :=
  ∃ (stack : Stack) (roll : UInt32) (draws : Draws), txn = slaveTxn stack tatp roll draws

end Transactions

section Populate

structure Row where
  reqtype : Nat
  key : UInt64
  val : TatpVal

def drawMany : Nat → UInt64 → List UInt32 × UInt64
  | 0, seed => ([], seed)
  | count + 1, seed =>
      let first := hrdFastrand seed
      let later := drawMany count first.2
      (first.1 :: later.1, later.2)

/-- `none` is a failed assertion in `tatp_sub_nbr_from_sid`. -/
def drawSubVal (sId : UInt32) (seed : UInt64) : Option (SubVal × UInt64) := do
  let subNbr ← tatpSubNbrFromSid sId
  let hex := drawMany 5 seed
  let bytes := drawMany 10 hex.2
  let bits := hrdFastrand bytes.2
  let vlrLocation := hrdFastrand bits.2
  let val : SubVal :=
    { subNbr := subNbr
      hex := hex.1.map UInt32.toUInt8
      bytes := bytes.1.map UInt32.toUInt8
      bits := bits.1.toUInt16
      mscLocation := tatpSubMscLocationMagic
      vlrLocation := vlrLocation.1 }
  some (val, vlrLocation.2)

def populateSubscriberTable : List UInt32 → UInt64 → Option (List Row)
  | [], _ => some []
  | sId :: rest, seed => do
      let (val, seed) ← drawSubVal sId seed
      let later ← populateSubscriberTable rest seed
      some (⟨rpcSubscriberReq, subKey sId, .sub val⟩ :: later)

def populateSecondarySubscriberTable (sIds : List UInt32) : Option (List Row) := do
  let rows ← secondaryRows sIds
  some (rows.map fun row => ⟨rpcSecSubscriberReq, row.1, .secSub row.2⟩)

def unused (values : List UInt8) (used : UInt8 → Bool) (draw : UInt32) : Bool :=
  match values[draw.toNat % values.length]? with
  | some value => !used value
  | none => false

/-- The loop of `select_between_n_and_m_from`; draws of used values are bounded by
`fuel`. -/
def selectLoop (fuel : Nat) (values : List UInt8) :
    Nat → (UInt8 → Bool) → UInt64 → Option (List UInt8 × UInt64)
  | 0, _, seed => some ([], seed)
  | count + 1, used, seed => do
      let drawn ← drawUntil hrdFastrand (unused values used) fuel seed
      let value ← values[drawn.1.toNat % values.length]?
      if value < 32 then
        let later ← selectLoop fuel values count (Function.update used value true) drawn.2
        some (value :: later.1, later.2)
      else none

/-- `to_select`, an unsigned sum that becomes an `int`. -/
def toSelect (seed : UInt64) (n m : UInt32) : Int :=
  (((hrdFastrand seed).1 % (m - n + 1)) + n).toInt32.toInt

/-- `none` also stands for its assertions and for a division by zero. -/
def selectBetweenNAndMFrom (fuel : Nat) (seed : UInt64) (values : List UInt8) (n m : UInt32) :
    Option (List UInt8 × UInt64) :=
  if m ≥ n ∧ m.toNat ≥ values.length ∧ m - n + 1 ≠ 0 then
    selectLoop fuel values (toSelect seed n m).toNat (fun _ => false) (hrdFastrand seed).2
  else none

def populateAccessInfoTable (fuel : Nat) : List UInt32 → UInt64 → Option (List Row)
  | [], _ => some []
  | sId :: rest, seed => do
      let (aiTypeVec, seed) ← selectBetweenNAndMFrom fuel seed [1, 2, 3, 4] 1 4
      let later ← populateAccessInfoTable fuel rest seed
      some (aiTypeVec.map (fun aiType =>
        ⟨rpcAccessInfoReq, typedKey sId aiType, .accinf ⟨tatpAccinfData1Magic⟩⟩) ++ later)

def callfwdRows (sId : UInt32) (sfType : UInt8) : List UInt8 → UInt64 → List Row × UInt64
  | [], seed => ([], seed)
  | startTime :: rest, seed =>
      let coin := hrdFastrand seed
      if coin.1 % 2 = 0 then callfwdRows sId sfType rest coin.2
      else
        let endTime := hrdFastrand coin.2
        let later := callfwdRows sId sfType rest endTime.2
        (⟨rpcCallForwardingReq, callfwdKey sId sfType startTime,
          .callfwd ⟨((endTime.1 % 24) + 1).toUInt8, tatpCallfwdNumberx0Magic⟩⟩ :: later.1, later.2)

def specfacRows (sId : UInt32) : List UInt8 → UInt64 → List Row × UInt64
  | [], seed => ([], seed)
  | sfType :: rest, seed =>
      let coin := hrdFastrand seed
      let forwards := callfwdRows sId sfType [0, 8, 16] coin.2
      let later := specfacRows sId rest forwards.2
      (⟨rpcSpecialFacilityReq, typedKey sId sfType,
        .specfac ⟨if coin.1 % 100 < 85 then 1 else 0, none, tatpSpecfacDataB0Magic⟩⟩ ::
          forwards.1 ++ later.1, later.2)

def populateSpecfacAndCallfwdTable (fuel : Nat) : List UInt32 → UInt64 → Option (List Row)
  | [], _ => some []
  | sId :: rest, seed => do
      let (sfTypeVec, seed) ← selectBetweenNAndMFrom fuel seed [1, 2, 3, 4] 1 4
      let facilities := specfacRows sId sfTypeVec seed
      let later ← populateSpecfacAndCallfwdTable fuel rest facilities.2
      some (facilities.1 ++ later)

def subscribers (subscriberSize : UInt32) : List UInt32 :=
  (range subscriberSize.toNat).map UInt32.ofNat

/-- All threads draw the same rows. -/
def allRows (fuel : Nat) (subscriberSize : UInt32) : Option (List Row) := do
  let sIds := subscribers subscriberSize
  let subs ← populateSubscriberTable sIds 0xdeadbeef
  let secSubs ← populateSecondarySubscriberTable sIds
  let accinfs ← populateAccessInfoTable fuel sIds 0xdeadbeef
  let specfacs ← populateSpecfacAndCallfwdTable fuel sIds 0xdeadbeef
  some (subs ++ secSubs ++ accinfs ++ specfacs)

def populateAllTables (mappings : Mappings) (hash : UInt64 → UInt64) (rows : List Row)
    (wrkrGid : Nat) : List (Instr TatpVal) :=
  rows.flatMap fun row => (range mappings.numReplicas).flatMap fun replI =>
    loadIntoTable mappings hash wrkrGid row.reqtype replI row.key row.val

end Populate

end Fasst.TatpModel

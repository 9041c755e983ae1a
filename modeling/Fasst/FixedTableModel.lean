import Mathlib.Algebra.Group.Nat.Defs
import Mathlib.Logic.Function.Basic
import Mathlib.Data.List.FinRange
import Mathlib.Data.Nat.Log
import Mathlib.Tactic.Common

/-!
# The MICA FixedTable, as the headers under `fixedtable_impl` compute it

A `Bucket*` is the position of the bucket in the one allocation that holds the
`num_buckets_` primary buckets and, behind them, the extra buckets. Each call
runs to its end without interference, as one RPC handler does. A failed
`assert` is a `Fault`; a chain walk that visits more buckets than the table
has is the fault `diverge`, so that termination is a statement about results.
Values are opaque buffers of `val_size` bytes, hence a type variable here. The
free-list spinlock is taken and released inside each call that uses it and is
left out. Statistics, prefetching and printing are left out.
-/

namespace Fasst.FixedTableModel

set_option autoImplicit false

def kBucketCap : Nat := 7
def kNumLocksBits : Nat := 5
def kMaxNumLocks : Nat := 2 ^ kNumLocksBits - 1
def kCallerIdBits : Nat := 32 - kNumLocksBits
def kMaxCallerId : Nat := 2 ^ kCallerIdBits - 1
def kInvalidCallerId : Nat := kMaxCallerId
def kTimestampCanary : UInt64 := 5
def kFtInvalidKey : UInt64 := 0xffffffffffffffff

abbrev Slot := Fin kBucketCap

inductive Result where
  | kSuccess
  | kLocked
  | kInsufficientSpaceIndex
  | kExists
  | kNotFound
  deriving DecidableEq, Repr

/-- The assertions of the table code, by what they demand. -/
inductive Fault where
  | callerIsInvalid
  | lockerNotInvalid
  | numLocksNotZero
  | bucketNotLocked
  | lockerNotCaller
  | numLocksZero
  | numLocksFull
  | tableNotPrimary
  | timestampChanged
  | keyMissing
  | bucketIndexRange
  | extraIndexZero
  | extraIndexRange
  | extraAlreadyChained
  | extraNotChained
  | extraNotTail
  | extraNotEmpty
  | diverge
  | spin
  deriving DecidableEq, Repr

/-- `finalUnlocks` is a history variable: it counts the unlocks since `reset()`
that released the last lock of the bucket, and no modelled function reads it. -/
structure Bucket (V : Type) where
  lockerId : Nat
  numLocks : Nat
  nextExtraBucketIndex : Nat
  timestamp : UInt64
  keyArr : Slot → UInt64
  valArr : Slot → V
  finalUnlocks : Nat

structure FixedTable (V : Type) where
  isPrimary : Bool
  valSize : Nat
  numBuckets : Nat
  numExtraBuckets : Nat
  buckets : Nat → Bucket V
  freeListHead : Nat

section

variable {V : Type}

def check (condition : Prop) [Decidable condition] (fault : Fault) : Except Fault Unit :=
  if condition then .ok () else .error fault

def setBucket (table : FixedTable V) (node : Nat) (bucket : Bucket V) : FixedTable V :=
  { table with buckets := Function.update table.buckets node bucket }

def calcBucketIndex (table : FixedTable V) (keyHash : UInt64) : Nat :=
  keyHash.toNat % 2 ^ 32 &&& (table.numBuckets - 1)

def getBucket (table : FixedTable V) (bucketIndex : Nat) : Except Fault Nat := do
  check (bucketIndex < table.numBuckets + table.numExtraBuckets) .bucketIndexRange
  .ok bucketIndex

def hasExtraBucket (bucket : Bucket V) : Prop := bucket.nextExtraBucketIndex ≠ 0

instance (bucket : Bucket V) : Decidable (hasExtraBucket bucket) :=
  inferInstanceAs (Decidable (_ ≠ _))

/-- `extra_buckets_` points one bucket before the first extra bucket, because
extra indices are 1-based. -/
def getExtraBucket (table : FixedTable V) (extraIndex : Nat) : Except Fault Nat := do
  check (extraIndex ≠ 0) .extraIndexZero
  check (extraIndex < 1 + table.numExtraBuckets) .extraIndexRange
  .ok (table.numBuckets - 1 + extraIndex)

def readTimestamp (table : FixedTable V) (node : Nat) : UInt64 := (table.buckets node).timestamp

def isUnlocked (timestamp : UInt64) : Prop := timestamp &&& 1 = 0

def isLocked (timestamp : UInt64) : Prop := timestamp &&& 1 = 1

instance (timestamp : UInt64) : Decidable (isUnlocked timestamp) :=
  inferInstanceAs (Decidable (_ = _))

instance (timestamp : UInt64) : Decidable (isLocked timestamp) :=
  inferInstanceAs (Decidable (_ = _))

/-- The version field of the word: `hots_hdr_t` has the lock bit below it and
the canary above it. -/
def versionOf (timestamp : UInt64) : Nat := timestamp.toNat / 2 % 2 ^ 60

def lockBucketPtr (table : FixedTable V) (caller node : Nat) :
    Except Fault (Bool × FixedTable V) := do
  check (caller ≠ kInvalidCallerId) .callerIsInvalid
  let bucket := table.buckets node
  let ts := bucket.timestamp &&& ~~~1
  let newTs := ts ||| 1
  if bucket.timestamp = ts then
    check (bucket.lockerId = kInvalidCallerId) .lockerNotInvalid
    check (bucket.numLocks = 0) .numLocksNotZero
    .ok (true, setBucket table node
      { bucket with
        timestamp := newTs
        lockerId := caller % 2 ^ kCallerIdBits
        numLocks := 1 })
  else if bucket.lockerId = caller then
    check (isLocked bucket.timestamp) .bucketNotLocked
    check (0 < bucket.numLocks) .numLocksZero
    check (bucket.numLocks < kMaxNumLocks) .numLocksFull
    .ok (true, setBucket table node
      { bucket with numLocks := (bucket.numLocks + 1) % 2 ^ kNumLocksBits })
  else
    .ok (false, table)

def unlockBucketPtr (table : FixedTable V) (caller node : Nat) :
    Except Fault (FixedTable V) := do
  check (caller ≠ kInvalidCallerId) .callerIsInvalid
  let bucket := table.buckets node
  check (isLocked bucket.timestamp) .bucketNotLocked
  check (bucket.lockerId = caller) .lockerNotCaller
  check (0 < bucket.numLocks) .numLocksZero
  if bucket.numLocks = 1 then
    .ok (setBucket table node
      { bucket with
        lockerId := kInvalidCallerId
        numLocks := 0
        timestamp := bucket.timestamp + 1
        finalUnlocks := bucket.finalUnlocks + 1 })
  else
    .ok (setBucket table node { bucket with numLocks := bucket.numLocks - 1 })

def allocExtraBucket (table : FixedTable V) (node : Nat) :
    Except Fault (Bool × FixedTable V) := do
  check (¬ hasExtraBucket (table.buckets node)) .extraAlreadyChained
  if table.freeListHead = 0 then
    .ok (false, table)
  else
    let extraIndex := table.freeListHead
    let extra ← getExtraBucket table extraIndex
    let popped := { table with freeListHead := (table.buckets extra).nextExtraBucketIndex }
    let cleared := setBucket popped extra
      { popped.buckets extra with nextExtraBucketIndex := 0 }
    .ok (true, setBucket cleared node
      { cleared.buckets node with nextExtraBucketIndex := extraIndex })

def freeExtraBucket (table : FixedTable V) (node : Nat) : Except Fault (FixedTable V) := do
  check (hasExtraBucket (table.buckets node)) .extraNotChained
  let extraIndex := (table.buckets node).nextExtraBucketIndex
  let extra ← getExtraBucket table extraIndex
  check ((table.buckets extra).nextExtraBucketIndex = 0) .extraNotTail
  check (∀ slot : Slot, (table.buckets extra).keyArr slot = kFtInvalidKey) .extraNotEmpty
  let detached := setBucket table node
    { table.buckets node with nextExtraBucketIndex := 0 }
  let pushed := setBucket detached extra
    { detached.buckets extra with nextExtraBucketIndex := detached.freeListHead }
  .ok { pushed with freeListHead := extraIndex }

/-- The `do … while` of `fill_hole`: the last bucket of the chain behind
`node`, and the bucket before it. -/
def walkToTail (table : FixedTable V) : Nat → Nat → Except Fault (Nat × Nat)
  | 0, _ => .error .diverge
  | fuel + 1, node => do
      let extra ← getExtraBucket table (table.buckets node).nextExtraBucketIndex
      if hasExtraBucket (table.buckets extra) then walkToTail table fuel extra
      else .ok (node, extra)

def occupiedSlots (bucket : Bucket V) : List Slot :=
  (List.finRange kBucketCap).filter fun slot => bucket.keyArr slot ≠ kFtInvalidKey

def moveItem (table : FixedTable V) (source : Nat) (sourceSlot : Slot)
    (target : Nat) (targetSlot : Slot) : FixedTable V :=
  let moved := table.buckets source
  let filled := setBucket table target
    { table.buckets target with
      keyArr := Function.update (table.buckets target).keyArr targetSlot (moved.keyArr sourceSlot)
      valArr := Function.update (table.buckets target).valArr targetSlot (moved.valArr sourceSlot) }
  setBucket filled source
    { filled.buckets source with
      keyArr := Function.update (filled.buckets source).keyArr sourceSlot kFtInvalidKey }

/-- One turn of the loop in `fill_hole` for each unit of fuel. The head of
`occupiedSlots` is `moved_item_index`; `last_item` says there is no second one. -/
def fillHole : Nat → FixedTable V → Nat → Slot → Except Fault (FixedTable V)
  | 0, _, _, _ => .error .diverge
  | fuel + 1, table, node, unusedSlot =>
      if hasExtraBucket (table.buckets node) then do
        let (previous, current) ← walkToTail table (table.numExtraBuckets + 1) node
        match occupiedSlots (table.buckets current) with
        | [] => do
            let freed ← freeExtraBucket table previous
            fillHole fuel freed node unusedSlot
        | movedSlot :: others => do
            let moved := moveItem table current movedSlot node unusedSlot
            if others = [] then freeExtraBucket moved previous else .ok moved
      else .ok table

def firstSlot (bucket : Bucket V) (key : UInt64) : Option Slot :=
  (List.finRange kBucketCap).find? fun slot => bucket.keyArr slot = key

/-- The loop that `get_empty` and `find_item_index` share: the first slot on
the chain that holds the wanted key, or else the last bucket visited. -/
def scanChain (table : FixedTable V) (wanted : UInt64) :
    Nat → Nat → Except Fault ((Nat × Slot) ⊕ Nat)
  | 0, _ => .error .diverge
  | fuel + 1, node =>
      match firstSlot (table.buckets node) wanted with
      | some slot => .ok (.inl (node, slot))
      | none =>
          if hasExtraBucket (table.buckets node) then do
            let extra ← getExtraBucket table (table.buckets node).nextExtraBucketIndex
            scanChain table wanted fuel extra
          else .ok (.inr node)

def getEmpty (table : FixedTable V) (node : Nat) :
    Except Fault (Option (Nat × Slot) × FixedTable V) := do
  match ← scanChain table kFtInvalidKey (table.numExtraBuckets + 1) node with
  | .inl located => .ok (some located, table)
  | .inr last => do
      let (allocated, grown) ← allocExtraBucket table last
      if allocated then
        let extra ← getExtraBucket grown (grown.buckets last).nextExtraBucketIndex
        .ok (some (extra, ⟨0, by decide⟩), grown)
      else .ok (none, grown)

def findItemIndex (table : FixedTable V) (node : Nat) (key : UInt64) :
    Except Fault (Option (Nat × Slot)) := do
  match ← scanChain table key (table.numExtraBuckets + 1) node with
  | .inl located => .ok (some located)
  | .inr _ => .ok none

def setItem (table : FixedTable V) (node : Nat) (slot : Slot) (key : UInt64) (value : V) :
    FixedTable V :=
  setBucket table node
    { table.buckets node with
      keyArr := Function.update (table.buckets node).keyArr slot key
      valArr := Function.update (table.buckets node).valArr slot value }

/-- What a read leaves in the buffers of its caller: `none` is a buffer that
the call did not write. -/
structure ReadOut (V : Type) where
  result : Result
  outTimestamp : Option UInt64
  outValue : Option V

def get (table : FixedTable V) (caller : Nat) (keyHash key : UInt64) :
    Except Fault (ReadOut V) := do
  check (table.isPrimary = true) .tableNotPrimary
  let node ← getBucket table (calcBucketIndex table keyHash)
  let timestampStart := readTimestamp table node
  if isUnlocked timestampStart then
    match ← findItemIndex table node key with
    | none =>
        if timestampStart ≠ readTimestamp table node then
          .ok ⟨.kLocked, some timestampStart, none⟩
        else .ok ⟨.kNotFound, some timestampStart, none⟩
    | some (located, slot) =>
        let value := (table.buckets located).valArr slot
        if timestampStart ≠ readTimestamp table node then
          .ok ⟨.kLocked, some timestampStart, some value⟩
        else .ok ⟨.kSuccess, some timestampStart, some value⟩
  else if (table.buckets node).lockerId = caller then
    let found ← findItemIndex table node key
    check (timestampStart = readTimestamp table node) .timestampChanged
    match found with
    | none => .ok ⟨.kNotFound, none, none⟩
    | some (located, slot) =>
        .ok ⟨.kSuccess, some timestampStart, some ((table.buckets located).valArr slot)⟩
  else .ok ⟨.kLocked, none, none⟩

/-- `lock_bkt_and_get` keeps the lock if the key is there, `lock_bkt_for_ins` if it is
not; `missed` is the result when the lock is released again. -/
def lockBktIf (present : Bool) (missed : Result) (table : FixedTable V) (caller : Nat)
    (keyHash key : UInt64) : Except Fault (ReadOut V × FixedTable V) := do
  check (table.isPrimary = true) .tableNotPrimary
  let node ← getBucket table (calcBucketIndex table keyHash)
  let (lockSuccess, locked) ← lockBucketPtr table caller node
  if lockSuccess then
    let found ← findItemIndex locked node key
    if found.isSome = present then
      .ok (⟨.kSuccess, some (locked.buckets node).timestamp,
        found.map fun (located, slot) => (locked.buckets located).valArr slot⟩, locked)
    else
      let unlocked ← unlockBucketPtr locked caller node
      .ok (⟨missed, none, none⟩, unlocked)
  else .ok (⟨.kLocked, none, none⟩, locked)

def lockBktAndGet (table : FixedTable V) (caller : Nat) (keyHash key : UInt64) :
    Except Fault (ReadOut V × FixedTable V) :=
  lockBktIf true .kNotFound table caller keyHash key

def lockBktForIns (table : FixedTable V) (caller : Nat) (keyHash key : UInt64) :
    Except Fault (ReadOut V × FixedTable V) :=
  lockBktIf false .kExists table caller keyHash key

def lockBucketHash (table : FixedTable V) (caller : Nat) (keyHash : UInt64) :
    Except Fault (Result × FixedTable V) := do
  check (table.isPrimary = true) .tableNotPrimary
  let node ← getBucket table (calcBucketIndex table keyHash)
  let (lockSuccess, locked) ← lockBucketPtr table caller node
  .ok (if lockSuccess then .kSuccess else .kLocked, locked)

def unlockBucketHash (table : FixedTable V) (caller : Nat) (keyHash : UInt64) :
    Except Fault (Result × FixedTable V) := do
  check (table.isPrimary = true) .tableNotPrimary
  let node ← getBucket table (calcBucketIndex table keyHash)
  let unlocked ← unlockBucketPtr table caller node
  .ok (.kSuccess, unlocked)

/-- The insertion that `set` and `set_spinlock` share: where the item goes, or
`none` when neither a slot nor a free extra bucket is left. -/
def placeItem (table : FixedTable V) (node : Nat) (key : UInt64) :
    Except Fault (Option (Nat × Slot) × FixedTable V) := do
  match ← findItemIndex table node key with
  | some located => .ok (some located, table)
  | none => getEmpty table node

/-- The assertions that open `set` and `del` at a primary. -/
def assertHolder (table : FixedTable V) (caller node : Nat) : Except Fault Unit :=
  if table.isPrimary then do
    check (isLocked (table.buckets node).timestamp) .bucketNotLocked
    check ((table.buckets node).lockerId = caller) .lockerNotCaller
  else .ok ()

/-- The release that closes `set` and `del` at a primary. -/
def unlockIfPrimary (table : FixedTable V) (caller node : Nat) : Except Fault (FixedTable V) :=
  if table.isPrimary then unlockBucketPtr table caller node else .ok table

def set (table : FixedTable V) (caller : Nat) (keyHash key : UInt64) (value : V) :
    Except Fault (Result × FixedTable V) := do
  let node ← getBucket table (calcBucketIndex table keyHash)
  assertHolder table caller node
  let (place, placed) ← placeItem table node key
  match place with
  | none =>
      let unlocked ← unlockBucketPtr placed caller node
      .ok (.kInsufficientSpaceIndex, unlocked)
  | some (located, slot) =>
      let unlocked ← unlockIfPrimary (setItem placed located slot key value) caller node
      .ok (.kSuccess, unlocked)

/-- The spin on the bucket lock ends only through another caller's unlock, so
a call that finds the bucket locked by someone else is the fault `spin`. -/
def setSpinlock (table : FixedTable V) (caller : Nat) (keyHash key : UInt64) (value : V) :
    Except Fault (Result × FixedTable V) := do
  let node ← getBucket table (calcBucketIndex table keyHash)
  let (lockSuccess, locked) ← lockBucketPtr table caller node
  if lockSuccess then
    let (place, placed) ← placeItem locked node key
    match place with
    | none =>
        let unlocked ← unlockBucketPtr placed caller node
        .ok (.kInsufficientSpaceIndex, unlocked)
    | some (located, slot) =>
        let unlocked ← unlockBucketPtr (setItem placed located slot key value) caller node
        .ok (.kSuccess, unlocked)
  else .error .spin

def clearSlot (table : FixedTable V) (node : Nat) (slot : Slot) : FixedTable V :=
  setBucket table node
    { table.buckets node with
      keyArr := Function.update (table.buckets node).keyArr slot kFtInvalidKey }

def del (table : FixedTable V) (caller : Nat) (keyHash key : UInt64) :
    Except Fault (Result × FixedTable V) := do
  let node ← getBucket table (calcBucketIndex table keyHash)
  assertHolder table caller node
  match ← findItemIndex table node key with
  | none => .error .keyMissing
  | some (located, slot) =>
      let filled ← fillHole (table.numExtraBuckets + 1) (clearSlot table located slot) located slot
      let unlocked ← unlockIfPrimary filled caller node
      .ok (.kSuccess, unlocked)

/-- `reset()` writes every field of every bucket except the link of a primary
bucket, and threads the extra buckets into one free list. -/
def reset (table : FixedTable V) : FixedTable V :=
  { table with
    buckets := fun node =>
      let bucket := table.buckets node
      { bucket with
        timestamp := kTimestampCanary <<< 61
        lockerId := kInvalidCallerId
        numLocks := 0
        keyArr := fun _ => kFtInvalidKey
        finalUnlocks := 0
        nextExtraBucketIndex :=
          if node < table.numBuckets then bucket.nextExtraBucketIndex
          else if node + 1 < table.numBuckets + table.numExtraBuckets then
            node - table.numBuckets + 2
          else 0 }
    freeListHead := if table.numExtraBuckets = 0 then 0 else 1 }

/-- The numbers of buckets and of extra buckets that the constructor computes; a tenth in
`double` arithmetic, cut off, is the quotient. -/
def tableSizes (itemCount : Nat) : Nat × Nat :=
  let itemCount := itemCount * 11 / 10
  let numBuckets := (itemCount + kBucketCap - 1) / kBucketCap
  (2 ^ Nat.clog 2 numBuckets, numBuckets / 10)

/-- Zero-filled memory from the allocator, then `reset()`. -/
def construct (isPrimary : Bool) (valSize numBuckets numExtraBuckets : Nat) (zero : V) :
    FixedTable V :=
  reset
    { isPrimary, valSize, numBuckets, numExtraBuckets
      buckets := fun _ =>
        { lockerId := 0, numLocks := 0, nextExtraBucketIndex := 0, timestamp := 0
          keyArr := fun _ => 0, valArr := fun _ => zero, finalUnlocks := 0 }
      freeListHead := 0 }

end

end Fasst.FixedTableModel

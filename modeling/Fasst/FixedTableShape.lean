import Fasst.FixedTableModel
import Fasst.LinkedChain
import Mathlib.Data.List.Perm.Subperm
import Mathlib.Data.List.Range

/-!
# The shape of a FixedTable

`lists (some b)` is the chain of extra buckets behind the primary bucket `b`
and `lists none` the free list, so that one function accounts for every extra
bucket. `Shape` ties such a function to the links stored in the table, places
each key in the chain its hash selects, and says which buckets are full. The
optional `hole` is the slot that `del` has cleared and `fill_hole` has not yet
filled; outside `del` there is none.
-/

namespace Fasst.FixedTableShape

open Fasst.FixedTableModel Fasst.LinkedChain

set_option autoImplicit false

variable {V : Type}

def nextNode (table : FixedTable V) (node : Nat) : Option Nat :=
  if (table.buckets node).nextExtraBucketIndex = 0 then none
  else some (table.numBuckets - 1 + (table.buckets node).nextExtraBucketIndex)

def freeHead (table : FixedTable V) : Option Nat :=
  if table.freeListHead = 0 then none else some (table.numBuckets - 1 + table.freeListHead)

def keyAt (table : FixedTable V) (node : Nat) (slot : Slot) : UInt64 :=
  (table.buckets node).keyArr slot

def valAt (table : FixedTable V) (node : Nat) (slot : Slot) : V :=
  (table.buckets node).valArr slot

abbrev Lists := Option Nat → List Nat

def chainNodes (lists : Lists) (primary : Nat) : List Nat := primary :: lists (some primary)

def Owner (table : FixedTable V) (owner : Option Nat) : Prop :=
  ∀ primary, owner = some primary → primary < table.numBuckets

structure Shape (hash : UInt64 → UInt64) (table : FixedTable V) (lists : Lists)
    (hole : Option (Nat × Slot)) : Prop where
  positive : 0 < table.numBuckets
  linkedChain : ∀ primary, primary < table.numBuckets →
    Linked (nextNode table) (some primary) (chainNodes lists primary)
  linkedFree : Linked (nextNode table) (freeHead table) (lists none)
  inRange : ∀ owner, Owner table owner → ∀ node ∈ lists owner,
    table.numBuckets ≤ node ∧ node < table.numBuckets + table.numExtraBuckets
  covered : ∀ node, table.numBuckets ≤ node →
    node < table.numBuckets + table.numExtraBuckets →
      ∃ owner, Owner table owner ∧ node ∈ lists owner
  disjoint : ∀ owner other, Owner table owner → Owner table other →
    ∀ node, node ∈ lists owner → node ∈ lists other → owner = other
  freeEmpty : ∀ node ∈ lists none, ∀ slot, keyAt table node slot = kFtInvalidKey
  placed : ∀ primary, primary < table.numBuckets → ∀ node ∈ chainNodes lists primary,
    ∀ slot, keyAt table node slot ≠ kFtInvalidKey →
      calcBucketIndex table (hash (keyAt table node slot)) = primary
  unique : ∀ primary, primary < table.numBuckets →
    ∀ node ∈ chainNodes lists primary, ∀ other ∈ chainNodes lists primary,
      ∀ slot otherSlot, keyAt table node slot = keyAt table other otherSlot →
        keyAt table node slot ≠ kFtInvalidKey → node = other ∧ slot = otherSlot
  full : ∀ primary, primary < table.numBuckets → ∀ before last,
    chainNodes lists primary = before ++ [last] → ∀ node ∈ before, ∀ slot,
      hole ≠ some (node, slot) → keyAt table node slot ≠ kFtInvalidKey

/-- The same sizes, links and keys: all that `Shape` looks at. -/
structure SameShape (left right : FixedTable V) : Prop where
  numBuckets : right.numBuckets = left.numBuckets
  numExtraBuckets : right.numExtraBuckets = left.numExtraBuckets
  freeListHead : right.freeListHead = left.freeListHead
  links : ∀ node, (right.buckets node).nextExtraBucketIndex =
    (left.buckets node).nextExtraBucketIndex
  keys : ∀ node, (right.buckets node).keyArr = (left.buckets node).keyArr

theorem set_bucket_apply (table : FixedTable V) (node other : Nat) (bucket : Bucket V) :
    (setBucket table node bucket).buckets other =
      if other = node then bucket else table.buckets other := by
  simp [setBucket, Function.update_apply]

@[simp] theorem set_bucket_same (table : FixedTable V) (node : Nat) (bucket : Bucket V) :
    (setBucket table node bucket).buckets node = bucket := by
  simp [setBucket]

theorem set_bucket_other (table : FixedTable V) (node other : Nat) (bucket : Bucket V)
    (different : other ≠ node) :
    (setBucket table node bucket).buckets other = table.buckets other := by
  simp [setBucket, different]

@[simp] theorem set_bucket_is_primary (table : FixedTable V) (node : Nat) (bucket : Bucket V) :
    (setBucket table node bucket).isPrimary = table.isPrimary := rfl

@[simp] theorem set_bucket_val_size (table : FixedTable V) (node : Nat) (bucket : Bucket V) :
    (setBucket table node bucket).valSize = table.valSize := rfl

@[simp] theorem set_bucket_num_buckets (table : FixedTable V) (node : Nat) (bucket : Bucket V) :
    (setBucket table node bucket).numBuckets = table.numBuckets := rfl

@[simp] theorem set_bucket_num_extra (table : FixedTable V) (node : Nat) (bucket : Bucket V) :
    (setBucket table node bucket).numExtraBuckets = table.numExtraBuckets := rfl

@[simp] theorem set_bucket_free_head (table : FixedTable V) (node : Nat) (bucket : Bucket V) :
    (setBucket table node bucket).freeListHead = table.freeListHead := rfl

theorem calc_bucket_index_lt (table : FixedTable V) (keyHash : UInt64)
    (positive : 0 < table.numBuckets) : calcBucketIndex table keyHash < table.numBuckets := by
  have bound : calcBucketIndex table keyHash ≤ table.numBuckets - 1 := Nat.and_le_right
  omega

theorem calc_bucket_index_congr (left right : FixedTable V)
    (same : right.numBuckets = left.numBuckets) (keyHash : UInt64) :
    calcBucketIndex right keyHash = calcBucketIndex left keyHash := by
  rw [calcBucketIndex, calcBucketIndex, same]

theorem next_node_congr (left right : FixedTable V) (node : Nat)
    (sizes : right.numBuckets = left.numBuckets)
    (links : (right.buckets node).nextExtraBucketIndex =
      (left.buckets node).nextExtraBucketIndex) :
    nextNode right node = nextNode left node := by
  rw [nextNode, nextNode, links, sizes]

theorem same_shape_keys (left right : FixedTable V) (same : SameShape left right)
    (node : Nat) (slot : Slot) : keyAt right node slot = keyAt left node slot := by
  rw [keyAt, keyAt, same.keys]

theorem shape_of_same (hash : UInt64 → UInt64) (left right : FixedTable V) (lists : Lists)
    (hole : Option (Nat × Slot)) (shape : Shape hash left lists hole)
    (same : SameShape left right) : Shape hash right lists hole := by
  have links : nextNode right = nextNode left := by
    funext node
    exact next_node_congr left right node same.numBuckets (same.links node)
  have head : freeHead right = freeHead left := by
    rw [freeHead, freeHead, same.freeListHead, same.numBuckets]
  have keys : keyAt right = keyAt left := by
    funext node slot
    exact same_shape_keys left right same node slot
  have index : calcBucketIndex right = calcBucketIndex left := by
    funext keyHash
    exact calc_bucket_index_congr left right same.numBuckets keyHash
  have owners : Owner right = Owner left := by
    funext owner
    simp only [Owner, same.numBuckets]
  constructor
  · rw [same.numBuckets]; exact shape.positive
  · rw [same.numBuckets, links]; exact shape.linkedChain
  · rw [links, head]; exact shape.linkedFree
  · rw [same.numBuckets, same.numExtraBuckets, owners]; exact shape.inRange
  · rw [same.numBuckets, same.numExtraBuckets, owners]; exact shape.covered
  · rw [owners]; exact shape.disjoint
  · rw [keys]; exact shape.freeEmpty
  · rw [same.numBuckets, keys, index]; exact shape.placed
  · rw [same.numBuckets, keys]; exact shape.unique
  · rw [same.numBuckets, keys]; exact shape.full

section Facts

variable {hash : UInt64 → UInt64} {table : FixedTable V} {lists : Lists}
  {hole : Option (Nat × Slot)}

theorem owner_none : Owner table none := by
  intro primary impossible
  cases impossible

theorem owner_some {primary : Nat} (bound : primary < table.numBuckets) :
    Owner table (some primary) := by
  intro other same
  cases same
  exact bound

/-- A node of one chain is on no other chain and not on the free list. -/
theorem Shape.chain_disjoint (shape : Shape hash table lists hole) {primary other node : Nat}
    (bound : primary < table.numBuckets) (otherBound : other < table.numBuckets)
    (member : node ∈ chainNodes lists primary) (otherMember : node ∈ chainNodes lists other) :
    primary = other := by
  rcases List.mem_cons.mp member with same | tail
  · rcases List.mem_cons.mp otherMember with otherSame | otherTail
    · rw [← same, ← otherSame]
    · have range := shape.inRange (some other) (owner_some otherBound) node otherTail
      omega
  · have range := shape.inRange (some primary) (owner_some bound) node tail
    rcases List.mem_cons.mp otherMember with otherSame | otherTail
    · omega
    · exact Option.some.inj (shape.disjoint (some primary) (some other)
        (owner_some bound) (owner_some otherBound) node tail otherTail)

theorem Shape.chain_not_free (shape : Shape hash table lists hole) {primary node : Nat}
    (bound : primary < table.numBuckets) (member : node ∈ chainNodes lists primary) :
    node ∉ lists none := by
  intro free
  rcases List.mem_cons.mp member with same | tail
  · have range := shape.inRange none owner_none node free
    omega
  · cases shape.disjoint (some primary) none (owner_some bound) owner_none node tail free

theorem Shape.list_nodup (shape : Shape hash table lists hole) {owner : Option Nat}
    (valid : Owner table owner) : (lists owner).Nodup := by
  cases owner with
  | none => exact linked_nodup _ _ _ shape.linkedFree
  | some primary =>
      have whole := linked_nodup _ _ _ (shape.linkedChain primary (valid primary rfl))
      exact (List.nodup_cons.mp whole).2

/-- A chain is never longer than the number of extra buckets: the fuel of the
walks suffices. -/
theorem Shape.list_length_le (shape : Shape hash table lists hole) {owner : Option Nat}
    (valid : Owner table owner) : (lists owner).length ≤ table.numExtraBuckets := by
  have inside : lists owner ⊆ List.range' table.numBuckets table.numExtraBuckets := by
    intro node member
    have range := shape.inRange owner valid node member
    exact List.mem_range'_1.mpr range
  have bounded := ((shape.list_nodup valid).subperm inside).length_le
  rwa [List.length_range'] at bounded

theorem Shape.get_extra_next (shape : Shape hash table lists hole) {owner : Option Nat}
    (valid : Owner table owner) {node following : Nat} (next : nextNode table node = some following)
    (member : following ∈ lists owner) :
    getExtraBucket table (table.buckets node).nextExtraBucketIndex = .ok following := by
  have range := shape.inRange owner valid following member
  have positive := shape.positive
  unfold nextNode at next
  split_ifs at next with null
  have position := Option.some.inj next
  rw [getExtraBucket]
  simp only [check]
  rw [if_pos null, if_pos (by omega), position]
  rfl

end Facts

theorem has_extra_iff (table : FixedTable V) (node : Nat) :
    hasExtraBucket (table.buckets node) ↔ nextNode table node ≠ none := by
  unfold hasExtraBucket nextNode
  split_ifs with null <;> simp [null]

end Fasst.FixedTableShape

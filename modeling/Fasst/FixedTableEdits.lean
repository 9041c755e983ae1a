import Fasst.FixedTableWalks

/-!
# Editing the slots and the links of a table

One lemma for each elementary edit says that the shape survives and what
becomes of the abstract contents: writing a slot, clearing a slot, taking an
extra bucket from the free list and giving one back. `contents` is the finite
map a table stands for; the reserved key is never bound in it.
-/

namespace Fasst.FixedTableEdits

open Fasst.FixedTableModel Fasst.LinkedChain Fasst.FixedTableShape Fasst.FixedTableWalks

set_option autoImplicit false

variable {V : Type}

def homeOf (hash : UInt64 → UInt64) (table : FixedTable V) (key : UInt64) : Nat :=
  calcBucketIndex table (hash key)

def contents (hash : UInt64 → UInt64) (table : FixedTable V) (key : UInt64) : Option V :=
  if key = kFtInvalidKey then none
  else match findItemIndex table (homeOf hash table key) key with
    | .ok (some (node, slot)) => some (valAt table node slot)
    | _ => none

variable {hash : UInt64 → UInt64} {table : FixedTable V} {lists : Lists}
  {hole : Option (Nat × Slot)}

theorem home_of_lt (shape : Shape hash table lists hole) (key : UInt64) :
    homeOf hash table key < table.numBuckets :=
  calc_bucket_index_lt table (hash key) shape.positive

theorem contents_invalid (hash : UInt64 → UInt64) (table : FixedTable V) :
    contents hash table kFtInvalidKey = none := by
  rw [contents, if_pos rfl]

theorem contents_some_iff (shape : Shape hash table lists hole) {key : UInt64}
    (valid : key ≠ kFtInvalidKey) (value : V) :
    contents hash table key = some value ↔
      ∃ node ∈ chainNodes lists (homeOf hash table key), ∃ slot,
        keyAt table node slot = key ∧ valAt table node slot = value := by
  have bound := home_of_lt shape key
  obtain ⟨outcome, run, meaning⟩ := find_item_index_spec shape bound key
  rw [contents, if_neg valid, run]
  constructor
  · intro found
    cases outcome with
    | none => cases found
    | some located => exact ⟨located.1, meaning.1, located.2, meaning.2, Option.some.inj found⟩
  · rintro ⟨node, member, slot, sameKey, sameValue⟩
    cases outcome with
    | none => exact absurd sameKey (meaning node member slot)
    | some located =>
        have occupied : keyAt table located.1 located.2 ≠ kFtInvalidKey := by
          rw [meaning.2]
          exact valid
        obtain ⟨sameNode, sameSlot⟩ := shape.unique _ bound located.1 meaning.1 node member
          located.2 slot (meaning.2.trans sameKey.symm) occupied
        simp only [sameNode, sameSlot, sameValue]

theorem contents_none_iff (shape : Shape hash table lists hole) {key : UInt64}
    (valid : key ≠ kFtInvalidKey) :
    contents hash table key = none ↔
      ∀ node ∈ chainNodes lists (homeOf hash table key), ∀ slot, keyAt table node slot ≠ key := by
  have some_iff := contents_some_iff shape valid
  constructor
  · intro missing node member slot same
    have found := (some_iff (valAt table node slot)).mpr ⟨node, member, slot, same, rfl⟩
    rw [missing] at found
    cases found
  · intro absent
    cases stored : contents hash table key with
    | none => rfl
    | some value =>
        obtain ⟨node, member, slot, same, _⟩ := (some_iff value).mp stored
        exact absurd same (absent node member slot)

/-- Two shaped tables with the same entries stand for the same map. -/
theorem contents_congr {other : FixedTable V} {otherLists : Lists}
    {otherHole : Option (Nat × Slot)} (shape : Shape hash table lists hole)
    (otherShape : Shape hash other otherLists otherHole) {key : UInt64}
    (valid : key ≠ kFtInvalidKey)
    (same : ∀ value,
      (∃ node ∈ chainNodes otherLists (homeOf hash other key), ∃ slot,
        keyAt other node slot = key ∧ valAt other node slot = value) ↔
      ∃ node ∈ chainNodes lists (homeOf hash table key), ∃ slot,
        keyAt table node slot = key ∧ valAt table node slot = value) :
    contents hash other key = contents hash table key := by
  apply Option.ext
  intro value
  rw [contents_some_iff otherShape valid, contents_some_iff shape valid]
  exact same value

structure SameItems (left right : FixedTable V) : Prop extends SameShape left right where
  values : ∀ node, (right.buckets node).valArr = (left.buckets node).valArr

theorem contents_same_items {other : FixedTable V} (shape : Shape hash table lists hole)
    (same : SameItems table other) : contents hash other = contents hash table := by
  funext key
  by_cases valid : key = kFtInvalidKey
  · rw [valid, contents_invalid, contents_invalid]
  · have home : homeOf hash other key = homeOf hash table key :=
      calc_bucket_index_congr table other same.numBuckets (hash key)
    apply contents_congr shape (shape_of_same hash table other lists hole shape same.toSameShape) valid
    intro value
    simp only [home, same_shape_keys table other same.toSameShape, valAt, same.values]

theorem set_item_key (table : FixedTable V) (node other : Nat) (slot otherSlot : Slot)
    (key : UInt64) (value : V) :
    keyAt (setItem table node slot key value) other otherSlot =
      if other = node ∧ otherSlot = slot then key else keyAt table other otherSlot := by
  unfold keyAt setItem
  rw [set_bucket_apply]
  by_cases sameNode : other = node
  · subst other
    by_cases sameSlot : otherSlot = slot <;> simp [sameSlot]
  · simp [sameNode]

theorem set_item_val (table : FixedTable V) (node other : Nat) (slot otherSlot : Slot)
    (key : UInt64) (value : V) :
    valAt (setItem table node slot key value) other otherSlot =
      if other = node ∧ otherSlot = slot then value else valAt table other otherSlot := by
  unfold valAt setItem
  rw [set_bucket_apply]
  by_cases sameNode : other = node
  · subst other
    by_cases sameSlot : otherSlot = slot <;> simp [sameSlot]
  · simp [sameNode]

theorem set_item_next (table : FixedTable V) (node other : Nat) (slot : Slot)
    (key : UInt64) (value : V) :
    nextNode (setItem table node slot key value) other = nextNode table other := by
  apply next_node_congr
  · rfl
  · unfold setItem
    rw [set_bucket_apply]
    split_ifs with same
    · rw [same]
    · rfl

/-- The lock fields of a bucket: all of it that the edits here leave alone. -/
def SameLocks (left right : Bucket V) : Prop :=
  right.lockerId = left.lockerId ∧ right.numLocks = left.numLocks ∧
    right.timestamp = left.timestamp ∧ right.finalUnlocks = left.finalUnlocks

theorem same_locks_refl (bucket : Bucket V) : SameLocks bucket bucket := ⟨rfl, rfl, rfl, rfl⟩

theorem same_locks_trans {first second third : Bucket V} (left : SameLocks first second)
    (right : SameLocks second third) : SameLocks first third :=
  ⟨right.1.trans left.1, right.2.1.trans left.2.1, right.2.2.1.trans left.2.2.1,
    right.2.2.2.trans left.2.2.2⟩

/-- Everything about a table that only the lock functions and the constructor
change. -/
structure SameFrame (left right : FixedTable V) : Prop where
  isPrimary : right.isPrimary = left.isPrimary
  valSize : right.valSize = left.valSize
  numBuckets : right.numBuckets = left.numBuckets
  numExtraBuckets : right.numExtraBuckets = left.numExtraBuckets
  locks : ∀ node, SameLocks (left.buckets node) (right.buckets node)

theorem same_frame_refl (table : FixedTable V) : SameFrame table table :=
  ⟨rfl, rfl, rfl, rfl, fun _ => same_locks_refl _⟩

theorem same_frame_trans {first second third : FixedTable V} (left : SameFrame first second)
    (right : SameFrame second third) : SameFrame first third :=
  ⟨right.isPrimary.trans left.isPrimary, right.valSize.trans left.valSize,
    right.numBuckets.trans left.numBuckets, right.numExtraBuckets.trans left.numExtraBuckets,
    fun node => same_locks_trans (left.locks node) (right.locks node)⟩

theorem same_frame_set_bucket (table : FixedTable V) (node : Nat) (bucket : Bucket V)
    (locks : SameLocks (table.buckets node) bucket) :
    SameFrame table (setBucket table node bucket) := by
  refine ⟨rfl, rfl, rfl, rfl, ?_⟩
  intro other
  rw [set_bucket_apply]
  split_ifs with same
  · rw [same]
    exact locks
  · exact same_locks_refl _

theorem same_frame_set_item (table : FixedTable V) (node : Nat) (slot : Slot) (key : UInt64)
    (value : V) : SameFrame table (setItem table node slot key value) :=
  same_frame_set_bucket table node _ ⟨rfl, rfl, rfl, rfl⟩

/-- Writing one slot of a chain. The new key belongs to this chain and is not
elsewhere on it; if the slot becomes empty it is the hole or lies in the tail. -/
theorem shape_set_item (shape : Shape hash table lists hole) {primary node : Nat}
    (bound : primary < table.numBuckets) (member : node ∈ chainNodes lists primary)
    (slot : Slot) (key : UInt64) (value : V) (newHole : Option (Nat × Slot))
    (home : key ≠ kFtInvalidKey → homeOf hash table key = primary)
    (fresh : key ≠ kFtInvalidKey → ∀ other ∈ chainNodes lists primary, ∀ otherSlot,
      keyAt table other otherSlot = key → other = node ∧ otherSlot = slot)
    (holes : ∀ other otherSlot, newHole ≠ some (other, otherSlot) →
      ¬ (other = node ∧ otherSlot = slot) → hole ≠ some (other, otherSlot))
    (filled : key ≠ kFtInvalidKey ∨ newHole = some (node, slot) ∨
      ∃ before, chainNodes lists primary = before ++ [node]) :
    Shape hash (setItem table node slot key value) lists newHole := by
  have links : nextNode (setItem table node slot key value) = nextNode table := by
    funext other
    exact set_item_next table node other slot key value
  constructor
  · exact shape.positive
  · rw [links]; exact shape.linkedChain
  · rw [links]; exact shape.linkedFree
  · exact shape.inRange
  · exact shape.covered
  · exact shape.disjoint
  · intro other free otherSlot
    have apart : ¬ (other = node ∧ otherSlot = slot) := by
      rintro ⟨same, _⟩
      rw [same] at free
      exact shape.chain_not_free bound member free
    rw [set_item_key, if_neg apart]
    exact shape.freeEmpty other free otherSlot
  · intro chain chainBound other otherMember otherSlot
    rw [set_item_key]
    split_ifs with here
    · intro occupied
      rw [here.1] at otherMember
      have same := shape.chain_disjoint bound chainBound member otherMember
      rw [← same]
      exact home occupied
    · exact shape.placed chain chainBound other otherMember otherSlot
  · intro chain chainBound left leftMember right rightMember leftSlot rightSlot
    rw [set_item_key, set_item_key]
    split_ifs with leftHere rightHere rightHere
    · intro _ _
      exact ⟨leftHere.1.trans rightHere.1.symm, leftHere.2.trans rightHere.2.symm⟩
    · intro sameKey occupied
      rw [leftHere.1] at leftMember
      have same := shape.chain_disjoint bound chainBound member leftMember
      rw [← same] at rightMember
      have located := fresh occupied right rightMember rightSlot sameKey.symm
      exact absurd located rightHere
    · intro sameKey occupied
      rw [rightHere.1] at rightMember
      have same := shape.chain_disjoint bound chainBound member rightMember
      rw [← same] at leftMember
      rw [sameKey] at occupied
      exact absurd (fresh occupied left leftMember leftSlot sameKey) leftHere
    · exact shape.unique chain chainBound left leftMember right rightMember leftSlot rightSlot
  · intro chain chainBound before last split other otherMember otherSlot notHole
    rw [set_item_key]
    split_ifs with here
    · rcases filled with occupied | isHole | ⟨front, tailSplit⟩
      · exact occupied
      · rw [here.1, here.2] at notHole
        exact absurd isHole notHole
      · have onChain : node ∈ chainNodes lists chain := by
          rw [split, ← here.1]
          simp [otherMember]
        have same := shape.chain_disjoint bound chainBound member onChain
        rw [← same, tailSplit] at split
        have nodup := linked_nodup _ _ _ (shape.linkedChain primary bound)
        rw [tailSplit] at nodup
        obtain ⟨sameFront, _⟩ := List.append_inj' split rfl
        rw [← sameFront, here.1] at otherMember
        have apart := (List.nodup_append.mp nodup).2.2 node otherMember node (by simp)
        exact absurd rfl apart
    · exact shape.full chain chainBound before last split other otherMember otherSlot
        (holes other otherSlot notHole here)

/-- A query for neither the old nor the new key of the written slot. -/
theorem contents_set_item_other (shape : Shape hash table lists hole)
    {newHole : Option (Nat × Slot)} (node : Nat) (slot : Slot) (key : UInt64) (value : V)
    (after : Shape hash (setItem table node slot key value) lists newHole) {query : UInt64}
    (valid : query ≠ kFtInvalidKey) (new : query ≠ key) (old : query ≠ keyAt table node slot) :
    contents hash (setItem table node slot key value) query = contents hash table query := by
  apply contents_congr shape after valid
  intro stored
  change (∃ other ∈ chainNodes lists (homeOf hash table query), _) ↔ _
  simp only [set_item_key, set_item_val]
  constructor
  · rintro ⟨other, otherMember, otherSlot, sameKey, sameVal⟩
    split_ifs at sameKey sameVal with here
    · exact absurd sameKey.symm new
    · exact ⟨other, otherMember, otherSlot, sameKey, sameVal⟩
  · rintro ⟨other, otherMember, otherSlot, sameKey, sameVal⟩
    have apart : ¬ (other = node ∧ otherSlot = slot) := by
      rintro ⟨sameNode, sameSlot⟩
      rw [sameNode, sameSlot] at sameKey
      exact old sameKey.symm
    exact ⟨other, otherMember, otherSlot, by rw [if_neg apart]; exact sameKey,
      by rw [if_neg apart]; exact sameVal⟩

theorem contents_set_item (shape : Shape hash table lists hole)
    {newHole : Option (Nat × Slot)} {primary node : Nat}
    (member : node ∈ chainNodes lists primary) (slot : Slot) {key : UInt64} (value : V)
    (valid : key ≠ kFtInvalidKey) (home : homeOf hash table key = primary)
    (old : keyAt table node slot = kFtInvalidKey ∨ keyAt table node slot = key)
    (after : Shape hash (setItem table node slot key value) lists newHole) :
    contents hash (setItem table node slot key value) =
      Function.update (contents hash table) key (some value) := by
  funext query
  by_cases same : query = key
  · subst query
    rw [Function.update_self, contents_some_iff after valid]
    refine ⟨node, ?_, slot, ?_, ?_⟩
    · change node ∈ chainNodes lists (homeOf hash table key)
      rw [home]
      exact member
    · rw [set_item_key, if_pos ⟨rfl, rfl⟩]
    · rw [set_item_val, if_pos ⟨rfl, rfl⟩]
  · rw [Function.update_of_ne same]
    by_cases queryValid : query = kFtInvalidKey
    · rw [queryValid, contents_invalid, contents_invalid]
    · apply contents_set_item_other shape node slot key value after queryValid same
      rcases old with empty | present
      · rw [empty]
        exact queryValid
      · rw [present]
        exact same

theorem clear_slot_eq_set_item (table : FixedTable V) (node : Nat) (slot : Slot) :
    clearSlot table node slot =
      setItem table node slot kFtInvalidKey (valAt table node slot) := by
  unfold clearSlot setItem valAt
  rw [Function.update_eq_self]

theorem contents_clear_slot (shape : Shape hash table lists hole)
    {newHole : Option (Nat × Slot)} {primary node : Nat} (bound : primary < table.numBuckets)
    (member : node ∈ chainNodes lists primary) (slot : Slot)
    (valid : keyAt table node slot ≠ kFtInvalidKey)
    (after : Shape hash (clearSlot table node slot) lists newHole) :
    contents hash (clearSlot table node slot) =
      Function.update (contents hash table) (keyAt table node slot) none := by
  have home := shape.placed primary bound node member slot valid
  funext query
  rw [clear_slot_eq_set_item] at after ⊢
  by_cases same : query = keyAt table node slot
  · subst query
    rw [Function.update_self, contents_none_iff after valid]
    intro other otherMember otherSlot
    change other ∈ chainNodes lists (homeOf hash table (keyAt table node slot)) at otherMember
    rw [set_item_key]
    split_ifs with here
    · exact valid.symm
    · intro sameKey
      rw [homeOf, home] at otherMember
      have located := shape.unique primary bound other otherMember node member otherSlot slot
        sameKey (by rw [sameKey]; exact valid)
      exact here located
  · rw [Function.update_of_ne same]
    by_cases queryValid : query = kFtInvalidKey
    · rw [queryValid, contents_invalid, contents_invalid]
    · exact contents_set_item_other shape node slot kFtInvalidKey _ after queryValid queryValid same

end Fasst.FixedTableEdits

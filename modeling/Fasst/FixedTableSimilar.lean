import Fasst.Agreement
import Fasst.FixedTableOps

/-!
# Tables that differ in stale values

The values in the slots that hold no key are never read. Two tables that differ
only there answer every operation in the same way and go on to differ only there.
-/

namespace Fasst.FixedTableSimilar

open Fasst.FixedTableModel Fasst.FixedTableShape Fasst.FixedTableOps Fasst.Agreement

set_option autoImplicit false

variable {V : Type} {left right : FixedTable V}

structure SimilarBucket (left right : Bucket V) : Prop where
  fields : right = { left with valArr := right.valArr }
  values : ∀ slot, left.keyArr slot ≠ kFtInvalidKey → left.valArr slot = right.valArr slot

structure Similar (left right : FixedTable V) : Prop where
  fields : right = { left with buckets := right.buckets }
  buckets : ∀ node, SimilarBucket (left.buckets node) (right.buckets node)

def SimilarWith {Answer : Type} (first second : Answer × FixedTable V) : Prop :=
  first.1 = second.1 ∧ Similar first.2 second.2

section Edits

theorem similar_set_bucket (similar : Similar left right) (node : Nat) {bucket other : Bucket V}
    (close : SimilarBucket bucket other) :
    Similar (setBucket left node bucket) (setBucket right node other) := by
  constructor
  · rw [setBucket, similar.fields]
    rfl
  · intro place
    rw [set_bucket_apply, set_bucket_apply]
    split_ifs
    · exact close
    · exact similar.buckets place

variable (similar : Similar left right)

include similar

theorem similar_free_head (head : Nat) :
    Similar { left with freeListHead := head } { right with freeListHead := head } := by
  constructor
  · rw [similar.fields]
  · exact similar.buckets

theorem similar_set_next (node index : Nat) :
    Similar (setBucket left node { left.buckets node with nextExtraBucketIndex := index })
      (setBucket right node { right.buckets node with nextExtraBucketIndex := index }) := by
  have close := similar.buckets node
  apply similar_set_bucket similar node
  rw [close.fields]
  exact ⟨rfl, close.values⟩

theorem similar_set_item (node : Nat) (slot : Slot) (key : UInt64) (value : V) :
    Similar (setItem left node slot key value) (setItem right node slot key value) := by
  have close := similar.buckets node
  apply similar_set_bucket similar node
  rw [close.fields]
  constructor
  · rfl
  · intro other occupied
    by_cases here : other = slot
    · rw [here]
      simp only [Function.update_self]
    · simp only [Function.update_of_ne here] at occupied ⊢
      exact close.values other occupied

theorem similar_clear_slot (node : Nat) (slot : Slot) :
    Similar (clearSlot left node slot) (clearSlot right node slot) := by
  have close := similar.buckets node
  apply similar_set_bucket similar node
  rw [close.fields]
  constructor
  · rfl
  · intro other occupied
    by_cases here : other = slot
    · rw [here] at occupied
      simp only [Function.update_self, ne_eq, not_true_eq_false] at occupied
    · simp only [Function.update_of_ne here] at occupied
      exact close.values other occupied

theorem similar_move_item (source target : Nat) (sourceSlot targetSlot : Slot)
    (occupied : (left.buckets source).keyArr sourceSlot ≠ kFtInvalidKey) :
    Similar (moveItem left source sourceSlot target targetSlot)
      (moveItem right source sourceSlot target targetSlot) := by
  have close := similar.buckets source
  have key : (right.buckets source).keyArr = (left.buckets source).keyArr := by
    rw [close.fields]
  have moved : moveItem right source sourceSlot target targetSlot =
      clearSlot (setItem right target targetSlot ((left.buckets source).keyArr sourceSlot)
        ((left.buckets source).valArr sourceSlot)) source sourceSlot := by
    rw [close.values sourceSlot occupied, ← key]
    rfl
  rw [moved]
  exact similar_clear_slot (similar_set_item similar target targetSlot _ _) source sourceSlot

end Edits

section Reads

variable (similar : Similar left right)

include similar

theorem similar_sizes : right.numBuckets = left.numBuckets ∧
    right.numExtraBuckets = left.numExtraBuckets ∧ right.isPrimary = left.isPrimary ∧
    right.freeListHead = left.freeListHead := by
  rw [similar.fields]
  exact ⟨rfl, rfl, rfl, rfl⟩

theorem similar_keys (node : Nat) : (right.buckets node).keyArr = (left.buckets node).keyArr := by
  rw [(similar.buckets node).fields]

theorem similar_next (node : Nat) : (right.buckets node).nextExtraBucketIndex =
    (left.buckets node).nextExtraBucketIndex := by
  rw [(similar.buckets node).fields]

theorem similar_lock (node : Nat) : (right.buckets node).lockerId = (left.buckets node).lockerId ∧
    (right.buckets node).timestamp = (left.buckets node).timestamp := by
  rw [(similar.buckets node).fields]
  exact ⟨rfl, rfl⟩

theorem similar_has_extra (node : Nat) :
    hasExtraBucket (right.buckets node) ↔ hasExtraBucket (left.buckets node) := by
  rw [hasExtraBucket, similar_next similar, hasExtraBucket]

theorem similar_get_bucket (keyHash : UInt64) :
    getBucket right (calcBucketIndex right keyHash) =
      getBucket left (calcBucketIndex left keyHash) := by
  obtain ⟨buckets, extras, -⟩ := similar_sizes similar
  rw [getBucket, getBucket, calcBucketIndex, calcBucketIndex, buckets, extras]

theorem similar_get_extra (index : Nat) : getExtraBucket right index = getExtraBucket left index := by
  obtain ⟨buckets, extras, -⟩ := similar_sizes similar
  rw [getExtraBucket, getExtraBucket, buckets, extras]

theorem similar_scan (wanted : UInt64) (fuel node : Nat) :
    scanChain right wanted fuel node = scanChain left wanted fuel node := by
  induction fuel generalizing node with
  | zero => rfl
  | succ fuel ih =>
      have slot : firstSlot (right.buckets node) wanted = firstSlot (left.buckets node) wanted := by
        rw [firstSlot, firstSlot, similar_keys similar]
      simp only [scanChain, slot, similar_has_extra similar, similar_next similar,
        similar_get_extra similar, ih]

theorem similar_find (node : Nat) (key : UInt64) :
    findItemIndex right node key = findItemIndex left node key := by
  rw [findItemIndex, findItemIndex, similar_scan similar, (similar_sizes similar).2.1]

theorem similar_walk (fuel node : Nat) : walkToTail right fuel node = walkToTail left fuel node := by
  induction fuel generalizing node with
  | zero => rfl
  | succ fuel ih =>
      simp only [walkToTail, similar_has_extra similar, similar_next similar,
        similar_get_extra similar, ih]

end Reads

/-- A search returns a slot that holds the key. -/
theorem scan_found {table : FixedTable V} {wanted : UInt64} {fuel node located : Nat} {slot : Slot}
    (found : scanChain table wanted fuel node = .ok (.inl (located, slot))) :
    (table.buckets located).keyArr slot = wanted := by
  induction fuel generalizing node with
  | zero => cases found
  | succ fuel ih =>
      rw [scanChain] at found
      cases first : firstSlot (table.buckets node) wanted with
      | some place =>
          rw [first] at found
          cases found
          have test := List.find?_some first
          exact of_decide_eq_true test
      | none =>
          rw [first] at found
          dsimp only at found
          split_ifs at found with more
          · cases extra : getExtraBucket table (table.buckets node).nextExtraBucketIndex with
            | error fault =>
                rw [extra] at found
                cases found
            | ok following =>
                rw [extra] at found
                exact ih found
          · cases found

theorem find_found {table : FixedTable V} {key : UInt64} {node located : Nat} {slot : Slot}
    (found : findItemIndex table node key = .ok (some (located, slot))) :
    (table.buckets located).keyArr slot = key := by
  rw [findItemIndex] at found
  cases scan : scanChain table key (table.numExtraBuckets + 1) node with
  | error fault =>
      rw [scan] at found
      cases found
  | ok outcome =>
      rw [scan] at found
      cases outcome with
      | inl place =>
          cases found
          exact scan_found scan
      | inr last => cases found

theorem check_agree {condition other : Prop} [Decidable condition] [Decidable other]
    (same : other ↔ condition) (fault : Fault) :
    Agree (fun _ _ => True) (check condition fault) (check other fault) := by
  simp only [check, same]
  split_ifs
  · exact trivial
  · rfl

section Calls

variable (similar : Similar left right)

include similar

theorem similar_lock_bucket (caller node : Nat) :
    Agree SimilarWith (lockBucketPtr left caller node) (lockBucketPtr right caller node) := by
  have close := similar.buckets node
  unfold lockBucketPtr
  rw [close.fields]
  apply agree_begin
  intro _ _
  apply agree_ite
  · intro _
    apply agree_begin
    intro _ _
    apply agree_begin
    intro _ _
    exact ⟨rfl, similar_set_bucket similar node ⟨rfl, close.values⟩⟩
  · intro _
    apply agree_ite
    · intro _
      apply agree_begin
      intro _ _
      apply agree_begin
      intro _ _
      apply agree_begin
      intro _ _
      exact ⟨rfl, similar_set_bucket similar node ⟨rfl, close.values⟩⟩
    · intro _
      exact ⟨rfl, similar⟩

theorem similar_unlock_bucket (caller node : Nat) :
    Agree Similar (unlockBucketPtr left caller node) (unlockBucketPtr right caller node) := by
  have close := similar.buckets node
  unfold unlockBucketPtr
  rw [close.fields]
  apply agree_begin
  intro _ _
  apply agree_begin
  intro _ _
  apply agree_begin
  intro _ _
  apply agree_begin
  intro _ _
  apply agree_ite
  · intro _
    exact similar_set_bucket similar node ⟨rfl, close.values⟩
  · intro _
    exact similar_set_bucket similar node ⟨rfl, close.values⟩

theorem similar_alloc (node : Nat) :
    Agree SimilarWith (allocExtraBucket left node) (allocExtraBucket right node) := by
  unfold allocExtraBucket
  simp only [similar_has_extra similar, (similar_sizes similar).2.2.2, similar_get_extra similar]
  apply agree_begin
  intro _ _
  apply agree_ite
  · intro _
    exact ⟨rfl, similar⟩
  · intro _
    apply agree_begin
    intro extra _
    rw [similar_next similar]
    exact ⟨rfl, similar_set_next (similar_set_next (similar_free_head similar _) extra 0) node _⟩

theorem similar_free (node : Nat) :
    Agree Similar (freeExtraBucket left node) (freeExtraBucket right node) := by
  have next := similar_next similar node
  have keys := similar_keys similar
  unfold freeExtraBucket
  apply agree_bind (check_agree (similar_has_extra similar node) _)
  intro _ _ _
  dsimp only
  rw [next, similar_get_extra similar]
  apply agree_begin
  intro extra _
  apply agree_bind (check_agree (by rw [similar_next similar]) _)
  intro _ _ _
  apply agree_bind (check_agree (by rw [keys]) _)
  intro _ _ _
  have detached := similar_set_next similar node 0
  have pushed := similar_set_next detached extra left.freeListHead
  have head := (similar_sizes similar).2.2.2
  simp only [set_bucket_free_head, head]
  exact similar_free_head pushed _

theorem similar_fill_hole (fuel node : Nat) (slot : Slot) :
    Agree Similar (fillHole fuel left node slot) (fillHole fuel right node slot) := by
  induction fuel generalizing left right with
  | zero => rfl
  | succ fuel ih =>
      unfold fillHole
      simp only [similar_has_extra similar, (similar_sizes similar).2.1, similar_walk similar]
      apply agree_ite
      · intro _
        apply agree_begin
        rintro ⟨previous, current⟩ _
        have slots : occupiedSlots (right.buckets current) = occupiedSlots (left.buckets current) := by
          rw [occupiedSlots, occupiedSlots, similar_keys similar]
        dsimp only
        rw [slots]
        cases occupied : occupiedSlots (left.buckets current) with
        | nil =>
            apply agree_bind (similar_free similar previous)
            intro freed other close
            exact ih close
        | cons moved others =>
            have holds : (left.buckets current).keyArr moved ≠ kFtInvalidKey := by
              have member : moved ∈ occupiedSlots (left.buckets current) := by
                rw [occupied]
                exact List.mem_cons_self
              exact of_decide_eq_true (List.mem_filter.mp member).2
            have close := similar_move_item similar current node moved slot holds
            apply agree_ite
            · intro _
              exact similar_free close previous
            · intro _
              exact close
      · intro _
        exact similar

theorem similar_get_empty (node : Nat) :
    Agree SimilarWith (getEmpty left node) (getEmpty right node) := by
  unfold getEmpty
  rw [similar_scan similar, (similar_sizes similar).2.1]
  apply agree_begin
  intro scanned _
  cases scanned with
  | inl located => exact ⟨rfl, similar⟩
  | inr last =>
      apply agree_bind (similar_alloc similar last)
      rintro ⟨allocated, grown⟩ ⟨other, otherGrown⟩ ⟨same, close⟩
      cases same
      apply agree_ite
      · intro _
        rw [similar_next close, similar_get_extra close]
        apply agree_begin
        intro extra _
        exact ⟨rfl, close⟩
      · intro _
        exact ⟨rfl, close⟩

theorem similar_place_item (node : Nat) (key : UInt64) :
    Agree SimilarWith (placeItem left node key) (placeItem right node key) := by
  unfold placeItem
  rw [similar_find similar]
  apply agree_begin
  intro found _
  cases found with
  | some located => exact ⟨rfl, similar⟩
  | none => exact similar_get_empty similar node

theorem similar_assert_holder (caller node : Nat) :
    assertHolder right caller node = assertHolder left caller node := by
  obtain ⟨owner, stamp⟩ := similar_lock similar node
  rw [assertHolder, assertHolder, (similar_sizes similar).2.2.1, owner, stamp]

theorem similar_unlock_if_primary (caller node : Nat) :
    Agree Similar (unlockIfPrimary left caller node) (unlockIfPrimary right caller node) := by
  unfold unlockIfPrimary
  rw [(similar_sizes similar).2.2.1]
  apply agree_ite
  · intro _
    exact similar_unlock_bucket similar caller node
  · intro _
    exact similar

theorem similar_set (caller : Nat) (keyHash key : UInt64) (value : V) :
    Agree SimilarWith (FixedTableModel.set left caller keyHash key value)
      (FixedTableModel.set right caller keyHash key value) := by
  unfold FixedTableModel.set
  rw [similar_get_bucket similar]
  apply agree_begin
  intro node _
  rw [similar_assert_holder similar]
  apply agree_begin
  intro _ _
  apply agree_bind (similar_place_item similar node key)
  rintro ⟨place, placed⟩ ⟨other, otherPlaced⟩ ⟨same, close⟩
  cases same
  cases place with
  | none =>
      apply agree_bind (similar_unlock_bucket close caller node)
      intro unlocked other released
      exact ⟨rfl, released⟩
  | some located =>
      apply agree_bind (similar_unlock_if_primary
        (similar_set_item close located.1 located.2 key value) caller node)
      intro unlocked other released
      exact ⟨rfl, released⟩

theorem similar_set_spinlock (caller : Nat) (keyHash key : UInt64) (value : V) :
    Agree SimilarWith (setSpinlock left caller keyHash key value)
      (setSpinlock right caller keyHash key value) := by
  unfold setSpinlock
  rw [similar_get_bucket similar]
  apply agree_begin
  intro node _
  apply agree_bind (similar_lock_bucket similar caller node)
  rintro ⟨success, locked⟩ ⟨other, otherLocked⟩ ⟨same, close⟩
  cases same
  apply agree_ite
  · intro _
    apply agree_bind (similar_place_item close node key)
    rintro ⟨place, placed⟩ ⟨other, otherPlaced⟩ ⟨same, near⟩
    cases same
    cases place with
    | none =>
        apply agree_bind (similar_unlock_bucket near caller node)
        intro unlocked other released
        exact ⟨rfl, released⟩
    | some located =>
        apply agree_bind (similar_unlock_bucket
          (similar_set_item near located.1 located.2 key value) caller node)
        intro unlocked other released
        exact ⟨rfl, released⟩
  · intro _
    rfl

theorem similar_del (caller : Nat) (keyHash key : UInt64) :
    Agree SimilarWith (del left caller keyHash key) (del right caller keyHash key) := by
  unfold del
  rw [similar_get_bucket similar]
  apply agree_begin
  intro node _
  rw [similar_assert_holder similar]
  apply agree_begin
  intro _ _
  rw [similar_find similar]
  apply agree_begin
  intro found _
  cases found with
  | none => rfl
  | some place =>
      rw [(similar_sizes similar).2.1]
      apply agree_bind (similar_fill_hole (similar_clear_slot similar place.1 place.2) _ _ _)
      intro filled other close
      apply agree_bind (similar_unlock_if_primary close caller node)
      intro unlocked other released
      exact ⟨rfl, released⟩

theorem similar_value {node located : Nat} {slot : Slot} {key : UInt64}
    (valid : key ≠ kFtInvalidKey)
    (found : findItemIndex left node key = .ok (some (located, slot))) :
    (right.buckets located).valArr slot = (left.buckets located).valArr slot := by
  apply ((similar.buckets located).values slot _).symm
  rw [find_found found]
  exact valid

theorem similar_timestamp (node : Nat) : readTimestamp right node = readTimestamp left node :=
  (similar_lock similar node).2

theorem similar_get (caller : Nat) (keyHash key : UInt64) (valid : key ≠ kFtInvalidKey) :
    Agree Eq (FixedTableModel.get left caller keyHash key)
      (FixedTableModel.get right caller keyHash key) := by
  unfold FixedTableModel.get
  rw [similar_get_bucket similar, (similar_sizes similar).2.2.1]
  apply agree_begin
  intro _ _
  apply agree_begin
  intro node _
  dsimp only
  rw [similar_timestamp similar, similar_find similar, (similar_lock similar node).1]
  apply agree_ite
  · intro _
    apply agree_begin
    intro found search
    cases found with
    | none =>
        apply agree_ite
        · exact fun _ => rfl
        · exact fun _ => rfl
    | some place =>
        dsimp only
        rw [similar_value similar valid search]
        apply agree_ite
        · exact fun _ => rfl
        · exact fun _ => rfl
  · intro _
    apply agree_ite
    · intro _
      apply agree_begin
      intro found search
      apply agree_begin
      intro _ _
      cases found with
      | none => rfl
      | some place =>
          dsimp only
          rw [similar_value similar valid search]
          exact rfl
    · exact fun _ => rfl

theorem similar_lock_bkt_if (present : Bool) (missed : Result) (caller : Nat)
    (keyHash key : UInt64) (valid : key ≠ kFtInvalidKey) :
    Agree SimilarWith (lockBktIf present missed left caller keyHash key)
      (lockBktIf present missed right caller keyHash key) := by
  unfold lockBktIf
  rw [similar_get_bucket similar, (similar_sizes similar).2.2.1]
  apply agree_begin
  intro _ _
  apply agree_begin
  intro node _
  apply agree_bind (similar_lock_bucket similar caller node)
  rintro ⟨success, locked⟩ ⟨other, otherLocked⟩ ⟨same, close⟩
  cases same
  apply agree_ite
  · intro _
    rw [similar_find close]
    apply agree_begin
    intro found search
    apply agree_ite
    · intro _
      have values : found.map (fun place => (otherLocked.buckets place.1).valArr place.2) =
          found.map fun place => (locked.buckets place.1).valArr place.2 := by
        cases found with
        | none => rfl
        | some place => exact congrArg some (similar_value close valid search)
      rw [values, (similar_lock close node).2]
      exact ⟨rfl, close⟩
    · intro _
      apply agree_bind (similar_unlock_bucket close caller node)
      intro unlocked other released
      exact ⟨rfl, released⟩
  · intro _
    exact ⟨rfl, close⟩

theorem similar_lock_bucket_hash (caller : Nat) (keyHash : UInt64) :
    Agree SimilarWith (lockBucketHash left caller keyHash) (lockBucketHash right caller keyHash) := by
  unfold lockBucketHash
  rw [similar_get_bucket similar, (similar_sizes similar).2.2.1]
  apply agree_begin
  intro _ _
  apply agree_begin
  intro node _
  apply agree_bind (similar_lock_bucket similar caller node)
  rintro ⟨success, locked⟩ ⟨other, otherLocked⟩ ⟨same, close⟩
  cases same
  exact ⟨rfl, close⟩

theorem similar_unlock_bucket_hash (caller : Nat) (keyHash : UInt64) :
    Agree SimilarWith (unlockBucketHash left caller keyHash)
      (unlockBucketHash right caller keyHash) := by
  unfold unlockBucketHash
  rw [similar_get_bucket similar, (similar_sizes similar).2.2.1]
  apply agree_begin
  intro _ _
  apply agree_begin
  intro node _
  apply agree_bind (similar_unlock_bucket similar caller node)
  intro unlocked other released
  exact ⟨rfl, released⟩

theorem similar_run_op (hash : UInt64 → UInt64) (op : Op V) (valid : op.KeyValid) :
    Agree SimilarWith (runOp hash left op) (runOp hash right op) := by
  have plain : ∀ first second : Result × FixedTable V, SimilarWith first second →
      SimilarWith (plainReply first) (plainReply second) := by
    intro first second ⟨same, close⟩
    refine ⟨?_, close⟩
    rw [plainReply, plainReply, same]
  cases op with
  | get caller key =>
      have keyValid : key ≠ kFtInvalidKey := fun same => valid (congrArg some same)
      apply agree_bind (similar_get similar caller (hash key) key keyValid)
      intro reply other same
      exact ⟨same, similar⟩
  | lockBktAndGet caller key | lockBktForIns caller key =>
      have keyValid : key ≠ kFtInvalidKey := fun same => valid (congrArg some same)
      exact similar_lock_bkt_if similar _ _ caller (hash key) key keyValid
  | lockBucketHash caller keyHash =>
      exact agree_map (similar_lock_bucket_hash similar caller keyHash) plain
  | unlockBucketHash caller keyHash =>
      exact agree_map (similar_unlock_bucket_hash similar caller keyHash) plain
  | set caller key value => exact agree_map (similar_set similar caller (hash key) key value) plain
  | setSpinlock caller key value =>
      exact agree_map (similar_set_spinlock similar caller (hash key) key value) plain
  | del caller key => exact agree_map (similar_del similar caller (hash key) key) plain

end Calls

/-- What a caller sees of a run: the answers, and the fault at which it stops. -/
def answers (hash : UInt64 → UInt64) : FixedTable V → List (Op V) → List (Except Fault (ReadOut V))
  | _, [] => []
  | table, op :: rest =>
      match runOp hash table op with
      | .error fault => [.error fault]
      | .ok (reply, after) => .ok reply :: answers hash after rest

theorem similar_answers (hash : UInt64 → UInt64) (ops : List (Op V))
    (valid : ∀ op ∈ ops, op.KeyValid) (similar : Similar left right) :
    answers hash left ops = answers hash right ops := by
  induction ops generalizing left right with
  | nil => rfl
  | cons op rest ih =>
      have agree := similar_run_op similar hash op (valid op List.mem_cons_self)
      rw [answers, answers]
      cases first : runOp hash left op with
      | error fault =>
          cases second : runOp hash right op with
          | error other =>
              rw [first, second] at agree
              rw [show fault = other from agree]
          | ok outcome =>
              rw [first, second] at agree
              exact absurd agree id
      | ok outcome =>
          cases second : runOp hash right op with
          | error other =>
              rw [first, second] at agree
              exact absurd agree id
          | ok other =>
              rw [first, second] at agree
              obtain ⟨same, close⟩ := agree
              dsimp only
              rw [same, ih (fun op member => valid op (List.mem_cons_of_mem _ member)) close]

end Fasst.FixedTableSimilar

import Fasst.FixedTableEdits
import Fasst.FixedTableLocks

/-!
# Extra buckets between the chains and the free list

`alloc_extra_bucket` moves the head of the free list behind the last node of a
full chain, `free_extra_bucket` moves an empty last node back. In both, one
node changes its list and every other node stays, which `Moved` states once;
the partition of the extra buckets follows from it alone.
-/

namespace Fasst.FixedTableExtra

open Fasst.FixedTableModel Fasst.LinkedChain Fasst.FixedTableShape Fasst.FixedTableWalks
open Fasst.FixedTableEdits Fasst.FixedTableLocks

set_option autoImplicit false

variable {V : Type}

/-- One node has moved to the list of `target`. -/
def Moved (table : FixedTable V) (lists newLists : Lists) (extra : Nat)
    (target : Option Nat) : Prop :=
  ∀ owner, Owner table owner → ∀ node,
    node ∈ newLists owner ↔ (node = extra ∧ owner = target) ∨ (node ≠ extra ∧ node ∈ lists owner)

variable {hash : UInt64 → UInt64} {table : FixedTable V} {lists newLists : Lists}
  {hole : Option (Nat × Slot)}

theorem moved_in_range (shape : Shape hash table lists hole) {extra : Nat}
    {source target : Option Nat} (moved : Moved table lists newLists extra target)
    (validSource : Owner table source) (member : extra ∈ lists source) :
    ∀ owner, Owner table owner → ∀ node ∈ newLists owner,
      table.numBuckets ≤ node ∧ node < table.numBuckets + table.numExtraBuckets := by
  intro owner valid node inNew
  rcases (moved owner valid node).mp inNew with ⟨same, _⟩ | ⟨_, inOld⟩
  · rw [same]
    exact shape.inRange source validSource extra member
  · exact shape.inRange owner valid node inOld

theorem moved_covered (shape : Shape hash table lists hole) {extra : Nat} {target : Option Nat}
    (moved : Moved table lists newLists extra target) (validTarget : Owner table target) :
    ∀ node, table.numBuckets ≤ node → node < table.numBuckets + table.numExtraBuckets →
      ∃ owner, Owner table owner ∧ node ∈ newLists owner := by
  intro node lower upper
  by_cases same : node = extra
  · exact ⟨target, validTarget, (moved target validTarget node).mpr (Or.inl ⟨same, rfl⟩)⟩
  · obtain ⟨owner, valid, inOld⟩ := shape.covered node lower upper
    exact ⟨owner, valid, (moved owner valid node).mpr (Or.inr ⟨same, inOld⟩)⟩

theorem moved_disjoint (shape : Shape hash table lists hole) {extra : Nat} {target : Option Nat}
    (moved : Moved table lists newLists extra target) :
    ∀ owner other, Owner table owner → Owner table other →
      ∀ node, node ∈ newLists owner → node ∈ newLists other → owner = other := by
  intro owner other valid otherValid node inLeft inRight
  rcases (moved owner valid node).mp inLeft with ⟨same, isTarget⟩ | ⟨different, inOld⟩
  · rcases (moved other otherValid node).mp inRight with ⟨_, otherTarget⟩ | ⟨different, _⟩
    · rw [isTarget, otherTarget]
    · exact absurd same different
  · rcases (moved other otherValid node).mp inRight with ⟨same, _⟩ | ⟨_, otherOld⟩
    · exact absurd same different
    · exact shape.disjoint owner other valid otherValid node inOld otherOld

/-- The shape after a move, from the parts that depend on the direction: the
links, an empty moved node, and the fullness of the edited chain. -/
theorem shape_moved (after : FixedTable V) (shape : Shape hash table lists hole) {extra : Nat}
    {source target : Option Nat} (moved : Moved table lists newLists extra target)
    (validSource : Owner table source) (validTarget : Owner table target)
    (member : extra ∈ lists source)
    (empty : ∀ slot, keyAt table extra slot = kFtInvalidKey)
    (sizes : after.numBuckets = table.numBuckets ∧ after.numExtraBuckets = table.numExtraBuckets)
    (keys : ∀ node, (after.buckets node).keyArr = (table.buckets node).keyArr)
    (linkedChain : ∀ primary, primary < table.numBuckets →
      Linked (nextNode after) (some primary) (chainNodes newLists primary))
    (linkedFree : Linked (nextNode after) (freeHead after) (newLists none))
    (full : ∀ primary, primary < table.numBuckets → ∀ before last,
      chainNodes newLists primary = before ++ [last] → ∀ node ∈ before, ∀ slot,
        hole ≠ some (node, slot) → keyAt table node slot ≠ kFtInvalidKey) :
    Shape hash after newLists hole := by
  have sameKeys : keyAt after = keyAt table := by
    funext node slot
    rw [keyAt, keyAt, keys]
  have index : calcBucketIndex after = calcBucketIndex table := by
    funext keyHash
    exact calc_bucket_index_congr table after sizes.1 keyHash
  have owners : Owner after = Owner table := by
    funext owner
    simp only [Owner, sizes.1]
  have onOldChain : ∀ primary, primary < table.numBuckets →
      ∀ node ∈ chainNodes newLists primary, ∀ slot, keyAt table node slot ≠ kFtInvalidKey →
        node ∈ chainNodes lists primary := by
    intro primary bound node inNew slot occupied
    rcases List.mem_cons.mp inNew with same | tail
    · rw [same]
      exact List.mem_cons_self
    · rcases (moved (some primary) (owner_some bound) node).mp tail with ⟨same, _⟩ | ⟨_, inOld⟩
      · rw [same] at occupied
        exact absurd (empty slot) occupied
      · exact List.mem_cons_of_mem _ inOld
  constructor
  · rw [sizes.1]; exact shape.positive
  · rw [sizes.1]; exact linkedChain
  · exact linkedFree
  · rw [sizes.1, sizes.2, owners]; exact moved_in_range shape moved validSource member
  · rw [sizes.1, sizes.2, owners]; exact moved_covered shape moved validTarget
  · rw [owners]; exact moved_disjoint shape moved
  · intro node free slot
    rw [sameKeys]
    rcases (moved none owner_none node).mp free with ⟨same, _⟩ | ⟨_, inOld⟩
    · rw [same]
      exact empty slot
    · exact shape.freeEmpty node inOld slot
  · rw [sizes.1, sameKeys, index]
    intro primary bound node inNew slot occupied
    exact shape.placed primary bound node (onOldChain primary bound node inNew slot occupied)
      slot occupied
  · rw [sizes.1, sameKeys]
    intro primary bound node inNew other otherNew slot otherSlot sameKey occupied
    have otherOccupied : keyAt table other otherSlot ≠ kFtInvalidKey := by
      rw [← sameKey]
      exact occupied
    exact shape.unique primary bound node (onOldChain primary bound node inNew slot occupied)
      other (onOldChain primary bound other otherNew otherSlot otherOccupied)
      slot otherSlot sameKey occupied
  · rw [sizes.1, sameKeys]
    exact full

/-- Moving an empty node between lists changes no entry. -/
theorem contents_moved (after : FixedTable V) (shape : Shape hash table lists hole)
    {newHole : Option (Nat × Slot)} (afterShape : Shape hash after newLists newHole) {extra : Nat}
    {source target : Option Nat} (moved : Moved table lists newLists extra target)
    (validSource : Owner table source) (member : extra ∈ lists source)
    (empty : ∀ slot, keyAt table extra slot = kFtInvalidKey)
    (sizes : after.numBuckets = table.numBuckets)
    (keys : ∀ node, (after.buckets node).keyArr = (table.buckets node).keyArr)
    (values : ∀ node, (after.buckets node).valArr = (table.buckets node).valArr) :
    contents hash after = contents hash table := by
  funext key
  by_cases valid : key = kFtInvalidKey
  · rw [valid, contents_invalid, contents_invalid]
  · have home : homeOf hash after key = homeOf hash table key :=
      calc_bucket_index_congr table after sizes (hash key)
    have bound := home_of_lt shape key
    have notPrimary : homeOf hash table key ≠ extra := by
      have range := shape.inRange source validSource extra member
      omega
    apply contents_congr shape afterShape valid
    intro value
    rw [home]
    simp only [keyAt, valAt, keys, values]
    constructor
    · rintro ⟨node, inNew, slot, sameKey, sameVal⟩
      refine ⟨node, ?_, slot, sameKey, sameVal⟩
      rcases List.mem_cons.mp inNew with same | tail
      · rw [same]
        exact List.mem_cons_self
      · rcases (moved _ (owner_some bound) node).mp tail with ⟨same, _⟩ | ⟨_, inOld⟩
        · rw [same] at sameKey
          exact absurd (sameKey.symm.trans (empty slot)) valid
        · exact List.mem_cons_of_mem _ inOld
    · rintro ⟨node, inOld, slot, sameKey, sameVal⟩
      refine ⟨node, ?_, slot, sameKey, sameVal⟩
      rcases List.mem_cons.mp inOld with same | tail
      · rw [same]
        exact List.mem_cons_self
      · have different : node ≠ extra := by
          intro same
          rw [same] at sameKey
          exact valid (sameKey.symm.trans (empty slot))
        exact List.mem_cons_of_mem _
          ((moved _ (owner_some bound) node).mpr (Or.inr ⟨different, tail⟩))

/-- The result of `alloc_extra_bucket` when the free list is not empty. -/
def grow (table : FixedTable V) (node extra : Nat) : FixedTable V :=
  let popped := { table with freeListHead := (table.buckets extra).nextExtraBucketIndex }
  let cleared := setBucket popped extra { popped.buckets extra with nextExtraBucketIndex := 0 }
  setBucket cleared node
    { cleared.buckets node with nextExtraBucketIndex := table.freeListHead }

theorem grow_frame (table : FixedTable V) (node extra : Nat) :
    SameFrame table (grow table node extra) := by
  refine ⟨rfl, rfl, rfl, rfl, ?_⟩
  intro other
  simp only [grow, set_bucket_apply, SameLocks]
  split_ifs <;> simp_all

theorem grow_buckets (table : FixedTable V) (node extra other : Nat) (apart : node ≠ extra) :
    (grow table node extra).buckets other =
      if other = node then
        { table.buckets node with nextExtraBucketIndex := table.freeListHead }
      else if other = extra then { table.buckets extra with nextExtraBucketIndex := 0 }
      else table.buckets other := by
  simp only [grow, set_bucket_apply, if_neg apart]

theorem grow_items (table : FixedTable V) (node extra other : Nat) (apart : node ≠ extra) :
    ((grow table node extra).buckets other).keyArr = (table.buckets other).keyArr ∧
      ((grow table node extra).buckets other).valArr = (table.buckets other).valArr := by
  rw [grow_buckets table node extra other apart]
  split_ifs with sameNode sameExtra
  · rw [sameNode]
    exact ⟨rfl, rfl⟩
  · rw [sameExtra]
    exact ⟨rfl, rfl⟩
  · exact ⟨rfl, rfl⟩

theorem grow_next (table : FixedTable V) (node extra other : Nat) (apart : node ≠ extra)
    (head : freeHead table = some extra) :
    nextNode (grow table node extra) other =
      if other = node then some extra else if other = extra then none
      else nextNode table other := by
  have size : (grow table node extra).numBuckets = table.numBuckets := rfl
  unfold freeHead at head
  split_ifs at head with empty
  rw [nextNode, grow_buckets table node extra other apart, size]
  split_ifs with sameNode <;> simp_all [nextNode]

def allocLists (lists : Lists) (primary extra : Nat) (rest : List Nat) : Lists :=
  fun owner =>
    if owner = none then rest
    else if owner = some primary then lists owner ++ [extra] else lists owner

theorem alloc_moved (shape : Shape hash table lists hole) (primary : Nat) {extra : Nat}
    {rest : List Nat} (free : lists none = extra :: rest) :
    Moved table lists (allocLists lists primary extra rest) extra (some primary) := by
  have isFree : extra ∈ lists none := by simp [free]
  have fresh : extra ∉ rest := by
    have nodup := shape.list_nodup owner_none
    rw [free] at nodup
    exact (List.nodup_cons.mp nodup).1
  have elsewhere : ∀ owner, Owner table owner → owner ≠ none → extra ∉ lists owner := by
    intro owner valid notFree member
    exact notFree (shape.disjoint owner none valid owner_none extra member isFree)
  intro owner valid node
  by_cases isNone : owner = none
  · subst owner
    simp only [allocLists, if_pos, free, List.mem_cons, reduceCtorEq, and_false, false_or]
    constructor
    · intro member
      have different : node ≠ extra := by
        intro same
        exact fresh (same ▸ member)
      exact ⟨different, Or.inr member⟩
    · rintro ⟨different, same | member⟩
      · exact absurd same different
      · exact member
  · have absent := elsewhere owner valid isNone
    by_cases isTarget : owner = some primary
    · simp only [allocLists, if_neg isNone, if_pos isTarget, List.mem_append, List.mem_singleton]
      constructor
      · rintro (member | same)
        · refine Or.inr ⟨?_, member⟩
          intro same
          exact absent (same ▸ member)
        · exact Or.inl ⟨same, isTarget⟩
      · rintro (⟨same, _⟩ | ⟨_, member⟩)
        · exact Or.inr same
        · exact Or.inl member
    · simp only [allocLists, if_neg isNone, if_neg isTarget]
      constructor
      · intro member
        refine Or.inr ⟨?_, member⟩
        intro same
        exact absent (same ▸ member)
      · rintro (⟨_, target⟩ | ⟨_, member⟩)
        · exact absurd target isTarget
        · exact member

/-- Taking an extra bucket for a chain that has no empty slot. -/
theorem alloc_extra_spec (shape : Shape hash table lists hole) {primary last extra : Nat}
    {before rest : List Nat} (bound : primary < table.numBuckets)
    (split : chainNodes lists primary = before ++ [last])
    (allFull : ∀ node ∈ chainNodes lists primary, ∀ slot, keyAt table node slot ≠ kFtInvalidKey)
    (free : lists none = extra :: rest) :
    allocExtraBucket table last = .ok (true, grow table last extra) ∧
      getExtraBucket (grow table last extra)
        ((grow table last extra).buckets last).nextExtraBucketIndex = .ok extra ∧
      Shape hash (grow table last extra) (allocLists lists primary extra rest) hole ∧
      contents hash (grow table last extra) = contents hash table := by
  have isFree : extra ∈ lists none := by simp [free]
  have onChain : last ∈ chainNodes lists primary := by simp [split]
  have apart : last ≠ extra := by
    intro same
    exact shape.chain_not_free bound onChain (same ▸ isFree)
  have linkedFree := shape.linkedFree
  rw [free] at linkedFree
  have head : freeHead table = some extra := linkedFree.1
  have moved := alloc_moved shape primary free
  have ended : nextNode table last = none := by
    have linked := shape.linkedChain primary bound
    rw [split] at linked
    exact linked_last _ _ before last linked
  have notChained : ¬ hasExtraBucket (table.buckets last) := by
    rw [has_extra_iff, not_not]
    exact ended
  have empty := shape.freeEmpty extra isFree
  have range := shape.inRange none owner_none extra isFree
  have positive := shape.positive
  have popped : table.freeListHead ≠ 0 ∧ table.numBuckets - 1 + table.freeListHead = extra := by
    unfold freeHead at head
    split_ifs at head with null
    exact ⟨null, Option.some.inj head⟩
  have fetched : getExtraBucket table table.freeListHead = .ok extra := by
    simp only [getExtraBucket, check]
    rw [if_pos popped.1, if_pos (by omega), popped.2]
    rfl
  have notEarlier : ∀ node ∈ before, node ≠ last := by
    have nodup := linked_nodup _ _ _ (shape.linkedChain primary bound)
    rw [split] at nodup
    intro node member same
    exact (List.nodup_append.mp nodup).2.2 node member last (by simp) same
  have afterShape : Shape hash (grow table last extra) (allocLists lists primary extra rest) hole := by
    apply shape_moved (grow table last extra) shape moved owner_none (owner_some bound) isFree empty
      ⟨rfl, rfl⟩ (fun node => (grow_items table last extra node apart).1)
    · intro chain chainBound
      by_cases same : chain = primary
      · subst chain
        have nodes : chainNodes (allocLists lists primary extra rest) primary =
            before ++ [last, extra] := by
          simp only [chainNodes, allocLists, reduceCtorEq, if_false, if_true]
          rw [← List.cons_append]
          change chainNodes lists primary ++ [extra] = _
          rw [split]
          simp
        have linked := shape.linkedChain primary bound
        rw [split] at linked
        rw [nodes]
        apply linked_snoc (nextNode table) _ _ before last extra linked
        · intro node member
          have notLast := notEarlier node member
          have notExtra : node ≠ extra := by
            intro same
            have chained : node ∈ chainNodes lists primary := by simp [split, member]
            exact shape.chain_not_free bound chained (same ▸ isFree)
          rw [grow_next table last extra node apart head, if_neg notLast, if_neg notExtra]
        · rw [grow_next table last extra last apart head, if_pos rfl]
        · rw [grow_next table last extra extra apart head, if_neg apart.symm, if_pos rfl]
      · have nodes : chainNodes (allocLists lists primary extra rest) chain =
            chainNodes lists chain := by
          simp [chainNodes, allocLists, same]
        rw [nodes]
        apply linked_frame (nextNode table) _ _ _ (shape.linkedChain chain chainBound)
        intro node member
        have notLast : node ≠ last := by
          intro equal
          exact same (shape.chain_disjoint chainBound bound member (equal ▸ onChain))
        have notExtra : node ≠ extra := by
          intro equal
          exact shape.chain_not_free chainBound member (equal ▸ isFree)
        rw [grow_next table last extra node apart head, if_neg notLast, if_neg notExtra]
    · have newHead : freeHead (grow table last extra) = nextNode table extra := rfl
      have nodes : allocLists lists primary extra rest none = rest := rfl
      rw [newHead, nodes]
      apply linked_frame (nextNode table) _ _ _ linkedFree.2
      intro node member
      have onFree : node ∈ lists none := by simp [free, member]
      have notLast : node ≠ last := by
        intro equal
        exact shape.chain_not_free bound onChain (equal ▸ onFree)
      have notExtra : node ≠ extra := by
        have nodup := shape.list_nodup owner_none
        rw [free] at nodup
        intro equal
        exact (List.nodup_cons.mp nodup).1 (equal ▸ member)
      rw [grow_next table last extra node apart head, if_neg notLast, if_neg notExtra]
    · intro chain chainBound front tail nodes node member slot notHole
      by_cases same : chain = primary
      · subst chain
        have longer : chainNodes (allocLists lists primary extra rest) primary =
            chainNodes lists primary ++ [extra] := by
          simp [chainNodes, allocLists]
        rw [longer] at nodes
        obtain ⟨sameFront, _⟩ := List.append_inj' nodes rfl
        exact allFull node (sameFront ▸ member) slot
      · have unchanged : chainNodes (allocLists lists primary extra rest) chain =
            chainNodes lists chain := by
          simp [chainNodes, allocLists, same]
        rw [unchanged] at nodes
        exact shape.full chain chainBound front tail nodes node member slot notHole
  refine ⟨?_, ?_, afterShape, ?_⟩
  · simp only [allocExtraBucket, check_pass _ _ notChained, if_neg popped.1, fetched]
    rfl
  · have next := grow_next table last extra last apart head
    rw [if_pos rfl] at next
    exact afterShape.get_extra_next (owner_some bound) next
      ((moved _ (owner_some bound) extra).mpr (Or.inl ⟨rfl, rfl⟩))
  · exact contents_moved _ shape afterShape moved owner_none isFree empty rfl
      (fun node => (grow_items table last extra node apart).1)
      (fun node => (grow_items table last extra node apart).2)

/-- The result of `free_extra_bucket`. -/
def release (table : FixedTable V) (node extra : Nat) : FixedTable V :=
  let detached := setBucket table node { table.buckets node with nextExtraBucketIndex := 0 }
  let pushed := setBucket detached extra
    { detached.buckets extra with nextExtraBucketIndex := detached.freeListHead }
  { pushed with freeListHead := (table.buckets node).nextExtraBucketIndex }

theorem release_frame (table : FixedTable V) (node extra : Nat) :
    SameFrame table (release table node extra) := by
  refine ⟨rfl, rfl, rfl, rfl, ?_⟩
  intro other
  simp only [release, set_bucket_apply, SameLocks]
  split_ifs <;> simp_all

theorem release_buckets (table : FixedTable V) (node extra other : Nat) (apart : node ≠ extra) :
    (release table node extra).buckets other =
      if other = extra then
        { table.buckets extra with nextExtraBucketIndex := table.freeListHead }
      else if other = node then { table.buckets node with nextExtraBucketIndex := 0 }
      else table.buckets other := by
  simp only [release, set_bucket_apply, if_neg apart.symm, set_bucket_free_head]

theorem release_items (table : FixedTable V) (node extra other : Nat) (apart : node ≠ extra) :
    ((release table node extra).buckets other).keyArr = (table.buckets other).keyArr ∧
      ((release table node extra).buckets other).valArr = (table.buckets other).valArr := by
  rw [release_buckets table node extra other apart]
  split_ifs with sameExtra sameNode
  · rw [sameExtra]
    exact ⟨rfl, rfl⟩
  · rw [sameNode]
    exact ⟨rfl, rfl⟩
  · exact ⟨rfl, rfl⟩

theorem release_next (table : FixedTable V) (node extra other : Nat) (apart : node ≠ extra) :
    nextNode (release table node extra) other =
      if other = extra then freeHead table else if other = node then none
      else nextNode table other := by
  have size : (release table node extra).numBuckets = table.numBuckets := rfl
  rw [nextNode, release_buckets table node extra other apart, size]
  split_ifs <;> simp_all [nextNode, freeHead]

def freeLists (lists : Lists) (primary extra : Nat) : Lists :=
  fun owner =>
    if owner = none then extra :: lists none
    else if owner = some primary then (lists owner).dropLast else lists owner

theorem free_moved (shape : Shape hash table lists hole) {primary previous extra : Nat}
    {before : List Nat} (bound : primary < table.numBuckets)
    (split : chainNodes lists primary = before ++ [previous, extra]) :
    Moved table lists (freeLists lists primary extra) extra none := by
  obtain ⟨front, tail⟩ : ∃ front, lists (some primary) = front ++ [extra] := by
    cases before with
    | nil => exact ⟨[], (List.cons.inj split).2⟩
    | cons first more => exact ⟨more ++ [previous], by simpa using (List.cons.inj split).2⟩
  have chained : extra ∈ lists (some primary) := by simp [tail]
  have fresh : extra ∉ front := by
    have nodup := shape.list_nodup (owner_some bound)
    rw [tail] at nodup
    intro member
    exact (List.nodup_append.mp nodup).2.2 extra member extra (by simp) rfl
  have elsewhere : ∀ owner, Owner table owner → owner ≠ some primary → extra ∉ lists owner := by
    intro owner valid notSource member
    exact notSource (shape.disjoint owner _ valid (owner_some bound) extra member chained)
  intro owner valid node
  by_cases isNone : owner = none
  · subst owner
    have absent := elsewhere none valid (by simp)
    simp only [freeLists, if_true, List.mem_cons, and_true]
    constructor
    · rintro (same | member)
      · exact Or.inl same
      · refine Or.inr ⟨?_, member⟩
        intro same
        exact absent (same ▸ member)
    · rintro (same | ⟨_, member⟩)
      · exact Or.inl same
      · exact Or.inr member
  · by_cases isSource : owner = some primary
    · subst owner
      simp only [freeLists, reduceCtorEq, if_false, if_true, and_false, false_or, tail,
        List.dropLast_concat, List.mem_append, List.mem_singleton]
      constructor
      · intro member
        refine ⟨?_, Or.inl member⟩
        intro same
        exact fresh (same ▸ member)
      · rintro ⟨different, member | same⟩
        · exact member
        · exact absurd same different
    · have absent := elsewhere owner valid isSource
      simp only [freeLists, if_neg isSource, isNone, and_false, false_or]
      constructor
      · intro member
        refine ⟨?_, member⟩
        intro same
        exact absent (same ▸ member)
      · rintro ⟨_, member⟩
        exact member

/-- Giving back an empty last node. -/
theorem free_extra_spec (shape : Shape hash table lists hole) {primary previous extra : Nat}
    {before : List Nat} (bound : primary < table.numBuckets)
    (split : chainNodes lists primary = before ++ [previous, extra])
    (empty : ∀ slot, keyAt table extra slot = kFtInvalidKey) :
    freeExtraBucket table previous = .ok (release table previous extra) ∧
      chainNodes (freeLists lists primary extra) primary = before ++ [previous] ∧
      Shape hash (release table previous extra) (freeLists lists primary extra) hole ∧
      contents hash (release table previous extra) = contents hash table := by
  have linked := shape.linkedChain primary bound
  rw [split] at linked
  have next := linked_middle _ _ before [] previous extra linked
  have ended := linked_last _ _ (before ++ [previous]) extra (by simpa using linked)
  have nodup := linked_nodup _ _ _ linked
  have apart : previous ≠ extra := by
    have last := (List.nodup_append.mp nodup).2.1
    simpa using last
  have nodes : chainNodes (freeLists lists primary extra) primary = before ++ [previous] := by
    have nonempty : lists (some primary) ≠ [] := by
      intro nothing
      have lengths := congrArg List.length split
      simp [chainNodes, nothing] at lengths
    calc
      chainNodes (freeLists lists primary extra) primary =
          (chainNodes lists primary).dropLast := by
        simp [chainNodes, freeLists, List.dropLast_cons_of_ne_nil nonempty]
      _ = before ++ [previous] := by
        rw [split, show before ++ [previous, extra] = (before ++ [previous]) ++ [extra] by simp,
          List.dropLast_concat]
  have onList : extra ∈ lists (some primary) := by
    have member : extra ∈ chainNodes lists primary := by simp [split]
    rcases List.mem_cons.mp member with same | tail
    · have first : primary = (before ++ [previous, extra]).head (by simp) := by
        simp [← split, chainNodes]
      cases before with
      | nil =>
          have headIs : primary = previous := by simpa using first
          exact absurd (headIs.symm.trans same.symm) apart
      | cons head more =>
          have headIs : primary = head := by simpa using first
          rw [← headIs, ← same] at nodup
          simp at nodup
    · exact tail
  have moved := free_moved shape bound split
  have onChain : previous ∈ chainNodes lists primary := by simp [split]
  have extraOnChain : extra ∈ chainNodes lists primary := by simp [split]
  have chained : hasExtraBucket (table.buckets previous) := by
    rw [has_extra_iff, next]
    simp
  have lastLink : (table.buckets extra).nextExtraBucketIndex = 0 := by
    have notChained : ¬ hasExtraBucket (table.buckets extra) := by
      rw [has_extra_iff, not_not]
      exact ended
    simpa [hasExtraBucket] using notChained
  have afterShape : Shape hash (release table previous extra) (freeLists lists primary extra) hole := by
    apply shape_moved (release table previous extra) shape moved (owner_some bound) owner_none
      onList empty ⟨rfl, rfl⟩ (fun node => (release_items table previous extra node apart).1)
    · intro chain chainBound
      by_cases same : chain = primary
      · subst chain
        rw [nodes]
        apply linked_detach (nextNode table) _ _ before previous extra linked
        · intro node member
          have notPrevious : node ≠ previous := fun same =>
            (List.nodup_append.mp nodup).2.2 node member previous (by simp) same
          have notExtra : node ≠ extra := fun same =>
            (List.nodup_append.mp nodup).2.2 node member extra (by simp) same
          rw [release_next table previous extra node apart, if_neg notExtra, if_neg notPrevious]
        · rw [release_next table previous extra previous apart, if_neg apart, if_pos rfl]
      · have unchanged : chainNodes (freeLists lists primary extra) chain =
            chainNodes lists chain := by
          simp [chainNodes, freeLists, same]
        rw [unchanged]
        apply linked_frame (nextNode table) _ _ _ (shape.linkedChain chain chainBound)
        intro node member
        have notPrevious : node ≠ previous := by
          intro equal
          exact same (shape.chain_disjoint chainBound bound member (equal ▸ onChain))
        have notExtra : node ≠ extra := by
          intro equal
          exact same (shape.chain_disjoint chainBound bound member (equal ▸ extraOnChain))
        rw [release_next table previous extra node apart, if_neg notExtra, if_neg notPrevious]
    · have newHead : freeHead (release table previous extra) = some extra := by
        rw [← next]
        rfl
      rw [newHead]
      refine ⟨rfl, ?_⟩
      rw [release_next table previous extra extra apart, if_pos rfl]
      apply linked_frame (nextNode table) _ _ _ shape.linkedFree
      intro node member
      have notPrevious : node ≠ previous := by
        intro equal
        exact shape.chain_not_free bound onChain (equal ▸ member)
      have notExtra : node ≠ extra := by
        intro equal
        exact shape.chain_not_free bound extraOnChain (equal ▸ member)
      rw [release_next table previous extra node apart, if_neg notExtra, if_neg notPrevious]
    · intro chain chainBound front tail newSplit node member slot notHole
      by_cases same : chain = primary
      · subst chain
        rw [nodes] at newSplit
        obtain ⟨sameFront, _⟩ := List.append_inj' newSplit rfl
        apply shape.full primary bound (before ++ [previous]) extra (by simp [split]) node _ slot
          notHole
        simp [sameFront, member]
      · have unchanged : chainNodes (freeLists lists primary extra) chain =
            chainNodes lists chain := by
          simp [chainNodes, freeLists, same]
        rw [unchanged] at newSplit
        exact shape.full chain chainBound front tail newSplit node member slot notHole
  refine ⟨?_, nodes, afterShape, ?_⟩
  · have fetched := shape.get_extra_next (owner_some bound) next onList
    have cleared : ∀ slot, (table.buckets extra).keyArr slot = kFtInvalidKey := empty
    have unfolded : freeExtraBucket table previous = (do
        check (hasExtraBucket (table.buckets previous)) .extraNotChained
        let found ← getExtraBucket table (table.buckets previous).nextExtraBucketIndex
        check ((table.buckets found).nextExtraBucketIndex = 0) .extraNotTail
        check (∀ slot, (table.buckets found).keyArr slot = kFtInvalidKey) .extraNotEmpty
        .ok (release table previous found)) := rfl
    rw [unfolded, check_pass _ _ chained, fetched]
    change (do
      check ((table.buckets extra).nextExtraBucketIndex = 0) .extraNotTail
      check (∀ slot, (table.buckets extra).keyArr slot = kFtInvalidKey) .extraNotEmpty
      Except.ok (release table previous extra)) = _
    rw [check_pass _ _ lastLink, check_pass _ _ cleared]
    rfl
  · exact contents_moved _ shape afterShape moved (owner_some bound) onList empty rfl
      (fun node => (release_items table previous extra node apart).1)
      (fun node => (release_items table previous extra node apart).2)

end Fasst.FixedTableExtra

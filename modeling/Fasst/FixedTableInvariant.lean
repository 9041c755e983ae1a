import Fasst.FixedTableOps

/-!
# The representation invariant over whole runs

`RepInv` is the invariant in the terms of the stored fields: the links followed
from each primary bucket and from the head of the free list, in 1-based extra
indices. It is read off `Shape`, which every operation keeps.
-/

namespace Fasst.FixedTableInvariant

open Fasst.FixedTableModel Fasst.LinkedChain Fasst.FixedTableShape Fasst.FixedTableEdits
open Fasst.FixedTableLocks Fasst.FixedTableOps Fasst.Outcomes

set_option autoImplicit false

variable {V : Type}

def runOps (hash : UInt64 → UInt64) (table : FixedTable V) (ops : List (Op V)) :
    Except Fault (FixedTable V) :=
  ops.foldlM (fun current op => Prod.snd <$> runOp hash current op) table

/-- `indices` are the extra indices met when the links are followed from the
index `start` to the null index. -/
def Follows (table : FixedTable V) : Nat → List Nat → Prop
  | start, [] => start = 0
  | start, index :: rest => start = index ∧ index ≠ 0 ∧
      Follows table (table.buckets (table.numBuckets - 1 + index)).nextExtraBucketIndex rest

def bucketsOf (table : FixedTable V) (chain : Nat → List Nat) (primary : Nat) : List Nat :=
  primary :: (chain primary).map (table.numBuckets - 1 + ·)

structure RepInv (hash : UInt64 → UInt64) (table : FixedTable V) (chain : Nat → List Nat)
    (free : List Nat) : Prop where
  chains : ∀ primary, primary < table.numBuckets →
    Follows table (table.buckets primary).nextExtraBucketIndex (chain primary)
  freeList : Follows table table.freeListHead free
  partition : (free ++ (List.range table.numBuckets).flatMap chain).Perm
    (List.range' 1 table.numExtraBuckets)
  freeEmpty : ∀ index ∈ free, ∀ slot,
    (table.buckets (table.numBuckets - 1 + index)).keyArr slot = kFtInvalidKey
  keyOnce : ∀ node other slot otherSlot, node < table.numBuckets + table.numExtraBuckets →
    other < table.numBuckets + table.numExtraBuckets →
      (table.buckets node).keyArr slot ≠ kFtInvalidKey →
        (table.buckets node).keyArr slot = (table.buckets other).keyArr otherSlot →
          node = other ∧ slot = otherSlot
  keyPlaced : ∀ node slot, node < table.numBuckets + table.numExtraBuckets →
    (table.buckets node).keyArr slot ≠ kFtInvalidKey →
      node ∈ bucketsOf table chain (calcBucketIndex table (hash ((table.buckets node).keyArr slot)))
  full : ∀ primary, primary < table.numBuckets → ∀ before last,
    bucketsOf table chain primary = before ++ [last] →
      ∀ node ∈ before, ∀ slot, (table.buckets node).keyArr slot ≠ kFtInvalidKey

section FromShape

variable {hash : UInt64 → UInt64} {table : FixedTable V} {lists : Lists}

def extraIndex (table : FixedTable V) (node : Nat) : Nat := node - (table.numBuckets - 1)

def indexList (table : FixedTable V) (lists : Lists) (owner : Option Nat) : List Nat :=
  (lists owner).map (extraIndex table)

theorem position_of_index (shape : Shape hash table lists none) {owner : Option Nat}
    (valid : Owner table owner) {node : Nat} (member : node ∈ lists owner) :
    table.numBuckets - 1 + extraIndex table node = node ∧ extraIndex table node ≠ 0 := by
  have range := shape.inRange owner valid node member
  have positive := shape.positive
  unfold extraIndex
  omega

theorem follows_of_linked (shape : Shape hash table lists none) {owner : Option Nat}
    (valid : Owner table owner) (start : Nat) (nodes : List Nat) (inside : nodes ⊆ lists owner)
    (linked : Linked (nextNode table)
      (if start = 0 then none else some (table.numBuckets - 1 + start)) nodes) :
    Follows table start (nodes.map (extraIndex table)) := by
  induction nodes generalizing start with
  | nil =>
      have null : (if start = 0 then none else some (table.numBuckets - 1 + start)) = none := linked
      by_contra nonzero
      have nonnull : ¬ start = 0 := nonzero
      rw [if_neg nonnull] at null
      cases null
  | cons node rest ih =>
      obtain ⟨head, tail⟩ := linked
      obtain ⟨position, nonzero⟩ := position_of_index shape valid (inside List.mem_cons_self)
      split_ifs at head with null
      have located : table.numBuckets - 1 + start = node := Option.some.inj head
      refine ⟨?_, nonzero, ?_⟩
      · omega
      · rw [position]
        exact ih _ (fun item member => inside (List.mem_cons_of_mem _ member)) tail

theorem chain_follows (shape : Shape hash table lists none) {primary : Nat}
    (bound : primary < table.numBuckets) :
    Follows table (table.buckets primary).nextExtraBucketIndex
      (indexList table lists (some primary)) := by
  apply follows_of_linked shape (owner_some bound) _ _ (List.Subset.refl _)
  exact (shape.linkedChain primary bound).2

theorem index_injective (shape : Shape hash table lists none) {owner other : Option Nat}
    (valid : Owner table owner) (otherValid : Owner table other) {node otherNode : Nat}
    (member : node ∈ lists owner) (otherMember : otherNode ∈ lists other)
    (same : extraIndex table node = extraIndex table otherNode) : node = otherNode := by
  have left := (position_of_index shape valid member).1
  have right := (position_of_index shape otherValid otherMember).1
  omega

theorem index_list_nodup (shape : Shape hash table lists none) {owner : Option Nat}
    (valid : Owner table owner) : (indexList table lists owner).Nodup := by
  apply List.Nodup.map_on _ (shape.list_nodup valid)
  intro node member other otherMember same
  exact index_injective shape valid valid member otherMember same

theorem index_lists_disjoint (shape : Shape hash table lists none) {owner other : Option Nat}
    (valid : Owner table owner) (otherValid : Owner table other) (different : owner ≠ other) :
    List.Disjoint (indexList table lists owner) (indexList table lists other) := by
  intro index left right
  obtain ⟨node, member, sameIndex⟩ := List.mem_map.mp left
  obtain ⟨otherNode, otherMember, otherIndex⟩ := List.mem_map.mp right
  have same := index_injective shape valid otherValid member otherMember
    (sameIndex.trans otherIndex.symm)
  rw [← same] at otherMember
  exact different (shape.disjoint owner other valid otherValid node member otherMember)

theorem index_partition (shape : Shape hash table lists none) :
    (indexList table lists none ++
      (List.range table.numBuckets).flatMap fun primary => indexList table lists (some primary)).Perm
        (List.range' 1 table.numExtraBuckets) := by
  have positive := shape.positive
  have nodup : (indexList table lists none ++ (List.range table.numBuckets).flatMap
      fun primary => indexList table lists (some primary)).Nodup := by
    refine List.nodup_append'.mpr ⟨index_list_nodup shape owner_none, ?_, ?_⟩
    · refine List.nodup_flatMap.mpr ⟨?_, ?_⟩
      · intro primary member
        exact index_list_nodup shape (owner_some (List.mem_range.mp member))
      · apply List.Pairwise.imp_of_mem _ List.nodup_range
        intro left right leftMember rightMember different
        exact index_lists_disjoint shape (owner_some (List.mem_range.mp leftMember))
          (owner_some (List.mem_range.mp rightMember)) (by simpa using different)
    · intro index free chained
      obtain ⟨primary, member, onChain⟩ := List.mem_flatMap.mp chained
      exact index_lists_disjoint shape owner_none (owner_some (List.mem_range.mp member)) (by simp)
        free onChain
  apply (List.perm_ext_iff_of_nodup nodup List.nodup_range').mpr
  intro index
  have listed : ∀ owner, Owner table owner → index ∈ indexList table lists owner →
      1 ≤ index ∧ index < 1 + table.numExtraBuckets := by
    intro owner valid member
    obtain ⟨node, inList, same⟩ := List.mem_map.mp member
    have range := shape.inRange owner valid node inList
    unfold extraIndex at same
    omega
  rw [List.mem_append, List.mem_flatMap, List.mem_range'_1]
  constructor
  · rintro (free | ⟨primary, bound, member⟩)
    · exact listed none owner_none free
    · exact listed (some primary) (owner_some (List.mem_range.mp bound)) member
  · intro range
    obtain ⟨owner, valid, member⟩ := shape.covered (table.numBuckets - 1 + index) (by omega) (by omega)
    have inList : index ∈ indexList table lists owner :=
      List.mem_map.mpr ⟨_, member, by unfold extraIndex; omega⟩
    cases owner with
    | none => exact Or.inl inList
    | some primary => exact Or.inr ⟨primary, List.mem_range.mpr (valid primary rfl), inList⟩

/-- A bucket with an item is on the chain its key selects. -/
theorem occupied_on_chain (shape : Shape hash table lists none) {node : Nat} (slot : Slot)
    (bound : node < table.numBuckets + table.numExtraBuckets)
    (occupied : keyAt table node slot ≠ kFtInvalidKey) :
    node ∈ chainNodes lists (homeOf hash table (keyAt table node slot)) := by
  have onChain : ∃ primary, primary < table.numBuckets ∧ node ∈ chainNodes lists primary := by
    by_cases isPrimary : node < table.numBuckets
    · exact ⟨node, isPrimary, by simp [chainNodes]⟩
    · obtain ⟨owner, valid, member⟩ := shape.covered node (by omega) bound
      cases owner with
      | none => exact absurd (shape.freeEmpty node member slot) occupied
      | some primary => exact ⟨primary, valid primary rfl, List.mem_cons_of_mem _ member⟩
  obtain ⟨primary, primaryBound, member⟩ := onChain
  rw [homeOf, shape.placed primary primaryBound node member slot occupied]
  exact member

theorem rep_inv_of_shape (shape : Shape hash table lists none) :
    RepInv hash table (fun primary => indexList table lists (some primary))
      (indexList table lists none) := by
  have back : ∀ owner, Owner table owner →
      (indexList table lists owner).map (table.numBuckets - 1 + ·) = lists owner := by
    intro owner valid
    rw [indexList, List.map_map]
    calc
      (lists owner).map ((table.numBuckets - 1 + ·) ∘ extraIndex table) = (lists owner).map id :=
        List.map_congr_left fun node member => (position_of_index shape valid member).1
      _ = lists owner := List.map_id _
  constructor
  · exact fun primary bound => chain_follows shape bound
  · exact follows_of_linked shape owner_none _ _ (List.Subset.refl _) shape.linkedFree
  · exact index_partition shape
  · intro index member slot
    obtain ⟨node, inList, same⟩ := List.mem_map.mp member
    rw [← same, (position_of_index shape owner_none inList).1]
    exact shape.freeEmpty node inList slot
  · intro node other slot otherSlot bound otherBound occupied sameKey
    have onChain := occupied_on_chain shape _ bound occupied
    have otherOnChain := occupied_on_chain shape otherSlot otherBound
      (by rw [keyAt, ← sameKey]; exact occupied)
    rw [keyAt, ← sameKey] at otherOnChain
    exact shape.unique _ (home_of_lt shape _) node onChain other otherOnChain slot otherSlot sameKey
      occupied
  · intro node slot bound occupied
    rw [bucketsOf, back _ (owner_some (calc_bucket_index_lt table _ shape.positive))]
    exact occupied_on_chain shape _ bound occupied
  · intro primary bound before last split node member slot
    rw [bucketsOf, back _ (owner_some bound)] at split
    exact shape.full primary bound before last split node member slot (by simp)

end FromShape

/-- The free list that `reset()` threads through the extra buckets. -/
def freshLists (numBuckets numExtraBuckets : Nat) : Lists
  | none => List.range' numBuckets numExtraBuckets
  | some _ => []

theorem fresh_free_linked (table : FixedTable V) (count first : Nat)
    (range : table.numBuckets ≤ first) (sizes : first + count = table.numBuckets + table.numExtraBuckets)
    (positive : 0 < table.numBuckets) :
    Linked (nextNode (reset table)) (if count = 0 then none else some first)
      (List.range' first count) := by
  induction count generalizing first with
  | zero => rfl
  | succ count ih =>
      rw [List.range'_succ, if_neg (Nat.succ_ne_zero count)]
      refine ⟨rfl, ?_⟩
      have next : nextNode (reset table) first = if count = 0 then none else some (first + 1) := by
        have notPrimary : ¬ first < table.numBuckets := by omega
        simp only [nextNode, reset, if_neg notPrimary]
        by_cases last : count = 0
        · simp [last, show ¬ first + 1 < table.numBuckets + table.numExtraBuckets by omega]
        · simp only [if_pos (show first + 1 < table.numBuckets + table.numExtraBuckets by omega)]
          rw [if_neg (by omega), if_neg last]
          congr 1
          omega
      rw [next]
      exact ih (first + 1) (by omega) (by omega)

theorem construct_shape (hash : UInt64 → UInt64) (isPrimary : Bool)
    (valSize numBuckets numExtraBuckets : Nat) (zero : V) (positive : 0 < numBuckets) :
    Shape hash (construct isPrimary valSize numBuckets numExtraBuckets zero)
      (freshLists numBuckets numExtraBuckets) none := by
  constructor
  · exact positive
  · intro primary bound
    refine ⟨rfl, ?_⟩
    have bounded : primary < numBuckets := bound
    simp [construct, reset, nextNode, bounded, Linked, freshLists]
  · have linked := fresh_free_linked (V := V)
      { isPrimary, valSize, numBuckets, numExtraBuckets
        buckets := fun _ =>
          { lockerId := 0, numLocks := 0, nextExtraBucketIndex := 0, timestamp := 0
            keyArr := fun _ => 0, valArr := fun _ => zero, finalUnlocks := 0 }
        freeListHead := 0 } numExtraBuckets numBuckets (Nat.le_refl _) rfl positive
    have head : freeHead (construct isPrimary valSize numBuckets numExtraBuckets zero) =
        if numExtraBuckets = 0 then none else some numBuckets := by
      by_cases none_left : numExtraBuckets = 0
      · simp [freeHead, construct, reset, none_left]
      · have back : numBuckets - 1 + 1 = numBuckets := by omega
        simp [freeHead, construct, reset, none_left, back]
    rw [head]
    exact linked
  · intro owner _ node member
    cases owner with
    | none => exact List.mem_range'_1.mp member
    | some primary => cases member
  · intro node lower upper
    exact ⟨none, owner_none, List.mem_range'_1.mpr ⟨lower, upper⟩⟩
  · intro owner other _ _ node left right
    cases owner with
    | some primary => cases left
    | none =>
        cases other with
        | none => rfl
        | some primary => cases right
  · intro node _ slot
    rfl
  · intro primary _ node _ slot occupied
    exact absurd rfl occupied
  · intro primary _ node _ other _ slot otherSlot _ occupied
    exact absurd rfl occupied
  · intro primary _ before last split node member
    cases before with
    | nil => cases member
    | cons first rest => simp [chainNodes, freshLists] at split

theorem construct_word (isPrimary : Bool) (valSize numBuckets numExtraBuckets : Nat) (zero : V)
    (bucket : Nat) :
    WordOk ((construct isPrimary valSize numBuckets numExtraBuckets zero).buckets bucket) := by
  simp only [WordOk, construct, reset]
  decide

theorem construct_unlocked (isPrimary : Bool) (valSize numBuckets numExtraBuckets : Nat) (zero : V)
    (bucket : Nat) :
    lockOf ((construct isPrimary valSize numBuckets numExtraBuckets zero).buckets bucket) = none := by
  rw [lock_of_none_iff]
  simp only [construct, reset]
  decide

/-- An invariant of shaped tables that every operation keeps holds over a run. -/
theorem run_ops_ensures (hash : UInt64 → UInt64) (ops : List (Op V)) (table : FixedTable V)
    (shaped : ∃ lists, Shape hash table lists none) (valid : ∀ op ∈ ops, op.KeyValid)
    (invariant : FixedTable V → Prop) (holds : invariant table)
    (preserved : ∀ current after node, invariant current → Reaches hash node current after →
      invariant after) :
    Ensures LockFault (fun after => (∃ lists, Shape hash after lists none) ∧ invariant after)
      (runOps hash table ops) := by
  apply ensures_foldlM ops table ⟨shaped, holds⟩
  rintro current ⟨⟨lists, shape⟩, inv⟩ op member
  apply ensures_map
  refine ensures_mono (run_op_reaches shape op (valid op member)) ?_
  intro outcome reached
  exact ⟨reached.1, preserved current outcome.2 _ inv reached⟩

/-- After any sequence of operations on a new table the invariant holds; a run
that stops does so at an assertion about locks or roles or at a missing key,
never at one about indices, links or emptiness and never in a walk that goes on. -/
theorem representation_invariant (hash : UInt64 → UInt64) (isPrimary : Bool)
    (valSize numBuckets numExtraBuckets : Nat) (zero : V) (positive : 0 < numBuckets)
    (ops : List (Op V)) (valid : ∀ op ∈ ops, op.KeyValid) :
    Ensures (fun fault => ¬ Structural fault) (fun after => ∃ chain free, RepInv hash after chain free)
      (runOps hash (construct isPrimary valSize numBuckets numExtraBuckets zero) ops) := by
  have start := construct_shape hash isPrimary valSize numBuckets numExtraBuckets zero positive
  refine ensures_mono (run_ops_ensures hash ops _ ⟨_, start⟩ valid (fun _ => True) trivial
    (fun _ _ _ _ _ => trivial)) ?_
  rintro after ⟨⟨lists, shape⟩, _⟩
  exact ⟨_, _, rep_inv_of_shape shape⟩

theorem representation_invariant_insert_then_delete :
    Ensures (fun _ => False) (fun after => ∃ chain free, RepInv id after chain free)
      (runOps id (construct true 8 1 0 (0 : Nat))
        [.setSpinlock 3 1 10, .lockBktAndGet 3 1, .del 3 1]) := by
  have returns : Ensures (fun _ => False) (fun _ => True)
      (runOps id (construct true 8 1 0 (0 : Nat))
        [.setSpinlock 3 1 10, .lockBktAndGet 3 1, .del 3 1]) := by
    decide
  refine ensures_mono (ensures_with_run returns) ?_
  rintro after ⟨_, run⟩
  have ensured := representation_invariant id true 8 1 0 (0 : Nat) (by decide)
    [.setSpinlock 3 1 10, .lockBktAndGet 3 1, .del 3 1] (by simp [Op.KeyValid, Op.key, kFtInvalidKey])
  rw [run] at ensured
  exact ensured

end Fasst.FixedTableInvariant

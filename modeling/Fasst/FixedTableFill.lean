import Fasst.FixedTableExtra

/-!
# Closing the hole that `del` leaves

`fill_hole` moves an item of the last bucket of the chain into the cleared slot
and gives the last bucket back once it is empty. A last bucket that an earlier
`del` has emptied is given back first; the bucket before it is full, so the
loop ends with its second turn.
-/

namespace Fasst.FixedTableFill

open Fasst.FixedTableModel Fasst.LinkedChain Fasst.FixedTableShape Fasst.FixedTableWalks
open Fasst.FixedTableEdits Fasst.FixedTableLocks Fasst.FixedTableExtra

set_option autoImplicit false

variable {V : Type} {hash : UInt64 → UInt64} {table : FixedTable V} {lists : Lists}

theorem move_item_eq (table : FixedTable V) (source target : Nat) (sourceSlot targetSlot : Slot)
    (apart : source ≠ target) :
    moveItem table source sourceSlot target targetSlot =
      setItem (clearSlot table source sourceSlot) target targetSlot
        (keyAt table source sourceSlot) (valAt table source sourceSlot) := by
  simp only [moveItem, setItem, clearSlot, setBucket, keyAt, valAt,
    Function.update_of_ne apart, Function.update_of_ne apart.symm]
  rw [Function.update_comm apart]

theorem move_item_frame (table : FixedTable V) (source target : Nat)
    (sourceSlot targetSlot : Slot) (apart : source ≠ target) :
    SameFrame table (moveItem table source sourceSlot target targetSlot) := by
  rw [move_item_eq table source target sourceSlot targetSlot apart, clear_slot_eq_set_item]
  exact same_frame_trans (same_frame_set_item _ _ _ _ _) (same_frame_set_item _ _ _ _ _)

theorem mem_occupied (bucket : Bucket V) (slot : Slot) :
    slot ∈ occupiedSlots bucket ↔ bucket.keyArr slot ≠ kFtInvalidKey := by
  simp [occupiedSlots]

/-- Once the last bucket of a chain has the hole there is no hole: `Shape` asks
nothing of the slots there. -/
theorem shape_hole_tail {node : Nat} {slot : Slot}
    (shape : Shape hash table lists (some (node, slot))) {primary : Nat} {front : List Nat}
    (bound : primary < table.numBuckets) (split : chainNodes lists primary = front ++ [node]) :
    Shape hash table lists none := by
  refine { shape with full := ?_ }
  intro chain chainBound before last chainSplit other member otherSlot _
  apply shape.full chain chainBound before last chainSplit other member otherSlot
  intro same
  have sameNode : node = other := congrArg Prod.fst (Option.some.inj same)
  have onChain : other ∈ chainNodes lists chain := by simp [chainSplit, member]
  have onPrimary : other ∈ chainNodes lists primary := by simp [split, sameNode]
  have sameChain := shape.chain_disjoint chainBound bound onChain onPrimary
  have nodup := linked_nodup _ _ _ (shape.linkedChain primary bound)
  rw [split] at nodup
  rw [sameChain, split] at chainSplit
  obtain ⟨sameFront, _⟩ := List.append_inj' chainSplit rfl
  exact (List.nodup_append.mp nodup).2.2 other (sameFront ▸ member) node (by simp) sameNode.symm

/-- Moving an item of the last bucket into the hole. -/
theorem move_item_spec {node : Nat} {slot : Slot}
    (shape : Shape hash table lists (some (node, slot))) {primary source : Nat}
    {before : List Nat} (bound : primary < table.numBuckets)
    (split : chainNodes lists primary = before ++ [source]) (member : node ∈ before)
    (hollow : keyAt table node slot = kFtInvalidKey) (sourceSlot : Slot)
    (occupied : keyAt table source sourceSlot ≠ kFtInvalidKey) :
    source ≠ node ∧
      Shape hash (moveItem table source sourceSlot node slot) lists none ∧
      contents hash (moveItem table source sourceSlot node slot) = contents hash table := by
  have nodup := linked_nodup _ _ _ (shape.linkedChain primary bound)
  rw [split] at nodup
  have apart : source ≠ node := by
    intro same
    exact (List.nodup_append.mp nodup).2.2 node member source (by simp) same.symm
  have onChain : node ∈ chainNodes lists primary := by simp [split, member]
  have sourceOnChain : source ∈ chainNodes lists primary := by simp [split]
  have home := shape.placed primary bound source sourceOnChain sourceSlot occupied
  have cleared : Shape hash (clearSlot table source sourceSlot) lists (some (node, slot)) := by
    rw [clear_slot_eq_set_item]
    apply shape_set_item shape bound sourceOnChain sourceSlot _ _ _
      (fun valid => absurd rfl valid) (fun valid => absurd rfl valid)
    · intro other otherSlot notHole _
      exact notHole
    · exact Or.inr (Or.inr ⟨before, split⟩)
  have clearedContents := contents_clear_slot shape bound sourceOnChain sourceSlot occupied cleared
  have hollowAfter : keyAt (clearSlot table source sourceSlot) node slot = kFtInvalidKey := by
    rw [clear_slot_eq_set_item, set_item_key, if_neg (fun same => apart same.1.symm)]
    exact hollow
  have filled : Shape hash (moveItem table source sourceSlot node slot) lists none := by
    rw [move_item_eq table source node sourceSlot slot apart]
    apply shape_set_item cleared bound onChain slot _ _ none (fun _ => home)
    · intro _ other otherMember otherSlot sameKey
      rw [clear_slot_eq_set_item, set_item_key] at sameKey
      split_ifs at sameKey with here
      · exact absurd sameKey.symm occupied
      · have located := shape.unique primary bound other otherMember source sourceOnChain
          otherSlot sourceSlot sameKey (by rw [sameKey]; exact occupied)
        exact absurd located here
    · intro other otherSlot _ notHere same
      cases Option.some.inj same
      exact notHere ⟨rfl, rfl⟩
    · exact Or.inl occupied
  refine ⟨apart, filled, ?_⟩
  have stored : contents hash table (keyAt table source sourceSlot) =
      some (valAt table source sourceSlot) := by
    rw [contents_some_iff shape occupied]
    exact ⟨source, by rw [homeOf, home]; exact sourceOnChain, sourceSlot, rfl, rfl⟩
  rw [move_item_eq table source node sourceSlot slot apart] at filled ⊢
  rw [contents_set_item cleared onChain slot _ occupied home (Or.inl hollowAfter) filled,
    clearedContents, Function.update_idem, ← stored, Function.update_eq_self]

/-- One turn of the loop: the search reaches the last two nodes. -/
theorem fill_hole_turn (fuel : Nat) {node : Nat} {hole : Option (Nat × Slot)} (slot : Slot)
    (shape : Shape hash table lists hole) {primary following : Nat} {front rest : List Nat}
    (bound : primary < table.numBuckets)
    (split : chainNodes lists primary = front ++ node :: following :: rest) :
    ∃ before previous current, chainNodes lists primary = before ++ [previous, current] ∧
      node ∈ before ++ [previous] ∧
      fillHole (fuel + 1) table node slot =
        match occupiedSlots (table.buckets current) with
        | [] => do
            let freed ← freeExtraBucket table previous
            fillHole fuel freed node slot
        | movedSlot :: others =>
            if others = [] then freeExtraBucket (moveItem table current movedSlot node slot) previous
            else .ok (moveItem table current movedSlot node slot) := by
  have linked := shape.linkedChain primary bound
  rw [split] at linked
  have suffix := linked_suffix _ _ front (following :: rest) node linked
  have next : nextNode table node = some following := suffix.2.1
  have chained : hasExtraBucket (table.buckets node) := by
    rw [has_extra_iff, next]
    simp
  have inside : following :: rest ⊆ lists (some primary) := by
    intro item member
    cases front with
    | nil => rw [(List.cons.inj split).2]; exact member
    | cons first more =>
        rw [(List.cons.inj split).2]
        exact List.mem_append_right more (List.mem_cons_of_mem node member)
  have short := shape.list_length_le (owner_some bound)
  have nodup := (List.nodup_append.mp (linked_nodup _ _ _ linked)).2.1
  have fits := ((List.nodup_cons.mp nodup).2.subperm inside).length_le
  have enough : rest.length < table.numExtraBuckets + 1 := by
    rw [List.length_cons] at fits
    omega
  obtain ⟨before, previous, current, tail, run⟩ := walk_to_tail_spec _ node following rest shape
    (owner_some bound) suffix inside enough
  refine ⟨front ++ before, previous, current, ?_, ?_, ?_⟩
  · rw [split, tail, List.append_assoc]
  · cases before with
    | nil =>
        have same : node = previous := (List.cons.inj tail).1
        simp [same]
    | cons first more =>
        have same : node = first := (List.cons.inj tail).1
        simp [same]
  · rw [fillHole, if_pos chained, run]
    change (match occupiedSlots (table.buckets current) with
      | [] => _
      | movedSlot :: others => _) = _
    cases occupiedSlots (table.buckets current) <;> rfl

theorem fill_hole_at_tail (fuel : Nat) {node : Nat} {slot : Slot}
    (shape : Shape hash table lists (some (node, slot))) {primary : Nat} {front : List Nat}
    (bound : primary < table.numBuckets) (split : chainNodes lists primary = front ++ [node]) :
    fillHole (fuel + 1) table node slot = .ok table ∧ Shape hash table lists none := by
  have linked := shape.linkedChain primary bound
  rw [split] at linked
  have last : ¬ hasExtraBucket (table.buckets node) := by
    rw [has_extra_iff, not_not]
    exact linked_last _ _ front node linked
  exact ⟨by rw [fillHole, if_neg last], shape_hole_tail shape bound split⟩

def Filled (hash : UInt64 → UInt64) (table : FixedTable V)
    (outcome : Except Fault (FixedTable V)) : Prop :=
  ∃ filled newLists, outcome = .ok filled ∧ Shape hash filled newLists none ∧
    contents hash filled = contents hash table ∧ SameFrame table filled

theorem fill_hole_move {node : Nat} {slot : Slot}
    (shape : Shape hash table lists (some (node, slot))) {primary previous current : Nat}
    {before : List Nat} (bound : primary < table.numBuckets)
    (split : chainNodes lists primary = before ++ [previous, current])
    (member : node ∈ before ++ [previous]) (hollow : keyAt table node slot = kFtInvalidKey)
    (movedSlot : Slot) (others : List Slot)
    (occupied : occupiedSlots (table.buckets current) = movedSlot :: others) :
    Filled hash table
      (if others = [] then freeExtraBucket (moveItem table current movedSlot node slot) previous
      else .ok (moveItem table current movedSlot node slot)) := by
  have present : keyAt table current movedSlot ≠ kFtInvalidKey := by
    rw [keyAt, ← mem_occupied, occupied]
    simp
  obtain ⟨apart, moved, same⟩ := move_item_spec shape bound
    (by rw [split]; simp) member hollow movedSlot present
  have frame := move_item_frame table current node movedSlot slot apart
  split_ifs with only
  · have empty : ∀ other, keyAt (moveItem table current movedSlot node slot) current other =
        kFtInvalidKey := by
      intro other
      rw [move_item_eq table current node movedSlot slot apart, set_item_key,
        if_neg (fun here => apart here.1), clear_slot_eq_set_item, set_item_key]
      split_ifs with here
      · rfl
      · by_contra nonempty
        have listed := (mem_occupied (table.buckets current) other).mpr nonempty
        rw [occupied, only, List.mem_singleton] at listed
        exact here ⟨rfl, listed⟩
    have movedBound : primary < (moveItem table current movedSlot node slot).numBuckets := by
      rw [frame.numBuckets]
      exact bound
    obtain ⟨run, _, after, unchanged⟩ := free_extra_spec moved movedBound split empty
    exact ⟨_, _, run, after, unchanged.trans same,
      same_frame_trans frame (release_frame _ previous current)⟩
  · exact ⟨_, lists, rfl, moved, same, frame⟩

theorem fill_hole_spec {node : Nat} {slot : Slot}
    (shape : Shape hash table lists (some (node, slot))) {primary : Nat}
    (bound : primary < table.numBuckets) (member : node ∈ chainNodes lists primary)
    (hollow : keyAt table node slot = kFtInvalidKey) :
    Filled hash table (fillHole (table.numExtraBuckets + 1) table node slot) := by
  obtain ⟨front, behind, split⟩ := List.append_of_mem member
  cases behind with
  | nil =>
      obtain ⟨run, after⟩ := fill_hole_at_tail table.numExtraBuckets shape bound split
      exact ⟨table, lists, run, after, rfl, same_frame_refl table⟩
  | cons following rest =>
      obtain ⟨before, previous, current, tail, onFront, turn⟩ :=
        fill_hole_turn table.numExtraBuckets slot shape bound split
      rw [turn]
      cases occupied : occupiedSlots (table.buckets current) with
      | cons movedSlot others =>
          exact fill_hole_move shape bound tail onFront hollow movedSlot others occupied
      | nil =>
          have empty : ∀ other, keyAt table current other = kFtInvalidKey := by
            intro other
            by_contra nonempty
            have listed := (mem_occupied (table.buckets current) other).mpr nonempty
            rw [occupied] at listed
            cases listed
          obtain ⟨run, nodes, freed, same⟩ := free_extra_spec shape bound tail empty
          have frame := release_frame table previous current
          have room : 0 < table.numExtraBuckets := by
            have short := shape.list_length_le (owner_some bound)
            have lengths := congrArg List.length tail
            simp only [chainNodes, List.length_cons, List.length_append, List.length_nil] at lengths
            omega
          obtain ⟨fuel, more⟩ := Nat.exists_eq_succ_of_ne_zero room.ne'
          simp only [run]
          change Filled hash table (fillHole table.numExtraBuckets _ node slot)
          rw [more]
          have freedBound : primary < (release table previous current).numBuckets := by
            rw [frame.numBuckets]
            exact bound
          have apart : previous ≠ current := by
            have nodup := linked_nodup _ _ _ (shape.linkedChain primary bound)
            rw [tail] at nodup
            simpa using (List.nodup_append.mp nodup).2.1
          have keys : ∀ other otherSlot,
              keyAt (release table previous current) other otherSlot = keyAt table other otherSlot := by
            intro other otherSlot
            rw [keyAt, keyAt, (release_items table previous current other apart).1]
          by_cases isTail : node = previous
          · subst node
            obtain ⟨again, after⟩ := fill_hole_at_tail fuel freed freedBound nodes
            exact ⟨_, _, again, after, same, frame⟩
          · have inFront : node ∈ before := by simpa [isTail] using onFront
            obtain ⟨first, second, frontSplit⟩ := List.append_of_mem inFront
            obtain ⟨second', rest', behindSplit⟩ : ∃ following' rest',
                second ++ [previous] = following' :: rest' := by
              cases second <;> simp
            have newSplit : chainNodes (freeLists lists primary current) primary =
                first ++ node :: second' :: rest' := by
              rw [nodes, frontSplit, ← behindSplit]
              simp
            obtain ⟨front', previous', current', tail', onFront', turn'⟩ :=
              fill_hole_turn fuel slot freed freedBound newSplit
            have sameTail : current' = previous := by
              rw [nodes, show front' ++ [previous', current'] = (front' ++ [previous']) ++ [current']
                by simp] at tail'
              have last := (List.append_inj' tail' rfl).2
              simpa using last.symm
            subst current'
            have full : keyAt (release table previous current) previous ⟨0, by decide⟩ ≠
                kFtInvalidKey := by
              rw [keys]
              apply shape.full primary bound (before ++ [previous]) current (by simp [tail]) previous
                (by simp)
              intro impossible
              exact isTail (congrArg Prod.fst (Option.some.inj impossible))
            have listed := (mem_occupied _ _).mpr full
            rw [turn']
            cases occupied' : occupiedSlots ((release table previous current).buckets previous) with
            | nil =>
                rw [occupied'] at listed
                cases listed
            | cons movedSlot others =>
                obtain ⟨filled, newLists, ended, after, unchanged, sameFrame⟩ :=
                  fill_hole_move freed freedBound tail' onFront' (by rw [keys]; exact hollow)
                    movedSlot others occupied'
                exact ⟨filled, newLists, ended, after, unchanged.trans same,
                  same_frame_trans frame sameFrame⟩

end Fasst.FixedTableFill

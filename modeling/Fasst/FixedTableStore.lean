import Fasst.FixedTableFill

/-!
# Lookup, insertion and removal on a shaped table

What the three chain operations mean for the finite map `contents`. The lock
fields play no part here; `SameFrame` records that they are not touched.
-/

namespace Fasst.FixedTableStore

open Fasst.FixedTableModel Fasst.LinkedChain Fasst.FixedTableShape Fasst.FixedTableWalks
open Fasst.FixedTableEdits Fasst.FixedTableLocks Fasst.FixedTableExtra Fasst.FixedTableFill

set_option autoImplicit false

variable {V : Type} {hash : UInt64 → UInt64} {table : FixedTable V} {lists : Lists}

theorem lookup_spec {hole : Option (Nat × Slot)} (shape : Shape hash table lists hole)
    {key : UInt64} (valid : key ≠ kFtInvalidKey) :
    ∃ outcome, findItemIndex table (homeOf hash table key) key = .ok outcome ∧
      FindOutcome table (chainNodes lists (homeOf hash table key)) key outcome ∧
      contents hash table key = outcome.map fun place => valAt table place.1 place.2 := by
  obtain ⟨outcome, run, meaning⟩ := find_item_index_spec shape (home_of_lt shape key) key
  refine ⟨outcome, run, meaning, ?_⟩
  rw [contents, if_neg valid, run]
  cases outcome <;> rfl

/-- Overwriting a slot that is empty while the key is stored nowhere, or that
already stores the key. -/
theorem store_at (node : Nat) (slot : Slot) {key : UInt64} (shape : Shape hash table lists none)
    (valid : key ≠ kFtInvalidKey)
    (member : node ∈ chainNodes lists (homeOf hash table key))
    (target : (keyAt table node slot = kFtInvalidKey ∧ contents hash table key = none) ∨
      keyAt table node slot = key) (value : V) :
    Shape hash (setItem table node slot key value) lists none ∧
      contents hash (setItem table node slot key value) =
        Function.update (contents hash table) key (some value) := by
  have bound := home_of_lt shape key
  have after : Shape hash (setItem table node slot key value) lists none := by
    apply shape_set_item shape bound member slot key value none (fun _ => rfl)
    · intro _ other otherMember otherSlot sameKey
      rcases target with ⟨_, missing⟩ | present
      · exact absurd sameKey ((contents_none_iff shape valid).mp missing other otherMember otherSlot)
      · exact shape.unique _ bound other otherMember node member otherSlot slot
          (sameKey.trans present.symm) (by rw [sameKey]; exact valid)
    · intro other otherSlot notHole _
      exact notHole
    · exact Or.inl valid
  have old : keyAt table node slot = kFtInvalidKey ∨ keyAt table node slot = key :=
    target.imp And.left id
  exact ⟨after, contents_set_item shape member slot value valid rfl old after⟩

theorem alloc_lists_last (lists : Lists) (primary extra : Nat) (rest : List Nat) :
    extra ∈ chainNodes (allocLists lists primary extra rest) primary := by
  simp [chainNodes, allocLists]

/-- No slot is left on the way to a new item: the free list is used up and the
primary bucket of the key is full. -/
def Exhausted (hash : UInt64 → UInt64) (table : FixedTable V) (key : UInt64) : Prop :=
  table.freeListHead = 0 ∧ ∀ slot, keyAt table (homeOf hash table key) slot ≠ kFtInvalidKey

/-- Whether insertion finds a place, and the table once the item is stored. -/
theorem place_item_spec (shape : Shape hash table lists none) {key : UInt64}
    (valid : key ≠ kFtInvalidKey) (value : V) :
    (∃ located slot placed newLists,
      placeItem table (homeOf hash table key) key = .ok (some (located, slot), placed) ∧
      Shape hash (setItem placed located slot key value) newLists none ∧
      contents hash (setItem placed located slot key value) =
        Function.update (contents hash table) key (some value) ∧
      SameFrame table (setItem placed located slot key value)) ∨
    (placeItem table (homeOf hash table key) key = .ok (none, table) ∧
      contents hash table key = none ∧ Exhausted hash table key) := by
  obtain ⟨outcome, run, meaning, value_eq⟩ := lookup_spec shape valid
  cases outcome with
  | some place =>
      obtain ⟨after, updated⟩ := store_at _ _ shape valid meaning.1 (Or.inr meaning.2) value
      refine Or.inl ⟨place.1, place.2, table, lists, ?_, after, updated,
        same_frame_set_item table place.1 place.2 key value⟩
      rw [placeItem, run]
      rfl
  | none =>
      have missing : contents hash table key = none := value_eq
      have bound := home_of_lt shape key
      have direct : placeItem table (homeOf hash table key) key =
          getEmpty table (homeOf hash table key) := by
        rw [placeItem, run]
        rfl
      rw [direct, getEmpty]
      obtain ⟨scanned, scan, found⟩ := scan_primary_spec shape bound kFtInvalidKey
      rw [scan]
      cases scanned with
      | inl place =>
          obtain ⟨after, updated⟩ :=
            store_at _ _ shape valid found.1 (Or.inl ⟨found.2, missing⟩) value
          exact Or.inl ⟨place.1, place.2, table, lists, rfl, after, updated,
            same_frame_set_item table place.1 place.2 key value⟩
      | inr last =>
          obtain ⟨⟨before, split⟩, allFull⟩ := found
          have linkedFree := shape.linkedFree
          cases free : lists none with
          | nil =>
              right
              have ended : ¬ hasExtraBucket (table.buckets last) := by
                have linked := shape.linkedChain _ bound
                rw [split] at linked
                rw [has_extra_iff, not_not]
                exact linked_last _ _ before last linked
              have exhausted : table.freeListHead = 0 := by
                rw [free] at linkedFree
                have null : freeHead table = none := linkedFree
                unfold freeHead at null
                split_ifs at null with zero
                exact zero
              have refused : allocExtraBucket table last = .ok (false, table) := by
                rw [allocExtraBucket, check_pass _ _ ended]
                simp only [if_pos exhausted]
                rfl
              refine ⟨?_, missing, exhausted, allFull _ (by simp [chainNodes])⟩
              simp only [bind, Except.bind, refused, Bool.false_eq_true, if_false]
          | cons extra rest =>
              left
              obtain ⟨taken, fetched, grown, unchanged⟩ :=
                alloc_extra_spec shape bound split allFull free
              have onChain := alloc_lists_last lists (homeOf hash table key) extra rest
              have empty : ∀ slot, keyAt (grow table last extra) extra slot = kFtInvalidKey := by
                intro slot
                have apart : last ≠ extra := by
                  intro same
                  have member : last ∈ chainNodes lists (homeOf hash table key) := by simp [split]
                  exact shape.chain_not_free bound member (by simp [free, same])
                rw [keyAt, (grow_items table last extra extra apart).1]
                exact shape.freeEmpty extra (by simp [free]) slot
              have frame := grow_frame table last extra
              have home : homeOf hash (grow table last extra) key = homeOf hash table key :=
                calc_bucket_index_congr _ _ frame.numBuckets _
              obtain ⟨after, updated⟩ := store_at extra ⟨0, by decide⟩ grown valid
                (by rw [home]; exact onChain)
                (Or.inl ⟨empty _, by rw [unchanged]; exact missing⟩) value
              refine ⟨extra, ⟨0, by decide⟩, grow table last extra, _, ?_, after, ?_,
                same_frame_trans frame (same_frame_set_item _ _ _ _ _)⟩
              · simp only [bind, Except.bind, taken, fetched, if_true]
              · rw [updated, unchanged]

/-- Removing a stored item, from the clearing of its slot to the filled hole. -/
theorem remove_item_spec (shape : Shape hash table lists none) {key : UInt64}
    (valid : key ≠ kFtInvalidKey) {node : Nat} {slot : Slot}
    (member : node ∈ chainNodes lists (homeOf hash table key))
    (present : keyAt table node slot = key) :
    ∃ filled newLists,
      fillHole (table.numExtraBuckets + 1) (clearSlot table node slot) node slot = .ok filled ∧
      Shape hash filled newLists none ∧
      contents hash filled = Function.update (contents hash table) key none ∧
      SameFrame table filled := by
  have bound := home_of_lt shape key
  have cleared : Shape hash (clearSlot table node slot) lists (some (node, slot)) := by
    rw [clear_slot_eq_set_item]
    apply shape_set_item shape bound member slot _ _ _ (fun valid => absurd rfl valid)
      (fun valid => absurd rfl valid)
    · intro other otherSlot _ _
      simp
    · exact Or.inr (Or.inl rfl)
  have hollow : keyAt (clearSlot table node slot) node slot = kFtInvalidKey := by
    rw [clear_slot_eq_set_item, set_item_key, if_pos ⟨rfl, rfl⟩]
  have removed := contents_clear_slot shape bound member slot (by rw [present]; exact valid) cleared
  have frame : SameFrame table (clearSlot table node slot) := by
    rw [clear_slot_eq_set_item]
    exact same_frame_set_item _ _ _ _ _
  obtain ⟨filled, newLists, run, after, unchanged, sameFrame⟩ :=
    fill_hole_spec cleared bound member hollow
  exact ⟨filled, newLists, run, after, by rw [unchanged, removed, present],
    same_frame_trans frame sameFrame⟩

end Fasst.FixedTableStore

import Mathlib.Data.List.Perm.Basic
import Mathlib.Data.List.Dedup

/-!
# Lists made of blocks

A list that is put together from one block for every key. When the block of one
key changes, the other blocks stay, and the order of the blocks does not matter up
to permutation.
-/

namespace Fasst.Blocks

set_option autoImplicit false

universe u v

variable {Key : Type u} {Item : Type v} [DecidableEq Key]
  {keys : List Key} {key : Key} {left right : Key → List Item}

def others (block : Key → List Item) (keys : List Key) (key : Key) : List Item :=
  (keys.erase key).flatMap block

theorem perm_block (block : Key → List Item) (member : key ∈ keys) :
    (keys.flatMap block).Perm (block key ++ others block keys key) := by
  have moved := (List.perm_cons_erase member).flatMap_right block
  rw [List.flatMap_cons] at moved
  exact moved

theorem others_congr (nodup : keys.Nodup) (agree : ∀ other, other ≠ key → left other = right other) :
    others left keys key = others right keys key := by
  apply List.flatMap_congr
  intro other member
  exact agree other (nodup.mem_erase_iff.mp member).1

/-- Two families that differ in one block. -/
theorem perm_replace (nodup : keys.Nodup) (member : key ∈ keys)
    (agree : ∀ other, other ≠ key → left other = right other) {before after common : List Item}
    (old : (left key).Perm (before ++ common)) (new : (right key).Perm (after ++ common)) :
    ∃ rest, (keys.flatMap left).Perm (before ++ rest) ∧
      (keys.flatMap right).Perm (after ++ rest) := by
  refine ⟨common ++ others left keys key, ?_, ?_⟩
  · apply (perm_block left member).trans
    rw [← List.append_assoc]
    exact old.append_right _
  · apply (perm_block right member).trans
    rw [← others_congr nodup agree, ← List.append_assoc]
    exact new.append_right _

/-- The items under a key, when all of them were put under one. -/
theorem filter_tagged {Tagged : Type u} (tag : Tagged → Key) (item : Tagged → Item)
    (make : Item → Tagged) {own : Key} (tagged : ∀ entry, tag (make entry) = own)
    (back : ∀ entry, item (make entry) = entry) (items : List Item) (key : Key) :
    ((items.map make).filter fun entry => tag entry == key).map item =
      if own = key then items else [] := by
  have kept : item ∘ make = id := funext back
  rw [List.filter_map, List.map_map, kept, List.map_id]
  split_ifs with same
  · rw [List.filter_eq_self]
    intro entry _
    rw [Function.comp_apply, tagged, beq_iff_eq]
    exact same
  · rw [List.filter_eq_nil_iff]
    intro entry _
    rw [Function.comp_apply, tagged, beq_iff_eq]
    exact same

theorem filter_key_eq_singleton {tag : Item → Key} {items : List Item}
    (nodup : (items.map tag).Nodup) {item : Item} (member : item ∈ items) :
    items.filter (fun other => tag other == tag item) = [item] := by
  induction items with
  | nil => cases member
  | cons first rest ih =>
      rw [List.map_cons, List.nodup_cons] at nodup
      rcases List.mem_cons.mp member with rfl | later
      · have none : rest.filter (fun other => tag other == tag item) = [] := by
          rw [List.filter_eq_nil_iff]
          intro other inside same
          exact nodup.1 (beq_iff_eq.mp same ▸ List.mem_map_of_mem inside)
        rw [List.filter_cons_of_pos (by rw [beq_iff_eq]), none]
      · have apart : tag first ≠ tag item := by
          intro same
          exact nodup.1 (same ▸ List.mem_map_of_mem later)
        rw [List.filter_cons_of_neg (by rw [beq_iff_eq]; exact apart)]
        exact ih nodup.2 later

end Fasst.Blocks

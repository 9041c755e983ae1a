import Mathlib.Data.List.Forall2
import Mathlib.Data.List.Nodup
import Mathlib.Tactic.Common

/-!
# Lists in step

Two lists of the same length whose entries at equal positions are related, and
what becomes of the relation when one entry of the second list is replaced.
-/

namespace Fasst.Aligned

open List

set_option autoImplicit false

universe u v w

variable {Left : Type u} {Right : Type v}

theorem forall₂_getElem {related : Left → Right → Prop} {left : List Left} {right : List Right}
    (aligned : Forall₂ related left right) (index : Nat) {entry : Right}
    (found : right[index]? = some entry) :
    ∃ item, left[index]? = some item ∧ related item entry := by
  induction aligned generalizing index with
  | nil => cases found
  | cons head tail ih =>
      cases index with
      | zero =>
          have same := Option.some.inj (show some _ = some entry from found)
          subst same
          exact ⟨_, rfl, head⟩
      | succ index => exact ih index found

theorem forall₂_set {related updated : Left → Right → Prop} {left : List Left}
    {right : List Right} (aligned : Forall₂ related left right) (index : Nat) (entry : Right)
    (others : ∀ position item other, position ≠ index → left[position]? = some item →
      right[position]? = some other → related item other → updated item other)
    (here : ∀ item, left[index]? = some item → updated item entry) :
    Forall₂ updated left (right.set index entry) := by
  induction aligned generalizing index with
  | nil => exact .nil
  | cons head tail ih =>
      cases index with
      | zero =>
          refine .cons (here _ rfl) ?_
          have rest : ∀ position item other, _ → _ → _ → _ := fun position item other =>
            others (position + 1) item other (Nat.succ_ne_zero position)
          clear here ih head others
          induction tail with
          | nil => exact .nil
          | cons first more ih =>
              refine .cons (rest 0 _ _ rfl rfl first) (ih ?_)
              intro position item other left right
              exact rest (position + 1) item other left right
      | succ index =>
          refine .cons (others 0 _ _ (Nat.succ_ne_zero index).symm rfl rfl head) (ih index ?_ ?_)
          · intro position item other different
            exact others (position + 1) item other (fun same => different (Nat.succ.inj same))
          · exact here

/-- The relation may change between entries that stay. -/
theorem forall₂_imp_mem {related updated : Left → Right → Prop} {left : List Left}
    {right : List Right} (aligned : Forall₂ related left right)
    (implies : ∀ item ∈ left, ∀ entry ∈ right, related item entry → updated item entry) :
    Forall₂ updated left right := by
  induction aligned with
  | nil => exact .nil
  | cons head tail ih =>
      refine .cons (implies _ mem_cons_self _ mem_cons_self head) (ih ?_)
      intro item member entry otherMember
      exact implies item (mem_cons_of_mem _ member) entry (mem_cons_of_mem _ otherMember)

theorem forall₂_map_self {related : Left → Right → Prop} (left : List Left)
    (image : Left → Right) (holds : ∀ item ∈ left, related item (image item)) :
    Forall₂ related left (left.map image) := by
  induction left with
  | nil => exact .nil
  | cons item rest ih =>
      exact .cons (holds item mem_cons_self)
        (ih fun other member => holds other (mem_cons_of_mem _ member))

theorem forall₂_mem_left {related : Left → Right → Prop} {left : List Left} {right : List Right}
    (aligned : Forall₂ related left right) {item : Left} (member : item ∈ left) :
    ∃ entry ∈ right, related item entry := by
  induction aligned with
  | nil => cases member
  | cons head tail ih =>
      rcases mem_cons.mp member with same | rest
      · exact ⟨_, mem_cons_self, same ▸ head⟩
      · obtain ⟨entry, inside, holds⟩ := ih rest
        exact ⟨entry, mem_cons_of_mem _ inside, holds⟩

theorem forall₂_mem_right {related : Left → Right → Prop} {left : List Left} {right : List Right}
    (aligned : Forall₂ related left right) {entry : Right} (member : entry ∈ right) :
    ∃ item ∈ left, related item entry := by
  induction aligned with
  | nil => cases member
  | cons head tail ih =>
      rcases mem_cons.mp member with same | rest
      · exact ⟨_, mem_cons_self, same ▸ head⟩
      · obtain ⟨item, inside, holds⟩ := ih rest
        exact ⟨item, mem_cons_of_mem _ inside, holds⟩

theorem nodup_map_ne {Key : Type w} {key : Left → Key} {items : List Left}
    (nodup : (items.map key).Nodup) {first second : Nat} {item other : Left}
    (different : first ≠ second) (found : items[first]? = some item)
    (otherFound : items[second]? = some other) : key item ≠ key other := by
  intro same
  have left : (items.map key)[first]? = some (key item) := by simp [found]
  have right : (items.map key)[second]? = some (key other) := by simp [otherFound]
  obtain ⟨bound, value⟩ := List.getElem?_eq_some_iff.mp left
  obtain ⟨otherBound, otherValue⟩ := List.getElem?_eq_some_iff.mp right
  apply different
  exact (@List.Nodup.getElem_inj_iff _ _ nodup _ bound _ otherBound).mp
    (value.trans (same.trans otherValue.symm))

theorem set_of_getElem? {items : List Left} {index : Nat} {item : Left}
    (found : items[index]? = some item) : items.set index item = items := by
  obtain ⟨bound, value⟩ := List.getElem?_eq_some_iff.mp found
  rw [← value]
  exact set_getElem_self bound

theorem filterMap_full {Payload : Type w} (payload : Right → Option Payload) (entries : List Right)
    (complete : (entries.filterMap payload).length = entries.length) :
    Forall₂ (fun entry value => payload entry = some value) entries
      (entries.filterMap payload) := by
  induction entries with
  | nil => exact .nil
  | cons entry rest ih =>
      cases found : payload entry with
      | none =>
          rw [filterMap_cons_none found] at complete
          have short := length_filterMap_le payload rest
          rw [length_cons] at complete
          omega
      | some value =>
          rw [filterMap_cons_some found] at complete ⊢
          rw [length_cons, length_cons] at complete
          exact .cons found (ih (by omega))

theorem forall₂_trans {Middle : Type w} {first : Left → Middle → Prop}
    {second : Middle → Right → Prop} {joined : Left → Right → Prop} {left : List Left}
    {middle : List Middle} {right : List Right} (start : Forall₂ first left middle)
    (finish : Forall₂ second middle right)
    (join : ∀ item between entry, first item between → second between entry → joined item entry) :
    Forall₂ joined left right := by
  induction start generalizing right with
  | nil =>
      cases finish
      exact .nil
  | cons head tail ih =>
      cases finish with
      | cons otherHead otherTail => exact .cons (join _ _ _ head otherHead) (ih otherTail)

theorem forall₂_zipWith {Value : Type w} {related : Left → Right → Prop}
    {image : Left → Value → Prop} {combine : Left → Right → Value} {left : List Left}
    {right : List Right} (aligned : Forall₂ related left right)
    (holds : ∀ item entry, related item entry → image item (combine item entry)) :
    Forall₂ image left (zipWith combine left right) := by
  induction aligned with
  | nil => exact .nil
  | cons head _ ih => exact .cons (holds _ _ head) ih

theorem zipWith_append_right_excess {Value : Type w} (combine : Left → Right → Value)
    (left : List Left) (right excess : List Right) (sameLength : left.length = right.length) :
    zipWith combine left (right ++ excess) = zipWith combine left right := by
  induction left generalizing right with
  | nil => simp
  | cons item rest ih =>
      cases right with
      | nil => cases sameLength
      | cons entry more =>
          rw [cons_append, zipWith_cons_cons, zipWith_cons_cons, ih more (Nat.succ.inj sameLength)]

theorem mapM_zip_ok {Err Value : Type w} {related : Left → Right → Prop}
    {compute : Left → Right → Except Err Value} {result : Left → Right → Value}
    {left : List Left} {right : List Right} (aligned : Forall₂ related left right)
    (each : ∀ item entry, related item entry → compute item entry = .ok (result item entry)) :
    (zip left right).mapM (fun pair => compute pair.1 pair.2) =
      .ok (zipWith result left right) := by
  induction aligned with
  | nil => rfl
  | cons head _ ih =>
      rw [zip_cons_cons, mapM_cons, each _ _ head, ih]
      rfl

theorem forall₂_and {first second : Left → Right → Prop} {left : List Left} {right : List Right}
    (aligned : Forall₂ first left right) (other : Forall₂ second left right) :
    Forall₂ (fun item entry => first item entry ∧ second item entry) left right := by
  induction aligned with
  | nil => exact .nil
  | cons head _ ih =>
      cases other with
      | cons otherHead otherTail => exact .cons ⟨head, otherHead⟩ (ih otherTail)

theorem forall₂_of_all_zipWith {test : Left → Right → Bool} {left : List Left}
    {right : List Right} (sameLength : left.length = right.length)
    (passed : (zipWith test left right).all id = true) :
    Forall₂ (fun item entry => test item entry = true) left right := by
  induction left generalizing right with
  | nil =>
      cases right with
      | nil => exact .nil
      | cons _ _ => cases sameLength
  | cons item rest ih =>
      cases right with
      | nil => cases sameLength
      | cons entry more =>
          rw [zipWith_cons_cons, all_cons, Bool.and_eq_true] at passed
          exact .cons passed.1 (ih (Nat.succ.inj sameLength) passed.2)

theorem forall₂_modify {related : Left → Left → Prop} {change : Left → Left} {items : List Left}
    (index : Nat) (stays : ∀ item, related item item) (changes : ∀ item, related item (change item)) :
    Forall₂ related items (items.modify index change) := by
  induction items generalizing index with
  | nil =>
      rw [modify_nil]
      exact .nil
  | cons item rest ih =>
      cases index with
      | zero =>
          rw [modify_zero_cons]
          exact .cons (changes item) (forall₂_same.mpr fun other _ => stays other)
      | succ index =>
          rw [modify_succ_cons]
          exact .cons (stays item) (ih index)

theorem forall₂_of_length_eq {left : List Left} {right : List Right}
    (sameLength : left.length = right.length) : Forall₂ (fun _ _ => True) left right := by
  induction left generalizing right with
  | nil =>
      cases right with
      | nil => exact .nil
      | cons _ _ => cases sameLength
  | cons item rest ih =>
      cases right with
      | nil => cases sameLength
      | cons entry more => exact .cons trivial (ih (Nat.succ.inj sameLength))

theorem map_eq_of_forall₂ {Key : Type w} {related : Left → Right → Prop} {leftKey : Left → Key}
    {rightKey : Right → Key} {left : List Left} {right : List Right}
    (aligned : Forall₂ related left right)
    (same : ∀ item entry, related item entry → rightKey entry = leftKey item) :
    right.map rightKey = left.map leftKey := by
  induction aligned with
  | nil => rfl
  | cons first _ ih => rw [map_cons, map_cons, same _ _ first, ih]

/-- One more member of a duplicate-free list passes the test. -/
theorem forall₂_one {related : Left → Right → Prop} {first : Left} {right : List Right}
    (aligned : Forall₂ related [first] right) : ∃ entry, related first entry ∧ right = [entry] := by
  obtain ⟨entry, rest, holds, done, rfl⟩ := forall₂_cons_left_iff.mp aligned
  cases done
  exact ⟨entry, holds, rfl⟩

theorem forall₂_two {related : Left → Right → Prop} {first second : Left} {right : List Right}
    (aligned : Forall₂ related [first, second] right) :
    ∃ entry other, related first entry ∧ related second other ∧ right = [entry, other] := by
  obtain ⟨entry, rest, holds, tail, rfl⟩ := forall₂_cons_left_iff.mp aligned
  obtain ⟨other, otherHolds, rfl⟩ := forall₂_one tail
  exact ⟨entry, other, holds, otherHolds, rfl⟩

theorem forall₂_three {related : Left → Right → Prop} {first second third : Left}
    {right : List Right} (aligned : Forall₂ related [first, second, third] right) :
    ∃ entry other last, related first entry ∧ related second other ∧ related third last ∧
      right = [entry, other, last] := by
  obtain ⟨entry, rest, holds, tail, rfl⟩ := forall₂_cons_left_iff.mp aligned
  obtain ⟨other, last, otherHolds, lastHolds, rfl⟩ := forall₂_two tail
  exact ⟨entry, other, last, holds, otherHolds, lastHolds, rfl⟩

theorem countP_flip {before after : Left → Bool} {items : List Left} (nodup : items.Nodup)
    {item : Left} (member : item ∈ items)
    (others : ∀ other ∈ items, other ≠ item → after other = before other)
    (off : before item = false) (on : after item = true) :
    items.countP after = items.countP before + 1 := by
  induction items with
  | nil => cases member
  | cons first rest ih =>
      obtain ⟨fresh, tail⟩ := nodup_cons.mp nodup
      rcases mem_cons.mp member with same | inRest
      · have unchanged : rest.countP after = rest.countP before := by
          apply countP_congr
          intro other inside
          rw [others other (mem_cons_of_mem _ inside) (fun equal => fresh (same ▸ equal ▸ inside))]
        rw [countP_cons_of_pos (same ▸ on), countP_cons_of_neg (by simp [← same, off]), unchanged]
      · have different : first ≠ item := fun equal => fresh (equal ▸ inRest)
        have step := ih tail inRest (fun other inside => others other (mem_cons_of_mem _ inside))
        rw [countP_cons, countP_cons, step, others first mem_cons_self different]
        omega

end Fasst.Aligned

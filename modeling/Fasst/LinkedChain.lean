import Mathlib.Data.List.Nodup
import Mathlib.Tactic.Common

/-!
# Singly linked chains over an index space

A `next` function on nodes, with `none` as the null link, determines at most
one list of nodes from a given head. The lemmas here say how such a list
changes when one link at its end is attached or detached, and that the list
of a chain never repeats a node. Nothing below mentions a particular table.
-/

namespace Fasst.LinkedChain

set_option autoImplicit false

variable {Node : Type*}

def Linked (next : Node → Option Node) : Option Node → List Node → Prop
  | head, [] => head = none
  | head, node :: rest => head = some node ∧ Linked next (next node) rest

theorem linked_unique (next : Node → Option Node) (head : Option Node) (left right : List Node)
    (leftLinked : Linked next head left) (rightLinked : Linked next head right) :
    left = right := by
  induction left generalizing head right with
  | nil =>
      have null : head = none := leftLinked
      cases right with
      | nil => rfl
      | cons node rest =>
          have occupied := rightLinked.1
          rw [null] at occupied
          cases occupied
  | cons node rest ih =>
      cases right with
      | nil =>
          have null : head = none := rightLinked
          rw [null] at leftLinked
          cases leftLinked.1
      | cons other tail =>
          have same : node = other := Option.some.inj (leftLinked.1.symm.trans rightLinked.1)
          subst other
          rw [ih (next node) tail leftLinked.2 rightLinked.2]

/-- Only the links of the nodes on the list matter. -/
theorem linked_frame (next other : Node → Option Node) (head : Option Node) (nodes : List Node)
    (linked : Linked next head nodes) (agree : ∀ node ∈ nodes, other node = next node) :
    Linked other head nodes := by
  induction nodes generalizing head with
  | nil => exact linked
  | cons node rest ih =>
      refine ⟨linked.1, ?_⟩
      rw [agree node (by simp)]
      exact ih (next node) linked.2 (fun item member => agree item (by simp [member]))

theorem linked_suffix (next : Node → Option Node) (head : Option Node)
    (before after : List Node) (node : Node)
    (linked : Linked next head (before ++ node :: after)) :
    Linked next (some node) (node :: after) := by
  induction before generalizing head with
  | nil => exact ⟨rfl, linked.2⟩
  | cons first rest ih => exact ih (next first) linked.2

theorem linked_last (next : Node → Option Node) (head : Option Node)
    (before : List Node) (last : Node)
    (linked : Linked next head (before ++ [last])) : next last = none :=
  (linked_suffix next head before [] last linked).2

theorem linked_middle (next : Node → Option Node) (head : Option Node)
    (before after : List Node) (node following : Node)
    (linked : Linked next head (before ++ node :: following :: after)) :
    next node = some following :=
  (linked_suffix next head before (following :: after) node linked).2.1

/-- A chain that reaches the null link visits no node twice: a second visit
would give two lists of different length from the same node. -/
theorem linked_nodup (next : Node → Option Node) (head : Option Node) (nodes : List Node)
    (linked : Linked next head nodes) : nodes.Nodup := by
  induction nodes generalizing head with
  | nil => exact List.nodup_nil
  | cons node rest ih =>
      refine List.nodup_cons.mpr ⟨?_, ih (next node) linked.2⟩
      intro member
      obtain ⟨before, after, split⟩ := List.append_of_mem member
      have whole : Linked next (some node) (node :: rest) := ⟨rfl, linked.2⟩
      have again : Linked next (some node) (node :: after) := by
        rw [split] at linked
        exact linked_suffix next (next node) before after node linked.2
      have same := linked_unique next (some node) _ _ whole again
      have lengths := congrArg List.length same
      rw [split] at lengths
      simp at lengths
      omega

/-- Attaching a fresh node behind the last one. -/
theorem linked_snoc (next other : Node → Option Node) (head : Option Node)
    (before : List Node) (last fresh : Node)
    (linked : Linked next head (before ++ [last]))
    (agree : ∀ node ∈ before, other node = next node)
    (attached : other last = some fresh) (ended : other fresh = none) :
    Linked other head (before ++ [last, fresh]) := by
  induction before generalizing head with
  | nil =>
      refine ⟨linked.1, ?_⟩
      rw [attached]
      exact ⟨rfl, ended⟩
  | cons node rest ih =>
      refine ⟨linked.1, ?_⟩
      rw [agree node (by simp)]
      exact ih (next node) linked.2 (fun item member => agree item (by simp [member]))

/-- Detaching the last node. -/
theorem linked_detach (next other : Node → Option Node) (head : Option Node)
    (before : List Node) (last removed : Node)
    (linked : Linked next head (before ++ [last, removed]))
    (agree : ∀ node ∈ before, other node = next node)
    (detached : other last = none) :
    Linked other head (before ++ [last]) := by
  induction before generalizing head with
  | nil =>
      refine ⟨linked.1, ?_⟩
      rw [detached]
      rfl
  | cons node rest ih =>
      refine ⟨linked.1, ?_⟩
      rw [agree node (by simp)]
      exact ih (next node) linked.2 (fun item member => agree item (by simp [member]))

end Fasst.LinkedChain

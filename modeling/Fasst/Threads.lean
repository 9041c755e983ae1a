import Mathlib.Data.List.Basic
import Mathlib.Data.List.Nodup
import Mathlib.Logic.Function.Basic

/-!
# Lists threaded through an array

An array that gives every node a successor. A list of nodes is threaded from a
start when following the successors from it visits the nodes in order; the array
may hold anything at the other nodes. A list is extended by writing the successor
of its last node.
-/

namespace Fasst.Threads

set_option autoImplicit false

universe u

variable {Node : Type u} {next : Node → Node}

def Threaded (next : Node → Node) : Node → List Node → Prop
  | _, [] => True
  | start, node :: rest => next start = node ∧ Threaded next node rest

theorem threaded_append (start : Node) (first second : List Node) :
    Threaded next start (first ++ second) ↔
      Threaded next start first ∧ Threaded next (first.getLastD start) second := by
  induction first generalizing start with
  | nil => simp [Threaded]
  | cons node rest ih =>
      rw [List.cons_append, List.getLastD_cons]
      simp only [Threaded, ih, and_assoc]

variable [DecidableEq Node]

theorem threaded_update_last {start : Node} {nodes : List Node} (node : Node)
    (threaded : Threaded next start nodes) (nodup : (start :: nodes).Nodup) :
    Threaded (Function.update next (nodes.getLastD start) node) start (nodes ++ [node]) := by
  induction nodes generalizing start with
  | nil =>
      refine ⟨?_, trivial⟩
      rw [List.getLastD_nil, Function.update_self]
  | cons first rest ih =>
      have apart : start ≠ rest.getLastD first := by
        intro equal
        apply (List.nodup_cons.mp nodup).1
        rw [equal, List.getLastD_eq_getLast?]
        cases rest with
        | nil => exact List.mem_cons_self
        | cons second others =>
            apply List.mem_cons_of_mem
            rw [List.getLast?_eq_some_getLast (List.cons_ne_nil second others)]
            exact List.getLast_mem _
      rw [List.getLastD_cons, List.cons_append]
      refine ⟨?_, ih threaded.2 (List.nodup_cons.mp nodup).2⟩
      rw [Function.update_of_ne apart]
      exact threaded.1

/-- The nodes from one of them on until home is reached. -/
def follow (next : Node → Node) (home : Node) : Nat → Node → Option (List Node)
  | 0, _ => none
  | fuel + 1, node =>
      if node = home then some [] else (follow next home fuel (next node)).map (node :: ·)

theorem follow_threaded {home start : Node} {nodes : List Node} (fuel : Nat)
    (threaded : Threaded next start (nodes ++ [home])) (away : home ∉ nodes)
    (enough : nodes.length < fuel) : follow next home fuel (next start) = some nodes := by
  induction nodes generalizing start fuel with
  | nil =>
      obtain ⟨fuel, rfl⟩ := Nat.exists_eq_succ_of_ne_zero (Nat.ne_of_gt enough)
      rw [threaded.1, follow, if_pos rfl]
  | cons node rest ih =>
      obtain ⟨fuel, rfl⟩ := Nat.exists_eq_succ_of_ne_zero
        (Nat.ne_of_gt (Nat.lt_of_le_of_lt (Nat.zero_le _) enough))
      have other : node ≠ home := by
        intro equal
        exact away (equal ▸ List.mem_cons_self)
      rw [threaded.1, follow, if_neg other, ih fuel threaded.2
        (fun member => away (List.mem_cons_of_mem node member)) (Nat.lt_of_succ_lt_succ enough)]
      rfl

end Fasst.Threads

import Mathlib.Tactic.Common

/-!
# Selective signaling

A send queue asks for a completion only with the first entry of every window of
sends. One completion covers all entries posted before it. `uncovered` is what
has been queued since the last completion that was taken: what is posted,
followed by what is not posted yet. It consists of the unsignaled rest of an
old window and of the entries of the current one.
-/

namespace Fasst.SignalWindow

set_option autoImplicit false

universe u

variable {Entry : Type u} (signaled : Entry → Bool)

/-- Wait for the first completion; `none` if no posted entry will have one. -/
def pollOne : List Entry → Option (List Entry)
  | [] => none
  | entry :: rest => if signaled entry then some rest else pollOne rest

def Marked : List Entry → Prop
  | [] => True
  | first :: rest => signaled first = true ∧ ∀ entry ∈ rest, signaled entry = false

def Windowed (window pending : Nat) (uncovered : List Entry) : Prop :=
  ∃ old current, uncovered = old ++ current ∧ old.length < window ∧
    (∀ entry ∈ old, signaled entry = false) ∧ current.length = pending ∧ pending < window ∧
    Marked signaled current

variable {signaled} {window pending : Nat} {uncovered posted queued : List Entry} {entry : Entry}

theorem poll_one_skips (old : List Entry) (rest : List Entry)
    (silent : ∀ entry ∈ old, signaled entry = false) :
    pollOne signaled (old ++ rest) = pollOne signaled rest := by
  induction old with
  | nil => rfl
  | cons first old ih =>
      rw [List.cons_append, pollOne, silent first List.mem_cons_self]
      exact ih fun entry member => silent entry (List.mem_cons_of_mem first member)

theorem poll_one_suffix (rest : List Entry) (polled : pollOne signaled posted = some rest) :
    ∃ front, posted = front ++ rest := by
  induction posted with
  | nil => cases polled
  | cons first posted ih =>
      rw [pollOne] at polled
      split_ifs at polled
      · rw [← Option.some.inj polled]
        exact ⟨[first], rfl⟩
      · obtain ⟨front, shape⟩ := ih polled
        exact ⟨first :: front, by rw [shape, List.cons_append]⟩

theorem marked_push {current : List Entry} (marked : Marked signaled current)
    (flag : signaled entry = (current.length == 0)) : Marked signaled (current ++ [entry]) := by
  cases current with
  | nil => exact ⟨flag, fun _ member => absurd member List.not_mem_nil⟩
  | cons first rest =>
      refine ⟨marked.1, ?_⟩
      intro other member
      rcases List.mem_append.mp member with before | last
      · exact marked.2 other before
      · rw [List.mem_singleton.mp last, flag]
        rfl

theorem silent_congr {left right : List Entry} (same : left.map signaled = right.map signaled)
    (silent : ∀ entry ∈ left, signaled entry = false) :
    ∀ entry ∈ right, signaled entry = false := by
  have flags : ∀ flag ∈ left.map signaled, flag = false := List.forall_mem_map.mpr silent
  rw [same] at flags
  exact List.forall_mem_map.mp flags

theorem marked_congr {left right : List Entry} (same : left.map signaled = right.map signaled)
    (marked : Marked signaled left) : Marked signaled right := by
  cases left with
  | nil =>
      rw [List.map_eq_nil_iff.mp same.symm]
      trivial
  | cons first others =>
      cases right with
      | nil => cases same
      | cons head tail =>
          rw [List.map_cons, List.map_cons, List.cons.injEq] at same
          exact ⟨same.1 ▸ marked.1, silent_congr same.2 marked.2⟩

/-- Whether a list is windowed depends only on its flags. -/
theorem windowed_congr {left right : List Entry} (same : left.map signaled = right.map signaled)
    (windowed : Windowed signaled window pending left) :
    Windowed signaled window pending right := by
  obtain ⟨old, current, rfl, oldLength, silent, rfl, bound, marked⟩ := windowed
  rw [List.map_append] at same
  obtain ⟨front, back, rfl, frontFlags, backFlags⟩ := List.map_eq_append_iff.mp same.symm
  have frontLength := congrArg List.length frontFlags
  have backLength := congrArg List.length backFlags
  rw [List.length_map, List.length_map] at frontLength backLength
  exact ⟨front, back, rfl, by omega, silent_congr frontFlags.symm silent, backLength, bound,
    marked_congr backFlags.symm marked⟩

theorem windowed_nil (positive : 0 < window) : Windowed signaled window 0 [] :=
  ⟨[], [], rfl, positive, fun _ member => absurd member List.not_mem_nil, rfl, positive, trivial⟩

theorem windowed_length (windowed : Windowed signaled window pending uncovered) :
    uncovered.length < window + pending := by
  obtain ⟨old, current, rfl, oldLength, -, currentLength, -, -⟩ := windowed
  rw [List.length_append]
  omega

theorem windowed_push (windowed : Windowed signaled window pending uncovered)
    (room : pending + 1 < window) (flag : signaled entry = (pending == 0)) :
    Windowed signaled window (pending + 1) (uncovered ++ [entry]) := by
  obtain ⟨old, current, rfl, oldLength, silent, rfl, -, marked⟩ := windowed
  refine ⟨old, current ++ [entry], List.append_assoc _ _ _, oldLength, silent, ?_, room,
    marked_push marked flag⟩
  rw [List.length_append, List.length_singleton]

/-- When a window is full, its signaled entry has been posted, provided that fewer
entries are still queued; its completion leaves only unsignaled entries. -/
theorem windowed_poll (windowed : Windowed signaled window pending (posted ++ queued))
    (full : pending + 1 = window) (few : queued.length < pending)
    (flag : signaled entry = false) :
    ∃ rest, pollOne signaled posted = some rest ∧
      Windowed signaled window 0 ((rest ++ queued) ++ [entry]) := by
  obtain ⟨old, current, split, -, silent, currentLength, -, marked⟩ := windowed
  cases current with
  | nil =>
      rw [List.length_nil] at currentLength
      omega
  | cons first others =>
      rw [List.length_cons] at currentLength
      have longer : old.length + 1 ≤ posted.length := by
        have total := congrArg List.length split
        rw [List.length_append, List.length_append, List.length_cons] at total
        omega
      rw [← List.singleton_append, ← List.append_assoc] at split
      have front : old ++ [first] <+: posted := by
        apply List.prefix_of_prefix_length_le ⟨others, split.symm⟩ ⟨queued, rfl⟩
        rw [List.length_append, List.length_singleton]
        exact longer
      obtain ⟨rest, rfl⟩ := front
      rw [List.append_assoc] at split
      have remaining : rest ++ queued = others := List.append_cancel_left split
      refine ⟨rest, ?_, others ++ [entry], [], ?_, ?_, ?_, rfl, by omega, trivial⟩
      · rw [List.append_assoc, poll_one_skips old _ silent, List.singleton_append, pollOne,
          if_pos marked.1]
      · rw [List.append_nil, remaining]
      · rw [List.length_append, List.length_singleton]
        omega
      · intro other member
        rcases List.mem_append.mp member with before | last
        · exact marked.2 other before
        · rw [List.mem_singleton.mp last, flag]

end Fasst.SignalWindow

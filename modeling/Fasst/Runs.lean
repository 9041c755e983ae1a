import Mathlib.Tactic.Common

/-!
# Runs of a labelled machine

A machine is a relation between a state, a label and the next state; often the next
state is computed by a partial function. What holds at the start and is preserved by
every step holds in every state that a run can reach.
-/

namespace Fasst.Runs

set_option autoImplicit false

universe u v

variable {State : Type u} {Label : Type v} {step : State → Label → Option State}
  {moves : State → Label → State → Prop} {init state next : State}

inductive RunsTo (moves : State → Label → State → Prop) (init : State) : State → Prop where
  | refl : RunsTo moves init init
  | step {state next : State} (label : Label) (reached : RunsTo moves init state)
      (ran : moves state label next) : RunsTo moves init next

abbrev Reachable (step : State → Label → Option State) (init : State) : State → Prop :=
  RunsTo (fun state label next => step state label = some next) init

theorem reachable_invariant {invariant : State → Prop} (start : invariant init)
    (preserved : ∀ state label next, invariant state → moves state label next → invariant next)
    (reached : RunsTo moves init state) : invariant state := by
  induction reached with
  | refl => exact start
  | step label _ ran ih => exact preserved _ label _ ih ran

theorem reachable_of_run (labels : List Label) (reached : Reachable step init state)
    (ran : labels.foldlM step state = some next) : Reachable step init next := by
  induction labels generalizing state with
  | nil =>
      rw [← Option.some.inj ran]
      exact reached
  | cons label rest ih =>
      rw [List.foldlM_cons] at ran
      obtain ⟨middle, first, others⟩ := Option.bind_eq_some_iff.mp ran
      exact ih (.step label reached first) others

theorem reachable_of_any {goal : State → Bool} (labels : List Label)
    (ran : (labels.foldlM step init).any goal = true) :
    ∃ final, Reachable step init final ∧ goal final = true := by
  obtain ⟨final, run, attained⟩ := (Option.any_eq_true _ _).mp ran
  exact ⟨final, reachable_of_run labels .refl run, attained⟩

theorem reachable_trans {middle : State} (first : RunsTo moves init middle)
    (second : RunsTo moves middle state) : RunsTo moves init state := by
  induction second with
  | refl => exact first
  | step label _ ran ih => exact .step label ih ran

/-- If a step lowers the rank wherever the goal does not hold, the goal can be
reached. -/
theorem reachable_goal {invariant goal : State → Prop} (rank : State → Nat)
    (preserved : ∀ state label next, invariant state → step state label = some next →
      invariant next)
    (progress : ∀ state, invariant state → ¬ goal state →
      ∃ label next, step state label = some next ∧ rank next < rank state)
    (holds : invariant state) : ∃ final, Reachable step state final ∧ goal final := by
  induction size : rank state using Nat.strongRecOn generalizing state with
  | ind bound ih =>
      by_cases already : goal state
      · exact ⟨state, .refl, already⟩
      · rcases progress state holds already with ⟨label, next, ran, lower⟩
        rcases ih (rank next) (size ▸ lower) (preserved state label next holds ran) rfl with
          ⟨final, reached, attained⟩
        exact ⟨final, reachable_trans (.step label .refl ran) reached, attained⟩

end Fasst.Runs

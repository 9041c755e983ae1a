/-!
# Two computations that may stop, side by side

Both return, and their values are related, or both stop with the same error. The
rules follow the way such computations are composed.
-/

namespace Fasst.Agreement

set_option autoImplicit false

universe u v w

variable {Err : Type u} {First Second : Type v} {FirstNext SecondNext : Type v}

def Agree (related : First → Second → Prop) : Except Err First → Except Err Second → Prop
  | .ok first, .ok second => related first second
  | .error stopped, .error other => stopped = other
  | _, _ => False

theorem agree_bind {related : First → Second → Prop} {after : FirstNext → SecondNext → Prop}
    {left : Except Err First} {right : Except Err Second} {leftRest : First → Except Err FirstNext}
    {rightRest : Second → Except Err SecondNext} (start : Agree related left right)
    (continued : ∀ first second, related first second →
      Agree after (leftRest first) (rightRest second)) :
    Agree after (left >>= leftRest) (right >>= rightRest) := by
  cases left with
  | ok first =>
      cases right with
      | ok second => exact continued first second start
      | error stopped => exact absurd start id
  | error stopped =>
      cases right with
      | ok second => exact absurd start id
      | error other => exact start

theorem agree_map {related : First → Second → Prop} {after : FirstNext → SecondNext → Prop}
    {left : Except Err First} {right : Except Err Second} {change : First → FirstNext}
    {otherChange : Second → SecondNext} (start : Agree related left right)
    (changed : ∀ first second, related first second → after (change first) (otherChange second)) :
    Agree after (change <$> left) (otherChange <$> right) := by
  cases left with
  | ok first =>
      cases right with
      | ok second => exact changed first second start
      | error stopped => exact absurd start id
  | error stopped =>
      cases right with
      | ok second => exact absurd start id
      | error other => exact start

/-- Both sides begin with the same computation. -/
theorem agree_begin {after : FirstNext → SecondNext → Prop} {outcome : Except Err First}
    {leftRest : First → Except Err FirstNext} {rightRest : First → Except Err SecondNext}
    (continued : ∀ value, outcome = .ok value → Agree after (leftRest value) (rightRest value)) :
    Agree after (outcome >>= leftRest) (outcome >>= rightRest) := by
  cases outcome with
  | ok value => exact continued value rfl
  | error stopped => rfl

/-- Both sides branch on the same condition. -/
theorem agree_ite {related : First → Second → Prop} {condition : Prop} [Decidable condition]
    {left leftElse : Except Err First} {right rightElse : Except Err Second}
    (yes : condition → Agree related left right)
    (no : ¬ condition → Agree related leftElse rightElse) :
    Agree related (if condition then left else leftElse)
      (if condition then right else rightElse) := by
  by_cases holds : condition
  · rw [if_pos holds, if_pos holds]
    exact yes holds
  · rw [if_neg holds, if_neg holds]
    exact no holds

end Fasst.Agreement

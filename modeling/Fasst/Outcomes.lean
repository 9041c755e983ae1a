/-!
# Computations that may stop

A result predicate for computations that either return a value or stop with an
error: every value that is returned satisfies `post`, every error is one of
those in `allowed`. The rules follow the way such computations are composed.
-/

namespace Fasst.Outcomes

set_option autoImplicit false

universe u v w

variable {Err : Type u} {Value : Type v} {Next : Type v}

def Ensures (allowed : Err → Prop) (post : Value → Prop) : Except Err Value → Prop
  | .ok value => post value
  | .error stopped => allowed stopped

instance (allowed : Err → Prop) (post : Value → Prop) [DecidablePred allowed] [DecidablePred post] :
    DecidablePred (Ensures allowed post)
  | .ok value => inferInstanceAs (Decidable (post value))
  | .error stopped => inferInstanceAs (Decidable (allowed stopped))

theorem ensures_bind {allowed : Err → Prop} {middle : Value → Prop} {post : Next → Prop}
    {first : Except Err Value} {rest : Value → Except Err Next}
    (start : Ensures allowed middle first)
    (continued : ∀ value, middle value → Ensures allowed post (rest value)) :
    Ensures allowed post (first >>= rest) := by
  cases first with
  | ok value => exact continued value start
  | error stopped => exact start

theorem ensures_bind_ok {allowed : Err → Prop} {post : Next → Prop} {first : Except Err Value}
    {rest : Value → Except Err Next} {value : Value} (run : first = .ok value)
    (continued : Ensures allowed post (rest value)) : Ensures allowed post (first >>= rest) := by
  rw [run]
  exact continued

theorem ensures_mono {allowed : Err → Prop} {post weaker : Value → Prop}
    {outcome : Except Err Value} (ensured : Ensures allowed post outcome)
    (implies : ∀ value, post value → weaker value) : Ensures allowed weaker outcome := by
  cases outcome with
  | ok value => exact implies value ensured
  | error stopped => exact ensured

theorem ensures_weaken {allowed weaker : Err → Prop} {post : Value → Prop}
    {outcome : Except Err Value} (ensured : Ensures allowed post outcome)
    (implies : ∀ stopped, allowed stopped → weaker stopped) : Ensures weaker post outcome := by
  cases outcome with
  | ok value => exact ensured
  | error stopped => exact implies stopped ensured

theorem ensures_with_run {allowed : Err → Prop} {post : Value → Prop}
    {outcome : Except Err Value} (ensured : Ensures allowed post outcome) :
    Ensures allowed (fun value => post value ∧ outcome = .ok value) outcome := by
  cases outcome with
  | ok value => exact ⟨ensured, rfl⟩
  | error stopped => exact ensured

theorem ensures_elim {allowed : Err → Prop} {post : Value → Prop} {outcome : Except Err Value}
    {value : Value} (ensured : Ensures allowed post outcome) (run : outcome = .ok value) :
    post value := by
  rw [run] at ensured
  exact ensured

/-- A computation that cannot stop returns. -/
theorem ensures_returns {post : Value → Prop} {outcome : Except Err Value}
    (ensured : Ensures (fun _ => False) post outcome) :
    ∃ value, outcome = .ok value ∧ post value := by
  cases outcome with
  | ok value => exact ⟨value, rfl, ensured⟩
  | error stopped => exact absurd ensured id

theorem ensures_map {allowed : Err → Prop} {post : Next → Prop} {outcome : Except Err Value}
    (change : Value → Next) (ensured : Ensures allowed (fun value => post (change value)) outcome) :
    Ensures allowed post (change <$> outcome) := by
  cases outcome with
  | ok value => exact ensured
  | error stopped => exact ensured

/-- What every step of a run preserves holds at its end. -/
theorem ensures_foldlM {Item : Type w} {allowed : Err → Prop} {invariant : Value → Prop}
    {step : Value → Item → Except Err Value} (items : List Item) (start : Value)
    (holds : invariant start)
    (preserved : ∀ value, invariant value → ∀ item ∈ items,
      Ensures allowed invariant (step value item)) :
    Ensures allowed invariant (items.foldlM step start) := by
  induction items generalizing start with
  | nil => exact holds
  | cons item rest ih =>
      rw [List.foldlM_cons]
      refine ensures_bind (preserved start holds item List.mem_cons_self) ?_
      intro next kept
      exact ih next kept fun value inv other member =>
        preserved value inv other (List.mem_cons_of_mem item member)

end Fasst.Outcomes

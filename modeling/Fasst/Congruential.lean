import Mathlib.Algebra.Ring.Nat
import Mathlib.Data.Nat.ModEq
import Mathlib.Data.UInt
import Mathlib.Logic.Function.Iterate
import Mathlib.Tactic.Ring

/-!
# Linear congruential generators on 64 bits

A generator with a multiplier that is one modulo four and an odd increment goes
through all words, from wherever it starts. A loop that draws until a number is
accepted therefore ends, if some word is accepted at all.
-/

namespace Fasst.Congruential

set_option autoImplicit false

def affine (factor offset state : Nat) : Nat := factor * state + offset

section Orbits

variable {factor offset : Nat}

/-- Two to the power of `level` steps are one affine map, and this is its shape. -/
theorem iterate_pow (multiplier : factor % 4 = 1) (increment : offset % 2 = 1) (level : Nat) :
    ∃ slope shift, ∀ state, (affine factor offset)^[2 ^ level] state =
      (1 + 2 ^ (level + 2) * slope) * state + 2 ^ level * (2 * shift + 1) := by
  induction level with
  | zero =>
      refine ⟨factor / 4, offset / 2, fun state => ?_⟩
      rw [pow_zero, Function.iterate_one, affine, one_mul,
        show 1 + 2 ^ (0 + 2) * (factor / 4) = factor by omega,
        show 2 * (offset / 2) + 1 = offset by omega]
  | succ level ih =>
      obtain ⟨slope, shift, shape⟩ := ih
      refine ⟨slope + 2 ^ (level + 1) * slope * slope,
        shift + 2 ^ level * slope * (2 * shift + 1), fun state => ?_⟩
      rw [pow_succ, mul_two, Function.iterate_add_apply, shape, shape]
      ring

/-- They change the bit at `level` and none below it. -/
theorem iterate_flips (multiplier : factor % 4 = 1) (increment : offset % 2 = 1)
    (level state : Nat) :
    (affine factor offset)^[2 ^ level] state ≡ state + 2 ^ level [MOD 2 ^ (level + 1)] := by
  obtain ⟨slope, shift, shape⟩ := iterate_pow multiplier increment level
  rw [shape, show (1 + 2 ^ (level + 2) * slope) * state + 2 ^ level * (2 * shift + 1) =
    state + 2 ^ level + 2 ^ (level + 1) * (2 * slope * state + shift) by ring]
  exact (Nat.modEq_iff_dvd' (Nat.le_add_right _ _)).mpr ⟨_, Nat.add_sub_cancel_left _ _⟩ |>.symm

theorem modEq_double {level left right : Nat} (same : left ≡ right [MOD 2 ^ level]) :
    left ≡ right [MOD 2 ^ (level + 1)] ∨ left + 2 ^ level ≡ right [MOD 2 ^ (level + 1)] := by
  have size : 2 ^ (level + 1) = 2 ^ level * 2 := pow_succ 2 level
  have positive : 0 < 2 ^ level := Nat.two_pow_pos level
  unfold Nat.ModEq at *
  rw [size, Nat.mod_mul, Nat.mod_mul, Nat.mod_mul, Nat.add_mod_right,
    Nat.add_div_right _ positive, same]
  by_cases parity : left / 2 ^ level % 2 = right / 2 ^ level % 2
  · left
    rw [parity]
  · right
    rw [show (left / 2 ^ level + 1) % 2 = right / 2 ^ level % 2 by omega]

theorem orbit_reaches (multiplier : factor % 4 = 1) (increment : offset % 2 = 1)
    (level start target : Nat) :
    ∃ count, count < 2 ^ level ∧
      (affine factor offset)^[count] start ≡ target [MOD 2 ^ level] := by
  induction level with
  | zero => exact ⟨0, Nat.one_pos, by rw [pow_zero]; exact Nat.modEq_one⟩
  | succ level ih =>
      obtain ⟨count, bound, low⟩ := ih
      have size : 2 ^ (level + 1) = 2 ^ level + 2 ^ level := by rw [pow_succ, mul_two]
      rcases modEq_double low with same | other
      · exact ⟨count, by omega, same⟩
      · refine ⟨2 ^ level + count, by omega, ?_⟩
        rw [Function.iterate_add_apply]
        exact (iterate_flips multiplier increment level _).trans other

end Orbits

section Words

def advance (factor offset state : UInt64) : UInt64 := state * factor + offset

variable {factor offset : UInt64}

theorem advance_toNat (state : UInt64) (count : Nat) :
    ((advance factor offset)^[count] state).toNat ≡
      (affine factor.toNat offset.toNat)^[count] state.toNat [MOD 2 ^ 64] := by
  induction count with
  | zero => exact Nat.ModEq.rfl
  | succ count ih =>
      rw [Function.iterate_succ_apply', Function.iterate_succ_apply']
      have step : (advance factor offset ((advance factor offset)^[count] state)).toNat ≡
          affine factor.toNat offset.toNat ((advance factor offset)^[count] state).toNat
            [MOD 2 ^ 64] := by
        rw [advance, affine, UInt64.toNat_add, UInt64.toNat_mul, Nat.mul_comm]
        exact (Nat.mod_modEq _ _).trans ((Nat.mod_modEq _ _).add_right _)
      exact step.trans ((ih.mul_left _).add_right _)

theorem advance_reaches (multiplier : factor.toNat % 4 = 1) (increment : offset.toNat % 2 = 1)
    (start target : UInt64) :
    ∃ count, count < 2 ^ 64 ∧ (advance factor offset)^[count] start = target := by
  obtain ⟨count, bound, same⟩ := orbit_reaches multiplier increment 64 start.toNat target.toNat
  refine ⟨count, bound, UInt64.toNat.inj ?_⟩
  have both := (advance_toNat start count).trans same
  rw [Nat.ModEq, Nat.mod_eq_of_lt (UInt64.toNat_lt _), Nat.mod_eq_of_lt (UInt64.toNat_lt _)] at both
  exact both

end Words

section Loops

variable {State Value : Type} {draw : State → Value × State} {accept : Value → Bool}

/-- Draw until a value is accepted, at most `fuel` times. -/
def drawUntil (draw : State → Value × State) (accept : Value → Bool) :
    Nat → State → Option (Value × State)
  | 0, _ => none
  | fuel + 1, state =>
      if accept (draw state).1 then some (draw state) else drawUntil draw accept fuel (draw state).2

theorem draw_until_accepted {fuel : Nat} {state : State} {result : Value × State}
    (drawn : drawUntil draw accept fuel state = some result) : accept result.1 = true := by
  induction fuel generalizing state with
  | zero => cases drawn
  | succ fuel ih =>
      rw [drawUntil] at drawn
      split_ifs at drawn with accepted
      · rw [← Option.some.inj drawn]
        exact accepted
      · exact ih drawn

/-- The loop ends if the generator comes to a state whose value is accepted. -/
theorem draw_until_ends {count fuel : Nat} {state : State} (enough : count < fuel)
    (accepted : accept (draw ((fun state => (draw state).2)^[count] state)).1 = true) :
    ∃ result, drawUntil draw accept fuel state = some result := by
  induction fuel generalizing count state with
  | zero => exact absurd enough (Nat.not_lt_zero _)
  | succ fuel ih =>
      rw [drawUntil]
      split_ifs with here
      · exact ⟨_, rfl⟩
      · cases count with
        | zero => exact absurd accepted here
        | succ count =>
            rw [Function.iterate_succ_apply] at accepted
            exact ih (Nat.lt_of_succ_lt_succ enough) accepted

end Loops

end Fasst.Congruential

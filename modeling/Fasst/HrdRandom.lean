import Fasst.Congruential

/-!
# The random numbers of the applications

`hrd_fastrand` returns the upper half of a congruential generator. Every number
of 32 bits comes up from every seed, so that loops that draw until a number
suits them end after less than `2 ^ 64` draws.
-/

namespace Fasst.HrdRandom

open Fasst.Congruential

set_option autoImplicit false

def hrdFastrand (seed : UInt64) : UInt32 × UInt64 :=
  let next := seed * 1103515245 + 12345
  ((next >>> 32).toUInt32, next)

theorem fastrand_reaches (seed : UInt64) (value : UInt32) :
    ∃ count, count < 2 ^ 64 ∧
      (hrdFastrand ((fun seed => (hrdFastrand seed).2)^[count] seed)).1 = value := by
  have multiplier : (1103515245 : UInt64).toNat % 4 = 1 := by decide
  have increment : (12345 : UInt64).toNat % 2 = 1 := by decide
  obtain ⟨count, bound, same⟩ := advance_reaches multiplier increment (hrdFastrand seed).2
    (value.toUInt64 <<< 32)
  refine ⟨count, bound, ?_⟩
  have last : (hrdFastrand ((fun seed => (hrdFastrand seed).2)^[count] seed)).2 =
      value.toUInt64 <<< 32 := by
    rw [← same, ← Function.iterate_succ_apply' (fun seed => (hrdFastrand seed).2),
      Function.iterate_succ_apply]
    rfl
  have upper : (hrdFastrand ((fun seed => (hrdFastrand seed).2)^[count] seed)).1 =
      ((hrdFastrand ((fun seed => (hrdFastrand seed).2)^[count] seed)).2 >>> 32).toUInt32 := rfl
  rw [upper, last]
  apply UInt32.toNat.inj
  have bound := value.toNat_lt
  simp only [UInt64.toNat_toUInt32, UInt64.toNat_shiftRight, UInt64.toNat_shiftLeft,
    UInt32.toNat_toUInt64, Nat.shiftLeft_eq, Nat.shiftRight_eq_div_pow]
  have half : (32 : UInt64).toNat % 64 = 32 := by decide
  rw [half]
  omega

/-- A loop of draws ends if some number suits it. -/
theorem fastrand_until_ends {accept : UInt32 → Bool} {value : UInt32} {fuel : Nat}
    (enough : 2 ^ 64 ≤ fuel) (accepted : accept value = true) (seed : UInt64) :
    ∃ result, drawUntil hrdFastrand accept fuel seed = some result := by
  obtain ⟨count, bound, same⟩ := fastrand_reaches seed value
  exact draw_until_ends (Nat.lt_of_lt_of_le bound enough) (by rw [same]; exact accepted)

/-- The percent of a draw is an index of a table with a hundred entries. -/
theorem percent_total {α : Type} (entries : List α) (hundred : entries.length = 100)
    (draw : UInt32) : ∃ entry, entries[(draw % 100).toNat]? = some entry := by
  have bound : (draw % 100).toNat < entries.length := by
    rw [hundred, UInt32.toNat_mod]
    exact Nat.mod_lt _ (by decide)
  exact ⟨_, List.getElem?_eq_getElem bound⟩

end Fasst.HrdRandom

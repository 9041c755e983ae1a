import Mathlib.Data.List.Nodup
import Mathlib.Data.List.Range
import Mathlib.Data.Nat.ModEq
import Mathlib.Tactic.Common

/-!
# Slots of a ring

The slots of a ring of some size that are in use are consecutive: slots are taken
from the front and the next ones are added behind the last.
-/

namespace Fasst.RingSlots

set_option autoImplicit false

variable {size : Nat}

def slotsFrom (size start count : Nat) : List Nat :=
  (List.range count).map fun i => (start + i) % size

theorem slots_from_length (start count : Nat) : (slotsFrom size start count).length = count := by
  rw [slotsFrom, List.length_map, List.length_range]

theorem slots_from_nodup (start count : Nat) (bound : count ≤ size) :
    (slotsFrom size start count).Nodup := by
  apply List.Nodup.map_on _ List.nodup_range
  intro i below j under equal
  rw [List.mem_range] at below under
  have same : i ≡ j [MOD size] := Nat.ModEq.add_left_cancel' start equal
  rw [Nat.ModEq, Nat.mod_eq_of_lt (by omega), Nat.mod_eq_of_lt (by omega)] at same
  exact same

variable {slots : List Nat} {head : Nat}

end Fasst.RingSlots

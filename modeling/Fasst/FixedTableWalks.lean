import Fasst.FixedTableShape

/-!
# The three chain walks

`find_item_index`, the scan of `get_empty` and the tail search of `fill_hole`
each follow the stored links. On a table with a shape they visit exactly the
nodes of the chain, so they neither trip an index assertion nor run on, and
their results are statements about those nodes.
-/

namespace Fasst.FixedTableWalks

open Fasst.FixedTableModel Fasst.LinkedChain Fasst.FixedTableShape

set_option autoImplicit false

variable {V : Type} {hash : UInt64 → UInt64} {table : FixedTable V} {lists : Lists}
  {hole : Option (Nat × Slot)}

theorem first_slot_some (bucket : Bucket V) (key : UInt64) (slot : Slot)
    (found : firstSlot bucket key = some slot) : bucket.keyArr slot = key := by
  have holds := List.find?_some found
  simpa using holds

theorem first_slot_none (bucket : Bucket V) (key : UInt64) (found : firstSlot bucket key = none)
    (slot : Slot) : bucket.keyArr slot ≠ key := by
  have absent := List.find?_eq_none.mp found slot (List.mem_finRange slot)
  simpa using absent

/-- What a scan along `nodes` may answer; the second case comes with the last
node of the chain and the absence of the wanted key from every node. -/
def ScanOutcome (table : FixedTable V) (nodes : List Nat) (wanted : UInt64) :
    (Nat × Slot) ⊕ Nat → Prop
  | .inl (node, slot) => node ∈ nodes ∧ keyAt table node slot = wanted
  | .inr last => (∃ before, nodes = before ++ [last]) ∧
      ∀ node ∈ nodes, ∀ slot, keyAt table node slot ≠ wanted

theorem scan_chain_spec (wanted : UInt64) (fuel node : Nat) (rest : List Nat)
    (shape : Shape hash table lists hole) {owner : Option Nat} (valid : Owner table owner)
    (linked : Linked (nextNode table) (some node) (node :: rest))
    (inside : rest ⊆ lists owner) (enough : rest.length < fuel) :
    ∃ outcome, scanChain table wanted fuel node = .ok outcome ∧
      ScanOutcome table (node :: rest) wanted outcome := by
  induction fuel generalizing node rest with
  | zero => omega
  | succ fuel ih =>
      rw [scanChain]
      cases found : firstSlot (table.buckets node) wanted with
      | some slot =>
          exact ⟨.inl (node, slot), rfl, by simp, first_slot_some _ _ _ found⟩
      | none =>
          have absent := first_slot_none _ _ found
          cases rest with
          | nil =>
              have ended : nextNode table node = none := linked.2
              have last : ¬ hasExtraBucket (table.buckets node) := by
                rw [has_extra_iff, not_not]
                exact ended
              refine ⟨.inr node, by simp [last], ⟨[], rfl⟩, ?_⟩
              intro other member slot
              rw [List.mem_singleton] at member
              subst other
              exact absent slot
          | cons following more =>
              have next : nextNode table node = some following := linked.2.1
              have chained : hasExtraBucket (table.buckets node) := by
                rw [has_extra_iff, next]
                simp
              have step := shape.get_extra_next valid next (inside (by simp))
              obtain ⟨outcome, run, meaning⟩ := ih following more ⟨rfl, linked.2.2⟩
                (fun item member => inside (by simp [member])) (by simpa using enough)
              refine ⟨outcome, ?_, ?_⟩
              · simp only [if_pos chained, step]
                exact run
              · cases outcome with
                | inl located => exact ⟨List.mem_cons_of_mem _ meaning.1, meaning.2⟩
                | inr last =>
                    obtain ⟨⟨before, split⟩, missing⟩ := meaning
                    refine ⟨⟨node :: before, by rw [split]; rfl⟩, ?_⟩
                    intro other member slot
                    rcases List.mem_cons.mp member with same | tail
                    · rw [same]
                      exact absent slot
                    · exact missing other tail slot

theorem scan_primary_spec (shape : Shape hash table lists hole) {primary : Nat}
    (bound : primary < table.numBuckets) (wanted : UInt64) :
    ∃ outcome, scanChain table wanted (table.numExtraBuckets + 1) primary = .ok outcome ∧
      ScanOutcome table (chainNodes lists primary) wanted outcome := by
  have short := shape.list_length_le (owner_some bound)
  exact scan_chain_spec wanted _ primary _ shape (owner_some bound)
    (shape.linkedChain primary bound) (List.Subset.refl _) (by omega)

def FindOutcome (table : FixedTable V) (nodes : List Nat) (key : UInt64) :
    Option (Nat × Slot) → Prop
  | some (node, slot) => node ∈ nodes ∧ keyAt table node slot = key
  | none => ∀ node ∈ nodes, ∀ slot, keyAt table node slot ≠ key

theorem find_item_index_spec (shape : Shape hash table lists hole) {primary : Nat}
    (bound : primary < table.numBuckets) (key : UInt64) :
    ∃ outcome, findItemIndex table primary key = .ok outcome ∧
      FindOutcome table (chainNodes lists primary) key outcome := by
  obtain ⟨outcome, run, meaning⟩ := scan_primary_spec shape bound key
  cases outcome with
  | inl located => exact ⟨some located, by simp [findItemIndex, run, bind, Except.bind], meaning⟩
  | inr last => exact ⟨none, by simp [findItemIndex, run, bind, Except.bind], meaning.2⟩

/-- From a node with a successor the tail search returns the last two nodes. -/
theorem walk_to_tail_spec (fuel node following : Nat) (rest : List Nat)
    (shape : Shape hash table lists hole) {owner : Option Nat} (valid : Owner table owner)
    (linked : Linked (nextNode table) (some node) (node :: following :: rest))
    (inside : following :: rest ⊆ lists owner) (enough : rest.length < fuel) :
    ∃ before previous current, node :: following :: rest = before ++ [previous, current] ∧
      walkToTail table fuel node = .ok (previous, current) := by
  induction fuel generalizing node following rest with
  | zero => omega
  | succ fuel ih =>
      have step := shape.get_extra_next valid linked.2.1 (inside (by simp))
      rw [walkToTail]
      simp only [step]
      cases rest with
      | nil =>
          have ended : nextNode table following = none := linked.2.2
          have last : ¬ hasExtraBucket (table.buckets following) := by
            rw [has_extra_iff, not_not]
            exact ended
          exact ⟨[], node, following, rfl, by simp [bind, Except.bind, last]⟩
      | cons after more =>
          have next : nextNode table following = some after := linked.2.2.1
          have chained : hasExtraBucket (table.buckets following) := by
            rw [has_extra_iff, next]
            simp
          obtain ⟨before, previous, current, split, run⟩ := ih following after more
            ⟨rfl, linked.2.2⟩ (fun item member => inside (by simp_all))
            (by simpa using enough)
          refine ⟨node :: before, previous, current, by rw [split]; rfl, ?_⟩
          simpa [bind, Except.bind, chained] using run

end Fasst.FixedTableWalks

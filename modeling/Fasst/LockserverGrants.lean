import Fasst.LockserverModel
import Fasst.Outcomes
import Fasst.Runs

/-!
# Grants of the lock server

The lock server keeps one counter for a slot. The ledger beside it lists the
entries that were granted and not yet given back; any number of requesters call
`lock` and `unlock` in any order, each giving back only what it was granted.
-/

namespace Fasst.LockserverGrants

open List Fasst.LockserverModel Fasst.Outcomes
open Fasst.Runs (RunsTo)

set_option autoImplicit false

structure Grant where
  requesterId : Nat
  key : LockKey
  deriving DecidableEq, Repr

def Grant.slot (numLocks : Nat) (grant : Grant) : Nat := lockIndex numLocks grant.key.hashfrag

def outstanding (numLocks : Nat) (grants : List Grant) (slot : Nat) : Nat :=
  grants.countP fun grant => grant.slot numLocks = slot

/-- What the fields of a slot say about the grants on it. -/
structure SlotInv (numLocks : Nat) (grants : List Grant) (slot : Nat) (lock : LocksrvLock) :
    Prop where
  counter : lock.counter = outstanding numLocks grants slot
  unlocked : lock.lockMode = .unlocked ↔ lock.counter = 0
  exclusive : lock.lockMode = .exclusive → ∀ grant ∈ grants, grant.slot numLocks = slot →
    grant.requesterId = lock.exclusiveOwner
  shared : lock.lockMode = .shared → ∀ grant ∈ grants, grant.slot numLocks = slot →
    grant.key.exclusive = false

structure Ledger where
  server : Lockserver
  grants : List Grant

namespace Ledger

def Inv (ledger : Ledger) : Prop :=
  ∀ slot < ledger.server.numLocks,
    SlotInv ledger.server.numLocks ledger.grants slot (ledger.server.lockArr slot)

def Few (ledger : Ledger) : Prop :=
  ∀ slot < ledger.server.numLocks, outstanding ledger.server.numLocks ledger.grants slot < 2 ^ 32

def lock (debug : Bool) (ledger : Ledger) (grant : Grant) : Except LsFault Ledger := do
  let (success, server) ← ledger.server.lock debug grant.requesterId grant.key
  .ok ⟨server, if success then grant :: ledger.grants else ledger.grants⟩

def unlock (debug : Bool) (ledger : Ledger) (grant : Grant) : Except LsFault Ledger := do
  let server ← ledger.server.unlock debug grant.requesterId grant.key
  .ok ⟨server, ledger.grants.erase grant⟩

end Ledger

/-- A requester unlocks only what it has been granted. -/
inductive Moves (debug : Bool) (before : Ledger) : Grant → Ledger → Prop where
  | lock {grant : Grant} {after : Ledger} (ran : before.lock debug grant = .ok after)
      (few : after.Few) : Moves debug before grant after
  | unlock {grant : Grant} {after : Ledger} (granted : grant ∈ before.grants)
      (ran : before.unlock debug grant = .ok after) : Moves debug before grant after

abbrev Reachable (debug : Bool) (init : Ledger) : Ledger → Prop := RunsTo (Moves debug) init

section Slots

variable {debug : Bool} {lock after : LocksrvLock} {requesterId : Nat} {exclusive : Bool}

theorem ensures_dassert {Value : Type} {allowed : LsFault → Prop} {post : Value → Prop}
    {condition : Prop} [Decidable condition] {fault : LsFault} {rest : Unit → Except LsFault Value}
    (failed : debug = true → ¬ condition → allowed fault)
    (continued : Ensures allowed post (rest ())) :
    Ensures allowed post (lsDassert debug condition fault >>= rest) := by
  unfold lsDassert
  split_ifs with violated
  · exact failed violated.1 violated.2
  · exact continued

theorem dassert_holds {Value : Type} {condition : Prop} [Decidable condition] {fault : LsFault}
    (rest : Unit → Except LsFault Value) (holds : condition) :
    (lsDassert debug condition fault >>= rest) = rest () := by
  unfold lsDassert
  rw [if_neg fun violated => violated.2 holds]
  rfl

/-- How a slot is taken: by the first holder, by one more sharer, or again by
the exclusive owner. -/
inductive Taken (lock : LocksrvLock) (requesterId : Nat) (exclusive : Bool) : LocksrvLock → Prop where
  | first (free : lock.lockMode = .unlocked) :
      Taken lock requesterId exclusive
        ⟨if exclusive then .exclusive else .shared, lock.incremented.counter,
          if exclusive then requesterId else lock.exclusiveOwner⟩
  | share (shared : lock.lockMode = .shared) (wanted : exclusive = false) :
      Taken lock requesterId exclusive lock.incremented
  | again (held : lock.lockMode = .exclusive) (owner : lock.exclusiveOwner = requesterId) :
      Taken lock requesterId exclusive lock.incremented

theorem lock_slot_spec (debug : Bool) (requesterId : Nat) (exclusive : Bool)
    (used : lock.lockMode = .unlocked ↔ lock.counter = 0) :
    Ensures
      (fun fault => fault = .maxCounter ∧ debug = true ∧ exclusive = false ∧
        locksrvMaxCounter ≤ lock.counter)
      (fun out => out.1 = false ∧ out.2 = lock ∨
        out.1 = true ∧ Taken lock requesterId exclusive out.2)
      (lockSlot debug lock requesterId exclusive) := by
  have positive : lock.lockMode ≠ .unlocked → 0 < lock.counter := by
    intro locked
    exact Nat.pos_of_ne_zero fun zero => locked (used.mpr zero)
  unfold lockSlot
  cases mode : lock.lockMode with
  | unlocked =>
      have zero := used.mp mode
      cases exclusive with
      | true =>
          simp only [if_true]
          rw [dassert_holds _ zero]
          exact Or.inr ⟨rfl, Taken.first mode⟩
      | false =>
          simp only [Bool.false_eq_true, if_false]
          rw [dassert_holds _ zero]
          exact Or.inr ⟨rfl, Taken.first mode⟩
  | shared =>
      have some_ := positive (by simp [mode])
      cases exclusive with
      | true =>
          simp only [if_true]
          rw [dassert_holds _ some_]
          exact Or.inl ⟨rfl, rfl⟩
      | false =>
          simp only [Bool.false_eq_true, if_false]
          rw [dassert_holds _ some_]
          apply ensures_dassert
          · intro checked limit
            refine ⟨rfl, checked, trivial, ?_⟩
            have wraps := Nat.mod_le (lock.counter + 1) (2 ^ 32)
            simp only [LocksrvLock.incremented] at limit
            omega
          · exact Or.inr ⟨rfl, Taken.share mode rfl⟩
  | exclusive =>
      have some_ := positive (by simp [mode])
      cases exclusive with
      | true =>
          simp only [if_true]
          rw [dassert_holds _ some_]
          split_ifs with owner
          · exact Or.inr ⟨rfl, Taken.again mode owner⟩
          · exact Or.inl ⟨rfl, rfl⟩
      | false =>
          simp only [Bool.false_eq_true, if_false]
          rw [dassert_holds _ some_]
          split_ifs with owner
          · exact Or.inr ⟨rfl, Taken.again mode owner⟩
          · exact Or.inl ⟨rfl, rfl⟩

/-- A slot from which a requester may take back an entry. -/
structure Held (lock : LocksrvLock) (requesterId : Nat) (exclusive : Bool) : Prop where
  used : lock.lockMode ≠ .unlocked
  positive : 0 < lock.counter
  mode : exclusive = true → lock.lockMode = .exclusive
  owner : lock.lockMode = .exclusive → lock.exclusiveOwner = requesterId

theorem unlock_slot_held (held : Held lock requesterId exclusive) :
    unlockSlot debug lock requesterId exclusive = .ok (decrementAndUnlockIfZero lock) := by
  unfold unlockSlot
  rw [dassert_holds _ held.used]
  cases exclusive with
  | true =>
      have mode := held.mode rfl
      simp only [if_true]
      rw [dassert_holds _ mode, dassert_holds _ held.positive, dassert_holds _ (held.owner mode)]
  | false =>
      simp only [Bool.false_eq_true, if_false]
      cases mode : lock.lockMode with
      | unlocked => exact absurd mode held.used
      | shared => exact dassert_holds _ held.positive
      | exclusive =>
          simp only
          rw [dassert_holds _ held.positive, dassert_holds _ (held.owner mode)]

theorem decrement_counter (positive : 0 < lock.counter) (bound : lock.counter < 2 ^ 32) :
    (decrementAndUnlockIfZero lock).counter = lock.counter - 1 := by
  have less : (lock.counter + (2 ^ 32 - 1)) % 2 ^ 32 = lock.counter - 1 := by omega
  unfold decrementAndUnlockIfZero
  simp only [less]
  split_ifs <;> rfl

theorem decrement_mode (positive : 0 < lock.counter) (bound : lock.counter < 2 ^ 32) :
    (decrementAndUnlockIfZero lock).lockMode =
      if lock.counter = 1 then .unlocked else lock.lockMode := by
  have less : (lock.counter + (2 ^ 32 - 1)) % 2 ^ 32 = lock.counter - 1 := by omega
  unfold decrementAndUnlockIfZero
  simp only [less]
  by_cases last : lock.counter = 1
  · rw [if_pos (by omega), if_pos last]
  · rw [if_neg (by omega), if_neg last]

theorem decrement_owner : (decrementAndUnlockIfZero lock).exclusiveOwner = lock.exclusiveOwner := by
  simp only [decrementAndUnlockIfZero]
  split_ifs <;> rfl

end Slots

section Grants

variable {numLocks slot : Nat} {grants : List Grant} {grant : Grant} {lock after : LocksrvLock}

theorem outstanding_cons (numLocks : Nat) (grant : Grant) (grants : List Grant) (slot : Nat) :
    outstanding numLocks (grant :: grants) slot =
      outstanding numLocks grants slot + if grant.slot numLocks = slot then 1 else 0 := by
  rw [outstanding, countP_cons]
  simp [outstanding]

theorem outstanding_erase (numLocks : Nat) (member : grant ∈ grants) (slot : Nat) :
    outstanding numLocks (grants.erase grant) slot + (if grant.slot numLocks = slot then 1 else 0) =
      outstanding numLocks grants slot := by
  have same := outstanding_cons numLocks grant (grants.erase grant) slot
  rw [← same]
  exact ((perm_cons_erase member).countP_eq _).symm

theorem taken_inv (inv : SlotInv numLocks grants slot lock) (here : grant.slot numLocks = slot)
    (taken : Taken lock grant.requesterId grant.key.exclusive after)
    (few : outstanding numLocks (grant :: grants) slot < 2 ^ 32) :
    SlotInv numLocks (grant :: grants) slot after := by
  have more := outstanding_cons numLocks grant grants slot
  rw [if_pos here, ← inv.counter] at more
  have counted : lock.incremented.counter = outstanding numLocks (grant :: grants) slot := by
    rw [more]
    exact Nat.mod_eq_of_lt (by omega)
  have positive : lock.incremented.counter ≠ 0 := by omega
  cases taken with
  | first free =>
      have none_ : ∀ other ∈ grants, other.slot numLocks ≠ slot := by
        have zero : outstanding numLocks grants slot = 0 := by
          rw [← inv.counter]
          exact inv.unlocked.mp free
        simpa [outstanding, countP_eq_zero] using zero
      refine ⟨counted, ?_, ?_, ?_⟩
      · constructor
        · intro unlocked
          split_ifs at unlocked
        · intro zero
          exact absurd zero positive
      · intro exclusive other member there
        have wanted : grant.key.exclusive = true := by
          by_contra shared
          simp [shared] at exclusive
        rcases mem_cons.mp member with same | old
        · simp [same, wanted]
        · exact absurd there (none_ other old)
      · intro shared other member there
        rcases mem_cons.mp member with same | old
        · rw [same]
          by_contra exclusive
          simp [exclusive] at shared
        · exact absurd there (none_ other old)
  | share shared wanted =>
      refine ⟨counted, ?_, ?_, ?_⟩
      · constructor
        · intro unlocked
          rw [show lock.incremented.lockMode = _ from shared] at unlocked
          cases unlocked
        · intro zero
          exact absurd zero positive
      · intro exclusive
        rw [show lock.incremented.lockMode = _ from shared] at exclusive
        cases exclusive
      · intro _ other member there
        rcases mem_cons.mp member with same | old
        · rw [same, wanted]
        · exact inv.shared shared other old there
  | again held owner =>
      refine ⟨counted, ?_, ?_, ?_⟩
      · constructor
        · intro unlocked
          rw [show lock.incremented.lockMode = _ from held] at unlocked
          cases unlocked
        · intro zero
          exact absurd zero positive
      · intro _ other member there
        rcases mem_cons.mp member with same | old
        · rw [same]
          exact owner.symm
        · exact inv.exclusive held other old there
      · intro shared
        rw [show lock.incremented.lockMode = _ from held] at shared
        cases shared

theorem granted_held (inv : SlotInv numLocks grants slot lock) (member : grant ∈ grants)
    (here : grant.slot numLocks = slot) : Held lock grant.requesterId grant.key.exclusive := by
  have positive : 0 < lock.counter := by
    rw [inv.counter, outstanding, countP_pos_iff]
    exact ⟨grant, member, by simp [here]⟩
  have used : lock.lockMode ≠ .unlocked := by
    intro unlocked
    have zero := inv.unlocked.mp unlocked
    omega
  refine ⟨used, positive, ?_, ?_⟩
  · intro exclusive
    cases mode : lock.lockMode with
    | unlocked => exact absurd mode used
    | shared =>
        rw [inv.shared mode grant member here] at exclusive
        cases exclusive
    | exclusive => rfl
  · intro mode
    exact (inv.exclusive mode grant member here).symm

theorem released_inv (inv : SlotInv numLocks grants slot lock) (member : grant ∈ grants)
    (here : grant.slot numLocks = slot) (few : outstanding numLocks grants slot < 2 ^ 32) :
    SlotInv numLocks (grants.erase grant) slot (decrementAndUnlockIfZero lock) := by
  have held := granted_held inv member here
  have bound : lock.counter < 2 ^ 32 := by
    rw [inv.counter]
    exact few
  have less := outstanding_erase numLocks member slot
  rw [if_pos here, ← inv.counter] at less
  have counter := decrement_counter held.positive bound
  have mode := decrement_mode held.positive bound
  have kept : ∀ {wanted : LockMode}, wanted ≠ .unlocked →
      (decrementAndUnlockIfZero lock).lockMode = wanted → lock.lockMode = wanted := by
    intro wanted used now
    rw [mode] at now
    split_ifs at now
    · exact absurd now.symm used
    · exact now
  refine ⟨by omega, ?_, ?_, ?_⟩
  · rw [mode, counter]
    constructor
    · intro unlocked
      split_ifs at unlocked with last
      · omega
      · exact absurd unlocked held.used
    · intro zero
      have positive := held.positive
      exact if_pos (by omega)
  · intro exclusive other inside there
    rw [decrement_owner]
    exact inv.exclusive (kept (by simp) exclusive) other (mem_of_mem_erase inside) there
  · intro shared other inside there
    exact inv.shared (kept (by simp) shared) other (mem_of_mem_erase inside) there

/-- The fields of a slot say nothing about grants on other slots. -/
theorem slot_inv_cons (inv : SlotInv numLocks grants slot lock)
    (elsewhere : grant.slot numLocks ≠ slot) : SlotInv numLocks (grant :: grants) slot lock := by
  refine ⟨?_, inv.unlocked, ?_, ?_⟩
  · rw [outstanding_cons, if_neg elsewhere]
    exact inv.counter
  · intro exclusive other member there
    rcases mem_cons.mp member with same | old
    · exact absurd (same ▸ there) elsewhere
    · exact inv.exclusive exclusive other old there
  · intro shared other member there
    rcases mem_cons.mp member with same | old
    · exact absurd (same ▸ there) elsewhere
    · exact inv.shared shared other old there

theorem slot_inv_erase (inv : SlotInv numLocks grants slot lock) (member : grant ∈ grants)
    (elsewhere : grant.slot numLocks ≠ slot) :
    SlotInv numLocks (grants.erase grant) slot lock := by
  refine ⟨?_, inv.unlocked, ?_, ?_⟩
  · have same := outstanding_erase numLocks member slot
    rw [if_neg elsewhere, Nat.add_zero] at same
    rw [same]
    exact inv.counter
  · exact fun exclusive other inside => inv.exclusive exclusive other (mem_of_mem_erase inside)
  · exact fun shared other inside => inv.shared shared other (mem_of_mem_erase inside)

end Grants

section Calls

variable {debug : Bool} {server : Lockserver} {ledger after : Ledger} {bits : Nat}

theorem set_lock_self (server : Lockserver) (slot : Nat) :
    server.setLock slot (server.lockArr slot) = server := by
  simp [Lockserver.setLock]

theorem lock_arr_set_lock (server : Lockserver) (slot other : Nat) (lock : LocksrvLock) :
    (server.setLock slot lock).lockArr other = if other = slot then lock else server.lockArr other :=
  Function.update_apply _ _ _ _

/-- What a call of `lock` does to the server. -/
theorem lock_spec (debug : Bool) (requesterId : Nat) (key : LockKey)
    (power : server.numLocks = 2 ^ bits)
    (used : ∀ slot < server.numLocks,
      (server.lockArr slot).lockMode = .unlocked ↔ (server.lockArr slot).counter = 0) :
    Ensures
      (fun fault => fault = .maxCounter ∧ debug = true ∧ key.exclusive = false ∧ locksrvMaxCounter ≤
        (server.lockArr (lockIndex server.numLocks key.hashfrag)).counter)
      (fun out => out = (false, server) ∨ ∃ lock,
        Taken (server.lockArr (lockIndex server.numLocks key.hashfrag)) requesterId key.exclusive
            lock ∧
          out = (true, server.setLock (lockIndex server.numLocks key.hashfrag) lock))
      (server.lock debug requesterId key) := by
  have inside : lockIndex server.numLocks key.hashfrag < server.numLocks := by
    rw [power]
    exact lock_index_lt bits key.hashfrag
  simp only [Lockserver.lock]
  rw [dassert_holds _ inside]
  refine ensures_bind (lock_slot_spec debug requesterId key.exclusive (used _ inside)) ?_
  rintro ⟨success, lock⟩ (⟨refused, same⟩ | ⟨granted, taken⟩)
  · left
    simp only at refused same
    rw [refused, same, set_lock_self]
  · right
    simp only at granted taken
    rw [granted]
    exact ⟨lock, taken, rfl⟩

theorem unlock_spec (debug : Bool) {requesterId : Nat} {key : LockKey}
    (power : server.numLocks = 2 ^ bits)
    (held : Held (server.lockArr (lockIndex server.numLocks key.hashfrag)) requesterId
      key.exclusive) :
    server.unlock debug requesterId key =
      .ok (server.setLock (lockIndex server.numLocks key.hashfrag)
        (decrementAndUnlockIfZero (server.lockArr (lockIndex server.numLocks key.hashfrag)))) := by
  have inside : lockIndex server.numLocks key.hashfrag < server.numLocks := by
    rw [power]
    exact lock_index_lt bits key.hashfrag
  simp only [Lockserver.unlock]
  rw [dassert_holds _ inside, unlock_slot_held held]
  rfl

theorem ledger_lock_spec (debug : Bool) (grant : Grant) (power : ledger.server.numLocks = 2 ^ bits)
    (inv : ledger.Inv) :
    Ensures
      (fun fault => fault = .maxCounter ∧ debug = true ∧ grant.key.exclusive = false ∧
        locksrvMaxCounter ≤ outstanding ledger.server.numLocks ledger.grants
          (grant.slot ledger.server.numLocks))
      (fun after => after = ledger ∨ ∃ lock,
        Taken (ledger.server.lockArr (grant.slot ledger.server.numLocks)) grant.requesterId
            grant.key.exclusive lock ∧
          after = ⟨ledger.server.setLock (grant.slot ledger.server.numLocks) lock,
            grant :: ledger.grants⟩)
      (ledger.lock debug grant) := by
  have inside : grant.slot ledger.server.numLocks < ledger.server.numLocks := by
    rw [Grant.slot, power]
    exact lock_index_lt bits grant.key.hashfrag
  rw [← (inv _ inside).counter]
  refine ensures_bind (lock_spec debug grant.requesterId grant.key power
    (fun slot bound => (inv slot bound).unlocked)) ?_
  rintro ⟨success, server⟩ (refused | ⟨lock, taken, granted⟩)
  · rw [refused]
    exact Or.inl rfl
  · rw [granted]
    exact Or.inr ⟨lock, taken, rfl⟩

theorem ledger_unlock_ok (debug : Bool) {grant : Grant} (power : ledger.server.numLocks = 2 ^ bits)
    (inv : ledger.Inv) (member : grant ∈ ledger.grants) :
    ledger.unlock debug grant =
      .ok ⟨ledger.server.setLock (grant.slot ledger.server.numLocks) (decrementAndUnlockIfZero
        (ledger.server.lockArr (grant.slot ledger.server.numLocks))),
          ledger.grants.erase grant⟩ := by
  have inside : grant.slot ledger.server.numLocks < ledger.server.numLocks := by
    rw [Grant.slot, power]
    exact lock_index_lt bits grant.key.hashfrag
  rw [Ledger.unlock, unlock_spec debug power (granted_held (inv _ inside) member rfl)]
  rfl

theorem lock_inv {grant : Grant} (power : ledger.server.numLocks = 2 ^ bits) (inv : ledger.Inv)
    (ran : ledger.lock debug grant = .ok after) (few : after.Few) :
    after.Inv ∧ after.server.numLocks = ledger.server.numLocks := by
  rcases ensures_elim (ledger_lock_spec debug grant power inv) ran with same | ⟨lock, taken, now⟩
  · rw [same]
    exact ⟨inv, rfl⟩
  · subst now
    refine ⟨?_, rfl⟩
    intro slot bound
    rw [lock_arr_set_lock]
    split_ifs with here
    · rw [here]
      rw [here] at bound
      exact taken_inv (inv _ bound) rfl taken (few _ bound)
    · exact slot_inv_cons (inv slot bound) (Ne.symm here)

theorem unlock_inv {grant : Grant} (power : ledger.server.numLocks = 2 ^ bits) (inv : ledger.Inv)
    (few : ledger.Few) (member : grant ∈ ledger.grants)
    (ran : ledger.unlock debug grant = .ok after) :
    after.Inv ∧ after.Few ∧ after.server.numLocks = ledger.server.numLocks := by
  rw [ledger_unlock_ok debug power inv member] at ran
  have now := (Except.ok.inj ran).symm
  subst now
  refine ⟨?_, ?_, rfl⟩
  · intro slot bound
    rw [lock_arr_set_lock]
    split_ifs with here
    · rw [here]
      rw [here] at bound
      exact released_inv (inv _ bound) member rfl (few _ bound)
    · exact slot_inv_erase (inv slot bound) member (Ne.symm here)
  · intro slot bound
    have less := outstanding_erase ledger.server.numLocks member slot
    have before := few slot bound
    change outstanding ledger.server.numLocks (ledger.grants.erase grant) slot < _
    omega

theorem construct_inv (numLocks : Nat) (oldOwner : Nat → Nat) :
    Ledger.Inv ⟨Lockserver.construct numLocks oldOwner, []⟩ := by
  intro slot _
  refine ⟨rfl, ⟨fun _ => rfl, fun _ => rfl⟩, ?_, ?_⟩
  · intro exclusive
    cases exclusive
  · intro shared
    cases shared

theorem reachable_inv {oldOwner : Nat → Nat}
    (reached : Reachable debug ⟨Lockserver.construct (2 ^ bits) oldOwner, []⟩ ledger) :
    ledger.Inv ∧ ledger.Few ∧ ledger.server.numLocks = 2 ^ bits := by
  induction reached with
  | refl => exact ⟨construct_inv _ _, fun _ _ => Nat.two_pow_pos 32, rfl⟩
  | step grant _ moved ih =>
      obtain ⟨inv, few, power⟩ := ih
      cases moved with
      | lock ran fewAfter =>
          obtain ⟨kept, same⟩ := lock_inv power inv ran fewAfter
          exact ⟨kept, fewAfter, same.trans power⟩
      | unlock member ran =>
          obtain ⟨kept, fewer, same⟩ := unlock_inv power inv few member ran
          exact ⟨kept, fewer, same.trans power⟩

/-- A slot is never given to a requester beside an exclusive entry of another
one, nor exclusively beside any entry of another one. -/
theorem taken_compatible {slot : Nat} {lock now : LocksrvLock} {grants : List Grant} {grant : Grant}
    {numLocks : Nat} (inv : SlotInv numLocks grants slot lock)
    (taken : Taken lock grant.requesterId grant.key.exclusive now) {other : Grant}
    (member : other ∈ grants) (there : other.slot numLocks = slot)
    (different : other.requesterId ≠ grant.requesterId) :
    other.key.exclusive = false ∧ grant.key.exclusive = false := by
  cases taken with
  | first free =>
      have held := granted_held inv member there
      exact absurd free held.used
  | share shared wanted => exact ⟨inv.shared shared other member there, wanted⟩
  | again held owner =>
      exact absurd ((inv.exclusive held other member there).trans owner) different

theorem lock_server_mutual_exclusion (debug : Bool) (bits : Nat) (oldOwner : Nat → Nat)
    (ledger : Ledger)
    (reached : Reachable debug ⟨Lockserver.construct (2 ^ bits) oldOwner, []⟩ ledger) :
    (∀ slot < 2 ^ bits, SlotInv (2 ^ bits) ledger.grants slot (ledger.server.lockArr slot)) ∧
      (∀ grant, Ensures
        (fun fault => fault = .maxCounter ∧ debug = true ∧ grant.key.exclusive = false ∧
          locksrvMaxCounter ≤ outstanding (2 ^ bits) ledger.grants (grant.slot (2 ^ bits)))
        (fun after => after.grants = ledger.grants ∨
          after.grants = grant :: ledger.grants ∧ ∀ other ∈ ledger.grants,
            other.slot (2 ^ bits) = grant.slot (2 ^ bits) →
            other.requesterId ≠ grant.requesterId →
              other.key.exclusive = false ∧ grant.key.exclusive = false)
        (ledger.lock debug grant)) ∧
      ∀ grant ∈ ledger.grants, ∃ after, ledger.unlock debug grant = .ok after := by
  obtain ⟨inv, few, power⟩ := reachable_inv reached
  rw [← power]
  refine ⟨inv, ?_, ?_⟩
  · intro grant
    refine ensures_mono (ledger_lock_spec debug grant power inv) ?_
    rintro after (same | ⟨lock, taken, now⟩)
    · left
      rw [same]
    · right
      rw [now]
      refine ⟨rfl, ?_⟩
      intro other member there different
      have inside : grant.slot ledger.server.numLocks < ledger.server.numLocks := by
        rw [Grant.slot, power]
        exact lock_index_lt bits grant.key.hashfrag
      exact taken_compatible (inv _ inside) taken member there different
  · intro grant member
    exact ⟨_, ledger_unlock_ok debug power inv member⟩

def soleOwner : Grant := ⟨7, ⟨true, 3⟩⟩

def ownedLedger : Ledger where
  server := (Lockserver.construct (2 ^ 1) fun _ => 0).setLock 1 ⟨.exclusive, 1, 7⟩
  grants := [soleOwner]

theorem owned_ledger_reachable :
    Reachable true ⟨Lockserver.construct (2 ^ 1) fun _ => 0, []⟩ ownedLedger := by
  refine .step soleOwner .refl (.lock rfl ?_)
  intro slot _
  have short : outstanding 2 [soleOwner] slot ≤ 1 := countP_le_length
  exact Nat.lt_of_le_of_lt short (by decide)

theorem lock_server_mutual_exclusion_owner :
    SlotInv (2 ^ 1) [soleOwner] 1 ⟨.exclusive, 1, 7⟩ ∧
      Ensures (fun _ => False) (fun after => after.grants = [soleOwner])
        (ownedLedger.lock true ⟨8, ⟨false, 5⟩⟩) := by
  have facts := lock_server_mutual_exclusion true 1 (fun _ => 0) ownedLedger owned_ledger_reachable
  exact ⟨facts.1 1 (by decide), by decide⟩

section SharingLimit

def sharer (number : Nat) : Grant := ⟨number, ⟨false, 0⟩⟩

def sharers : Nat → Ledger
  | 0 => ⟨Lockserver.construct (2 ^ 0) fun _ => 0, []⟩
  | number + 1 =>
      ⟨(Lockserver.construct (2 ^ 0) fun _ => 0).setLock 0 ⟨.shared, number + 1, 0⟩,
        sharer number :: (sharers number).grants⟩

theorem sharers_outstanding (number : Nat) :
    outstanding (2 ^ 0) (sharers number).grants 0 = number := by
  induction number with
  | zero => rfl
  | succ number ih =>
      have here : (sharer number).slot (2 ^ 0) = 0 := show lockIndex (2 ^ 0) 0 = 0 by decide
      rw [sharers, outstanding_cons, ih, if_pos here]

theorem share_slot (counter owner requesterId : Nat) (positive : 0 < counter)
    (fits : counter + 1 < 2 ^ 32) :
    lockSlot true ⟨.shared, counter, owner⟩ requesterId false =
      if counter + 1 ≤ locksrvMaxCounter then .ok (true, ⟨.shared, counter + 1, owner⟩)
      else .error .maxCounter := by
  have next : (counter + 1) % 2 ^ 32 = counter + 1 := Nat.mod_eq_of_lt fits
  simp only [lockSlot, Bool.false_eq_true, if_false, LocksrvLock.incremented, next]
  rw [dassert_holds _ positive]
  unfold lsDassert
  by_cases limit : counter + 1 ≤ locksrvMaxCounter
  · rw [if_pos limit, if_neg fun violated => violated.2 limit]
    rfl
  · rw [if_neg limit, if_pos ⟨rfl, limit⟩]
    rfl

theorem sharers_lock (number : Nat) (fits : number + 1 < 2 ^ 32) :
    (sharers number).lock true (sharer number) =
      if number + 1 ≤ locksrvMaxCounter then .ok (sharers (number + 1)) else .error .maxCounter := by
  cases number with
  | zero => rfl
  | succ number =>
      have slot : lockSlot true ((sharers (number + 1)).server.lockArr 0) (number + 1) false = _ :=
        share_slot (number + 1) 0 (number + 1) (Nat.succ_pos number) fits
      have index : lockIndex (sharers (number + 1)).server.numLocks
          (sharer (number + 1)).key.hashfrag = 0 := show lockIndex (2 ^ 0) 0 = 0 by decide
      have inside : 0 < (sharers (number + 1)).server.numLocks := Nat.two_pow_pos 0
      simp only [Ledger.lock, Lockserver.lock, index]
      rw [dassert_holds _ inside]
      rw [show lockSlot true _ (sharer (number + 1)).requesterId
        (sharer (number + 1)).key.exclusive = _ from slot]
      split_ifs with limit
      · change Except.ok (Ledger.mk _ _) = Except.ok (Ledger.mk _ _)
        congr 2
        simp [sharers, Lockserver.setLock]
      · rfl

theorem sharers_reachable (number : Nat) (limit : number ≤ locksrvMaxCounter) :
    Reachable true ⟨Lockserver.construct (2 ^ 0) fun _ => 0, []⟩ (sharers number) := by
  induction number with
  | zero => exact .refl
  | succ number ih =>
      have short : number + 1 ≤ 512 := limit
      have ran := sharers_lock number (by omega)
      rw [if_pos limit] at ran
      refine .step (sharer number) (ih (Nat.le_of_succ_le limit)) (.lock ran ?_)
      intro slot bound
      have only : slot = 0 := Nat.lt_one_iff.mp bound
      rw [only]
      change outstanding (2 ^ 0) (sharers (number + 1)).grants 0 < _
      rw [sharers_outstanding]
      omega

/-- The sharer after the limit makes a debug build die. -/
theorem sharing_limit_dies :
    ∃ ledger, Reachable true ⟨Lockserver.construct (2 ^ 0) fun _ => 0, []⟩ ledger ∧
      outstanding (2 ^ 0) ledger.grants 0 = 512 ∧
      ledger.lock true (sharer 512) = .error .maxCounter := by
  refine ⟨sharers 512, sharers_reachable 512 (Nat.le_refl _), sharers_outstanding 512, ?_⟩
  have ran := sharers_lock 512 (by decide)
  rw [if_neg (by decide)] at ran
  exact ran

end SharingLimit

end Calls

end Fasst.LockserverGrants

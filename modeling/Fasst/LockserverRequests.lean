import Fasst.LockserverGrants

/-!
# Whole requests of the lock server

A refused lock request unlocks what it has locked, in the opposite order, and so
does an unlock request with the same keys. Both bring back the slots as they
were before, up to the owner field of slots that are not exclusive.
-/

namespace Fasst.LockserverRequests

open List Fasst.LockserverModel Fasst.LockserverGrants Fasst.Outcomes

set_option autoImplicit false

structure SameLock (lock other : LocksrvLock) : Prop where
  mode : lock.lockMode = other.lockMode
  counter : lock.counter = other.counter
  owner : lock.lockMode = .exclusive → lock.exclusiveOwner = other.exclusiveOwner

structure SameLocks (server other : Lockserver) : Prop where
  numLocks : server.numLocks = other.numLocks
  locks : ∀ slot, SameLock (server.lockArr slot) (other.lockArr slot)

section Slots

variable {debug : Bool} {lock other after : LocksrvLock} {requesterId : Nat} {exclusive : Bool}

theorem same_lock_refl (lock : LocksrvLock) : SameLock lock lock := ⟨rfl, rfl, fun _ => rfl⟩

theorem same_lock_trans {third : LocksrvLock} (first : SameLock lock other)
    (second : SameLock other third) : SameLock lock third := by
  refine ⟨first.mode.trans second.mode, first.counter.trans second.counter, ?_⟩
  intro mode
  exact (first.owner mode).trans (second.owner (first.mode ▸ mode))

theorem same_locks_refl (server : Lockserver) : SameLocks server server :=
  ⟨rfl, fun slot => same_lock_refl (server.lockArr slot)⟩

theorem same_locks_trans {server middle last : Lockserver} (first : SameLocks server middle)
    (second : SameLocks middle last) : SameLocks server last :=
  ⟨first.numLocks.trans second.numLocks,
    fun slot => same_lock_trans (first.locks slot) (second.locks slot)⟩

theorem decrement_same (same : SameLock lock other) :
    SameLock (decrementAndUnlockIfZero lock) (decrementAndUnlockIfZero other) := by
  simp only [decrementAndUnlockIfZero, ← same.counter]
  split_ifs
  · exact ⟨rfl, rfl, fun mode => by cases mode⟩
  · exact ⟨same.mode, rfl, same.owner⟩

/-- Outside exclusive mode `unlock` reads the owner only behind an assertion
that fails before. -/
theorem unlock_slot_owner {mode : LockMode} (counter : Nat) {owner : Nat} (other : Nat)
    (notExclusive : mode ≠ .exclusive)
    (ran : unlockSlot debug ⟨mode, counter, owner⟩ requesterId exclusive = .ok after) :
    after = decrementAndUnlockIfZero ⟨mode, counter, owner⟩ ∧
      unlockSlot debug ⟨mode, counter, other⟩ requesterId exclusive =
        .ok (decrementAndUnlockIfZero ⟨mode, counter, other⟩) := by
  cases mode with
  | exclusive => exact absurd rfl notExclusive
  | unlocked =>
      cases debug <;> cases exclusive <;>
        simp_all [unlockSlot, lsDassert, bind, Except.bind]
  | shared =>
      cases debug <;> cases exclusive <;> simp [unlockSlot, lsDassert, bind, Except.bind] at ran ⊢
      · exact ran.symm
      · exact ran.symm
      · split_ifs at ran ⊢
        exact ⟨(Except.ok.inj ran).symm, rfl⟩

theorem unlock_slot_same (same : SameLock lock other)
    (ran : unlockSlot debug lock requesterId exclusive = .ok after) :
    ∃ result, unlockSlot debug other requesterId exclusive = .ok result ∧ SameLock after result := by
  obtain ⟨mode, counter, owner⟩ := lock
  obtain ⟨otherMode, otherCounter, otherOwner⟩ := other
  have decremented := decrement_same same
  obtain ⟨sameMode, sameCounter, sameOwner⟩ := same
  simp only at sameMode sameCounter sameOwner
  subst sameMode sameCounter
  by_cases owned : mode = .exclusive
  · rw [← sameOwner owned]
    exact ⟨after, ran, same_lock_refl after⟩
  · obtain ⟨result, again⟩ := unlock_slot_owner counter otherOwner owned ran
    rw [result]
    exact ⟨_, again, decremented⟩

/-- Taking back what was just granted. -/
theorem taken_undone (used : lock.lockMode = .unlocked ↔ lock.counter = 0)
    (fits : lock.counter + 1 < 2 ^ 32) (taken : Taken lock requesterId exclusive after) :
    Held after requesterId exclusive ∧ SameLock lock (decrementAndUnlockIfZero after) ∧
      after.counter = lock.counter + 1 ∧ after.lockMode ≠ .unlocked := by
  have next : lock.incremented.counter = lock.counter + 1 := Nat.mod_eq_of_lt fits
  have counted : after.counter = lock.counter + 1 := by
    cases taken with
    | first free => exact next
    | share shared wanted => exact next
    | again held owner => exact next
  have positive : 0 < after.counter := by omega
  have bound : after.counter < 2 ^ 32 := by omega
  have counter := decrement_counter positive bound
  have mode := decrement_mode positive bound
  have locked : lock.lockMode ≠ .unlocked → after.counter ≠ 1 := by
    intro taken_ last
    exact taken_ (used.mpr (by omega))
  cases taken with
  | first free =>
      have zero := used.mp free
      refine ⟨⟨?_, positive, ?_, ?_⟩, ⟨?_, by omega, ?_⟩, counted, ?_⟩
      · simp only
        split_ifs <;> simp
      · intro wanted
        simp [wanted]
      · intro owned
        simp only at owned ⊢
        split_ifs at owned ⊢
        rfl
      · rw [mode, if_pos (by omega)]
        exact free
      · intro owned
        rw [free] at owned
        cases owned
      · simp only
        split_ifs <;> simp
  | share shared wanted =>
      have busy : lock.incremented.lockMode ≠ .unlocked := by
        rw [show lock.incremented.lockMode = _ from shared]
        simp
      refine ⟨⟨busy, positive, ?_, ?_⟩, ⟨?_, by omega, ?_⟩, counted, busy⟩
      · intro exclusive
        rw [wanted] at exclusive
        cases exclusive
      · intro owned
        rw [show lock.incremented.lockMode = _ from shared] at owned
        cases owned
      · rw [mode, if_neg (locked busy)]
        rfl
      · intro owned
        rw [shared] at owned
        cases owned
  | again held owner =>
      have busy : lock.incremented.lockMode ≠ .unlocked := by
        rw [show lock.incremented.lockMode = _ from held]
        simp
      refine ⟨⟨busy, positive, fun _ => held, fun _ => owner⟩, ⟨?_, by omega, ?_⟩, counted, busy⟩
      · rw [mode, if_neg (locked busy)]
        rfl
      · intro _
        rw [decrement_owner]
        rfl

end Slots

section Requests

variable {debug : Bool} {requesterId bits : Nat} {server other after start : Lockserver}
  {key : LockKey} {keys granted : List LockKey}

theorem set_lock_same {slot : Nat} {lock result : LocksrvLock} (same : SameLocks server other)
    (changed : SameLock lock result) :
    SameLocks (server.setLock slot lock) (other.setLock slot result) := by
  refine ⟨same.numLocks, ?_⟩
  intro place
  rw [lock_arr_set_lock, lock_arr_set_lock]
  split_ifs
  · exact changed
  · exact same.locks place

theorem unlock_same (same : SameLocks server other)
    (ran : server.unlock debug requesterId key = .ok after) :
    ∃ result, other.unlock debug requesterId key = .ok result ∧ SameLocks after result := by
  simp only [Lockserver.unlock] at ran ⊢
  rw [← same.numLocks]
  generalize lockIndex server.numLocks key.hashfrag = slot at ran ⊢
  cases inside : lsDassert debug (slot < server.numLocks) .lockIndex with
  | error fault =>
      rw [inside] at ran
      cases ran
  | ok checked =>
      rw [inside] at ran
      cases slotRan : unlockSlot debug (server.lockArr slot) requesterId key.exclusive with
      | error fault =>
          rw [show (Except.ok checked >>= _) = _ from rfl, slotRan] at ran
          cases ran
      | ok lock =>
          rw [show (Except.ok checked >>= _) = _ from rfl, slotRan] at ran
          obtain ⟨result, again, changed⟩ := unlock_slot_same (same.locks slot) slotRan
          refine ⟨other.setLock slot result, ?_, ?_⟩
          · rw [show (Except.ok checked >>= _) = _ from rfl, again]
            rfl
          · rw [← Except.ok.inj ran]
            exact set_lock_same same changed

theorem unlock_keys_same (keys : List LockKey) (same : SameLocks server other)
    (ran : unlockKeys debug requesterId server keys = .ok after) :
    ∃ result, unlockKeys debug requesterId other keys = .ok result ∧ SameLocks after result := by
  induction keys generalizing server other with
  | nil => exact ⟨other, rfl, Except.ok.inj ran ▸ same⟩
  | cons key rest ih =>
      rw [unlockKeys, foldlM_cons] at ran
      cases first : server.unlock debug requesterId key with
      | error fault =>
          rw [first] at ran
          cases ran
      | ok middle =>
          rw [first] at ran
          obtain ⟨result, again, kept⟩ := unlock_same same first
          obtain ⟨last, rest_, keptRest⟩ := ih kept ran
          refine ⟨last, ?_, keptRest⟩
          rw [unlockKeys, foldlM_cons, again]
          exact rest_

/-- Unlocking the keys in `granted` leads back to `start`. -/
def Undoes (debug : Bool) (requesterId : Nat) (server : Lockserver) (granted : List LockKey)
    (start : Lockserver) : Prop :=
  ∃ back, unlockKeys debug requesterId server granted = .ok back ∧ SameLocks start back

def Used (server : Lockserver) : Prop :=
  ∀ slot < server.numLocks,
    (server.lockArr slot).lockMode = .unlocked ↔ (server.lockArr slot).counter = 0

/-- No counter can wrap while the keys are locked. -/
def Room (server : Lockserver) (keys : List LockKey) : Prop :=
  ∀ slot < server.numLocks, (server.lockArr slot).counter +
    keys.countP (fun key => lockIndex server.numLocks key.hashfrag = slot) < 2 ^ 32

/-- One more key is locked and can be unlocked first. -/
theorem lock_step {lock : LocksrvLock} (power : server.numLocks = 2 ^ bits) (used : Used server)
    (room : Room server (key :: keys))
    (taken : Taken (server.lockArr (lockIndex server.numLocks key.hashfrag)) requesterId
      key.exclusive lock) (undoes : Undoes debug requesterId server granted start) :
    let next := server.setLock (lockIndex server.numLocks key.hashfrag) lock
    Used next ∧ Room next keys ∧ Undoes debug requesterId next (key :: granted) start := by
  intro next
  have inside : lockIndex server.numLocks key.hashfrag < server.numLocks := by
    rw [power]
    exact lock_index_lt bits key.hashfrag
  have fits : (server.lockArr (lockIndex server.numLocks key.hashfrag)).counter + 1 < 2 ^ 32 := by
    have enough := room _ inside
    rw [countP_cons_of_pos (by simp)] at enough
    omega
  obtain ⟨held, back, counted, busy⟩ := taken_undone (used _ inside) fits taken
  have here : next.lockArr (lockIndex server.numLocks key.hashfrag) = lock := by
    rw [lock_arr_set_lock, if_pos rfl]
  refine ⟨?_, ?_, ?_⟩
  · intro slot bound
    rw [lock_arr_set_lock]
    split_ifs
    · exact ⟨fun unlocked => absurd unlocked busy, fun zero => by omega⟩
    · exact used slot bound
  · intro slot bound
    have enough := room slot bound
    rw [countP_cons] at enough
    rw [lock_arr_set_lock]
    change _ + countP (fun key => lockIndex server.numLocks key.hashfrag = slot) keys < _
    by_cases same : slot = lockIndex server.numLocks key.hashfrag
    · rw [if_pos same, counted]
      rw [if_pos (by simp [same]), same] at enough
      rw [same]
      omega
    · rw [if_neg same]
      omega
  · obtain ⟨last, ran, same⟩ := undoes
    have undone : SameLocks server (next.setLock (lockIndex server.numLocks key.hashfrag)
        (decrementAndUnlockIfZero lock)) := by
      refine ⟨rfl, ?_⟩
      intro slot
      rw [lock_arr_set_lock, lock_arr_set_lock]
      split_ifs with this
      · rw [this]
        exact back
      · exact same_lock_refl _
    obtain ⟨result, again, kept⟩ := unlock_keys_same granted undone ran
    refine ⟨result, ?_, same_locks_trans same kept⟩
    have heldThere : Held (next.lockArr (lockIndex next.numLocks key.hashfrag)) requesterId
        key.exclusive := by
      change Held (next.lockArr (lockIndex server.numLocks key.hashfrag)) _ _
      rw [here]
      exact held
    have undo := unlock_spec debug (show next.numLocks = 2 ^ bits from power) heldThere
    rw [show next.lockArr (lockIndex next.numLocks key.hashfrag) = lock from here] at undo
    rw [unlockKeys, foldlM_cons, undo]
    exact again

theorem lock_keys_spec (power : server.numLocks = 2 ^ bits) (used : Used server)
    (room : Room server keys) (undoes : Undoes debug requesterId server granted start) :
    Ensures (fun fault => debug = true ∧ fault = .maxCounter)
      (fun out => match out.1 with
        | .fail => SameLocks start out.2
        | .success => Undoes debug requesterId out.2 (keys.reverse ++ granted) start)
      (lockKeys debug requesterId server granted keys) := by
  induction keys generalizing server granted with
  | nil => exact undoes
  | cons key rest ih =>
      rw [lockKeys]
      refine ensures_bind (ensures_weaken (lock_spec debug requesterId key power used) ?_) ?_
      · exact fun fault stopped => ⟨stopped.2.1, stopped.1⟩
      · rintro ⟨ret, next⟩ (refused | ⟨lock, taken, locked⟩)
        · obtain ⟨rfl, rfl⟩ := Prod.mk.inj refused
          obtain ⟨back, ran, same⟩ := undoes
          simp only [Bool.false_eq_true, if_false]
          rw [ran]
          exact same
        · obtain ⟨rfl, rfl⟩ := Prod.mk.inj locked
          obtain ⟨usedNext, roomNext, undoesNext⟩ := lock_step power used room taken undoes
          rw [reverse_cons, append_assoc]
          exact ih power usedNext roomNext undoesNext

/-- The sanity checks depend on the number of keys and the length only. -/
theorem handler_checks (debug : Bool) (keys : List LockKey) (reqLen : Nat) :
    (debug = true ∧ ∃ fault, (fault = .numKeys ∨ fault = .reqLen) ∧
      ∀ server requesterId reqtype,
        lockserverRpcHandler debug server ⟨requesterId, reqtype, keys⟩ reqLen = .error fault) ∨
    ∀ server requesterId,
      lockserverRpcHandler debug server ⟨requesterId, .lock, keys⟩ reqLen =
          lockKeys debug requesterId server [] keys ∧
        lockserverRpcHandler debug server ⟨requesterId, .unlock, keys⟩ reqLen =
          (unlockKeys debug requesterId server keys.reverse).map fun back => (.success, back) := by
  cases numKeys : lsDassert debug (keys.length ≤ TxModel.rpcMaxMsgCoro) .numKeys with
  | error fault =>
      unfold lsDassert at numKeys
      split_ifs at numKeys with violated
      refine Or.inl ⟨violated.1, .numKeys, Or.inl rfl, ?_⟩
      intro server requesterId reqtype
      simp only [lockserverRpcHandler, lsDassert, if_pos violated]
      rfl
  | ok few =>
      cases length : lsDassert debug (reqLen = locksrvReqSize keys.length) .reqLen with
      | error fault =>
          unfold lsDassert at length
          split_ifs at length with violated
          refine Or.inl ⟨violated.1, .reqLen, Or.inr rfl, ?_⟩
          intro server requesterId reqtype
          simp only [lockserverRpcHandler, numKeys]
          simp only [lsDassert, if_pos violated]
          rfl
      | ok fits =>
          refine Or.inr fun server requesterId => ⟨?_, ?_⟩
          · simp only [lockserverRpcHandler, numKeys, length]
            rfl
          · simp only [lockserverRpcHandler, numKeys, length]
            cases unlockKeys debug requesterId server keys.reverse with
            | error fault => rfl
            | ok back => rfl

theorem failed_lock_noop_and_unlock_undoes (debug : Bool) (bits : Nat) (ledger : Ledger)
    (power : ledger.server.numLocks = 2 ^ bits) (inv : ledger.Inv) (requesterId : Nat)
    (keys : List LockKey)
    (room : ∀ slot < 2 ^ bits, outstanding (2 ^ bits) ledger.grants slot +
      keys.countP (fun key => lockIndex (2 ^ bits) key.hashfrag = slot) < 2 ^ 32) (reqLen : Nat) :
    Ensures
      (fun fault => debug = true ∧ (fault = .maxCounter ∨ fault = .numKeys ∨ fault = .reqLen))
      (fun out => match out.1 with
        | .fail => SameLocks ledger.server out.2
        | .success => ∃ back,
            lockserverRpcHandler debug out.2 ⟨requesterId, .unlock, keys⟩ reqLen =
              .ok (.success, back) ∧ SameLocks ledger.server back)
      (lockserverRpcHandler debug ledger.server ⟨requesterId, .lock, keys⟩ reqLen) := by
  have used : Used ledger.server := fun slot bound => (inv slot bound).unlocked
  have enough : Room ledger.server keys := by
    intro slot bound
    rw [(inv slot bound).counter, power]
    exact room slot (power ▸ bound)
  have start : Undoes debug requesterId ledger.server [] ledger.server :=
    ⟨ledger.server, rfl, same_locks_refl _⟩
  have locked := lock_keys_spec power used enough start
  rcases handler_checks debug keys reqLen with ⟨checked, fault, which, stops⟩ | runs
  · rw [stops]
    exact ⟨checked, Or.inr which⟩
  · rw [(runs ledger.server requesterId).1]
    refine ensures_mono (ensures_weaken locked fun fault stopped => ⟨stopped.1, Or.inl stopped.2⟩) ?_
    rintro ⟨resp, after⟩ result
    cases resp with
    | fail => exact result
    | success =>
        obtain ⟨back, ran, same⟩ := result
        refine ⟨back, ?_, same⟩
        rw [append_nil] at ran
        rw [(runs after requesterId).2, ran]
        rfl

theorem failed_lock_noop_and_unlock_undoes_collision :
    Ensures (fun _ => False) (fun out => out.1 = .success ∧ out.2.lockArr 0 = ⟨.exclusive, 2, 5⟩)
        (lockserverRpcHandler true (Lockserver.construct (2 ^ 0) fun _ => 0)
          ⟨5, .lock, [⟨true, 3⟩, ⟨false, 8⟩]⟩ 16) ∧
      Ensures
        (fun fault => true = true ∧ (fault = .maxCounter ∨ fault = .numKeys ∨ fault = .reqLen))
        (fun out => match out.1 with
          | .fail => SameLocks (Lockserver.construct (2 ^ 0) fun _ => 0) out.2
          | .success => ∃ back,
              lockserverRpcHandler true out.2 ⟨5, .unlock, [⟨true, 3⟩, ⟨false, 8⟩]⟩ 16 =
                .ok (.success, back) ∧ SameLocks (Lockserver.construct (2 ^ 0) fun _ => 0) back)
        (lockserverRpcHandler true (Lockserver.construct (2 ^ 0) fun _ => 0)
          ⟨5, .lock, [⟨true, 3⟩, ⟨false, 8⟩]⟩ 16) := by
  refine ⟨⟨rfl, rfl⟩, ?_⟩
  exact failed_lock_noop_and_unlock_undoes true 0 ⟨Lockserver.construct (2 ^ 0) fun _ => 0, []⟩ rfl
    (construct_inv _ _) 5 [⟨true, 3⟩, ⟨false, 8⟩] (by decide) 16

def fullLedger : Ledger where
  server := ⟨1, fun _ => ⟨.shared, 2 ^ 32 - 1, 0⟩⟩
  grants := replicate (2 ^ 32 - 1) ⟨1, ⟨false, 0⟩⟩

theorem full_ledger_inv : fullLedger.Inv := by
  intro slot bound
  have only : slot = 0 := Nat.lt_one_iff.mp bound
  have member : ∀ grant ∈ fullLedger.grants, grant = ⟨1, ⟨false, 0⟩⟩ :=
    fun grant inside => eq_of_mem_replicate inside
  refine ⟨?_, ?_, ?_, ?_⟩
  · have all : ∀ grant ∈ fullLedger.grants,
        decide (grant.slot fullLedger.server.numLocks = slot) = true := by
      intro grant inside
      rw [member grant inside, only]
      decide
    rw [outstanding, countP_eq_length.mpr all]
    exact (length_replicate).symm
  · constructor
    · intro unlocked
      cases unlocked
    · intro zero
      exact absurd (show 2 ^ 32 - 1 = 0 from zero) (by decide)
  · intro exclusive
    cases exclusive
  · intro _ grant inside _
    rw [member grant inside]

/-- Two more sharers wrap its counter, and their unlock request ends the process. -/
theorem wrapped_counter_kills_unlock :
    fullLedger.Inv ∧ ∃ after,
      lockserverRpcHandler false fullLedger.server ⟨2, .lock, [⟨false, 0⟩, ⟨false, 0⟩]⟩ 16 =
          .ok (.success, after) ∧
        lockserverRpcHandler false after ⟨2, .unlock, [⟨false, 0⟩, ⟨false, 0⟩]⟩ 16 =
          .error .defaultCase :=
  ⟨full_ledger_inv, _, rfl, rfl⟩

end Requests

end Fasst.LockserverRequests

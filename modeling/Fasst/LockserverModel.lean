import Fasst.TxModel

/-!
# The lock server

`Lockserver::lock`, `Lockserver::unlock` and the request handler over them. A
call holds the spin lock of its slot throughout, so it is one atomic step here.
`debug` is `LS_DEBUG_ASSERT`: only with it are the conditions of `ls_dassert`
checked. The `default` cases end the process in every build.
-/

namespace Fasst.LockserverModel

open Fasst.TxModel

set_option autoImplicit false

def locksrvHashfragBits : Nat := 31
def locksrvMaxCounter : Nat := 512

inductive LockMode where
  | unlocked
  | exclusive
  | shared
  deriving DecidableEq, Repr

/-- `counter` is a 32-bit word. -/
structure LocksrvLock where
  lockMode : LockMode
  counter : Nat
  exclusiveOwner : Nat
  deriving DecidableEq, Repr

structure Lockserver where
  numLocks : Nat
  lockArr : Nat → LocksrvLock

structure LockKey where
  exclusive : Bool
  hashfrag : Nat
  deriving DecidableEq, Repr

inductive LocksrvReqtype where
  | lock
  | unlock
  deriving DecidableEq, Repr

inductive LocksrvResptype where
  | success
  | fail
  deriving DecidableEq, Repr

structure LocksrvReq where
  requesterId : Nat
  reqtype : LocksrvReqtype
  keys : List LockKey

def locksrvReqSize (numKeys : Nat) : Nat := 8 + numKeys * 4

/-- The assertions, in the order of the source. -/
inductive LsFault where
  | lockIndex
  | counterZero
  | counterPositive
  | maxCounter
  | notUnlocked
  | exclusiveMode
  | ownerMatches
  | defaultCase
  | numKeys
  | reqLen
  deriving DecidableEq, Repr

def lsDassert (debug : Bool) (condition : Prop) [Decidable condition] (fault : LsFault) :
    Except LsFault Unit :=
  if debug = true ∧ ¬ condition then .error fault else .ok ()

/-- The constructor sets the mode and the counter; the owner stays what it was. -/
def Lockserver.construct (numLocks : Nat) (oldOwner : Nat → Nat) : Lockserver where
  numLocks := numLocks
  lockArr slot := ⟨.unlocked, 0, oldOwner slot⟩

def lockIndex (numLocks hashfrag : Nat) : Nat := hashfrag &&& (numLocks - 1)

def LocksrvLock.incremented (lock : LocksrvLock) : LocksrvLock :=
  { lock with counter := (lock.counter + 1) % 2 ^ 32 }

/-- `lock` on the slot of the key. -/
def lockSlot (debug : Bool) (lock : LocksrvLock) (requesterId : Nat) (exclusive : Bool) :
    Except LsFault (Bool × LocksrvLock) := do
  if exclusive then
    match lock.lockMode with
    | .unlocked =>
        lsDassert debug (lock.counter = 0) .counterZero
        .ok (true, { lock.incremented with lockMode := .exclusive, exclusiveOwner := requesterId })
    | .shared =>
        lsDassert debug (0 < lock.counter) .counterPositive
        .ok (false, lock)
    | .exclusive =>
        lsDassert debug (0 < lock.counter) .counterPositive
        if lock.exclusiveOwner = requesterId then .ok (true, lock.incremented)
        else .ok (false, lock)
  else
    match lock.lockMode with
    | .unlocked =>
        lsDassert debug (lock.counter = 0) .counterZero
        .ok (true, { lock.incremented with lockMode := .shared })
    | .shared =>
        lsDassert debug (0 < lock.counter) .counterPositive
        lsDassert debug (lock.incremented.counter ≤ locksrvMaxCounter) .maxCounter
        .ok (true, lock.incremented)
    | .exclusive =>
        lsDassert debug (0 < lock.counter) .counterPositive
        if lock.exclusiveOwner = requesterId then .ok (true, lock.incremented)
        else .ok (false, lock)

def decrementAndUnlockIfZero (lock : LocksrvLock) : LocksrvLock :=
  let counter := (lock.counter + (2 ^ 32 - 1)) % 2 ^ 32
  if counter = 0 then { lock with lockMode := .unlocked, counter := counter }
  else { lock with counter := counter }

/-- `unlock` on the slot of the key. -/
def unlockSlot (debug : Bool) (lock : LocksrvLock) (requesterId : Nat) (exclusive : Bool) :
    Except LsFault LocksrvLock := do
  lsDassert debug (lock.lockMode ≠ .unlocked) .notUnlocked
  if exclusive then
    lsDassert debug (lock.lockMode = .exclusive) .exclusiveMode
    lsDassert debug (0 < lock.counter) .counterPositive
    lsDassert debug (lock.exclusiveOwner = requesterId) .ownerMatches
    .ok (decrementAndUnlockIfZero lock)
  else
    match lock.lockMode with
    | .shared =>
        lsDassert debug (0 < lock.counter) .counterPositive
        .ok (decrementAndUnlockIfZero lock)
    | .exclusive =>
        lsDassert debug (0 < lock.counter) .counterPositive
        lsDassert debug (lock.exclusiveOwner = requesterId) .ownerMatches
        .ok (decrementAndUnlockIfZero lock)
    | .unlocked => .error .defaultCase

namespace Lockserver

def setLock (server : Lockserver) (slot : Nat) (lock : LocksrvLock) : Lockserver :=
  { server with lockArr := Function.update server.lockArr slot lock }

def lock (debug : Bool) (server : Lockserver) (requesterId : Nat) (key : LockKey) :
    Except LsFault (Bool × Lockserver) := do
  let lockI := lockIndex server.numLocks key.hashfrag
  lsDassert debug (lockI < server.numLocks) .lockIndex
  let (success, after) ← lockSlot debug (server.lockArr lockI) requesterId key.exclusive
  .ok (success, server.setLock lockI after)

def unlock (debug : Bool) (server : Lockserver) (requesterId : Nat) (key : LockKey) :
    Except LsFault Lockserver := do
  let lockI := lockIndex server.numLocks key.hashfrag
  lsDassert debug (lockI < server.numLocks) .lockIndex
  let after ← unlockSlot debug (server.lockArr lockI) requesterId key.exclusive
  .ok (server.setLock lockI after)

end Lockserver

def unlockKeys (debug : Bool) (requesterId : Nat) (server : Lockserver) (keys : List LockKey) :
    Except LsFault Lockserver :=
  keys.foldlM (fun server key => server.unlock debug requesterId key) server

/-- The loop over the keys of a lock request. `granted` are the keys locked so
far, the last one first; they are unlocked in this order when a key is refused. -/
def lockKeys (debug : Bool) (requesterId : Nat) (server : Lockserver) (granted : List LockKey) :
    List LockKey → Except LsFault (LocksrvResptype × Lockserver)
  | [] => .ok (.success, server)
  | key :: rest => do
      let (ret, server) ← server.lock debug requesterId key
      if ret then lockKeys debug requesterId server (key :: granted) rest
      else do
        let server ← unlockKeys debug requesterId server granted
        .ok (.fail, server)

def lockserverRpcHandler (debug : Bool) (server : Lockserver) (req : LocksrvReq) (reqLen : Nat) :
    Except LsFault (LocksrvResptype × Lockserver) := do
  lsDassert debug (req.keys.length ≤ rpcMaxMsgCoro) .numKeys
  lsDassert debug (reqLen = locksrvReqSize req.keys.length) .reqLen
  match req.reqtype with
  | .lock => lockKeys debug req.requesterId server [] req.keys
  | .unlock => do
      let server ← unlockKeys debug req.requesterId server req.keys.reverse
      .ok (.success, server)

theorem lock_index_lt (bits hashfrag : Nat) : lockIndex (2 ^ bits) hashfrag < 2 ^ bits := by
  rw [lockIndex, Nat.and_two_pow_sub_one_eq_mod]
  exact Nat.mod_lt _ (Nat.two_pow_pos bits)

end Fasst.LockserverModel

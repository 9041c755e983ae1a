import Fasst.TxHistories
import Fasst.HrdRandom
import Fasst.PopulatedSwarm

/-!
# The SmallBank transactions

Both tables map an account to a magic number and a balance. The six transaction
functions with all their assertions, over an arbitrary arithmetic of balances: the
source computes with `float`, of which nothing is assumed. A process ends at an
assertion that fails.
-/

namespace Fasst.SmallBankModel

open List Fasst.Dialogues Fasst.Congruential Fasst.HrdRandom Fasst.TxModel Fasst.TxPrograms
open Fasst.Placement Fasst.Population Fasst.PopulationRouting

set_option autoImplicit false

def rpcSavingReq : Nat := 70
def rpcCheckingReq : Nat := 80
def sizeofSbVal : Nat := 8
def sbSavMagic : UInt32 := 97
def sbChkMagic : UInt32 := 98
def defaultNumAccounts : Nat := 100000
def defaultNumHot : Nat := 4000
def txHot : UInt32 := 90

/-- The operations on balances, and the amounts as the source rounds them. -/
structure Money (F : Type) where
  add : F → F → F
  sub : F → F → F
  less : F → F → Bool
  zero : F
  one : F
  depositAmount : F
  paymentAmount : F
  savingAmount : F
  checkAmount : F
  initialBalance : F

/-- `sb_sav_val_t` and `sb_chk_val_t` have the same members. -/
structure SbVal (F : Type) where
  magic : UInt32
  bal : F
  deriving DecidableEq, Repr

structure Stack (F : Type) where
  objAddr : Nat → UInt64
  obj : Nat → HotsObj (SbVal F)

inductive SbTxnType where
  | amalgamate
  | balance
  | depositChecking
  | sendPayment
  | transactSaving
  | writeCheck
  deriving DecidableEq, Repr

def createWorkgenArray : List SbTxnType :=
  replicate 15 .amalgamate ++ replicate 15 .balance ++ replicate 15 .depositChecking ++
    replicate 25 .sendPayment ++ replicate 15 .transactSaving ++ replicate 15 .writeCheck

section Accounts

/-- The numbers of accounts that the constructor of `SB` computes. -/
structure Sb where
  numAccountsGlobal : UInt32
  numHotGlobal : UInt32
  deriving DecidableEq, Repr

/-- `none` stands for the assertion on the number of accounts. -/
def newSb (totPrimaryWorkers : UInt32) : Option Sb :=
  if totPrimaryWorkers.toNat * defaultNumAccounts ≤ 2 * 1024 * 1024 * 1024 then
    some
      { numAccountsGlobal := totPrimaryWorkers * UInt32.ofNat defaultNumAccounts
        numHotGlobal := totPrimaryWorkers * UInt32.ofNat defaultNumHot }
  else none

/-- Whether the accounts of a transaction are hot is drawn first. -/
def drawRange (sb : Sb) (seed : UInt64) : UInt32 × UInt64 :=
  let coin := hrdFastrand seed
  (if coin.1 % 100 < txHot then sb.numHotGlobal else sb.numAccountsGlobal, coin.2)

def getAccount (sb : Sb) (seed : UInt64) : UInt64 × UInt64 :=
  let ranged := drawRange sb seed
  let drawn := hrdFastrand ranged.2
  ((drawn.1 % ranged.1).toUInt64, drawn.2)

def otherAccount (range first draw : UInt32) : Bool := decide (draw % range ≠ first % range)

/-- The second account is drawn until it is another one. -/
def getTwoAccounts (sb : Sb) (fuel : Nat) (seed : UInt64) : Option (UInt64 × UInt64 × UInt64) :=
  let ranged := drawRange sb seed
  let first := hrdFastrand ranged.2
  (drawUntil hrdFastrand (otherAccount ranged.1 first.1) fuel first.2).map fun second =>
    ((first.1 % ranged.1).toUInt64, (second.1 % ranged.1).toUInt64, second.2)

end Accounts

section Transactions

variable {F : Type}

/-- The common part after `do_read`: an assertion on its result, and the abort. -/
def whenLocked (executed : Reply (SbVal F)) (rest : Txn (SbVal F)) : Txn (SbVal F) :=
  if ¬ (executed.status = .inProgress ∨ executed.status = .mustAbort) then .exit
  else if executed.status = .mustAbort then .call .abort fun _ => .done
  else rest

def checkMagic (magic : UInt32) (obj : HotsObj (SbVal F)) (rest : Txn (SbVal F)) :
    Txn (SbVal F) :=
  if obj.val.magic = magic then rest else .exit

/-- The transaction must commit because it has its locks. -/
def mustCommit : Txn (SbVal F) :=
  .call .commit fun result => if result.status = .committed then .done else .exit

def setBal (index : Nat) (obj : HotsObj (SbVal F)) (bal : F) : Call (SbVal F) :=
  .writeObj index obj.valSize { obj.val with bal := bal }

variable (money : Money F) (stack : Stack F)

def addForUpdate (rpcReqtype : Nat) (acctId : UInt64) (index : Nat) : Call (SbVal F) :=
  .addToWriteSet rpcReqtype acctId (stack.objAddr index) (stack.obj index) .update

def addForRead (rpcReqtype : Nat) (acctId : UInt64) (index : Nat) : Call (SbVal F) :=
  .addToReadSet rpcReqtype acctId (stack.objAddr index) (stack.obj index)

def txnAmalgamate (acctId0 acctId1 : UInt64) : Txn (SbVal F) :=
  .call .start fun _ =>
  .call (addForUpdate stack rpcSavingReq acctId0 0) fun _ =>
  .call (addForUpdate stack rpcCheckingReq acctId0 1) fun _ =>
  .call (addForUpdate stack rpcCheckingReq acctId1 2) fun _ =>
  .call .doRead fun executed =>
  whenLocked executed <|
    match executed.writes with
    | [savObj0, chkObj0, chkObj1] =>
        checkMagic sbSavMagic savObj0 <|
        checkMagic sbChkMagic chkObj0 <|
        checkMagic sbChkMagic chkObj1 <|
        .call (setBal 2 chkObj1
          (money.add chkObj1.val.bal (money.add savObj0.val.bal chkObj0.val.bal))) fun _ =>
        .call (setBal 0 savObj0 money.zero) fun _ =>
        .call (setBal 1 chkObj0 money.zero) fun _ =>
        mustCommit
    | _ => .exit

def txnBalance (acctId : UInt64) : Txn (SbVal F) :=
  .call .start fun _ =>
  .call (addForRead stack rpcSavingReq acctId 0) fun _ =>
  .call (addForRead stack rpcCheckingReq acctId 1) fun _ =>
  .call .doRead fun executed =>
  if executed.status ≠ .inProgress then .call .abortRdonly fun _ => .done
  else
    match executed.reads with
    | [savObj, chkObj] =>
        checkMagic sbSavMagic savObj <|
        checkMagic sbChkMagic chkObj <|
        .call .commit fun result =>
          if result.status = .committed then .done else .call .abortRdonly fun _ => .done
    | _ => .exit

/-- The transactions that add an amount to one balance. -/
def txnAddTo (rpcReqtype : Nat) (magic : UInt32) (amount : F) (acctId : UInt64) : Txn (SbVal F) :=
  .call .start fun _ =>
  .call (addForUpdate stack rpcReqtype acctId 0) fun _ =>
  .call .doRead fun executed =>
  whenLocked executed <|
    match executed.writes with
    | [obj] =>
        checkMagic magic obj <|
        .call (setBal 0 obj (money.add obj.val.bal amount)) fun _ =>
        mustCommit
    | _ => .exit

def txnDepositChecking (acctId : UInt64) : Txn (SbVal F) :=
  txnAddTo money stack rpcCheckingReq sbChkMagic money.depositAmount acctId

def txnTransactSaving (acctId : UInt64) : Txn (SbVal F) :=
  txnAddTo money stack rpcSavingReq sbSavMagic money.savingAmount acctId

def txnSendPayment (acctId0 acctId1 : UInt64) : Txn (SbVal F) :=
  .call .start fun _ =>
  .call (addForUpdate stack rpcCheckingReq acctId0 0) fun _ =>
  .call (addForUpdate stack rpcCheckingReq acctId1 1) fun _ =>
  .call .doRead fun executed =>
  whenLocked executed <|
    match executed.writes with
    | [chkObj0, chkObj1] =>
        checkMagic sbChkMagic chkObj0 <|
        checkMagic sbChkMagic chkObj1 <|
        if money.less chkObj0.val.bal money.paymentAmount then .call .abort fun _ => .done
        else
          .call (setBal 0 chkObj0 (money.sub chkObj0.val.bal money.paymentAmount)) fun _ =>
          .call (setBal 1 chkObj1 (money.add chkObj1.val.bal money.paymentAmount)) fun _ =>
          mustCommit
    | _ => .exit

/-- The balance after a check of the fixed amount, with one more for an overdraft. -/
def checkedBalance (sav chk : F) : F :=
  if money.less (money.add sav chk) money.checkAmount then
    money.sub chk (money.add money.checkAmount money.one)
  else money.sub chk money.checkAmount

/-- This transaction can fail during validation. -/
def txnWriteCheck (acctId : UInt64) : Txn (SbVal F) :=
  .call .start fun _ =>
  .call (addForRead stack rpcSavingReq acctId 0) fun _ =>
  .call (addForUpdate stack rpcCheckingReq acctId 1) fun _ =>
  .call .doRead fun executed =>
  whenLocked executed <|
    match executed.reads, executed.writes with
    | [savObj], [chkObj] =>
        checkMagic sbSavMagic savObj <|
        checkMagic sbChkMagic chkObj <|
        .call (setBal 0 chkObj (checkedBalance money savObj.val.bal chkObj.val.bal)) fun _ =>
        .call .commit fun _ => .done
    | _, _ => .exit

/-- One turn of the loop of `slave_func`. -/
def slaveTxn (roll : UInt32) (one : UInt64) (two : UInt64 × UInt64) : Txn (SbVal F) :=
  match createWorkgenArray[(roll % 100).toNat]? with
  | some .amalgamate => txnAmalgamate money stack two.1 two.2
  | some .balance => txnBalance stack one
  | some .depositChecking => txnDepositChecking money stack one
  | some .sendPayment => txnSendPayment money stack two.1 two.2
  | some .transactSaving => txnTransactSaving money stack one
  | some .writeCheck => txnWriteCheck money stack one
  | none => .exit

def Workload (sb : Sb) (txn : Txn (SbVal F)) : Prop :=
  ∃ (stack : Stack F) (roll : UInt32) (seed other next acctId0 acctId1 : UInt64) (fuel : Nat),
    getTwoAccounts sb fuel other = some (acctId0, acctId1, next) ∧
      txn = slaveTxn money stack roll (getAccount sb seed).1 (acctId0, acctId1)

def populateSavingsAndCheckingTable (mappings : Mappings) (hash : UInt64 → UInt64)
    (numAccountsGlobal : UInt32) (wrkrGid : Nat) : List (Instr (SbVal F)) :=
  (range mappings.numReplicas).flatMap fun replI =>
    (range numAccountsGlobal.toNat).flatMap fun acctId =>
      loadIntoTable mappings hash wrkrGid rpcSavingReq replI (UInt64.ofNat acctId)
          ⟨sbSavMagic, money.initialBalance⟩ ++
        loadIntoTable mappings hash wrkrGid rpcCheckingReq replI (UInt64.ofNat acctId)
          ⟨sbChkMagic, money.initialBalance⟩

end Transactions

section AccountSpecs

/-- Enough accounts for a transaction on two of them. -/
structure Sb.Ok (sb : Sb) : Prop where
  hot : 2 ≤ sb.numHotGlobal.toNat
  few : sb.numHotGlobal.toNat ≤ sb.numAccountsGlobal.toNat

theorem new_sb_ok {totPrimaryWorkers : UInt32} {sb : Sb} (workers : 0 < totPrimaryWorkers.toNat)
    (built : newSb totPrimaryWorkers = some sb) : sb.Ok := by
  simp only [newSb, Option.ite_none_right_eq_some, Option.some.injEq] at built
  obtain ⟨bound, rfl⟩ := built
  have hot : (totPrimaryWorkers * UInt32.ofNat defaultNumHot).toNat =
      totPrimaryWorkers.toNat * 4000 := by
    rw [UInt32.toNat_mul, show (UInt32.ofNat defaultNumHot).toNat = 4000 from rfl]
    simp only [defaultNumAccounts] at bound
    omega
  have all : (totPrimaryWorkers * UInt32.ofNat defaultNumAccounts).toNat =
      totPrimaryWorkers.toNat * 100000 := by
    rw [UInt32.toNat_mul, show (UInt32.ofNat defaultNumAccounts).toNat = 100000 from rfl]
    simp only [defaultNumAccounts] at bound
    omega
  constructor
  · simp only [hot]
    omega
  · simp only [hot, all]
    omega

variable {sb : Sb}

theorem draw_range_bounds (ok : sb.Ok) (seed : UInt64) :
    2 ≤ (drawRange sb seed).1.toNat ∧
      (drawRange sb seed).1.toNat ≤ sb.numAccountsGlobal.toNat := by
  have hot := ok.hot
  have few := ok.few
  simp only [drawRange]
  split_ifs <;> omega

theorem get_account_bound (ok : sb.Ok) (seed : UInt64) :
    (getAccount sb seed).1.toNat < sb.numAccountsGlobal.toNat := by
  obtain ⟨low, high⟩ := draw_range_bounds ok seed
  simp only [getAccount, UInt32.toNat_toUInt64, UInt32.toNat_mod]
  exact Nat.lt_of_lt_of_le (Nat.mod_lt _ (by omega)) high

theorem two_accounts_spec (ok : sb.Ok) {fuel : Nat} {seed acctId0 acctId1 next : UInt64}
    (drawn : getTwoAccounts sb fuel seed = some (acctId0, acctId1, next)) :
    acctId0 ≠ acctId1 ∧ acctId0.toNat < sb.numAccountsGlobal.toNat ∧
      acctId1.toNat < sb.numAccountsGlobal.toNat := by
  obtain ⟨low, high⟩ := draw_range_bounds ok seed
  obtain ⟨second, ran, same⟩ := Option.map_eq_some_iff.mp drawn
  obtain ⟨rfl, rfl, rfl⟩ : _ ∧ _ ∧ _ := by simpa only [Prod.mk.injEq] using same
  have accepted := draw_until_accepted ran
  have different := of_decide_eq_true (show decide _ = true from accepted)
  refine ⟨?_, ?_, ?_⟩
  · intro equal
    apply different
    apply UInt32.toNat.inj
    have nats := congrArg UInt64.toNat equal
    rw [UInt32.toNat_toUInt64, UInt32.toNat_toUInt64] at nats
    exact nats.symm
  · rw [UInt32.toNat_toUInt64, UInt32.toNat_mod]
    exact Nat.lt_of_lt_of_le (Nat.mod_lt _ (by omega)) high
  · rw [UInt32.toNat_toUInt64, UInt32.toNat_mod]
    exact Nat.lt_of_lt_of_le (Nat.mod_lt _ (by omega)) high

/-- `get_two_accounts` returns from every seed, with two different accounts. -/
theorem get_two_accounts_returns (ok : sb.Ok) {fuel : Nat} (enough : 2 ^ 64 ≤ fuel) (seed : UInt64) :
    ∃ acctId0 acctId1 next, getTwoAccounts sb fuel seed = some (acctId0, acctId1, next) ∧
      acctId0 ≠ acctId1 ∧ acctId0.toNat < sb.numAccountsGlobal.toNat ∧
        acctId1.toNat < sb.numAccountsGlobal.toNat := by
  obtain ⟨low, _⟩ := draw_range_bounds ok seed
  generalize shape : drawRange sb seed = ranged at low
  obtain ⟨range, start⟩ := ranged
  simp only at low
  -- Of the numbers 0 and 1 one is not the first account.
  have other : ∃ value : UInt32, value % range ≠ (hrdFastrand start).1 % range := by
    by_contra all
    have same : ∀ value : UInt32, value % range = (hrdFastrand start).1 % range :=
      fun value => not_not.mp fun different => all ⟨value, different⟩
    have nats := congrArg UInt32.toNat ((same 0).trans (same 1).symm)
    rw [UInt32.toNat_mod, UInt32.toNat_mod, UInt32.toNat_zero, UInt32.toNat_one, Nat.zero_mod,
      Nat.mod_eq_of_lt (by omega)] at nats
    cases nats
  obtain ⟨value, different⟩ := other
  have accepted : otherAccount range (hrdFastrand start).1 value = true := decide_eq_true different
  obtain ⟨result, ran⟩ := fastrand_until_ends enough accepted (hrdFastrand start).2
  have drawn : getTwoAccounts sb fuel seed = some (((hrdFastrand start).1 % range).toUInt64,
      (result.1 % range).toUInt64, result.2) := by
    simp only [getTwoAccounts, shape]
    rw [ran]
    rfl
  exact ⟨_, _, _, drawn, two_accounts_spec ok drawn⟩

theorem get_two_accounts_returns_four_workers :
    ∃ sb acctId0 acctId1 next, newSb 4 = some sb ∧
      getTwoAccounts sb (2 ^ 64) 1 = some (acctId0, acctId1, next) ∧ acctId0 ≠ acctId1 := by
  have built : newSb 4 = some ⟨400000, 16000⟩ := by decide +kernel
  obtain ⟨acctId0, acctId1, next, drawn, different, _⟩ :=
    get_two_accounts_returns (new_sb_ok (by decide) built) (Nat.le_refl _) 1
  exact ⟨_, acctId0, acctId1, next, built, drawn, different⟩

end AccountSpecs

end Fasst.SmallBankModel

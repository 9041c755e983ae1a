import Fasst.SmallBankModel
import Fasst.TxProgress
import Mathlib.Algebra.BigOperators.Group.Finset.Basic
import Mathlib.Tactic.Abel

/-!
# SmallBank as a bank

No assertion of the transaction functions fails. What the committed transactions
have done is one serial run of a bank that has nothing but balances: every
transaction is one operation of it, on the balances that the operations before it
have left.
-/

namespace Fasst.SmallBankRuns

open List Fasst.Dialogues Fasst.FixedTableModel Fasst.TxModel Fasst.TxCluster Fasst.TxLocal
open Fasst.TxSteps Fasst.TxInvariant Fasst.TxReplicas Fasst.TxSerializable Fasst.TxEntries
open Fasst.TxPrograms Fasst.TxProgramRules Fasst.TxProgramRuns Fasst.TxHistories
open Fasst.TxSerial Fasst.TxViews Fasst.TxOwnership Fasst.TxProgress Fasst.SmallBankModel
open Fasst.PopulatedSwarm
open Fasst.Population (Setup)
open Fasst.HrdRandom (percent_total)
open Fasst.PopulationRouting (mem_load_into_table)

set_option autoImplicit false

variable {F : Type}

def savLoc (acctId : UInt64) : Loc := (rpcSavingReq, acctId)
def chkLoc (acctId : UInt64) : Loc := (rpcCheckingReq, acctId)

section Bank

structure Bank (F : Type) where
  saving : UInt64 → F
  checking : UInt64 → F

inductive BankOp where
  | amalgamate (acctId0 acctId1 : UInt64)
  | balance (acctId : UInt64)
  | depositChecking (acctId : UInt64)
  | sendPayment (acctId0 acctId1 : UInt64)
  | transactSaving (acctId : UInt64)
  | writeCheck (acctId : UInt64)

namespace Bank

def setSaving (bank : Bank F) (acctId : UInt64) (bal : F) : Bank F :=
  { bank with saving := Function.update bank.saving acctId bal }

def setChecking (bank : Bank F) (acctId : UInt64) (bal : F) : Bank F :=
  { bank with checking := Function.update bank.checking acctId bal }

/-- One operation. A payment needs the money. -/
def run (money : Money F) (bank : Bank F) : BankOp → Option (Bank F)
  | .amalgamate acctId0 acctId1 =>
      some (((bank.setSaving acctId0 money.zero).setChecking acctId0 money.zero).setChecking acctId1
        (money.add (bank.checking acctId1)
          (money.add (bank.saving acctId0) (bank.checking acctId0))))
  | .balance _ => some bank
  | .depositChecking acctId =>
      some (bank.setChecking acctId (money.add (bank.checking acctId) money.depositAmount))
  | .sendPayment acctId0 acctId1 =>
      if money.less (bank.checking acctId0) money.paymentAmount then none
      else some ((bank.setChecking acctId0
        (money.sub (bank.checking acctId0) money.paymentAmount)).setChecking acctId1
          (money.add (bank.checking acctId1) money.paymentAmount))
  | .transactSaving acctId =>
      some (bank.setSaving acctId (money.add (bank.saving acctId) money.savingAmount))
  | .writeCheck acctId =>
      some (bank.setChecking acctId
        (checkedBalance money (bank.saving acctId) (bank.checking acctId)))

def runAll (money : Money F) (bank : Bank F) (ops : List BankOp) : Option (Bank F) :=
  ops.foldlM (Bank.run money) bank

end Bank

/-- The accounts of an operation exist, and two of them are different. -/
def BankOp.Valid (numAccounts : Nat) : BankOp → Prop
  | .amalgamate acctId0 acctId1 | .sendPayment acctId0 acctId1 =>
      acctId0 ≠ acctId1 ∧ acctId0.toNat < numAccounts ∧ acctId1.toNat < numAccounts
  | .balance acctId | .depositChecking acctId | .transactSaving acctId | .writeCheck acctId =>
      acctId.toNat < numAccounts

/-- What a transaction sees and leaves when it executes an operation. -/
inductive Executes (money : Money F) : BankOp → Footprint (SbVal F) → Prop where
  | amalgamate (acctId0 acctId1 : UInt64) (sav0 chk0 chk1 : SbVal F) :
      Executes money (.amalgamate acctId0 acctId1)
        { seen := [(savLoc acctId0, some sav0), (chkLoc acctId0, some chk0),
            (chkLoc acctId1, some chk1)]
          wrote := [(savLoc acctId0, some { sav0 with bal := money.zero }),
            (chkLoc acctId0, some { chk0 with bal := money.zero }),
            (chkLoc acctId1,
              some { chk1 with bal := money.add chk1.bal (money.add sav0.bal chk0.bal) })] }
  | balance (acctId : UInt64) (sav chk : SbVal F) :
      Executes money (.balance acctId)
        { seen := [(savLoc acctId, some sav), (chkLoc acctId, some chk)], wrote := [] }
  | depositChecking (acctId : UInt64) (chk : SbVal F) :
      Executes money (.depositChecking acctId)
        { seen := [(chkLoc acctId, some chk)]
          wrote := [(chkLoc acctId,
            some { chk with bal := money.add chk.bal money.depositAmount })] }
  | sendPayment (acctId0 acctId1 : UInt64) (chk0 chk1 : SbVal F)
      (enough : money.less chk0.bal money.paymentAmount = false) :
      Executes money (.sendPayment acctId0 acctId1)
        { seen := [(chkLoc acctId0, some chk0), (chkLoc acctId1, some chk1)]
          wrote := [(chkLoc acctId0, some { chk0 with bal := money.sub chk0.bal money.paymentAmount }),
            (chkLoc acctId1, some { chk1 with bal := money.add chk1.bal money.paymentAmount })] }
  | transactSaving (acctId : UInt64) (sav : SbVal F) :
      Executes money (.transactSaving acctId)
        { seen := [(savLoc acctId, some sav)]
          wrote := [(savLoc acctId,
            some { sav with bal := money.add sav.bal money.savingAmount })] }
  | writeCheck (acctId : UInt64) (sav chk : SbVal F) :
      Executes money (.writeCheck acctId)
        { seen := [(savLoc acctId, some sav), (chkLoc acctId, some chk)]
          wrote := [(chkLoc acctId,
            some { chk with bal := checkedBalance money sav.bal chk.bal })] }

/-- The tables hold the balances of a bank. -/
def Holding (numAccounts : Nat) (store : Loc → Option (SbVal F)) (bank : Bank F) : Prop :=
  ∀ acctId : UInt64, acctId.toNat < numAccounts →
    store (savLoc acctId) = some ⟨sbSavMagic, bank.saving acctId⟩ ∧
      store (chkLoc acctId) = some ⟨sbChkMagic, bank.checking acctId⟩

variable {money : Money F} {numAccounts : Nat} {store : Loc → Option (SbVal F)} {bank : Bank F}

theorem sav_ne_chk (left right : UInt64) : savLoc left ≠ chkLoc right := by
  intro same
  have types := (Prod.mk.inj same).1
  cases types

theorem holding_set_saving (holding : Holding numAccounts store bank) (acctId : UInt64) (bal : F) :
    Holding numAccounts (Function.update store (savLoc acctId) (some ⟨sbSavMagic, bal⟩))
      (bank.setSaving acctId bal) := by
  intro other bound
  obtain ⟨saving, checking⟩ := holding other bound
  rw [Function.update_of_ne (sav_ne_chk acctId other).symm]
  refine ⟨?_, checking⟩
  by_cases same : other = acctId
  · simp only [same, Function.update_self, Bank.setSaving]
  · have elsewhere : savLoc other ≠ savLoc acctId := fun equal => same (Prod.mk.inj equal).2
    simp only [Function.update_of_ne elsewhere, Bank.setSaving, Function.update_of_ne same]
    exact saving

theorem holding_set_checking (holding : Holding numAccounts store bank) (acctId : UInt64) (bal : F) :
    Holding numAccounts (Function.update store (chkLoc acctId) (some ⟨sbChkMagic, bal⟩))
      (bank.setChecking acctId bal) := by
  intro other bound
  obtain ⟨saving, checking⟩ := holding other bound
  rw [Function.update_of_ne (sav_ne_chk other acctId)]
  refine ⟨saving, ?_⟩
  by_cases same : other = acctId
  · simp only [same, Function.update_self, Bank.setChecking]
  · have elsewhere : chkLoc other ≠ chkLoc acctId := fun equal => same (Prod.mk.inj equal).2
    simp only [Function.update_of_ne elsewhere, Bank.setChecking, Function.update_of_ne same]
    exact checking

/-- A transaction that has seen the balances of the bank does its operation to it. -/
theorem executes_run {op : BankOp} {print : Footprint (SbVal F)} (valid : op.Valid numAccounts)
    (executes : Executes money op print) (holding : Holding numAccounts store bank)
    (saw : Saw store print) : ∃ after, bank.run money op = some after ∧
      Holding numAccounts (writeAll store print) after := by
  have sawSaving : ∀ (acctId : UInt64) {sav : SbVal F}, acctId.toNat < numAccounts →
      (savLoc acctId, some sav) ∈ print.seen → sav = ⟨sbSavMagic, bank.saving acctId⟩ := by
    intro acctId sav bound member
    exact Option.some.inj ((saw _ member).symm.trans (holding acctId bound).1)
  have sawChecking : ∀ (acctId : UInt64) {chk : SbVal F}, acctId.toNat < numAccounts →
      (chkLoc acctId, some chk) ∈ print.seen → chk = ⟨sbChkMagic, bank.checking acctId⟩ := by
    intro acctId chk bound member
    exact Option.some.inj ((saw _ member).symm.trans (holding acctId bound).2)
  cases executes with
  | amalgamate acctId0 acctId1 sav0 chk0 chk1 =>
      obtain rfl := sawSaving acctId0 valid.2.1 mem_cons_self
      obtain rfl := sawChecking acctId0 valid.2.1 (mem_cons_of_mem _ mem_cons_self)
      obtain rfl := sawChecking acctId1 valid.2.2 (mem_cons_of_mem _ (mem_cons_of_mem _ mem_cons_self))
      exact ⟨_, rfl, holding_set_checking (holding_set_checking (holding_set_saving holding _ _) _ _)
        _ _⟩
  | balance acctId sav chk => exact ⟨bank, rfl, holding⟩
  | depositChecking acctId chk =>
      obtain rfl := sawChecking acctId valid mem_cons_self
      exact ⟨_, rfl, holding_set_checking holding _ _⟩
  | sendPayment acctId0 acctId1 chk0 chk1 enough =>
      obtain rfl := sawChecking acctId0 valid.2.1 mem_cons_self
      obtain rfl := sawChecking acctId1 valid.2.2 (mem_cons_of_mem _ mem_cons_self)
      refine ⟨_, ?_, holding_set_checking (holding_set_checking holding _ _) _ _⟩
      simp only [Bank.run]
      rw [if_neg (by rw [enough]; exact Bool.false_ne_true)]
  | transactSaving acctId sav =>
      obtain rfl := sawSaving acctId valid mem_cons_self
      exact ⟨_, rfl, holding_set_saving holding _ _⟩
  | writeCheck acctId sav chk =>
      obtain rfl := sawSaving acctId valid mem_cons_self
      obtain rfl := sawChecking acctId valid (mem_cons_of_mem _ mem_cons_self)
      exact ⟨_, rfl, holding_set_checking holding _ _⟩

variable (money numAccounts) in
/-- The bank as the object of the transactions. -/
def bankObject : Object (SbVal F) BankOp (Bank F) where
  run := Bank.run money
  Executes op print := op.Valid numAccounts ∧ Executes money op print
  Holds := Holding numAccounts
  simulates executes holding saw := executes_run executes.1 executes.2 holding saw

instance : Nonempty BankOp := ⟨.balance 0⟩

end Bank

section Totals

variable [AddCommGroup F]

/-- Arithmetic without rounding. -/
structure Exact (money : Money F) : Prop where
  add : ∀ left right, money.add left right = left + right
  sub : ∀ left right, money.sub left right = left - right
  zero : money.zero = 0

def sumOver (numAccounts : Nat) (balances : UInt64 → F) : F :=
  (Finset.range numAccounts).sum fun acctId => balances (UInt64.ofNat acctId)

def Bank.total (numAccounts : Nat) (bank : Bank F) : F :=
  sumOver numAccounts bank.saving + sumOver numAccounts bank.checking

def BankOp.isDeposit : BankOp → Bool
  | .depositChecking _ => true
  | _ => false

def BankOp.isSaving : BankOp → Bool
  | .transactSaving _ => true
  | _ => false

def BankOp.isCheck : BankOp → Bool
  | .writeCheck _ => true
  | _ => false

/-- A check that the account cannot pay. -/
def BankOp.overdraws (money : Money F) (bank : Bank F) : BankOp → Bool
  | .writeCheck acctId =>
      money.less (money.add (bank.saving acctId) (bank.checking acctId)) money.checkAmount
  | _ => false

/-- The overdrafts along a run. -/
def overdrafts (money : Money F) : Bank F → List BankOp → Nat
  | _, [] => 0
  | bank, op :: ops => (op.overdraws money bank).toNat +
      (bank.run money op).elim 0 fun after => overdrafts money after ops

variable {money : Money F} {numAccounts : Nat} {bank after : Bank F}

theorem sum_update (few : numAccounts ≤ 2 ^ 32) {acctId : UInt64}
    (bound : acctId.toNat < numAccounts) (balances : UInt64 → F) (bal : F) :
    sumOver numAccounts (Function.update balances acctId bal) =
      sumOver numAccounts balances - balances acctId + bal := by
  have member := Finset.mem_range.mpr bound
  have others : ∀ other ∈ (Finset.range numAccounts).erase acctId.toNat,
      Function.update balances acctId bal (UInt64.ofNat other) = balances (UInt64.ofNat other) := by
    intro other inside
    apply Function.update_of_ne
    rintro rfl
    have small := Finset.mem_range.mp (Finset.mem_of_mem_erase inside)
    exact Finset.ne_of_mem_erase inside
      (UInt64.toNat_ofNat_of_lt' (Nat.lt_of_lt_of_le small (Nat.le_trans few (by decide)))).symm
  rw [sumOver, sumOver, ← Finset.add_sum_erase _ _ member, ← Finset.add_sum_erase _ _ member,
    Finset.sum_congr rfl others, UInt64.ofNat_toNat, Function.update_self]
  abel

theorem total_set_saving (few : numAccounts ≤ 2 ^ 32) {acctId : UInt64}
    (bound : acctId.toNat < numAccounts) (bal : F) :
    (bank.setSaving acctId bal).total numAccounts =
      bank.total numAccounts - bank.saving acctId + bal := by
  simp only [Bank.total, Bank.setSaving, sum_update few bound]
  abel

theorem total_set_checking (few : numAccounts ≤ 2 ^ 32) {acctId : UInt64}
    (bound : acctId.toNat < numAccounts) (bal : F) :
    (bank.setChecking acctId bal).total numAccounts =
      bank.total numAccounts - bank.checking acctId + bal := by
  simp only [Bank.total, Bank.setChecking, sum_update few bound]
  abel

/-- What one operation does to the money in the bank. -/
theorem run_total (exact_ : Exact money) (few : numAccounts ≤ 2 ^ 32) {op : BankOp}
    (valid : op.Valid numAccounts) (ran : bank.run money op = some after) :
    after.total numAccounts + op.isCheck.toNat • money.checkAmount +
        (op.overdraws money bank).toNat • money.one =
      bank.total numAccounts + op.isDeposit.toNat • money.depositAmount +
        op.isSaving.toNat • money.savingAmount := by
  cases op with
  | amalgamate acctId0 acctId1 =>
      obtain ⟨different, bound0, bound1⟩ := valid
      rw [← Option.some.inj ran, total_set_checking few bound1, total_set_checking few bound0,
        total_set_saving few bound0]
      simp only [Bank.setChecking, Bank.setSaving, Function.update_of_ne different.symm, exact_.add,
        exact_.zero, BankOp.isCheck, BankOp.isDeposit, BankOp.isSaving, BankOp.overdraws,
        Bool.toNat_false, zero_nsmul]
      abel
  | balance acctId =>
      rw [← Option.some.inj ran]
      simp [BankOp.isCheck, BankOp.isDeposit, BankOp.isSaving, BankOp.overdraws]
  | depositChecking acctId =>
      rw [← Option.some.inj ran, total_set_checking few valid]
      simp only [exact_.add, BankOp.isCheck, BankOp.isDeposit, BankOp.isSaving, BankOp.overdraws,
        Bool.toNat_false, Bool.toNat_true, zero_nsmul, one_nsmul]
      abel
  | sendPayment acctId0 acctId1 =>
      obtain ⟨different, bound0, bound1⟩ := valid
      simp only [Bank.run] at ran
      split_ifs at ran with poor
      rw [← Option.some.inj ran, total_set_checking few bound1, total_set_checking few bound0]
      simp only [Bank.setChecking, Function.update_of_ne different.symm, exact_.add, exact_.sub,
        BankOp.isCheck, BankOp.isDeposit, BankOp.isSaving, BankOp.overdraws, Bool.toNat_false,
        zero_nsmul]
      abel
  | transactSaving acctId =>
      rw [← Option.some.inj ran, total_set_saving few valid]
      simp only [exact_.add, BankOp.isCheck, BankOp.isDeposit, BankOp.isSaving, BankOp.overdraws,
        Bool.toNat_false, Bool.toNat_true, zero_nsmul, one_nsmul]
      abel
  | writeCheck acctId =>
      rw [← Option.some.inj ran, total_set_checking few valid, checkedBalance]
      simp only [BankOp.isCheck, BankOp.isDeposit, BankOp.isSaving, BankOp.overdraws,
        Bool.toNat_false, Bool.toNat_true, zero_nsmul, one_nsmul]
      split_ifs with overdrawn
      · rw [overdrawn]
        simp only [exact_.add, exact_.sub, Bool.toNat_true, one_nsmul]
        abel
      · simp only [overdrawn, exact_.sub, Bool.toNat_false, zero_nsmul]
        abel

/-- Money enters by deposits and savings only, and leaves by checks. -/
theorem run_all_total (exact_ : Exact money) (few : numAccounts ≤ 2 ^ 32) {ops : List BankOp}
    (valid : ∀ op ∈ ops, op.Valid numAccounts) (ran : bank.runAll money ops = some after) :
    after.total numAccounts + ops.countP BankOp.isCheck • money.checkAmount +
        overdrafts money bank ops • money.one =
      bank.total numAccounts + ops.countP BankOp.isDeposit • money.depositAmount +
        ops.countP BankOp.isSaving • money.savingAmount := by
  induction ops generalizing bank with
  | nil =>
      rw [← Option.some.inj ran]
      simp [overdrafts]
  | cons op ops ih =>
      rw [Bank.runAll, foldlM_cons] at ran
      obtain ⟨middle, first, later⟩ := Option.bind_eq_some_iff.mp ran
      have headTotal := run_total exact_ few (valid op mem_cons_self) first
      have tailTotal := ih (fun other member => valid other (mem_cons_of_mem _ member)) later
      have count : ∀ kind : BankOp → Bool, (op :: ops).countP kind = (kind op).toNat + ops.countP kind := by
        intro kind
        rw [countP_cons]
        cases kind op <;> simp [Nat.add_comm]
      simp only [count, overdrafts, first, Option.elim_some, add_nsmul]
      calc after.total numAccounts + (op.isCheck.toNat • money.checkAmount +
              ops.countP BankOp.isCheck • money.checkAmount) +
              ((op.overdraws money bank).toNat • money.one + overdrafts money middle ops • money.one)
          = (after.total numAccounts + ops.countP BankOp.isCheck • money.checkAmount +
              overdrafts money middle ops • money.one) + (op.isCheck.toNat • money.checkAmount +
                (op.overdraws money bank).toNat • money.one) := by abel
        _ = (middle.total numAccounts + ops.countP BankOp.isDeposit • money.depositAmount +
              ops.countP BankOp.isSaving • money.savingAmount) +
              (op.isCheck.toNat • money.checkAmount +
                (op.overdraws money bank).toNat • money.one) := by rw [tailTotal]
        _ = (middle.total numAccounts + op.isCheck.toNat • money.checkAmount +
              (op.overdraws money bank).toNat • money.one) +
              (ops.countP BankOp.isDeposit • money.depositAmount +
                ops.countP BankOp.isSaving • money.savingAmount) := by abel
        _ = _ := by rw [headTotal]; abel

end Totals

section Rules

variable (money : Money F) (numAccounts : Nat)

/-- The record of an existing account has the magic number of its table. -/
def Record (magic : UInt32) (acctId : UInt64) (entry : Option (SbVal F)) : Prop :=
  acctId.toNat < numAccounts → ∃ val, entry = some val ∧ val.magic = magic

def sbRules : Discipline (SbVal F) where
  good loc entry := (loc.1 = rpcSavingReq → Record numAccounts sbSavMagic loc.2 entry) ∧
    (loc.1 = rpcCheckingReq → Record numAccounts sbChkMagic loc.2 entry)
  written reqtype := reqtype = rpcSavingReq ∨ reqtype = rpcCheckingReq
  valSize _ := sizeofSbVal
  keeps print := ∃ op : BankOp, op.Valid numAccounts ∧ Executes money op print
  learns _ := True

end Rules

section Items

variable {money : Money F} {numAccounts : Nat} {cfg : Config} {stack : Stack F}
  {tx : TxState (SbVal F)} {rest : Reply (SbVal F) → Txn (SbVal F)}

inductive TableMagic : Nat → UInt32 → Prop where
  | saving : TableMagic rpcSavingReq sbSavMagic
  | checking : TableMagic rpcCheckingReq sbChkMagic

theorem good_record {reqtype : Nat} {magic : UInt32} (table : TableMagic reqtype magic)
    {acctId : UInt64} (bound : acctId.toNat < numAccounts) {entry : Option (SbVal F)} :
    (sbRules money numAccounts).good (reqtype, acctId) entry ↔
      ∃ val, entry = some val ∧ val.magic = magic := by
  cases table with
  | saving =>
      refine ⟨fun good => good.1 rfl bound, fun found => ⟨fun _ _ => found, fun other => ?_⟩⟩
      cases other
  | checking =>
      refine ⟨fun good => good.2 rfl bound, fun found => ⟨fun other => ?_, fun _ _ => found⟩⟩
      cases other

theorem table_written {reqtype : Nat} {magic : UInt32} (table : TableMagic reqtype magic) :
    (sbRules money numAccounts).written reqtype := by
  cases table with
  | saving => exact Or.inl rfl
  | checking => exact Or.inr rfl

theorem account_add_ok {reqtype : Nat} {magic : UInt32} (table : TableMagic reqtype magic)
    {acctId : UInt64} (few : numAccounts ≤ 2 ^ 32) (bound : acctId.toNat < numAccounts)
    (at_ : tx.pc = .app) (running : tx.status = .inProgress)
    (fresh : (reqtype, acctId) ∉ (tx.readSet ++ tx.writeSet).map RwsetItem.loc)
    (small : tx.readSet.length + tx.writeSet.length < rpcMaxMsgCoro) :
    AddOk tx reqtype acctId := by
  have valid : acctId ≠ kFtInvalidKey := by
    rintro rfl
    have largest : kFtInvalidKey.toNat = 2 ^ 64 - 1 := by decide
    omega
  cases table with
  | saving => exact ⟨at_, running, by decide, by decide, by decide, valid, fresh, small⟩
  | checking => exact ⟨at_, running, by decide, by decide, by decide, valid, fresh, small⟩

structure LockedItem (loc : Loc) (magic : UInt32) (val : SbVal F) (item : RwsetItem (SbVal F)) :
    Prop where
  loc : item.loc = loc
  mode : item.writeMode = .update
  seen : item.seen = some val
  buffer : item.obj.val = val
  magic : val.magic = magic

theorem locked_item {reqtype : Nat} {magic : UInt32} (table : TableMagic reqtype magic)
    {acctId objAddr : UInt64} {obj : HotsObj (SbVal F)} (bound : acctId.toNat < numAccounts)
    {item : RwsetItem (SbVal F)}
    (back : LockBack (sbRules money numAccounts) (newItem cfg reqtype acctId objAddr obj .update)
      item) : ∃ val, LockedItem (reqtype, acctId) magic val item := by
  obtain ⟨val, same, good, seen, buffer, _⟩ := lock_back_value TxWriteMode.noConfusion back
  obtain ⟨found, shape, fits⟩ := (good_record table bound).mp good
  obtain rfl := Option.some.inj shape
  exact ⟨val, loc_same same, same.writeMode, seen, buffer, fits⟩

structure FoundItem (loc : Loc) (magic : UInt32) (val : SbVal F) (item : RwsetItem (SbVal F)) :
    Prop where
  loc : item.loc = loc
  seen : item.seen = some val
  buffer : item.obj.val = val
  magic : val.magic = magic

theorem found_item {reqtype : Nat} {magic : UInt32} (table : TableMagic reqtype magic)
    {acctId objAddr : UInt64} {obj : HotsObj (SbVal F)} (bound : acctId.toNat < numAccounts)
    {item : RwsetItem (SbVal F)}
    (back : ReadBack (sbRules money numAccounts) (newItem cfg reqtype acctId objAddr obj .ignore)
      item) : ∃ val, FoundItem (reqtype, acctId) magic val item := by
  cases back with
  | found val same good seen buffer _ =>
      obtain ⟨found, shape, fits⟩ := (good_record table bound).mp good
      obtain rfl := Option.some.inj shape
      exact ⟨val, loc_same same, seen, buffer, fits⟩
  | missing _ good _ _ =>
      obtain ⟨_, shape, _⟩ := (good_record table bound).mp good
      cases shape

variable {loc : Loc} {magic : UInt32} {val : SbVal F} {item : RwsetItem (SbVal F)}

theorem refill_pairs (locked : LockedItem loc magic val item) (size : Nat) (changed : SbVal F) :
    (refill size changed item).loc = loc ∧ (refill size changed item).seen = some val ∧
      entryOf (refill size changed item) = some changed := by
  refine ⟨locked.loc, locked.seen, entry_of_refill size changed ?_⟩
  rw [locked.mode]
  exact TxWriteMode.noConfusion

theorem refill_good {reqtype : Nat} {acctId : UInt64} (table : TableMagic reqtype magic)
    (bound : acctId.toNat < numAccounts) (locked : LockedItem (reqtype, acctId) magic val item)
    (size : Nat) (bal : F) : (sbRules money numAccounts).good
      (refill size { val with bal := bal } item).loc
        (entryOf (refill size { val with bal := bal } item)) := by
  obtain ⟨loc, _, entry⟩ := refill_pairs locked size { val with bal := bal }
  rw [loc, entry, good_record table bound]
  exact ⟨_, rfl, locked.magic⟩

/-- The end of a transaction without reads: its buffers are filled and it commits. -/
theorem safe_must_commit {items : List (RwsetItem (SbVal F))} {op : BankOp} (at_ : tx.pc = .app)
    (running : tx.status = .inProgress) (allRead : AllRead tx) (noReads : tx.readSet = [])
    (sameLength : tx.writeSet.length = items.length)
    (good : ∀ item ∈ items, (sbRules money numAccounts).good item.loc (entryOf item))
    (valid : op.Valid numAccounts)
    (executes : Executes money op
      { seen := items.map fun item => (item.loc, item.seen)
        wrote := items.map fun item => (item.loc, entryOf item) }) :
    Safe (service (sbRules money numAccounts) cfg) mustCommit { tx with writeSet := items } := by
  refine safe_commit at_ running ⟨allRead.1, allRead.2.trans sameLength⟩ good ⟨op, valid, ?_⟩ ?_ ?_
  · rw [footprint, noReads]
    exact executes
  · intro now nowAt committed _ _
    simp only [replyOf, committed, if_true]
    exact safe_done nowAt (Or.inl committed)
  · rintro _ _ _ ⟨item, member, _⟩ _
    rw [noReads] at member
    cases member

/-- `do_read` has met a lock. -/
theorem safe_refused {program : Txn (SbVal F)} (at_ : tx.pc = .app) (status : tx.status = .mustAbort)
    (allRead : AllRead tx) :
    Safe (service (sbRules money numAccounts) cfg) (whenLocked (replyOf tx) program) tx := by
  simp only [whenLocked, replyOf, status, reduceCtorEq, false_or, not_true, if_false, if_true]
  exact safe_abort at_ (Or.inr status) allRead fun now nowAt aborted =>
    safe_done nowAt (Or.inr aborted)

theorem safe_locked {program : Txn (SbVal F)} (status : tx.status = .inProgress)
    (safe : Safe (service (sbRules money numAccounts) cfg) program tx) :
    Safe (service (sbRules money numAccounts) cfg) (whenLocked (replyOf tx) program) tx := by
  simp only [whenLocked, replyOf, status, reduceCtorEq, true_or, not_true, if_false]
  exact safe

theorem safe_check_magic {program : Txn (SbVal F)} {obj : HotsObj (SbVal F)}
    (fits : obj.val.magic = magic)
    (safe : Safe (service (sbRules money numAccounts) cfg) program tx) :
    Safe (service (sbRules money numAccounts) cfg) (checkMagic magic obj program) tx := by
  rw [checkMagic, if_pos fits]
  exact safe

end Items

section Safety

variable {money : Money F} {numAccounts : Nat} {cfg : Config} {stack : Stack F}
  {tx : TxState (SbVal F)} {acctId acctId0 acctId1 : UInt64}

theorem txn_add_to_safe {reqtype : Nat} {magic : UInt32} (table : TableMagic reqtype magic)
    {amount : F} {op : BankOp} (few : numAccounts ≤ 2 ^ 32) (bound : acctId.toNat < numAccounts)
    (valid : op.Valid numAccounts)
    (executes : ∀ val : SbVal F, Executes money op
      { seen := [((reqtype, acctId), some val)]
        wrote := [((reqtype, acctId), some { val with bal := money.add val.bal amount })] })
    (ended : (service (sbRules money numAccounts) cfg).ended tx) :
    Safe (service (sbRules money numAccounts) cfg)
      (txnAddTo money stack reqtype magic amount acctId) tx := by
  refine safe_start ended ?_
  refine safe_add_write (account_add_ok table few bound rfl rfl (by simp) (by simp [rpcMaxMsgCoro]))
    TxWriteMode.noConfusion (table_written table) rfl ?_
  refine safe_first_read rfl rfl (show _ = [] from rfl)
    (show _ = [newItem cfg reqtype acctId (stack.objAddr 0) (stack.obj 0) .update] from rfl) rfl rfl
    (by simp) ?_ fun now at_ status allRead _ _ => safe_refused at_ status allRead
  intro now at_ status allRead reads locks
  have noReads : now.readSet = [] := forall₂_nil_left_iff.mp reads
  obtain ⟨item, back, writes⟩ := Aligned.forall₂_one locks
  obtain ⟨val, locked⟩ := locked_item table bound back
  refine safe_locked status ?_
  simp only [replyOf, writes, map_cons, map_nil]
  refine safe_check_magic (by rw [locked.buffer]; exact locked.magic) ?_
  rw [locked.buffer, show now = { now with writeSet := [item] } by rw [← writes]]
  refine safe_refill at_ status Nat.one_pos (show [refill _ _ item] = _ from rfl) ?_
  rw [locked.buffer]
  refine safe_must_commit at_ status allRead noReads (by rw [writes]; rfl) ?_ valid ?_
  · rintro other (_ | ⟨_, ⟨⟩⟩)
    exact refill_good table bound locked _ _
  · simp only [map_cons, map_nil, refill_pairs locked]
    exact executes val

theorem txn_amalgamate_safe (few : numAccounts ≤ 2 ^ 32)
    (valid : (BankOp.amalgamate acctId0 acctId1).Valid numAccounts)
    (ended : (service (sbRules money numAccounts) cfg).ended tx) :
    Safe (service (sbRules money numAccounts) cfg) (txnAmalgamate money stack acctId0 acctId1)
      tx := by
  obtain ⟨different, bound0, bound1⟩ := id valid
  refine safe_start ended ?_
  refine safe_add_write (account_add_ok .saving few bound0 rfl rfl (by simp)
    (by simp [rpcMaxMsgCoro])) TxWriteMode.noConfusion (table_written .saving) rfl ?_
  refine safe_add_write (account_add_ok .checking few bound0 rfl rfl (by
    simp [rpcSavingReq, rpcCheckingReq]) (by simp [rpcMaxMsgCoro])) TxWriteMode.noConfusion
    (table_written .checking) rfl ?_
  refine safe_add_write (account_add_ok .checking few bound1 rfl rfl (by
    simp [rpcSavingReq, rpcCheckingReq, different.symm]) (by simp [rpcMaxMsgCoro]))
    TxWriteMode.noConfusion (table_written .checking) rfl ?_
  refine safe_first_read rfl rfl (show _ = [] from rfl)
    (show _ = [newItem cfg rpcSavingReq acctId0 (stack.objAddr 0) (stack.obj 0) .update,
      newItem cfg rpcCheckingReq acctId0 (stack.objAddr 1) (stack.obj 1) .update,
      newItem cfg rpcCheckingReq acctId1 (stack.objAddr 2) (stack.obj 2) .update] from rfl) rfl rfl
    (by simp) ?_ fun now at_ status allRead _ _ => safe_refused at_ status allRead
  intro now at_ status allRead reads locks
  have noReads : now.readSet = [] := forall₂_nil_left_iff.mp reads
  obtain ⟨sav0, chk0, chk1, savBack, chkBack, otherBack, writes⟩ := Aligned.forall₂_three locks
  obtain ⟨savVal, sav⟩ := locked_item .saving bound0 savBack
  obtain ⟨chkVal, chk⟩ := locked_item .checking bound0 chkBack
  obtain ⟨otherVal, other⟩ := locked_item .checking bound1 otherBack
  refine safe_locked status ?_
  simp only [replyOf, writes, map_cons, map_nil]
  refine safe_check_magic (by rw [sav.buffer]; exact sav.magic) ?_
  refine safe_check_magic (by rw [chk.buffer]; exact chk.magic) ?_
  refine safe_check_magic (by rw [other.buffer]; exact other.magic) ?_
  rw [sav.buffer, chk.buffer, other.buffer,
    show now = { now with writeSet := [sav0, chk0, chk1] } by rw [← writes]]
  refine safe_refill at_ status (show 2 < 3 by decide)
    (show [sav0, chk0, refill _ _ chk1] = _ from rfl) ?_
  refine safe_refill at_ status (show 0 < 3 by decide)
    (show [refill _ _ sav0, chk0, _] = _ from rfl) ?_
  refine safe_refill at_ status (show 1 < 3 by decide)
    (show [_, refill _ _ chk0, _] = _ from rfl) ?_
  rw [sav.buffer, chk.buffer, other.buffer]
  refine safe_must_commit at_ status allRead noReads (by rw [writes]; rfl) ?_ valid ?_
  · rintro item (_ | ⟨_, _ | ⟨_, _ | ⟨_, ⟨⟩⟩⟩⟩)
    · exact refill_good .saving bound0 sav _ _
    · exact refill_good .checking bound0 chk _ _
    · exact refill_good .checking bound1 other _ _
  · simp only [map_cons, map_nil, refill_pairs sav, refill_pairs chk, refill_pairs other]
    exact .amalgamate acctId0 acctId1 savVal chkVal otherVal

theorem txn_send_payment_safe (few : numAccounts ≤ 2 ^ 32)
    (valid : (BankOp.sendPayment acctId0 acctId1).Valid numAccounts)
    (ended : (service (sbRules money numAccounts) cfg).ended tx) :
    Safe (service (sbRules money numAccounts) cfg) (txnSendPayment money stack acctId0 acctId1)
      tx := by
  obtain ⟨different, bound0, bound1⟩ := id valid
  refine safe_start ended ?_
  refine safe_add_write (account_add_ok .checking few bound0 rfl rfl (by simp)
    (by simp [rpcMaxMsgCoro])) TxWriteMode.noConfusion (table_written .checking) rfl ?_
  refine safe_add_write (account_add_ok .checking few bound1 rfl rfl (by
    simp [different.symm]) (by simp [rpcMaxMsgCoro])) TxWriteMode.noConfusion
    (table_written .checking) rfl ?_
  refine safe_first_read rfl rfl (show _ = [] from rfl)
    (show _ = [newItem cfg rpcCheckingReq acctId0 (stack.objAddr 0) (stack.obj 0) .update,
      newItem cfg rpcCheckingReq acctId1 (stack.objAddr 1) (stack.obj 1) .update] from rfl) rfl rfl
    (by simp) ?_ fun now at_ status allRead _ _ => safe_refused at_ status allRead
  intro now at_ status allRead reads locks
  have noReads : now.readSet = [] := forall₂_nil_left_iff.mp reads
  obtain ⟨chk0, chk1, chkBack, otherBack, writes⟩ := Aligned.forall₂_two locks
  obtain ⟨chkVal, chk⟩ := locked_item .checking bound0 chkBack
  obtain ⟨otherVal, other⟩ := locked_item .checking bound1 otherBack
  refine safe_locked status ?_
  simp only [replyOf, writes, map_cons, map_nil]
  refine safe_check_magic (by rw [chk.buffer]; exact chk.magic) ?_
  refine safe_check_magic (by rw [other.buffer]; exact other.magic) ?_
  rw [chk.buffer, other.buffer]
  split_ifs with poor
  · exact safe_abort at_ (Or.inl status) allRead fun after afterAt aborted =>
      safe_done afterAt (Or.inr aborted)
  · rw [show now = { now with writeSet := [chk0, chk1] } by rw [← writes]]
    refine safe_refill at_ status (show 0 < 2 by decide)
      (show [refill _ _ chk0, chk1] = _ from rfl) ?_
    refine safe_refill at_ status (show 1 < 2 by decide)
      (show [_, refill _ _ chk1] = _ from rfl) ?_
    rw [chk.buffer, other.buffer]
    refine safe_must_commit at_ status allRead noReads (by rw [writes]; rfl) ?_ valid ?_
    · rintro item (_ | ⟨_, _ | ⟨_, ⟨⟩⟩⟩)
      · exact refill_good .checking bound0 chk _ _
      · exact refill_good .checking bound1 other _ _
    · simp only [map_cons, map_nil, refill_pairs chk, refill_pairs other]
      exact .sendPayment acctId0 acctId1 chkVal otherVal (Bool.eq_false_iff.mpr poor)

theorem txn_write_check_safe (few : numAccounts ≤ 2 ^ 32) (bound : acctId.toNat < numAccounts)
    (ended : (service (sbRules money numAccounts) cfg).ended tx) :
    Safe (service (sbRules money numAccounts) cfg) (txnWriteCheck money stack acctId) tx := by
  refine safe_start ended ?_
  refine safe_add_read (account_add_ok .saving few bound rfl rfl (by simp)
    (by simp [rpcMaxMsgCoro])) rfl ?_
  refine safe_add_write (account_add_ok .checking few bound rfl rfl (by
    simp [rpcSavingReq, rpcCheckingReq]) (by simp [rpcMaxMsgCoro])) TxWriteMode.noConfusion
    (table_written .checking) rfl ?_
  refine safe_first_read rfl rfl
    (show _ = [newItem cfg rpcSavingReq acctId (stack.objAddr 0) (stack.obj 0) .ignore] from rfl)
    (show _ = [newItem cfg rpcCheckingReq acctId (stack.objAddr 1) (stack.obj 1) .update] from rfl)
    rfl rfl (by simp) ?_ fun now at_ status allRead _ _ => safe_refused at_ status allRead
  intro now at_ status allRead reads locks
  obtain ⟨savItem, savBack, readSet⟩ := Aligned.forall₂_one reads
  obtain ⟨chkItem, chkBack, writes⟩ := Aligned.forall₂_one locks
  obtain ⟨savVal, sav⟩ := found_item .saving bound savBack
  obtain ⟨chkVal, chk⟩ := locked_item .checking bound chkBack
  refine safe_locked status ?_
  simp only [replyOf, readSet, writes, map_cons, map_nil]
  refine safe_check_magic (by rw [sav.buffer]; exact sav.magic) ?_
  refine safe_check_magic (by rw [chk.buffer]; exact chk.magic) ?_
  rw [sav.buffer, chk.buffer, show now = { now with writeSet := [chkItem] } by rw [← writes]]
  refine safe_refill at_ status Nat.one_pos (show [refill _ _ chkItem] = _ from rfl) ?_
  rw [chk.buffer]
  refine safe_commit at_ status ⟨allRead.1, allRead.2.trans (by rw [writes]; rfl)⟩ ?_
    ⟨.writeCheck acctId, bound, ?_⟩ ?_ ?_
  · rintro item (_ | ⟨_, ⟨⟩⟩)
    exact refill_good .checking bound chk _ _
  · simp only [footprint, readSet, cons_append, nil_append, map_cons, map_nil, refill_pairs chk,
      sav.loc, sav.seen]
    exact .writeCheck acctId savVal chkVal
  · exact fun after afterAt committed _ _ => safe_done afterAt (Or.inl committed)
  · exact fun after afterAt aborted _ _ => safe_done afterAt (Or.inr aborted)

theorem txn_balance_safe (few : numAccounts ≤ 2 ^ 32) (bound : acctId.toNat < numAccounts)
    (ended : (service (sbRules money numAccounts) cfg).ended tx) :
    Safe (service (sbRules money numAccounts) cfg) (txnBalance stack acctId) tx := by
  refine safe_start ended ?_
  refine safe_add_read (account_add_ok .saving few bound rfl rfl (by simp)
    (by simp [rpcMaxMsgCoro])) rfl ?_
  refine safe_add_read (account_add_ok .checking few bound rfl rfl (by
    simp [rpcSavingReq, rpcCheckingReq]) (by simp [rpcMaxMsgCoro])) rfl ?_
  refine safe_first_read rfl rfl
    (show _ = [newItem cfg rpcSavingReq acctId (stack.objAddr 0) (stack.obj 0) .ignore,
      newItem cfg rpcCheckingReq acctId (stack.objAddr 1) (stack.obj 1) .ignore] from rfl)
    (show _ = [] from rfl) rfl rfl (by simp) ?_ ?_
  · intro now at_ status allRead reads locks
    have noWrites : now.writeSet = [] := forall₂_nil_left_iff.mp locks
    obtain ⟨savItem, chkItem, savBack, chkBack, readSet⟩ := Aligned.forall₂_two reads
    obtain ⟨savVal, sav⟩ := found_item .saving bound savBack
    obtain ⟨chkVal, chk⟩ := found_item .checking bound chkBack
    simp only [replyOf, status, readSet, map_cons, map_nil, ne_eq, not_true, if_false]
    refine safe_check_magic (by rw [sav.buffer]; exact sav.magic) ?_
    refine safe_check_magic (by rw [chk.buffer]; exact chk.magic) ?_
    refine safe_commit at_ status allRead ?_ ⟨.balance acctId, bound, ?_⟩ ?_ ?_
    · rw [noWrites]
      rintro item ⟨⟩
    · simp only [footprint, readSet, noWrites, append_nil, map_cons, map_nil, sav.loc, sav.seen,
        chk.loc, chk.seen]
      exact .balance acctId savVal chkVal
    · intro after afterAt committed _ _
      simp only [replyOf, committed, if_true]
      exact safe_done afterAt (Or.inl committed)
    · intro after afterAt aborted _ same
      simp only [replyOf, aborted, reduceCtorEq, if_false]
      refine safe_abort_rdonly afterAt (by rw [aborted]; exact TxStatus.noConfusion)
        (same.trans noWrites) ?_
      exact fun last lastAt lastAborted => safe_done lastAt (Or.inr lastAborted)
  · intro now at_ status allRead noWrites _
    simp only [replyOf, status, ne_eq, reduceCtorEq, not_false_eq_true, if_true]
    refine safe_abort_rdonly at_ (by rw [status]; exact TxStatus.noConfusion) (noWrites rfl) ?_
    exact fun last lastAt lastAborted => safe_done lastAt (Or.inr lastAborted)

theorem workload_safe {sb : Sb} (ok : sb.Ok) {txn : Txn (SbVal F)} (listed : Workload money sb txn)
    (ended : (service (sbRules money sb.numAccountsGlobal.toNat) cfg).ended tx) :
    Safe (service (sbRules money sb.numAccountsGlobal.toNat) cfg) txn tx := by
  obtain ⟨stack, roll, seed, other, next, acctId0, acctId1, fuel, drawn, rfl⟩ := listed
  have two := two_accounts_spec ok drawn
  have one := get_account_bound ok seed
  have few : sb.numAccountsGlobal.toNat ≤ 2 ^ 32 := Nat.le_of_lt (UInt32.toNat_lt _)
  obtain ⟨type, found⟩ := percent_total createWorkgenArray (by decide) roll
  rw [slaveTxn, found]
  cases type with
  | amalgamate => exact txn_amalgamate_safe few two ended
  | balance => exact txn_balance_safe few one ended
  | depositChecking =>
      exact txn_add_to_safe .checking few one (show BankOp.Valid _ (.depositChecking _) from one)
        (fun val => .depositChecking _ val) ended
  | sendPayment => exact txn_send_payment_safe few two ended
  | transactSaving =>
      exact txn_add_to_safe .saving few one (show BankOp.Valid _ (.transactSaving _) from one)
        (fun val => .transactSaving _ val) ended
  | writeCheck => exact txn_write_check_safe few one ended

end Safety

section Runs

variable {money : Money F} {sb : Sb} {cfg : Config} {init : State (SbVal F)} {app : App (SbVal F)}

theorem sb_entries {numAccounts : Nat} {bank : Bank F} (initial : Initial cfg init)
    (sizes : ∀ machine reqtype, (init.tables machine reqtype).valSize = sizeofSbVal)
    (holding : Holding numAccounts (primaryEntry cfg init) bank) :
    Entries (sbRules money numAccounts) cfg init := by
  refine ⟨fun loc _ => ⟨fun saving bound => ?_, fun checking bound => ?_⟩, sizes, fun coro => ?_⟩
  · rw [show loc = savLoc loc.2 from Prod.ext saving rfl]
    exact ⟨_, (holding loc.2 bound).1, rfl⟩
  · rw [show loc = chkLoc loc.2 from Prod.ext checking rfl]
    exact ⟨_, (holding loc.2 bound).2, rfl⟩
  · rw [State.tx, initial.txns]
    exact ⟨fun _ member => (by cases member), fun applying => applying.elim,
      fun at_ => (by cases at_)⟩

/-- A swarm whose tables hold the balances of a bank. -/
structure Start (money : Money F) (sb : Sb) (cfg : Config) (init : State (SbVal F)) (bank : Bank F) :
    Prop where
  initial : Initial cfg init
  sizes : ∀ machine reqtype, (init.tables machine reqtype).valSize = sizeofSbVal
  holding : Holding sb.numAccountsGlobal.toNat (primaryEntry cfg init) bank

theorem sb_inv {bank : Bank F} (ok : sb.Ok) (start : Start money sb cfg init bank)
    (reached : AppReachable cfg (Workload money sb) (.launch init) app) :
    AppInv (sbRules money sb.numAccountsGlobal.toNat) cfg init app :=
  app_inv_always start.initial (sb_entries start.initial start.sizes start.holding)
    (fun _ listed _ ended => workload_safe ok listed ended) (fun _ => trivial) reached

/-- The operations of a bank leave the records of existing accounts. -/
theorem executes_accounts {numAccounts : Nat} {op : BankOp} {print : Footprint (SbVal F)}
    (valid : op.Valid numAccounts) (executes : Executes money op print) :
    ∀ pair ∈ print.wrote, ∃ acctId : UInt64, acctId.toNat < numAccounts ∧
      (pair.1 = savLoc acctId ∨ pair.1 = chkLoc acctId) := by
  cases executes with
  | amalgamate acctId0 acctId1 sav0 chk0 chk1 =>
      rintro pair (_ | ⟨_, _ | ⟨_, _ | ⟨_, ⟨⟩⟩⟩⟩)
      · exact ⟨acctId0, valid.2.1, Or.inl rfl⟩
      · exact ⟨acctId0, valid.2.1, Or.inr rfl⟩
      · exact ⟨acctId1, valid.2.2, Or.inr rfl⟩
  | balance acctId sav chk => rintro pair ⟨⟩
  | depositChecking acctId chk =>
      rintro pair (_ | ⟨_, ⟨⟩⟩)
      exact ⟨acctId, valid, Or.inr rfl⟩
  | sendPayment acctId0 acctId1 chk0 chk1 enough =>
      rintro pair (_ | ⟨_, _ | ⟨_, ⟨⟩⟩⟩)
      · exact ⟨acctId0, valid.2.1, Or.inr rfl⟩
      · exact ⟨acctId1, valid.2.2, Or.inr rfl⟩
  | transactSaving acctId sav =>
      rintro pair (_ | ⟨_, ⟨⟩⟩)
      exact ⟨acctId, valid, Or.inl rfl⟩
  | writeCheck acctId sav chk =>
      rintro pair (_ | ⟨_, ⟨⟩⟩)
      exact ⟨acctId, valid, Or.inr rfl⟩

/-- The tables hold a bank at every moment. -/
theorem entries_hold {numAccounts : Nat} {state : State (SbVal F)}
    (entries : Entries (sbRules money numAccounts) cfg state) :
    ∃ bank, Holding numAccounts (primaryEntry cfg state) bank := by
  let balance (loc : Loc) : F := ((primaryEntry cfg state loc).map SbVal.bal).getD money.zero
  refine ⟨⟨fun acctId => balance (savLoc acctId), fun acctId => balance (chkLoc acctId)⟩, ?_⟩
  intro acctId bound
  have saving := entries.good (savLoc acctId) (show rpcSavingReq % rpcPrimaryDsReqSpacing = 0 by decide)
  have checking := entries.good (chkLoc acctId)
    (show rpcCheckingReq % rpcPrimaryDsReqSpacing = 0 by decide)
  obtain ⟨sav, savFound, savMagic⟩ := (good_record .saving bound).mp saving
  obtain ⟨chk, chkFound, chkMagic⟩ := (good_record .checking bound).mp checking
  simp only [balance, savFound, chkFound, Option.map_some, Option.getD_some, ← savMagic, ← chkMagic,
    and_self]

/-- A bank without new accounts needs no new room. -/
theorem never_full {numAccounts : Nat} (inv : AppInv (sbRules money numAccounts) cfg init app)
    (coro : CoroId) : ¬ Full cfg app.swarm coro := by
  rintro ⟨_, _, _, _, item, member, _, _, missing, vec, rest, at_⟩
  have promised : Promised (app.swarm.tx coro) := Or.inl (by simp only [Applying, at_])
  obtain ⟨op, valid, executes⟩ := inv.kept coro _ (Nat.le_refl _) promised
  have listed : (item.loc, entryOf item) ∈ (footprint (app.swarm.tx coro)).wrote :=
    mem_map_of_mem member
  obtain ⟨acctId, bound, place⟩ := executes_accounts valid executes _ listed
  obtain ⟨bank, holding⟩ := entries_hold inv.entries
  rcases place with place | place
  · rw [show item.loc = savLoc acctId from place, (holding acctId bound).1] at missing
    cases missing
  · rw [show item.loc = chkLoc acctId from place, (holding acctId bound).2] at missing
    cases missing

theorem sb_served {bank : Bank F} (ok : sb.Ok) (start : Start money sb cfg init bank)
    (reached : AppReachable cfg (Workload money sb) (.launch init) app)
    (few : FewUnlocks init app.swarm) :
    ∃ order op, Served (bankObject money sb.numAccountsGlobal.toNat) cfg init app.swarm bank order
      op :=
  served_in_order _ start.initial (swarm_reachable reached) few start.holding fun txn committed =>
    (sb_inv ok start reached).kept txn.1 txn.2 committed.1 (promised_of_committed committed.2)

theorem settled_holding {numAccounts : Nat} {bank : Bank F} {order : List TxId} {op : TxId → BankOp}
    (served : Served (bankObject money numAccounts) cfg init app.swarm bank order op)
    (settled : ∀ coro, ¬ InProgress (app.swarm.tx coro)) :
    ∃ after, bank.runAll money (order.map op) = some after ∧
      Holding numAccounts (primaryEntry cfg app.swarm) after := by
  obtain ⟨after, ran, holds⟩ := served.after
  refine ⟨after, ran, fun acctId bound => ?_⟩
  rw [served.final settled (savLoc acctId) (show rpcSavingReq % rpcPrimaryDsReqSpacing = 0 by decide),
    served.final settled (chkLoc acctId) (show rpcCheckingReq % rpcPrimaryDsReqSpacing = 0 by decide)]
  exact holds acctId bound

end Runs

section Populated

variable {money : Money F} {sb : Sb} {cfg : Config} {app : App (SbVal F)}
  {loaded : Population.State (SbVal F)} {numBuckets numExtraBuckets : Nat × Nat → Nat}

def sbLoads (money : Money F) (sb : Sb) (base : Nat) (key : UInt64) (value : SbVal F) : Prop :=
  key.toNat < sb.numAccountsGlobal.toNat ∧
    ((base = rpcSavingReq ∧ value = ⟨sbSavMagic, money.initialBalance⟩) ∨
      (base = rpcCheckingReq ∧ value = ⟨sbChkMagic, money.initialBalance⟩))

def sbSetup (money : Money F) (sb : Sb) (cfg : Config) (numBuckets numExtraBuckets : Nat × Nat → Nat) :
    Setup (SbVal F) :=
  appSetup cfg (fun _ => sizeofSbVal) numBuckets numExtraBuckets ⟨0, money.zero⟩
    (populateSavingsAndCheckingTable money cfg.mappings (dsKeyhash cfg) sb.numAccountsGlobal)

theorem sb_loading (buckets : ∀ place, 0 < numBuckets place) :
    Loading cfg (sbLoads money sb) (sbSetup money sb cfg numBuckets numExtraBuckets) := by
  have wide := sb.numAccountsGlobal.toNat_lt
  have key : ∀ {row : Nat}, row < sb.numAccountsGlobal.toNat → (UInt64.ofNat row).toNat = row :=
    fun below => UInt64.toNat_ofNat_of_lt' (Nat.lt_trans (Nat.lt_trans below wide) (by decide))
  refine app_loading buckets ?_ ?_ ?_ ?_
  · intro wrkrGid reqtype key value
    simp only [populateSavingsAndCheckingTable, mem_flatMap, mem_range, mem_append,
      mem_load_into_table]
    constructor
    · rintro ⟨replI, index, row, below, ⟨mine, rfl, rfl, rfl⟩ | ⟨mine, rfl, rfl, rfl⟩⟩
      · exact ⟨_, replI, rfl, index, mine, by rw [key below]; exact below, Or.inl ⟨rfl, rfl⟩⟩
      · exact ⟨_, replI, rfl, index, mine, by rw [key below]; exact below, Or.inr ⟨rfl, rfl⟩⟩
    · rintro ⟨base, replI, rfl, index, mine, below, loads⟩
      refine ⟨replI, index, key.toNat, below, ?_⟩
      rw [UInt64.ofNat_toNat]
      rcases loads with ⟨rfl, rfl⟩ | ⟨rfl, rfl⟩
      · exact Or.inl ⟨mine, rfl, rfl, rfl⟩
      · exact Or.inr ⟨mine, rfl, rfl, rfl⟩
  · rintro base key value ⟨_, ⟨rfl, _⟩ | ⟨rfl, _⟩⟩
    · decide
    · decide
  · rintro base key left right ⟨_, ⟨rfl, rfl⟩ | ⟨rfl, rfl⟩⟩ ⟨_, ⟨type, rfl⟩ | ⟨type, rfl⟩⟩
    · rfl
    · cases type
    · cases type
    · rfl
  · rintro base value ⟨below, _⟩
    have largest : kFtInvalidKey.toNat = 2 ^ 64 - 1 := by decide
    omega

def openingBank (money : Money F) : Bank F :=
  ⟨fun _ => money.initialBalance, fun _ => money.initialBalance⟩

theorem populated_start (buckets : ∀ place, 0 < numBuckets place)
    (workers : 0 < cfg.mappings.workersPerMachine)
    (populated : Populated (sbSetup money sb cfg numBuckets numExtraBuckets) loaded) :
    Start money sb cfg (swarmOf loaded) (openingBank money) := by
  have loading : Loading cfg (sbLoads money sb)
      (sbSetup money sb cfg numBuckets numExtraBuckets) := sb_loading buckets
  refine ⟨loaded_initial loading populated, loaded_val_size loading populated, ?_⟩
  intro acctId bound
  rw [loaded_entry loading populated workers (savLoc acctId)
      (show rpcSavingReq % rpcPrimaryDsReqSpacing = 0 by decide),
    loaded_entry loading populated workers (chkLoc acctId)
      (show rpcCheckingReq % rpcPrimaryDsReqSpacing = 0 by decide)]
  exact ⟨⟨bound, Or.inl ⟨rfl, rfl⟩⟩, ⟨bound, Or.inr ⟨rfl, rfl⟩⟩⟩

section Example

def cents : Money Int where
  add := (· + ·)
  sub := (· - ·)
  less left right := decide (left < right)
  zero := 0
  one := 100
  depositAmount := 130
  paymentAmount := 500
  savingAmount := 2020
  checkAmount := 500
  initialBalance := 100000000000

/-- The constructor makes 100000 accounts for every worker. -/
def twoAccounts : Sb := ⟨2, 2⟩

def emptyStack : Stack Int := ⟨fun _ => 0, fun _ => ⟨0, 0, ⟨0, 0⟩⟩⟩

/-- The money of account 0 goes to account 1; then a check is drawn on account 0. -/
def emptyAndCheck : List (AppLabel (SbVal Int)) :=
  turn ⟨0, 1⟩ (slaveTxn cents emptyStack 0 0 (0, 1)) [[], [], [], [], [3], [], [], [], [3]] ++
    turn ⟨0, 2⟩ (slaveTxn cents emptyStack 99 0 (0, 1)) [[], [], [], [2], [], [1, 1]]

theorem empty_and_check_listed : ∀ label ∈ emptyAndCheck, Listed (Workload cents twoAccounts) label := by
  have two : getTwoAccounts twoAccounts 8 1 = some (0, 1, 9366438228929508483) := by decide +kernel
  have one : (getAccount twoAccounts 1).1 = 0 := by decide +kernel
  have listed : ∀ roll, Workload cents twoAccounts (slaveTxn cents emptyStack roll 0 (0, 1)) :=
    fun roll => ⟨emptyStack, roll, 1, 1, _, 0, 1, 8, two, by rw [one]⟩
  rw [emptyAndCheck, forall_mem_append]
  exact ⟨turn_listed (listed 0) _ _, turn_listed (listed 99) _ _⟩

def smallBank : Setup (SbVal Int) := sbSetup cents twoAccounts oneMachine (fun _ => 1) (fun _ => 0)

def populateThenRun : Option (Population.State (SbVal Int) × App (SbVal Int)) :=
  ((replicate 16 0).foldlM (Population.step smallBank) (Population.initial smallBank)).bind
    fun loaded => (runApp oneMachine (.launch (swarmOf loaded)) emptyAndCheck).map (loaded, ·)

theorem populate_then_run :
    ∃ loaded app, Populated smallBank loaded ∧
      runApp oneMachine (.launch (swarmOf loaded)) emptyAndCheck = some app ∧
      AppReachable oneMachine (Workload cents twoAccounts) (.launch (swarmOf loaded)) app ∧
      FewUnlocks (swarmOf loaded) app.swarm ∧ (∀ coro, ¬ InProgress (app.swarm.tx coro)) ∧
      [savLoc 0, chkLoc 0].map (primaryEntry oneMachine app.swarm) =
        [some ⟨sbSavMagic, 0⟩, some ⟨sbChkMagic, -600⟩] := by
  have observed : populateThenRun.map (fun result => (decide (Population.Finished smallBank result.1),
      decide (∀ coro ∈ [(⟨0, 1⟩ : CoroId), ⟨0, 2⟩], (result.2.swarm.tx coro).pc = .app ∧
        ((result.2.swarm.tx coro).status = .committed ∨
          (result.2.swarm.tx coro).status = .aborted)),
      [savLoc 0, chkLoc 0].map (primaryEntry oneMachine result.2.swarm))) =
      some (true, true, [some ⟨sbSavMagic, 0⟩, some ⟨sbChkMagic, -600⟩]) := by
    decide +kernel
  obtain ⟨⟨loaded, app⟩, ran, same⟩ := Option.map_eq_some_iff.mp observed
  obtain ⟨done, ended, balances⟩ : _ ∧ _ ∧ _ := by simpa only [Prod.mk.injEq] using same
  obtain ⟨middle, populate, later⟩ := Option.bind_eq_some_iff.mp ran
  obtain ⟨final, run, pair⟩ := Option.map_eq_some_iff.mp later
  obtain ⟨rfl, rfl⟩ := Prod.mk.inj pair
  have populated : Populated smallBank middle :=
    ⟨Runs.reachable_of_run _ .refl populate, of_decide_eq_true done⟩
  have initial := loaded_initial (sb_loading fun _ => Nat.one_pos) populated
  exact ⟨middle, final, populated, run, run_app_reachable _ empty_and_check_listed .refl run,
    few_unlocks_of_app_run initial run (by decide),
    settled_of_app_run initial run _ (by decide) (of_decide_eq_true ended), balances⟩

end Example

theorem never_crashes (ok : sb.Ok) (buckets : ∀ place, 0 < numBuckets place)
    (workers : 0 < cfg.mappings.workersPerMachine)
    (populated : Populated (sbSetup money sb cfg numBuckets numExtraBuckets) loaded)
    (reached : AppReachable cfg (Workload money sb) (.launch (swarmOf loaded)) app)
    (label : AppLabel (SbVal F)) (crash : Crash) : appStep cfg app label ≠ some (.error crash) := by
  intro ran
  have start := populated_start buckets workers populated
  have agree := loaded_agree (sb_loading buckets) populated workers
  exact never_full (sb_inv ok start reached) _ (app_crash_full start.initial agree reached ran)

/-- No assertion of SmallBank fails, in no run and whatever the arithmetic of the
balances does, and no process ends. At every moment all accounts are there. -/
theorem smallbank_never_asserts (ok : sb.Ok) (buckets : ∀ place, 0 < numBuckets place)
    (workers : 0 < cfg.mappings.workersPerMachine)
    (populated : Populated (sbSetup money sb cfg numBuckets numExtraBuckets) loaded)
    (reached : AppReachable cfg (Workload money sb) (.launch (swarmOf loaded)) app) :
    Undisturbed cfg app ∧ (∀ label crash, appStep cfg app label ≠ some (.error crash)) ∧
      ∃ bank, Holding sb.numAccountsGlobal.toNat (primaryEntry cfg app.swarm) bank := by
  have inv := sb_inv ok (populated_start buckets workers populated) reached
  exact ⟨undisturbed_of_inv inv, never_crashes ok buckets workers populated reached,
    entries_hold inv.entries⟩

theorem smallbank_never_asserts_empty_and_check :
    ∃ loaded app, Populated smallBank loaded ∧
      runApp oneMachine (.launch (swarmOf loaded)) emptyAndCheck = some app ∧
      Undisturbed oneMachine app ∧ ∃ bank, Holding 2 (primaryEntry oneMachine app.swarm) bank := by
  obtain ⟨loaded, app, populated, ran, reached, _⟩ := populate_then_run
  obtain ⟨undisturbed, _, holding⟩ := smallbank_never_asserts ⟨by decide, by decide⟩
    (fun _ => Nat.one_pos) (by decide) populated reached
  exact ⟨loaded, app, populated, ran, undisturbed, holding⟩

/-- No process of SmallBank ever ends, and whatever the coroutines have done so far,
each of them can finish its transaction function without the others. -/
theorem smallbank_always_completes (ok : sb.Ok) (buckets : ∀ place, 0 < numBuckets place)
    (workers : 0 < cfg.mappings.workersPerMachine)
    (populated : Populated (sbSetup money sb cfg numBuckets numExtraBuckets) loaded)
    (reached : AppReachable cfg (Workload money sb) (.launch (swarmOf loaded)) app) :
    (∀ label crash, appStep cfg app label ≠ some (.error crash)) ∧
      ∀ coro, cfg.Valid coro → ∃ last, Alone cfg coro app last ∧ last.control coro = .ready .done := by
  have start := populated_start buckets workers populated
  have agree : ReplicasAgree cfg (swarmOf loaded) :=
    loaded_agree (sb_loading buckets) populated workers
  refine ⟨never_crashes ok buckets workers populated reached, fun coro valid => ?_⟩
  obtain ⟨last, alone, done | full⟩ :=
    functions_end start.initial agree (fun _ reached => sb_inv ok start reached) reached valid
  · exact ⟨last, alone, done⟩
  · exact absurd full (never_full (sb_inv ok start (alone_reachable alone reached)) coro)

theorem smallbank_always_completes_empty_and_check :
    ∃ loaded app, Populated smallBank loaded ∧
      runApp oneMachine (.launch (swarmOf loaded)) emptyAndCheck = some app ∧
      ∃ last, Alone oneMachine ⟨0, 2⟩ app last ∧ last.control ⟨0, 2⟩ = .ready .done := by
  obtain ⟨loaded, app, populated, ran, reached, _⟩ := populate_then_run
  exact ⟨loaded, app, populated, ran, (smallbank_always_completes ⟨by decide, by decide⟩
    (fun _ => Nat.one_pos) (by decide) populated reached).2 ⟨0, 2⟩ (by decide)⟩

/-- The committed transactions in a serial order have done the operations of one bank,
each on the balances that it has seen, and when nothing is in progress the primaries
hold what they have left. -/
theorem smallbank_refines_bank (ok : sb.Ok) (buckets : ∀ place, 0 < numBuckets place)
    (workers : 0 < cfg.mappings.workersPerMachine)
    (populated : Populated (sbSetup money sb cfg numBuckets numExtraBuckets) loaded)
    (reached : AppReachable cfg (Workload money sb) (.launch (swarmOf loaded)) app)
    (few : FewUnlocks (swarmOf loaded) app.swarm) :
    ∃ order op, Served (bankObject money sb.numAccountsGlobal.toNat) cfg (swarmOf loaded) app.swarm
        (openingBank money) order op ∧
      ((∀ coro, ¬ InProgress (app.swarm.tx coro)) →
        ∃ after, (openingBank money).runAll money (order.map op) = some after ∧
          Holding sb.numAccountsGlobal.toNat (primaryEntry cfg app.swarm) after) := by
  have start := populated_start buckets workers populated
  obtain ⟨order, op, served⟩ := sb_served ok start reached few
  exact ⟨order, op, served, settled_holding served⟩

theorem smallbank_refines_bank_empty_and_check :
    ∃ loaded app, Populated smallBank loaded ∧
      runApp oneMachine (.launch (swarmOf loaded)) emptyAndCheck = some app ∧
      ∃ (order : List TxId) (op : TxId → BankOp) (after : Bank Int),
        Served (bankObject cents 2) oneMachine (swarmOf loaded) app.swarm (openingBank cents) order
          op ∧
        (openingBank cents).runAll cents (order.map op) = some after ∧
        after.saving 0 = 0 ∧ after.checking 0 = -600 := by
  obtain ⟨loaded, app, populated, ran, reached, few, settled, balances⟩ := populate_then_run
  obtain ⟨order, op, served, holding⟩ :=
    smallbank_refines_bank ⟨by decide, by decide⟩ (fun _ => Nat.one_pos) (by decide) populated
      reached few
  obtain ⟨after, run, holds⟩ := holding settled
  obtain ⟨saving, checking⟩ := holds 0 (by decide)
  simp only [map_cons, map_nil, saving, checking, cons.injEq, Option.some.injEq, SbVal.mk.injEq,
    true_and, and_true] at balances
  exact ⟨loaded, app, populated, ran, order, op, after, served, run, balances⟩

theorem opening_total [AddCommGroup F] (numAccounts : Nat) :
    (openingBank money).total numAccounts = (2 * numAccounts) • money.initialBalance := by
  simp only [Bank.total, openingBank, sumOver, Finset.sum_const, Finset.card_range, two_mul,
    add_nsmul]

/-- With exact arithmetic the money in the bank is accounted for by the operations
that have been done. A check costs one more if the account could not pay it at its
place in the serial order. -/
theorem smallbank_conserves_money [AddCommGroup F] (exact_ : Exact money) (ok : sb.Ok)
    (buckets : ∀ place, 0 < numBuckets place) (workers : 0 < cfg.mappings.workersPerMachine)
    (populated : Populated (sbSetup money sb cfg numBuckets numExtraBuckets) loaded)
    (reached : AppReachable cfg (Workload money sb) (.launch (swarmOf loaded)) app)
    (few : FewUnlocks (swarmOf loaded) app.swarm)
    (settled : ∀ coro, ¬ InProgress (app.swarm.tx coro)) :
    ∃ order op after, Served (bankObject money sb.numAccountsGlobal.toNat) cfg (swarmOf loaded)
        app.swarm (openingBank money) order op ∧
      (openingBank money).runAll money (order.map op) = some after ∧
      Holding sb.numAccountsGlobal.toNat (primaryEntry cfg app.swarm) after ∧
      after.total sb.numAccountsGlobal.toNat +
          (order.map op).countP BankOp.isCheck • money.checkAmount +
          overdrafts money (openingBank money) (order.map op) • money.one =
        (2 * sb.numAccountsGlobal.toNat) • money.initialBalance +
          (order.map op).countP BankOp.isDeposit • money.depositAmount +
          (order.map op).countP BankOp.isSaving • money.savingAmount := by
  have start := populated_start buckets workers populated
  obtain ⟨order, op, served⟩ := sb_served ok start reached few
  obtain ⟨after, ran, holding⟩ := settled_holding served settled
  have valid : ∀ other ∈ order.map op, other.Valid sb.numAccountsGlobal.toNat := by
    intro other member
    obtain ⟨txn, listed, rfl⟩ := mem_map.mp member
    exact (served.executes txn listed).1
  have total := run_all_total exact_ (Nat.le_of_lt (UInt32.toNat_lt _)) valid ran
  rw [opening_total] at total
  exact ⟨order, op, after, served, ran, holding, total⟩

/-- The check is drawn on an empty account. -/
theorem smallbank_conserves_money_empty_and_check :
    ∃ loaded app, Populated smallBank loaded ∧
      runApp oneMachine (.launch (swarmOf loaded)) emptyAndCheck = some app ∧
      ∃ (ops : List BankOp) (after : Bank Int),
        (openingBank cents).runAll cents ops = some after ∧
        Holding 2 (primaryEntry oneMachine app.swarm) after ∧
        after.total 2 + ops.countP BankOp.isCheck • cents.checkAmount +
            overdrafts cents (openingBank cents) ops • cents.one =
          4 • cents.initialBalance + ops.countP BankOp.isDeposit • cents.depositAmount +
            ops.countP BankOp.isSaving • cents.savingAmount := by
  obtain ⟨loaded, app, populated, ran, reached, few, settled, _⟩ := populate_then_run
  obtain ⟨order, op, after, _, run, holding, total⟩ :=
    smallbank_conserves_money ⟨fun _ _ => rfl, fun _ _ => rfl, rfl⟩ ⟨by decide, by decide⟩
      (fun _ => Nat.one_pos) (by decide) populated reached few settled
  exact ⟨loaded, app, populated, ran, order.map op, after, run, holding, total⟩

end Populated

end Fasst.SmallBankRuns

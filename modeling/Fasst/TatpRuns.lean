import Fasst.TatpPopulation
import Fasst.TxHistories
import Fasst.TxProgress

/-!
# TATP as a directory

No assertion of the transaction functions fails. At all times every row is of the
type of its table and under a key of that table, the subscribers and their facilities
are those that were loaded, and a call forwarding row belongs to a special facility.
The committed transactions are one serial run of operations on the rows.
-/

namespace Fasst.TatpRuns

open List Fasst.Dialogues Fasst.FixedTableModel Fasst.TxModel Fasst.TxCluster Fasst.TxLocal
open Fasst.TxSteps Fasst.TxInvariant Fasst.TxReplicas Fasst.TxSerializable Fasst.TxEntries
open Fasst.TxPrograms Fasst.TxProgramRules Fasst.TxProgramRuns Fasst.TxHistories
open Fasst.TxSerial Fasst.TxViews Fasst.TxOwnership Fasst.TxProgress Fasst.PopulatedSwarm
open Fasst.TatpSubNbr Fasst.TatpModel Fasst.TatpRows Fasst.TatpPopulation
open Fasst.TatpSecondary (SecSubVal tatpSecSubMagic)
open Fasst.Population (Setup)
open Fasst.HrdRandom (percent_total)
open Fasst.PopulationRouting (mem_load_into_table)

set_option autoImplicit false

section Operations

inductive TatpOp where
  | getSubscriberData (sId : UInt32)
  | getAccessData (sId : UInt32) (aiType : UInt8)
  | getNewDestination (sId : UInt32) (sfType startTime endTime : UInt8)
  | updateSubscriberData (sId : UInt32) (sfType : UInt8) (bits : UInt16) (dataA : UInt8)
  | updateLocation (sId vlrLocation : UInt32)
  | insertCallForwarding (sId : UInt32) (sfType startTime endTime : UInt8)
  | deleteCallForwarding (sId : UInt32) (sfType startTime : UInt8)

/-- A call is forwarded by a row that starts in time and ends later. -/
def forwards (rows : Loc → Option TatpVal) (sId : UInt32) (sfType endTime : UInt8) (i : Nat) : Bool :=
  match rows (callfwdLoc sId sfType (UInt8.ofNat (i * 8))) with
  | some (.callfwd val) => decide (endTime < val.endTime)
  | _ => false

/-- One operation on the rows, or its failure. -/
def TatpOp.run (rows : Loc → Option TatpVal) : TatpOp → Option (Loc → Option TatpVal)
  | .getSubscriberData sId =>
      match rows (subLoc sId) with
      | some (.sub _) => some rows
      | _ => none
  | .getAccessData sId aiType =>
      match rows (accinfLoc sId aiType) with
      | some (.accinf _) => some rows
      | _ => none
  | .getNewDestination sId sfType startTime endTime =>
      match rows (specfacLoc sId sfType) with
      | some (.specfac val) =>
          if val.isActive ≠ 0 ∧
            (range (startTime.toNat / 8 + 1)).any (forwards rows sId sfType endTime) then some rows
          else none
      | _ => none
  | .updateSubscriberData sId sfType bits dataA =>
      match rows (subLoc sId), rows (specfacLoc sId sfType) with
      | some (.sub sub), some (.specfac specfac) =>
          some (Function.update (Function.update rows (subLoc sId) (some (.sub { sub with bits := bits })))
            (specfacLoc sId sfType) (some (.specfac { specfac with dataA := some dataA })))
      | _, _ => none
  | .updateLocation sId vlrLocation =>
      match rows (secSubLoc sId), rows (subLoc sId) with
      | some (.secSub _), some (.sub sub) =>
          some (Function.update rows (subLoc sId)
            (some (.sub { sub with vlrLocation := vlrLocation })))
      | _, _ => none
  | .insertCallForwarding sId sfType startTime endTime =>
      match rows (specfacLoc sId sfType), rows (callfwdLoc sId sfType startTime) with
      | some (.specfac _), none =>
          some (Function.update rows (callfwdLoc sId sfType startTime)
            (some (.callfwd ⟨endTime, tatpCallfwdNumberx0Magic⟩)))
      | _, _ => none
  | .deleteCallForwarding sId sfType startTime =>
      match rows (callfwdLoc sId sfType startTime) with
      | some (.callfwd _) => some (Function.update rows (callfwdLoc sId sfType startTime) none)
      | _ => none

/-- What a transaction sees and leaves when it executes an operation. -/
inductive Executes : TatpOp → Footprint TatpVal → Prop where
  | getSubscriberData (sId : UInt32) (val : SubVal) :
      Executes (.getSubscriberData sId) { seen := [(subLoc sId, some (.sub val))], wrote := [] }
  | getAccessData (sId : UInt32) (aiType : UInt8) (val : AccinfVal) :
      Executes (.getAccessData sId aiType)
        { seen := [(accinfLoc sId aiType, some (.accinf val))], wrote := [] }
  | getNewDestination (sId : UInt32) (sfType startTime endTime : UInt8) (val : SpecfacVal)
      (entries : List (Option TatpVal)) (active : val.isActive ≠ 0)
      (length : entries.length = startTime.toNat / 8 + 1) (i : Nat) (callfwd : CallfwdVal)
      (found : entries[i]? = some (some (.callfwd callfwd))) (later : endTime < callfwd.endTime) :
      Executes (.getNewDestination sId sfType startTime endTime)
        { seen := (specfacLoc sId sfType, some (.specfac val)) :: entries.zipIdx.map fun entry =>
            (callfwdLoc sId sfType (UInt8.ofNat (entry.2 * 8)), entry.1)
          wrote := [] }
  | updateSubscriberData (sId : UInt32) (sfType : UInt8) (bits : UInt16) (dataA : UInt8)
      (sub : SubVal) (specfac : SpecfacVal) :
      Executes (.updateSubscriberData sId sfType bits dataA)
        { seen := [(subLoc sId, some (.sub sub)), (specfacLoc sId sfType, some (.specfac specfac))]
          wrote := [(subLoc sId, some (.sub { sub with bits := bits })),
            (specfacLoc sId sfType, some (.specfac { specfac with dataA := some dataA }))] }
  | updateLocation (sId vlrLocation : UInt32) (secSub : SecSubVal) (sub : SubVal) :
      Executes (.updateLocation sId vlrLocation)
        { seen := [(secSubLoc sId, some (.secSub secSub)), (subLoc sId, some (.sub sub))]
          wrote := [(subLoc sId, some (.sub { sub with vlrLocation := vlrLocation }))] }
  | insertCallForwarding (sId : UInt32) (sfType startTime endTime : UInt8) (secSub : SecSubVal)
      (specfac : SpecfacVal) :
      Executes (.insertCallForwarding sId sfType startTime endTime)
        { seen := [(secSubLoc sId, some (.secSub secSub)),
            (specfacLoc sId sfType, some (.specfac specfac)),
            (callfwdLoc sId sfType startTime, none)]
          wrote := [(callfwdLoc sId sfType startTime,
            some (.callfwd ⟨endTime, tatpCallfwdNumberx0Magic⟩))] }
  | deleteCallForwarding (sId : UInt32) (sfType startTime : UInt8) (secSub : SecSubVal)
      (callfwd : CallfwdVal) :
      Executes (.deleteCallForwarding sId sfType startTime)
        { seen := [(secSubLoc sId, some (.secSub secSub)),
            (callfwdLoc sId sfType startTime, some (.callfwd callfwd))]
          wrote := [(callfwdLoc sId sfType startTime, none)] }

/-- A transaction that has seen the rows does its operation to them. -/
theorem executes_run {op : TatpOp} {print : Footprint TatpVal} {rows : Loc → Option TatpVal}
    (executes : Executes op print) (saw : Saw rows print) :
    op.run rows = some (writeAll rows print) := by
  have sees : ∀ {loc : Loc} {entry : Option TatpVal}, (loc, entry) ∈ print.seen → rows loc = entry :=
    fun member => saw _ member
  cases executes with
  | getSubscriberData sId val =>
      simp only [TatpOp.run, sees (mem_cons_self)]
      rfl
  | getAccessData sId aiType val =>
      simp only [TatpOp.run, sees (mem_cons_self)]
      rfl
  | getNewDestination sId sfType startTime endTime val entries active length i callfwd found later =>
      have bound : i < entries.length := (List.getElem?_eq_some_iff.mp found).1
      have inside : (some (TatpVal.callfwd callfwd), i) ∈ entries.zipIdx :=
        mem_zipIdx_iff_getElem?.mpr found
      have forwarded : forwards rows sId sfType endTime i = true := by
        simp only [forwards, sees (mem_cons_of_mem _ (mem_map_of_mem inside)), later, decide_true]
      have any : (range (startTime.toNat / 8 + 1)).any (forwards rows sId sfType endTime) = true :=
        any_eq_true.mpr ⟨i, mem_range.mpr (by omega), forwarded⟩
      simp only [TatpOp.run, sees (mem_cons_self)]
      rw [if_pos ⟨active, any⟩]
      rfl
  | updateSubscriberData sId sfType bits dataA sub specfac =>
      simp only [TatpOp.run, sees (mem_cons_self), sees (mem_cons_of_mem _ mem_cons_self)]
      rfl
  | updateLocation sId vlrLocation secSub sub =>
      simp only [TatpOp.run, sees (mem_cons_self), sees (mem_cons_of_mem _ mem_cons_self)]
      rfl
  | insertCallForwarding sId sfType startTime endTime secSub specfac =>
      simp only [TatpOp.run, sees (mem_cons_of_mem _ mem_cons_self),
        sees (mem_cons_of_mem _ (mem_cons_of_mem _ mem_cons_self))]
      rfl
  | deleteCallForwarding sId sfType startTime secSub callfwd =>
      simp only [TatpOp.run, sees (mem_cons_of_mem _ mem_cons_self)]
      rfl

end Operations

section Items

/-- The rows are what the directory says, and so are those of a transaction that
commits. Of two tables no row is ever written. -/
def tatpRules (dir : Directory) : Discipline TatpVal where
  good := EntryOk dir
  written reqtype :=
    reqtype = rpcSubscriberReq ∨ reqtype = rpcSpecialFacilityReq ∨ reqtype = rpcCallForwardingReq
  valSize := tatpValSize
  keeps print := ∃ op, Executes op print
  learns _ := True

variable {dir : Directory} {cfg : Config} {tx : TxState TatpVal} {stack : Stack}

def tatpReqtypes : List Nat :=
  [rpcSubscriberReq, rpcSecSubscriberReq, rpcSpecialFacilityReq, rpcAccessInfoReq,
    rpcCallForwardingReq]

theorem row_add_ok {reqtype : Nat} {key : UInt64} (table : reqtype ∈ tatpReqtypes)
    (small : key.toNat < 2 ^ 48) (at_ : tx.pc = .app) (running : tx.status = .inProgress)
    (fresh : (reqtype, key) ∉ (tx.readSet ++ tx.writeSet).map RwsetItem.loc)
    (room : tx.readSet.length + tx.writeSet.length < rpcMaxMsgCoro) : AddOk tx reqtype key := by
  have reserved : ∀ other ∈ tatpReqtypes,
      other % rpcPrimaryDsReqSpacing = 0 ∧ rpcMicaReqBase ≤ other ∧ other < 2 ^ 8 := by decide
  obtain ⟨spacing, base, bound⟩ := reserved reqtype table
  exact ⟨at_, running, spacing, base, bound, ne_invalid small, fresh, room⟩

structure Holds (dir : Directory) (loc : Loc) (mode : TxWriteMode) (value : TatpVal)
    (item : RwsetItem TatpVal) : Prop where
  place : item.loc = loc
  mode : item.writeMode = mode
  seen : item.seen = some value
  buffer : item.obj.val = value
  size : item.obj.valSize = tatpValSize loc.1
  row : RowOk dir loc value

structure Lacks (dir : Directory) (loc : Loc) (mode : TxWriteMode) (item : RwsetItem TatpVal) :
    Prop where
  place : item.loc = loc
  mode : item.writeMode = mode
  seen : item.seen = none
  absent : ¬ Present dir loc

theorem read_row {reqtype : Nat} {key objAddr : UInt64} {obj : HotsObj TatpVal}
    {item : RwsetItem TatpVal}
    (back : ReadBack (tatpRules dir) (newItem cfg reqtype key objAddr obj .ignore) item) :
    (∃ value, Holds dir (reqtype, key) .ignore value item) ∨
      (Lacks dir (reqtype, key) .ignore item ∧ item.obj.valSize = 0) := by
  cases back with
  | found value same good seen val size =>
      exact Or.inl ⟨value, loc_same same, same.writeMode, seen, val, size, good.1 value rfl⟩
  | missing same good seen size =>
      exact Or.inr ⟨⟨loc_same same, same.writeMode, seen, fun present => good.2 present rfl⟩, size⟩

theorem read_present {reqtype : Nat} {key objAddr : UInt64} {obj : HotsObj TatpVal}
    {item : RwsetItem TatpVal} (present : Present dir (reqtype, key))
    (back : ReadBack (tatpRules dir) (newItem cfg reqtype key objAddr obj .ignore) item) :
    ∃ value, Holds dir (reqtype, key) .ignore value item := by
  rcases read_row back with found | ⟨lacks, _⟩
  · exact found
  · exact absurd present lacks.absent

theorem locked_row {reqtype : Nat} {key objAddr : UInt64} {obj : HotsObj TatpVal}
    {mode : TxWriteMode} {item : RwsetItem TatpVal} (existing : mode ≠ .insert)
    (back : LockBack (tatpRules dir) (newItem cfg reqtype key objAddr obj mode) item) :
    ∃ value, Holds dir (reqtype, key) mode value item := by
  obtain ⟨value, same, good, seen, val, size⟩ := lock_back_value existing back
  exact ⟨value, loc_same same, same.writeMode, seen, val, size, good.1 value rfl⟩

theorem locked_missing {reqtype : Nat} {key objAddr : UInt64} {obj : HotsObj TatpVal}
    {item : RwsetItem TatpVal}
    (back : LockBack (tatpRules dir) (newItem cfg reqtype key objAddr obj .insert) item) :
    Lacks dir (reqtype, key) .insert item := by
  cases back with
  | found _ _ mode _ _ _ _ => exact absurd rfl mode
  | missing same _ good seen =>
      exact ⟨loc_same same, same.writeMode, seen, fun present => good.2 present rfl⟩

variable {loc : Loc} {mode : TxWriteMode} {value : TatpVal} {item : RwsetItem TatpVal}
  {program : Txn TatpVal}

theorem holds_size {reqtype : Nat} {key : UInt64} (holds : Holds dir (reqtype, key) mode value item)
    (table : reqtype ∈ tatpReqtypes) : 0 < item.obj.valSize := by
  have sizes : ∀ other ∈ tatpReqtypes, 0 < tatpValSize other := by decide
  rw [holds.size]
  exact sizes reqtype table

theorem refill_update (holds : Holds dir loc .update value item) (size : Nat) (changed : TatpVal) :
    (refill size changed item).loc = loc ∧ (refill size changed item).seen = some value ∧
      entryOf (refill size changed item) = some changed := by
  refine ⟨holds.place, holds.seen, entry_of_refill size changed ?_⟩
  rw [holds.mode]
  exact TxWriteMode.noConfusion

theorem refill_insert (lacks : Lacks dir loc .insert item) (size : Nat) (val : TatpVal) :
    (refill size val item).loc = loc ∧ (refill size val item).seen = none ∧
      entryOf (refill size val item) = some val := by
  refine ⟨lacks.place, lacks.seen, entry_of_refill size val ?_⟩
  rw [lacks.mode]
  exact TxWriteMode.noConfusion

/-- A row may be put where it belongs. -/
theorem entry_ok_some (row : RowOk dir loc value) : EntryOk dir loc (some value) := by
  refine ⟨?_, fun _ => Option.some_ne_none value⟩
  rintro _ ⟨⟩
  exact row

theorem safe_dassert {condition : Prop} [Decidable condition] (holds : condition)
    (safe : Safe (service (tatpRules dir) cfg) program tx) :
    Safe (service (tatpRules dir) cfg) (tatpDassert condition program) tx := by
  rw [tatpDassert, if_pos holds]
  exact safe

theorem safe_as_sub {obj : HotsObj TatpVal} {val : SubVal} {rest : SubVal → Txn TatpVal}
    (shape : obj.val = .sub val) (magic : val.mscLocation = tatpSubMscLocationMagic)
    (safe : Safe (service (tatpRules dir) cfg) (rest val) tx) :
    Safe (service (tatpRules dir) cfg) (asSub obj rest) tx := by
  simp only [asSub, shape]
  exact safe_dassert magic safe

theorem safe_as_specfac {obj : HotsObj TatpVal} {val : SpecfacVal}
    {rest : SpecfacVal → Txn TatpVal} (shape : obj.val = .specfac val)
    (magic : val.dataB0 = tatpSpecfacDataB0Magic)
    (safe : Safe (service (tatpRules dir) cfg) (rest val) tx) :
    Safe (service (tatpRules dir) cfg) (asSpecfac obj rest) tx := by
  simp only [asSpecfac, shape]
  exact safe_dassert magic safe

theorem abort_rdonly_safe (at_ : tx.pc = .app) (running : tx.status ≠ .committed)
    (noWrites : tx.writeSet = []) : Safe (service (tatpRules dir) cfg) abortRdonly tx :=
  safe_abort_rdonly at_ running noWrites fun _ nowAt aborted => safe_done nowAt (Or.inr aborted)

theorem abort_safe (at_ : tx.pc = .app) (status : tx.status = .mustAbort) (allRead : AllRead tx) :
    Safe (service (tatpRules dir) cfg) abort tx :=
  safe_abort at_ (Or.inr status) allRead fun _ nowAt aborted => safe_done nowAt (Or.inr aborted)

/-- `do_read` has met a lock, and there are only reads. -/
theorem safe_read_refused (at_ : tx.pc = .app) (status : tx.status = .mustAbort)
    (noWrites : tx.writeSet = []) :
    Safe (service (tatpRules dir) cfg)
      (if (replyOf tx).status ≠ .inProgress then abortRdonly else program) tx := by
  simp only [replyOf, status, ne_eq, reduceCtorEq, not_false_eq_true, if_true]
  exact abort_rdonly_safe at_ (by rw [status]; exact TxStatus.noConfusion) noWrites

theorem commit_safe (at_ : tx.pc = .app) (running : tx.status = .inProgress)
    (allRead : AllRead tx) (good : ∀ item ∈ tx.writeSet, EntryOk dir item.loc (entryOf item))
    (op : TatpOp) (executes : Executes op (footprint tx)) :
    Safe (service (tatpRules dir) cfg) commit tx :=
  safe_commit at_ running allRead good ⟨op, executes⟩
    (fun _ nowAt committed _ _ => safe_done nowAt (Or.inl committed))
    fun _ nowAt aborted _ _ => safe_done nowAt (Or.inr aborted)

/-- A commit that has read from tables without writers cannot fail. -/
theorem must_commit_safe (at_ : tx.pc = .app) (running : tx.status = .inProgress)
    (allRead : AllRead tx) (good : ∀ item ∈ tx.writeSet, EntryOk dir item.loc (entryOf item))
    (unwritten : ∀ item ∈ tx.readSet, ¬ (tatpRules dir).written item.rpcReqtype)
    (op : TatpOp) (executes : Executes op (footprint tx)) :
    Safe (service (tatpRules dir) cfg) mustCommit tx := by
  refine safe_commit at_ running allRead good ⟨op, executes⟩ ?_ ?_
  · intro now nowAt committed _ _
    simp only [replyOf, committed]
    exact safe_dassert trivial (safe_done nowAt (Or.inl committed))
  · rintro _ _ _ ⟨item, member, written⟩ _
    exact absurd written (unwritten item member)

theorem safe_assert_locking (status : tx.status = .inProgress ∨ tx.status = .mustAbort)
    (safe : Safe (service (tatpRules dir) cfg) program tx) :
    Safe (service (tatpRules dir) cfg) (assertLocking (replyOf tx) program) tx :=
  safe_dassert status safe

/-- `do_read` has met a lock, and some locks are held. -/
theorem safe_lock_refused (at_ : tx.pc = .app) (status : tx.status = .mustAbort)
    (allRead : AllRead tx) :
    Safe (service (tatpRules dir) cfg) (assertLocking (replyOf tx)
      (if (replyOf tx).status = .inProgress then program else abort)) tx := by
  refine safe_assert_locking (Or.inr status) ?_
  simp only [replyOf, status, reduceCtorEq, if_false]
  exact abort_safe at_ status allRead

theorem reqtype_unwritten {reqtype : Nat}
    (table : reqtype = rpcSecSubscriberReq ∨ reqtype = rpcAccessInfoReq) :
    ¬ (tatpRules dir).written reqtype := by
  rcases table with rfl | rfl <;> rintro (other | other | other) <;> cases other

/-- A read from a table without writers meets no lock. -/
theorem lone_read_not_refused (table : item.rpcReqtype = rpcSecSubscriberReq ∨
    item.rpcReqtype = rpcAccessInfoReq) :
    ¬ ((∃ now ∈ [item], (tatpRules dir).written now.rpcReqtype) ∨
      ([] : List (RwsetItem TatpVal)) ≠ []) := by
  rintro (⟨now, member, written⟩ | writes)
  · obtain rfl := mem_singleton.mp member
    exact reqtype_unwritten table written
  · exact writes rfl

end Items

section Safety

variable {dir : Directory} {cfg : Config} {tx : TxState TatpVal} {stack : Stack} {sId : UInt32}
  {sfType startTime : UInt8}

theorem txn_get_subscriber_data_safe (known : dir.listed sId)
    (ended : (service (tatpRules dir) cfg).ended tx) :
    Safe (service (tatpRules dir) cfg) (txnGetSubscriberData stack sId) tx := by
  refine safe_start ended ?_
  refine safe_add_read (row_add_ok (by decide) (sub_key_small sId) rfl rfl (by simp)
    (by simp [rpcMaxMsgCoro])) rfl ?_
  refine safe_first_read rfl rfl
    (show _ = [newItem cfg rpcSubscriberReq (subKey sId) (stack.objAddr 0) (stack.obj 0) .ignore]
      from rfl) (show _ = [] from rfl) rfl rfl (by simp) ?_
    fun now at_ status _ noWrites _ => safe_read_refused at_ status (noWrites rfl)
  intro now at_ status allRead reads locks
  have noWrites : now.writeSet = [] := forall₂_nil_left_iff.mp locks
  obtain ⟨item, back, readSet⟩ := Aligned.forall₂_one reads
  obtain ⟨value, holds⟩ := read_present (.sub sId rfl known) back
  obtain ⟨_, val, rfl, magic⟩ := sub_row holds.row
  simp only [replyOf, status, readSet, map_cons, map_nil, ne_eq, not_true, if_false]
  refine safe_dassert (holds_size holds (by decide)) (safe_as_sub holds.buffer magic ?_)
  refine safe_commit_single_read at_ status allRead (by rw [readSet]; rfl) noWrites
    ⟨.getSubscriberData sId, ?_⟩ fun after afterAt committed => safe_done afterAt (Or.inl committed)
  simp only [footprint, readSet, noWrites, append_nil, map_cons, map_nil, holds.place, holds.seen]
  exact .getSubscriberData sId val

theorem txn_get_access_data_safe (aiType : UInt8)
    (ended : (service (tatpRules dir) cfg).ended tx) :
    Safe (service (tatpRules dir) cfg) (txnGetAccessData stack sId aiType) tx := by
  refine safe_start ended ?_
  refine safe_add_read (row_add_ok (by decide) (typed_key_small sId aiType) rfl rfl (by simp)
    (by simp [rpcMaxMsgCoro])) rfl ?_
  refine safe_first_read rfl rfl
    (show _ = [newItem cfg rpcAccessInfoReq (typedKey sId aiType) (stack.objAddr 0) (stack.obj 0)
      .ignore] from rfl) (show _ = [] from rfl) rfl rfl (by simp) ?_ ?_
  · intro now at_ status allRead reads locks
    have noWrites : now.writeSet = [] := forall₂_nil_left_iff.mp locks
    obtain ⟨item, back, readSet⟩ := Aligned.forall₂_one reads
    simp only [replyOf, status, readSet, map_cons, map_nil]
    refine safe_dassert trivial ?_
    rcases read_row back with ⟨value, holds⟩ | ⟨lacks, size⟩
    · obtain ⟨_, val, rfl, magic⟩ := accinf_row holds.row
      rw [if_pos (holds_size holds (by decide)), holds.buffer]
      refine safe_dassert magic (safe_commit_single_read at_ status allRead (by rw [readSet]; rfl)
        noWrites ⟨.getAccessData sId aiType, ?_⟩
        fun after afterAt committed => safe_done afterAt (Or.inl committed))
      simp only [footprint, readSet, noWrites, append_nil, map_cons, map_nil, holds.place, holds.seen]
      exact .getAccessData sId aiType val
    · rw [if_neg (by omega)]
      exact abort_rdonly_safe at_ (by rw [status]; exact TxStatus.noConfusion) noWrites
  · intro now _ _ _ _ refused
    exact absurd refused (lone_read_not_refused (Or.inr rfl))

theorem txn_update_subscriber_data_safe (bits dataA : UInt32)
    (ended : (service (tatpRules dir) cfg).ended tx) :
    Safe (service (tatpRules dir) cfg) (txnUpdateSubscriberData stack sId sfType bits dataA) tx := by
  refine safe_start ended ?_
  refine safe_add_write (row_add_ok (by decide) (sub_key_small sId) rfl rfl (by simp)
    (by simp [rpcMaxMsgCoro])) TxWriteMode.noConfusion (Or.inl rfl) rfl ?_
  refine safe_add_write (row_add_ok (by decide) (typed_key_small sId sfType) rfl rfl
    (by simp [rpcSubscriberReq, rpcSpecialFacilityReq]) (by simp [rpcMaxMsgCoro]))
    TxWriteMode.noConfusion (Or.inr (Or.inl rfl)) rfl ?_
  refine safe_first_read rfl rfl (show _ = [] from rfl)
    (show _ = [newItem cfg rpcSubscriberReq (subKey sId) (stack.objAddr 0) (stack.obj 0) .update,
      newItem cfg rpcSpecialFacilityReq (typedKey sId sfType) (stack.objAddr 1) (stack.obj 1)
        .update] from rfl) rfl rfl (by simp) ?_ ?_
  · intro now at_ status allRead reads locks
    have noReads : now.readSet = [] := forall₂_nil_left_iff.mp reads
    obtain ⟨subItem, specfacItem, subBack, specfacBack, writes⟩ := Aligned.forall₂_two locks
    obtain ⟨subValue, sub⟩ := locked_row TxWriteMode.noConfusion subBack
    obtain ⟨specfacValue, specfac⟩ := locked_row TxWriteMode.noConfusion specfacBack
    obtain ⟨known, subVal, rfl, subMagic⟩ := sub_row sub.row
    obtain ⟨facility, specfacVal, rfl, specfacMagic⟩ := specfac_row specfac.row
    refine safe_assert_locking (Or.inl status) ?_
    simp only [replyOf, status, writes, map_cons, map_nil, reduceCtorEq, if_false]
    refine safe_as_sub sub.buffer subMagic ?_
    rw [show now = { now with writeSet := [subItem, specfacItem] } by rw [← writes]]
    refine safe_refill at_ status (show 0 < 2 by decide)
      (show [refill _ _ subItem, specfacItem] = _ from rfl) ?_
    refine safe_as_specfac specfac.buffer specfacMagic ?_
    refine safe_refill at_ status (show 1 < 2 by decide)
      (show [_, refill _ _ specfacItem] = _ from rfl) ?_
    refine must_commit_safe at_ status ⟨allRead.1, allRead.2.trans (by rw [writes]; rfl)⟩ ?_ ?_
      (.updateSubscriberData sId sfType bits.toUInt16 dataA.toUInt8) ?_
    · rintro item (_ | ⟨_, _ | ⟨_, ⟨⟩⟩⟩)
      · simp only [refill_update sub]
        exact entry_ok_some (.sub sId _ rfl rfl known subMagic)
      · simp only [refill_update specfac]
        exact entry_ok_some (.specfac sId sfType _ rfl rfl facility specfacMagic)
    · rw [noReads]
      rintro item ⟨⟩
    · simp only [footprint, noReads, nil_append, map_cons, map_nil, refill_update sub,
        refill_update specfac]
      exact .updateSubscriberData sId sfType _ _ subVal specfacVal
  · intro now at_ status allRead _ _
    refine safe_assert_locking (Or.inr status) ?_
    simp only [replyOf, status, if_true]
    exact abort_safe at_ status allRead

/-- The secondary row of a subscriber is always there, and never locked. -/
theorem read_sec_sub_safe {locked : Txn TatpVal} {rest : SecSubVal → Txn TatpVal}
    (below : sId.toNat < tatpMaxSubscribers) (known : dir.listed sId)
    (ended : (service (tatpRules dir) cfg).ended tx)
    (safe : ∀ (now : TxState TatpVal) (item : RwsetItem TatpVal), now.pc = .app →
      now.status = .inProgress → AllRead now → now.readSet = [item] → now.writeSet = [] →
      Holds dir (secSubLoc sId) .ignore (.secSub ⟨sId, tatpSecSubMagic⟩) item →
        Safe (service (tatpRules dir) cfg) (rest ⟨sId, tatpSecSubMagic⟩) now) :
    Safe (service (tatpRules dir) cfg) (readSecSub stack sId locked rest) tx := by
  refine safe_start ended ?_
  rw [fast_is_bcd sId below]
  refine safe_add_read (row_add_ok (by decide) (sub_nbr_small sId) rfl rfl (by simp)
    (by simp [rpcMaxMsgCoro])) rfl ?_
  refine safe_first_read rfl rfl
    (show _ = [newItem cfg rpcSecSubscriberReq (UInt64.ofNat (bcd sId.toNat)) (stack.objAddr 0)
      (stack.obj 0) .ignore] from rfl) (show _ = [] from rfl) rfl rfl (by simp) ?_ ?_
  · intro now at_ status allRead reads locks
    have noWrites : now.writeSet = [] := forall₂_nil_left_iff.mp locks
    obtain ⟨item, back, readSet⟩ := Aligned.forall₂_one reads
    obtain ⟨value, holds⟩ := read_present (.secSub sId rfl known) back
    obtain rfl := sec_sub_row holds.row
    simp only [replyOf, status, readSet, map_cons, map_nil, ne_eq, not_true, if_false, asSecSub,
      holds.buffer]
    exact safe_dassert (holds_size holds (by decide)) (safe_dassert trivial (safe_dassert trivial
      (safe now item at_ status allRead readSet noWrites holds)))
  · intro now _ _ _ _ refused
    exact absurd refused (lone_read_not_refused (Or.inl rfl))

theorem sec_sub_unwritten {item : RwsetItem TatpVal} {mode : TxWriteMode} {value : TatpVal}
    (holds : Holds dir (secSubLoc sId) mode value item) :
    ¬ (tatpRules dir).written item.rpcReqtype :=
  reqtype_unwritten (Or.inl (Prod.mk.inj holds.place).1)

theorem txn_update_location_safe (vlrLocation : UInt32) (below : sId.toNat < tatpMaxSubscribers)
    (known : dir.listed sId) (ended : (service (tatpRules dir) cfg).ended tx) :
    Safe (service (tatpRules dir) cfg) (txnUpdateLocation stack sId vlrLocation) tx := by
  refine read_sec_sub_safe below known ended ?_
  intro middle secItem at_ status allRead readSet noWrites secSub
  refine safe_add_write (row_add_ok (by decide) (sub_key_small sId) at_ status ?_
    (by simp [readSet, noWrites, rpcMaxMsgCoro])) TxWriteMode.noConfusion (Or.inl rfl) rfl ?_
  · simp [readSet, noWrites, secSub.place, secSubLoc, rpcSubscriberReq, rpcSecSubscriberReq]
  refine safe_read_more at_ status (show _ = [secItem] ++ [] from readSet)
    (show _ = [] ++ [newItem cfg rpcSubscriberReq (subKey sId) (stack.objAddr 1) (stack.obj 1)
      .update] by rw [noWrites]) (allRead.1.trans (by rw [readSet]))
    (allRead.2.trans (by rw [noWrites])) (by simp) ?_ ?_
  · intro now back locks at_ status allRead readSet writeSet reads lockBack
    obtain rfl := forall₂_nil_left_iff.mp reads
    obtain ⟨subItem, subBack, rfl⟩ := Aligned.forall₂_one lockBack
    obtain ⟨value, sub⟩ := locked_row TxWriteMode.noConfusion subBack
    obtain ⟨_, subVal, rfl, magic⟩ := sub_row sub.row
    have writes : now.writeSet = [subItem] := writeSet
    refine safe_assert_locking (Or.inl status) ?_
    simp only [replyOf, status, writes, map_cons, map_nil, if_true]
    refine safe_as_sub sub.buffer magic ?_
    rw [show now = { now with writeSet := [subItem] } by rw [← writes]]
    refine safe_refill at_ status Nat.one_pos (show [refill _ _ subItem] = _ from rfl) ?_
    refine must_commit_safe at_ status ⟨allRead.1, allRead.2.trans (by rw [writes]; rfl)⟩ ?_ ?_
      (.updateLocation sId vlrLocation) ?_
    · rintro item (_ | ⟨_, ⟨⟩⟩)
      simp only [refill_update sub]
      exact entry_ok_some (.sub sId _ rfl rfl known magic)
    · rw [readSet]
      rintro item (_ | ⟨_, ⟨⟩⟩)
      exact sec_sub_unwritten secSub
    · simp only [footprint, readSet, append_nil, cons_append, nil_append, map_cons, map_nil,
        refill_update sub, secSub.place, secSub.seen]
      exact .updateLocation sId vlrLocation _ subVal
  · exact fun now at_ status allRead _ _ => safe_lock_refused at_ status allRead

theorem txn_delete_call_forwarding_safe (below : sId.toNat < tatpMaxSubscribers)
    (known : dir.listed sId) (ended : (service (tatpRules dir) cfg).ended tx) :
    Safe (service (tatpRules dir) cfg) (txnDeleteCallForwarding stack sId sfType startTime) tx := by
  refine read_sec_sub_safe below known ended ?_
  intro middle secItem at_ status allRead readSet noWrites secSub
  refine safe_add_write (row_add_ok (by decide) (callfwd_key_small sId sfType startTime) at_ status
    ?_ (by simp [readSet, noWrites, rpcMaxMsgCoro])) TxWriteMode.noConfusion
    (Or.inr (Or.inr rfl)) rfl ?_
  · simp [readSet, noWrites, secSub.place, secSubLoc, rpcCallForwardingReq, rpcSecSubscriberReq]
  refine safe_read_more at_ status (show _ = [secItem] ++ [] from readSet)
    (show _ = [] ++ [newItem cfg rpcCallForwardingReq (callfwdKey sId sfType startTime)
      (stack.objAddr 1) (stack.obj 1) .del] by rw [noWrites]) (allRead.1.trans (by rw [readSet]))
    (allRead.2.trans (by rw [noWrites])) (by simp) ?_ ?_
  · intro now back locks at_ status allRead readSet writeSet reads lockBack
    obtain rfl := forall₂_nil_left_iff.mp reads
    obtain ⟨item, itemBack, rfl⟩ := Aligned.forall₂_one lockBack
    obtain ⟨value, holds⟩ := locked_row TxWriteMode.noConfusion itemBack
    obtain ⟨_, val, rfl, magic⟩ := callfwd_row holds.row
    have writes : now.writeSet = [item] := writeSet
    have deleted : entryOf item = none := by rw [entryOf, if_pos holds.mode]
    refine safe_assert_locking (Or.inl status) ?_
    simp only [replyOf, status, writes, map_cons, map_nil, if_true]
    refine safe_dassert (by rw [holds.buffer, callfwdMagic]; exact decide_eq_true magic) ?_
    refine commit_safe at_ status allRead ?_ (.deleteCallForwarding sId sfType startTime) ?_
    · rw [writes]
      rintro other (_ | ⟨_, ⟨⟩⟩)
      rw [deleted, holds.place]
      refine ⟨?_, fun present => absurd present callfwd_not_present⟩
      rintro _ ⟨⟩
    · simp only [footprint, readSet, writes, append_nil, cons_append, nil_append, map_cons, map_nil,
        holds.place, holds.seen, secSub.place, secSub.seen, deleted]
      exact .deleteCallForwarding sId sfType startTime _ val
  · exact fun now at_ status allRead _ _ => safe_lock_refused at_ status allRead

theorem txn_insert_call_forwarding_safe (endTime : UInt8) (times : startTime ∈ [0, 8, 16])
    (below : sId.toNat < tatpMaxSubscribers) (known : dir.listed sId)
    (ended : (service (tatpRules dir) cfg).ended tx) :
    Safe (service (tatpRules dir) cfg)
      (txnInsertCallForwarding stack sId sfType startTime endTime) tx := by
  refine read_sec_sub_safe below known ended ?_
  intro first secItem at_ status allRead readSet noWrites secSub
  refine safe_add_read (row_add_ok (by decide) (typed_key_small sId sfType) at_ status ?_
    (by simp [readSet, noWrites, rpcMaxMsgCoro])) rfl ?_
  · simp [readSet, noWrites, secSub.place, secSubLoc, rpcSpecialFacilityReq, rpcSecSubscriberReq]
  refine safe_read_more at_ status (show _ = [secItem] ++ [newItem cfg rpcSpecialFacilityReq
      (typedKey sId sfType) (stack.objAddr 1) (stack.obj 1) .ignore] by rw [readSet])
    (show _ = [] ++ [] from noWrites) (allRead.1.trans (by rw [readSet]))
    (allRead.2.trans (by rw [noWrites])) (by simp) ?_
    fun now at_ status _ unlocked _ => safe_read_refused at_ status (unlocked noWrites)
  intro second back locks at_ status allRead readSet writeSet reads lockBack
  obtain rfl := forall₂_nil_left_iff.mp lockBack
  obtain ⟨specItem, specBack, rfl⟩ := Aligned.forall₂_one reads
  have noWrites : second.writeSet = [] := writeSet
  simp only [replyOf, status, readSet, cons_append, nil_append, map_cons, map_nil, ne_eq, not_true,
    if_false]
  rcases read_row specBack with ⟨value, specfac⟩ | ⟨_, size⟩
  · obtain ⟨facility, specfacVal, rfl, magic⟩ := specfac_row specfac.row
    rw [if_neg (Nat.ne_of_gt (holds_size specfac (by decide)))]
    refine safe_as_specfac specfac.buffer magic ?_
    refine safe_add_write (row_add_ok (by decide) (callfwd_key_small sId sfType startTime) at_ status
      ?_ (by simp [readSet, noWrites, rpcMaxMsgCoro])) TxWriteMode.noConfusion
      (Or.inr (Or.inr rfl)) rfl ?_
    · simp [readSet, noWrites, secSub.place, specfac.place, secSubLoc, rpcCallForwardingReq,
        rpcSecSubscriberReq, rpcSpecialFacilityReq]
    refine safe_read_more at_ status (show _ = [secItem, specItem] ++ [] from readSet)
      (show _ = [] ++ [newItem cfg rpcCallForwardingReq (callfwdKey sId sfType startTime)
        (stack.objAddr 2) (stack.obj 2) .insert] by rw [noWrites])
      (allRead.1.trans (by rw [readSet]; rfl)) (allRead.2.trans (by rw [noWrites])) (by simp) ?_ ?_
    · intro now back locks at_ status allRead readSet writeSet reads lockBack
      obtain rfl := forall₂_nil_left_iff.mp reads
      obtain ⟨item, itemBack, rfl⟩ := Aligned.forall₂_one lockBack
      have lacks := locked_missing itemBack
      have writes : now.writeSet = [item] := writeSet
      refine safe_assert_locking (Or.inl status) ?_
      simp only [replyOf, status, if_true]
      rw [show now = { now with writeSet := [item] } by rw [← writes]]
      refine safe_refill at_ status Nat.one_pos (show [refill _ _ item] = _ from rfl) ?_
      refine commit_safe at_ status ⟨allRead.1, allRead.2.trans (by rw [writes]; rfl)⟩ ?_
        (.insertCallForwarding sId sfType startTime endTime) ?_
      · rintro other (_ | ⟨_, ⟨⟩⟩)
        simp only [refill_insert lacks]
        exact entry_ok_some (.callfwd sId sfType startTime _ rfl rfl facility times rfl)
      · simp only [footprint, readSet, append_nil, cons_append, nil_append, map_cons, map_nil,
          secSub.place, secSub.seen, specfac.place, specfac.seen, refill_insert lacks]
        exact .insertCallForwarding sId sfType startTime endTime _ specfacVal
    · exact fun now at_ status allRead _ _ => safe_lock_refused at_ status allRead
  · rw [if_pos size]
    exact abort_rdonly_safe at_ (by rw [status]; exact TxStatus.noConfusion) noWrites

section Forwarding

variable {count : Nat} {back : List (RwsetItem TatpVal)}

/-- The call forwarding rows that a transaction has read, in their order. -/
structure Forwarded (dir : Directory) (sId : UInt32) (sfType : UInt8) (count : Nat)
    (back : List (RwsetItem TatpVal)) : Prop where
  length : back.length = count
  rows : ∀ (i : Nat) (item : RwsetItem TatpVal), back[i]? = some item →
    (∃ value, Holds dir (callfwdLoc sId sfType (UInt8.ofNat (i * 8))) .ignore value item) ∨
      (Lacks dir (callfwdLoc sId sfType (UInt8.ofNat (i * 8))) .ignore item ∧ item.obj.valSize = 0)

theorem forwarded_of_reads (reads : Forall₂ (ReadBack (tatpRules dir))
    ((callfwdKeys stack sId sfType count).map (Addition.item cfg rpcCallForwardingReq .ignore))
      back) : Forwarded dir sId sfType count back := by
  obtain ⟨length, each⟩ := forall₂_iff_get.mp reads
  have sameLength : back.length = count := by
    rw [← length, length_map, callfwdKeys, length_map, length_range]
  refine ⟨sameLength, ?_⟩
  intro i item found
  obtain ⟨bound, rfl⟩ := List.getElem?_eq_some_iff.mp found
  have backs := each i (by rw [length]; exact bound) bound
  simp only [callfwdKeys, get_eq_getElem, getElem_map, getElem_range, Addition.item] at backs
  exact read_row backs

theorem forwarded_seen (forwarded : Forwarded dir sId sfType count back) :
    back.map (fun item => (item.loc, item.seen)) =
      (back.map RwsetItem.seen).zipIdx.map fun entry =>
        (callfwdLoc sId sfType (UInt8.ofNat (entry.2 * 8)), entry.1) := by
  apply ext_getElem?
  intro i
  rw [getElem?_map, getElem?_map, getElem?_zipIdx, getElem?_map]
  cases found : back[i]? with
  | none => rfl
  | some item =>
      have place : item.loc = callfwdLoc sId sfType (UInt8.ofNat (i * 8)) := by
        rcases forwarded.rows i item found with ⟨_, holds⟩ | ⟨lacks, _⟩
        · exact holds.place
        · exact lacks.place
      simp only [Option.map_some, place, Nat.zero_add]

theorem forwarded_magic (forwarded : Forwarded dir sId sfType count back) :
    ∀ obj ∈ back.map RwsetItem.obj, obj.valSize ≠ 0 → callfwdMagic obj.val = true := by
  intro obj member nonempty
  obtain ⟨item, inside, rfl⟩ := mem_map.mp member
  obtain ⟨i, found⟩ := mem_iff_getElem?.mp inside
  rcases forwarded.rows i item found with ⟨value, holds⟩ | ⟨_, size⟩
  · obtain ⟨_, val, rfl, magic⟩ := callfwd_row holds.row
    rw [holds.buffer, callfwdMagic]
    exact decide_eq_true magic
  · exact absurd size nonempty

/-- A hit is a row that was there. -/
theorem forwarded_hit {endTime : UInt8} (forwarded : Forwarded dir sId sfType count back)
    (hit : (back.map RwsetItem.obj).zipIdx.any (callfwdHit startTime endTime) = true) :
    ∃ (i : Nat) (val : CallfwdVal), (back.map RwsetItem.seen)[i]? = some (some (.callfwd val)) ∧
      endTime < val.endTime := by
  obtain ⟨⟨obj, i⟩, inside, fits⟩ := any_eq_true.mp hit
  have found := mem_zipIdx_iff_getElem?.mp inside
  rw [getElem?_map] at found
  obtain ⟨item, foundItem, rfl⟩ := Option.map_eq_some_iff.mp found
  simp only [callfwdHit, Bool.and_eq_true, decide_eq_true_eq] at fits
  rcases forwarded.rows i item foundItem with ⟨value, holds⟩ | ⟨_, size⟩
  · obtain ⟨_, val, rfl, _⟩ := callfwd_row holds.row
    refine ⟨i, val, by rw [getElem?_map, foundItem, Option.map_some, holds.seen], ?_⟩
    have later := fits.2
    rw [holds.buffer] at later
    exact of_decide_eq_true later
  · exact absurd size fits.1.1

/-- The keys of the rows are different, as the times are. -/
theorem callfwd_keys_fit (few : count ≤ 3) (at_ : tx.readSet.length + tx.writeSet.length ≤ 1)
    (other : ∀ item ∈ tx.readSet ++ tx.writeSet, item.rpcReqtype ≠ rpcCallForwardingReq) :
    Additions tx rpcCallForwardingReq (callfwdKeys stack sId sfType count) := by
  refine ⟨by decide, by decide, by decide, ?_, ?_, ?_, ?_⟩
  · intro addition member
    obtain ⟨i, _, rfl⟩ := mem_map.mp member
    exact ne_invalid (callfwd_key_small sId sfType _)
  · rw [callfwdKeys, map_map]
    refine Nodup.map_on ?_ nodup_range
    intro left leftBound right rightBound same
    have starts := congrArg UInt8.toNat (callfwd_key_inj same).2.2
    have leftSmall := mem_range.mp leftBound
    have rightSmall := mem_range.mp rightBound
    rw [UInt8.toNat_ofNat', UInt8.toNat_ofNat', Nat.mod_eq_of_lt (by omega),
      Nat.mod_eq_of_lt (by omega)] at starts
    omega
  · intro addition _ inside
    obtain ⟨item, member, same⟩ := mem_map.mp inside
    exact other item member (Prod.mk.inj same).1
  · rw [callfwdKeys, length_map, length_range]
    simp only [rpcMaxMsgCoro]
    omega

end Forwarding

theorem txn_get_new_destination_safe (endTime : UInt8) (times : startTime ∈ [0, 8, 16])
    (ended : (service (tatpRules dir) cfg).ended tx) :
    Safe (service (tatpRules dir) cfg) (txnGetNewDestination stack sId sfType startTime endTime)
      tx := by
  have fetch : 1 ≤ startTime.toNat / 8 + 1 ∧ startTime.toNat / 8 + 1 ≤ 3 := by
    have each : ∀ time ∈ ([0, 8, 16] : List UInt8), 1 ≤ time.toNat / 8 + 1 ∧
      time.toNat / 8 + 1 ≤ 3 := by simp
    exact each startTime times
  refine safe_start ended (safe_dassert fetch ?_)
  refine safe_add_read (row_add_ok (by decide) (typed_key_small sId sfType) rfl rfl (by simp)
    (by simp [rpcMaxMsgCoro])) rfl ?_
  refine safe_first_read rfl rfl
    (show _ = [newItem cfg rpcSpecialFacilityReq (typedKey sId sfType) (stack.objAddr 0) (stack.obj 0)
      .ignore] from rfl) (show _ = [] from rfl) rfl rfl (by simp) ?_
    fun now at_ status _ noWrites _ => safe_read_refused at_ status (noWrites rfl)
  intro first at_ status allRead reads locks
  have noWrites : first.writeSet = [] := forall₂_nil_left_iff.mp locks
  obtain ⟨specItem, specBack, readSet⟩ := Aligned.forall₂_one reads
  have giveUp : Safe (service (tatpRules dir) cfg) abortRdonly first :=
    abort_rdonly_safe at_ (by rw [status]; exact TxStatus.noConfusion) noWrites
  simp only [replyOf, status, readSet, map_cons, map_nil, ne_eq, not_true, if_false]
  rcases read_row specBack with ⟨value, specfac⟩ | ⟨_, size⟩
  · obtain ⟨_, specfacVal, rfl, magic⟩ := specfac_row specfac.row
    rw [if_neg (Nat.ne_of_gt (holds_size specfac (by decide)))]
    refine safe_as_specfac specfac.buffer magic ?_
    split_ifs with inactive
    · exact giveUp
    · refine safe_add_reads at_ status (callfwd_keys_fit fetch.2 (by simp [readSet, noWrites]) ?_) ?_
      · rw [readSet, noWrites]
        rintro item (_ | ⟨_, ⟨⟩⟩)
        rw [show specItem.rpcReqtype = rpcSpecialFacilityReq from (Prod.mk.inj specfac.place).1]
        decide
      refine safe_read_more at_ status (show _ = [specItem] ++ _ by rw [readSet])
        (show _ = [] ++ [] from noWrites) (allRead.1.trans (by rw [readSet]))
        (allRead.2.trans (by rw [noWrites])) ?_ ?_
        fun now at_ status _ unlocked _ => safe_read_refused at_ status (unlocked noWrites)
      · rw [append_nil, callfwdKeys, ne_eq, map_eq_nil_iff, map_eq_nil_iff, range_eq_nil]
        omega
      intro now back locks at_ status allRead readSet writeSet reads lockBack
      obtain rfl := forall₂_nil_left_iff.mp lockBack
      have noWrites : now.writeSet = [] := writeSet
      have forwarded := forwarded_of_reads reads
      simp only [replyOf, status, readSet, cons_append, nil_append, map_cons, drop_succ_cons,
        drop_zero, not_true, if_false]
      refine safe_dassert (forwarded_magic forwarded) ?_
      split_ifs with hit
      · obtain ⟨i, val, found, later⟩ := forwarded_hit forwarded hit
        refine commit_safe at_ status allRead ?_ (.getNewDestination sId sfType startTime endTime) ?_
        · rw [noWrites]
          rintro item ⟨⟩
        · simp only [footprint, readSet, noWrites, append_nil, cons_append, nil_append, map_cons,
            map_nil, specfac.place, specfac.seen, forwarded_seen forwarded]
          exact .getNewDestination sId sfType startTime endTime specfacVal _ inactive
            (by rw [length_map, forwarded.length]) i val found later
      · exact abort_rdonly_safe at_ (by rw [status]; exact TxStatus.noConfusion) noWrites
  · rw [if_pos size]
    exact giveUp

theorem subscriber_bound {tatp : Tatp} (ok : tatp.Ok) (seed : UInt64) :
    (getNurandSubscriber tatp seed).1.toNat < tatp.subscriberSize.toNat := by
  simp only [getNurandSubscriber, UInt32.toNat_mod]
  exact Nat.mod_lt _ ok.positive

theorem start_times (draw : UInt32) : ((draw % 3) * 8).toUInt8 ∈ [0, 8, 16] := by
  have small : (draw % 3).toNat < 3 := by
    rw [UInt32.toNat_mod]
    exact Nat.mod_lt _ (by decide)
  have each : ∀ time : Fin 3, ((UInt32.ofNat time * 8).toUInt8 ∈ ([0, 8, 16] : List UInt8)) := by
    decide
  have listed := each ⟨(draw % 3).toNat, small⟩
  rwa [show UInt32.ofNat (draw % 3).toNat = draw % 3 from UInt32.ofNat_toNat] at listed

theorem workload_safe {tatp : Tatp} (ok : tatp.Ok)
    (covers : ∀ sId : UInt32, sId.toNat < tatp.subscriberSize.toNat → dir.listed sId)
    {txn : Txn TatpVal} (listed : Workload tatp txn)
    (ended : (service (tatpRules dir) cfg).ended tx) :
    Safe (service (tatpRules dir) cfg) txn tx := by
  obtain ⟨stack, roll, draws, rfl⟩ := listed
  have bound := subscriber_bound ok draws.seed
  have known := covers _ bound
  have below := Nat.lt_of_lt_of_le bound ok.fits
  have times := start_times draws.startTime
  obtain ⟨type, found⟩ := percent_total createWorkgenArray (by decide) roll
  simp only [slaveTxn, found]
  cases type with
  | getSubscriberData => exact txn_get_subscriber_data_safe known ended
  | getAccessData => exact txn_get_access_data_safe _ ended
  | getNewDestination => exact txn_get_new_destination_safe _ times ended
  | updateSubscriberData => exact txn_update_subscriber_data_safe _ _ ended
  | updateLocation => exact txn_update_location_safe _ below known ended
  | insertCallForwarding => exact txn_insert_call_forwarding_safe _ times below known ended
  | deleteCallForwarding => exact txn_delete_call_forwarding_safe below known ended

end Safety

section Runs

variable {tatp : Tatp} {dir : Directory} {cfg : Config} {init : State TatpVal} {app : App TatpVal}

/-- A swarm whose tables hold the rows of a directory. -/
structure Start (tatp : Tatp) (dir : Directory) (cfg : Config) (init : State TatpVal) : Prop where
  initial : Initial cfg init
  sizes : ∀ machine reqtype, (init.tables machine reqtype).valSize = tatpValSize reqtype
  entries : ∀ loc : Loc, loc.1 % rpcPrimaryDsReqSpacing = 0 →
    EntryOk dir loc (primaryEntry cfg init loc)
  covers : ∀ sId : UInt32, sId.toNat < tatp.subscriberSize.toNat → dir.listed sId

theorem tatp_inv (ok : tatp.Ok) (start : Start tatp dir cfg init)
    (reached : AppReachable cfg (Workload tatp) (.launch init) app) :
    AppInv (tatpRules dir) cfg init app := by
  refine app_inv_always start.initial ⟨start.entries, start.sizes, fun coro => ?_⟩
    (fun _ listed _ ended => workload_safe ok start.covers listed ended) (fun _ => trivial) reached
  rw [State.tx, start.initial.txns]
  exact ⟨fun _ member => (by cases member), fun applying => applying.elim, fun at_ => (by cases at_)⟩

theorem table_place {loc : Loc} {reqtype : Nat} {key : UInt64} (place : loc = (reqtype, key))
    (table : reqtype ∈ tatpReqtypes) (small : key.toNat < 2 ^ 48) :
    loc.1 % rpcPrimaryDsReqSpacing = 0 ∧ loc.2 ≠ kFtInvalidKey := by
  have spaced : ∀ other ∈ tatpReqtypes, other % rpcPrimaryDsReqSpacing = 0 := by decide
  rw [place]
  exact ⟨spaced reqtype table, ne_invalid small⟩

theorem row_place {dir : Directory} {loc : Loc} {value : TatpVal} (row : RowOk dir loc value) :
    loc.1 % rpcPrimaryDsReqSpacing = 0 ∧ loc.2 ≠ kFtInvalidKey := by
  cases row with
  | sub sId _ place => exact table_place place (by decide) (sub_key_small sId)
  | secSub sId place => exact table_place place (by decide) (sub_nbr_small sId)
  | accinf sId aiType _ place => exact table_place place (by decide) (typed_key_small sId aiType)
  | specfac sId sfType _ place => exact table_place place (by decide) (typed_key_small sId sfType)
  | callfwd sId sfType startTime _ place =>
      exact table_place place (by decide) (callfwd_key_small sId sfType startTime)

/-- A row that is not always there is a call forwarding row. -/
theorem row_cases {loc : Loc} {value : TatpVal} (row : RowOk dir loc value) :
    Present dir loc ∨ ∃ sId sfType startTime, loc = callfwdLoc sId sfType startTime := by
  cases row with
  | sub sId _ place _ known => exact Or.inl (.sub sId place known)
  | secSub sId place _ known => exact Or.inl (.secSub sId place known)
  | accinf sId aiType _ place _ known => exact Or.inl (.accinf sId aiType place known)
  | specfac sId sfType _ place _ known => exact Or.inl (.specfac sId sfType place known)
  | callfwd sId sfType startTime _ place => exact Or.inr ⟨sId, sfType, startTime, place⟩

/-- Only call forwarding rows are inserted. -/
theorem full_inserts {coro : CoroId} (inv : AppInv (tatpRules dir) cfg init app)
    (full : Full cfg app.swarm coro) :
    ∃ sId sfType startTime, Inserting cfg app.swarm coro (callfwdKey sId sfType startTime) := by
  obtain ⟨_, _, _, _, item, member, _, mode, missing, vec, rest, at_⟩ := full
  have good := (inv.entries.locals coro).pending (by simp only [Applying, at_]) item member
  have entry : entryOf item = some item.obj.val := by
    rw [entryOf, mode]
    rfl
  have row : RowOk dir item.loc item.obj.val := good.1 _ entry
  rcases row_cases row with present | ⟨sId, sfType, startTime, place⟩
  · exact absurd missing ((inv.entries.good item.loc (row_place row).1).2 present)
  · exact ⟨sId, sfType, startTime, item, member, (Prod.mk.inj place).2, mode, missing, vec, rest, at_⟩

def runAll (rows : Loc → Option TatpVal) (ops : List TatpOp) : Option (Loc → Option TatpVal) :=
  ops.foldlM TatpOp.run rows

/-- The rows as the object of the transactions. -/
def directoryObject : Object TatpVal TatpOp (Loc → Option TatpVal) where
  run rows op := op.run rows
  Executes := Executes
  Holds store rows := store = rows
  simulates := by
    rintro op print store _ executes rfl saw
    exact ⟨_, executes_run executes saw, rfl⟩

instance : Nonempty TatpOp := ⟨.getSubscriberData 0⟩

theorem tatp_served (ok : tatp.Ok) (start : Start tatp dir cfg init)
    (reached : AppReachable cfg (Workload tatp) (.launch init) app)
    (few : FewUnlocks init app.swarm) :
    ∃ order op, Served directoryObject cfg init app.swarm (primaryEntry cfg init) order op :=
  served_in_order _ start.initial (swarm_reachable reached) few rfl fun txn committed =>
    (tatp_inv ok start reached).kept txn.1 txn.2 committed.1 (promised_of_committed committed.2)

end Runs

section Populated

variable {tatp : Tatp} {cfg : Config} {app : App TatpVal} {loaded : Population.State TatpVal}
  {numBuckets numExtraBuckets : Nat × Nat → Nat} {fuel : Nat} {rows : List Row}

def tatpSetup (cfg : Config) (rows : List Row) (numBuckets numExtraBuckets : Nat × Nat → Nat) :
    Setup TatpVal :=
  appSetup cfg tatpValSize numBuckets numExtraBuckets (.accinf ⟨0⟩)
    (populateAllTables cfg.mappings (dsKeyhash cfg) rows)

def tatpLoads (rows : List Row) (base : Nat) (key : UInt64) (value : TatpVal) : Prop :=
  ⟨base, key, value⟩ ∈ rows

theorem tatp_loading {subscriberSize : UInt32} (drawn : allRows fuel subscriberSize = some rows)
    (buckets : ∀ place, 0 < numBuckets place) :
    Loading cfg (tatpLoads rows) (tatpSetup cfg rows numBuckets numExtraBuckets) := by
  obtain ⟨parts⟩ := all_rows_parts drawn
  refine app_loading buckets ?_ ?_ ?_ ?_
  · intro wrkrGid reqtype key value
    simp only [populateAllTables, mem_flatMap, mem_range, mem_load_into_table]
    constructor
    · rintro ⟨row, member, replI, index, mine, rfl, rfl, rfl⟩
      exact ⟨row.reqtype, replI, rfl, index, mine, member⟩
    · rintro ⟨base, replI, rfl, index, mine, member⟩
      exact ⟨_, member, replI, index, mine, rfl, rfl, rfl⟩
  · intro base key value member
    exact (row_place (rows_ok parts _ member)).1
  · intro base key left right first second
    have same := inj_on_of_nodup_map (rows_nodup parts) first second rfl
    exact (Row.mk.inj same).2.2
  · intro base value member
    exact (row_place (rows_ok parts _ member)).2 rfl

theorem populated_start (drawn : allRows fuel tatp.subscriberSize = some rows)
    (buckets : ∀ place, 0 < numBuckets place) (workers : 0 < cfg.mappings.workersPerMachine)
    (populated : Populated (tatpSetup cfg rows numBuckets numExtraBuckets) loaded) :
    Start tatp (directoryOf tatp.subscriberSize rows) cfg (swarmOf loaded) := by
  obtain ⟨parts⟩ := all_rows_parts drawn
  have loading : Loading cfg (tatpLoads rows) (tatpSetup cfg rows numBuckets numExtraBuckets) :=
    tatp_loading drawn buckets
  refine ⟨loaded_initial loading populated, loaded_val_size loading populated, ?_, fun _ => id⟩
  intro loc spacing
  have entry := loaded_entry loading populated workers loc spacing
  refine ⟨fun value found => rows_ok parts _ ((entry value).mp found), fun present missing => ?_⟩
  obtain ⟨row, member, rfl⟩ := mem_map.mp (rows_present parts present)
  rw [(entry row.val).mpr member] at missing
  cases missing

/-- Every row has the type of its table and belongs to rows that exist. -/
structure Integrity (subscriberSize : Nat) (rows : Loc → Option TatpVal) : Prop where
  subscriber : ∀ sId : UInt32,
    sId.toNat < subscriberSize ↔ ∃ val, rows (subLoc sId) = some (.sub val)
  secondary : ∀ sId : UInt32, sId.toNat < subscriberSize →
    rows (secSubLoc sId) = some (.secSub ⟨sId, tatpSecSubMagic⟩)
  access : ∀ sId aiType value, rows (accinfLoc sId aiType) = some value →
    sId.toNat < subscriberSize ∧ ∃ val, value = .accinf val
  facility : ∀ sId sfType value, rows (specfacLoc sId sfType) = some value →
    sId.toNat < subscriberSize ∧ ∃ val, value = .specfac val
  forwarding : ∀ sId sfType startTime value, rows (callfwdLoc sId sfType startTime) = some value →
    (∃ val, value = .callfwd val) ∧ startTime ∈ [0, 8, 16] ∧
      ∃ val, rows (specfacLoc sId sfType) = some (.specfac val)

theorem integrity_of_entries {subscriberSize : UInt32} {store : Loc → Option TatpVal}
    (entries : ∀ loc : Loc, loc.1 % rpcPrimaryDsReqSpacing = 0 →
      EntryOk (directoryOf subscriberSize rows) loc (store loc)) :
    Integrity subscriberSize.toNat store := by
  have row : ∀ {reqtype : Nat} {key : UInt64} {value : TatpVal}, reqtype ∈ tatpReqtypes →
      store (reqtype, key) = some value →
        RowOk (directoryOf subscriberSize rows) (reqtype, key) value := by
    intro reqtype key value table found
    have spaced : ∀ other ∈ tatpReqtypes, other % rpcPrimaryDsReqSpacing = 0 := by decide
    exact (entries (reqtype, key) (spaced reqtype table)).1 value found
  have there : ∀ {reqtype : Nat} {key : UInt64}, reqtype ∈ tatpReqtypes →
      Present (directoryOf subscriberSize rows) (reqtype, key) →
        ∃ value, store (reqtype, key) = some value := by
    intro reqtype key table present
    have spaced : ∀ other ∈ tatpReqtypes, other % rpcPrimaryDsReqSpacing = 0 := by decide
    exact Option.ne_none_iff_exists'.mp
      ((entries (reqtype, key) (spaced reqtype table)).2 present)
  constructor
  · intro sId
    constructor
    · intro listed
      obtain ⟨value, found⟩ := there (by decide) (.sub sId rfl listed)
      obtain ⟨_, val, rfl, _⟩ := sub_row (row (by decide) found)
      exact ⟨val, found⟩
    · rintro ⟨val, found⟩
      exact (sub_row (row (by decide) found)).1
  · intro sId listed
    obtain ⟨value, found⟩ := there (by decide) (.secSub sId rfl listed)
    obtain rfl := sec_sub_row (row (by decide) found)
    exact found
  · intro sId aiType value found
    obtain ⟨known, val, shape, _⟩ := accinf_row (row (by decide) found)
    exact ⟨known.1, val, shape⟩
  · intro sId sfType value found
    obtain ⟨known, val, shape, _⟩ := specfac_row (row (by decide) found)
    exact ⟨known.1, val, shape⟩
  · intro sId sfType startTime value found
    obtain ⟨⟨known, times⟩, val, shape, _⟩ := callfwd_row (row (by decide) found)
    obtain ⟨facility, there⟩ := there (by decide) (.specfac sId sfType rfl known)
    obtain ⟨_, specfac, rfl, _⟩ := specfac_row (row (by decide) there)
    exact ⟨⟨val, shape⟩, times, specfac, there⟩

section Example

/-- The constructor makes a million subscribers for every machine. -/
def twoSubscribers : Tatp := ⟨2, 65535⟩

theorem two_subscribers_ok : twoSubscribers.Ok := ⟨by decide, by decide⟩

def emptyStack : Stack := ⟨fun _ => 0, fun _ => ⟨0, 0, .accinf ⟨0⟩⟩⟩

def facilityFour (time : UInt32) : Draws := ⟨1, 0, 3, time, 23, 0, 0⟩

/-- A new forwarding from 16 to 23; then the one from 0 is deleted. -/
def insertAndDelete : List (AppLabel TatpVal) :=
  turn ⟨0, 1⟩ (slaveTxn emptyStack twoSubscribers 96 (facilityFour 2))
      [[], [], [1], [], [1], [], [1], [], [2, 1]] ++
    turn ⟨0, 2⟩ (slaveTxn emptyStack twoSubscribers 99 (facilityFour 0))
      [[], [], [1], [], [1], [1, 1]]

theorem insert_and_delete_listed :
    ∀ label ∈ insertAndDelete, Listed (Workload twoSubscribers) label := by
  rw [insertAndDelete, forall_mem_append]
  exact ⟨turn_listed ⟨emptyStack, 96, facilityFour 2, rfl⟩ _ _,
    turn_listed ⟨emptyStack, 99, facilityFour 0, rfl⟩ _ _⟩

def smallSetup (rows : List Row) : Setup TatpVal :=
  tatpSetup oneMachine rows (fun _ => 1) fun _ => 0

def populateThenRun : Option (List Row × Population.State TatpVal × App TatpVal) :=
  (allRows 100 2).bind fun rows =>
    ((replicate 44 0).foldlM (Population.step (smallSetup rows))
      (Population.initial (smallSetup rows))).bind fun loaded =>
        (runApp oneMachine (.launch (swarmOf loaded)) insertAndDelete).map (rows, loaded, ·)

theorem populate_then_run :
    ∃ rows loaded app, allRows 100 2 = some rows ∧ Populated (smallSetup rows) loaded ∧
      runApp oneMachine (.launch (swarmOf loaded)) insertAndDelete = some app ∧
      AppReachable oneMachine (Workload twoSubscribers) (.launch (swarmOf loaded)) app ∧
      FewUnlocks (swarmOf loaded) app.swarm ∧ (∀ coro, ¬ InProgress (app.swarm.tx coro)) ∧
      [callfwdLoc 0 4 0, callfwdLoc 0 4 16].map (primaryEntry oneMachine app.swarm) =
        [none, some (.callfwd ⟨23, tatpCallfwdNumberx0Magic⟩)] := by
  have observed : populateThenRun.map (fun result =>
      (decide (Population.Finished (smallSetup result.1) result.2.1),
      decide (∀ coro ∈ [(⟨0, 1⟩ : CoroId), ⟨0, 2⟩], (result.2.2.swarm.tx coro).pc = .app ∧
        ((result.2.2.swarm.tx coro).status = .committed ∨
          (result.2.2.swarm.tx coro).status = .aborted)),
      [callfwdLoc 0 4 0, callfwdLoc 0 4 16].map (primaryEntry oneMachine result.2.2.swarm))) =
      some (true, true, [none, some (.callfwd ⟨23, tatpCallfwdNumberx0Magic⟩)]) := by
    decide +kernel
  obtain ⟨⟨rows, loaded, app⟩, ran, same⟩ := Option.map_eq_some_iff.mp observed
  obtain ⟨done, ended, forwarding⟩ : _ ∧ _ ∧ _ := by simpa only [Prod.mk.injEq] using same
  obtain ⟨drawnRows, drawn, later⟩ := Option.bind_eq_some_iff.mp ran
  obtain ⟨middle, populate, later⟩ := Option.bind_eq_some_iff.mp later
  obtain ⟨final, run, triple⟩ := Option.map_eq_some_iff.mp later
  obtain ⟨rfl, pair⟩ := Prod.mk.inj triple
  obtain ⟨rfl, rfl⟩ := Prod.mk.inj pair
  have populated : Populated (smallSetup drawnRows) middle :=
    ⟨Runs.reachable_of_run _ .refl populate, of_decide_eq_true done⟩
  have initial := loaded_initial (tatp_loading drawn fun _ => Nat.one_pos) populated
  exact ⟨drawnRows, middle, final, drawn, populated, run,
    run_app_reachable _ insert_and_delete_listed .refl run,
    few_unlocks_of_app_run initial run (by decide),
    settled_of_app_run initial run _ (by decide) (of_decide_eq_true ended), forwarding⟩

end Example

theorem crashes_inserting (ok : tatp.Ok) (drawn : allRows fuel tatp.subscriberSize = some rows)
    (buckets : ∀ place, 0 < numBuckets place) (workers : 0 < cfg.mappings.workersPerMachine)
    (populated : Populated (tatpSetup cfg rows numBuckets numExtraBuckets) loaded)
    (reached : AppReachable cfg (Workload tatp) (.launch (swarmOf loaded)) app)
    (label : AppLabel TatpVal) (crash : Crash) (ran : appStep cfg app label = some (.error crash)) :
    Full cfg app.swarm label.coro ∧ ∃ sId sfType startTime,
      Inserting cfg app.swarm label.coro (callfwdKey sId sfType startTime) := by
  have start := populated_start drawn buckets workers populated
  have agree := loaded_agree (tatp_loading drawn buckets) populated workers
  have full := app_crash_full start.initial agree reached ran
  exact ⟨full, full_inserts (tatp_inv ok start reached) full⟩

/-- No assertion of the TATP transactions fails, in no run: the rows that they need are
there, every row is what its table requires, and a process ends only at a call
forwarding row for which a table has no room. -/
theorem tatp_never_asserts (ok : tatp.Ok) (drawn : allRows fuel tatp.subscriberSize = some rows)
    (buckets : ∀ place, 0 < numBuckets place) (workers : 0 < cfg.mappings.workersPerMachine)
    (populated : Populated (tatpSetup cfg rows numBuckets numExtraBuckets) loaded)
    (reached : AppReachable cfg (Workload tatp) (.launch (swarmOf loaded)) app) :
    Undisturbed cfg app ∧
      (∀ label crash, appStep cfg app label = some (.error crash) → Full cfg app.swarm label.coro) ∧
      ∀ loc : Loc, loc.1 % rpcPrimaryDsReqSpacing = 0 →
        EntryOk (directoryOf tatp.subscriberSize rows) loc (primaryEntry cfg app.swarm loc) := by
  have inv := tatp_inv ok (populated_start drawn buckets workers populated) reached
  exact ⟨undisturbed_of_inv inv, fun label crash ran =>
    (crashes_inserting ok drawn buckets workers populated reached label crash ran).1,
    inv.entries.good⟩

theorem tatp_never_asserts_insert_and_delete :
    ∃ rows loaded app, allRows 100 2 = some rows ∧ Populated (smallSetup rows) loaded ∧
      runApp oneMachine (.launch (swarmOf loaded)) insertAndDelete = some app ∧
      Undisturbed oneMachine app ∧
      EntryOk (directoryOf 2 rows) (subLoc 1) (primaryEntry oneMachine app.swarm (subLoc 1)) := by
  obtain ⟨rows, loaded, app, drawn, populated, ran, reached, _⟩ := populate_then_run
  obtain ⟨undisturbed, _, entries⟩ := tatp_never_asserts two_subscribers_ok drawn
    (fun _ => Nat.one_pos) (by decide) populated reached
  exact ⟨rows, loaded, app, drawn, populated, ran, undisturbed, entries (subLoc 1) (by decide)⟩

/-- Whatever the coroutines have done so far, each of them can finish its transaction
function without the others. What can prevent it, and what alone can end a process,
is a call forwarding row for which a table has no room. -/
theorem tatp_always_completes (ok : tatp.Ok) (drawn : allRows fuel tatp.subscriberSize = some rows)
    (buckets : ∀ place, 0 < numBuckets place) (workers : 0 < cfg.mappings.workersPerMachine)
    (populated : Populated (tatpSetup cfg rows numBuckets numExtraBuckets) loaded)
    (reached : AppReachable cfg (Workload tatp) (.launch (swarmOf loaded)) app) :
    (∀ label crash, appStep cfg app label = some (.error crash) →
      Full cfg app.swarm label.coro ∧ ∃ sId sfType startTime,
        Inserting cfg app.swarm label.coro (callfwdKey sId sfType startTime)) ∧
      ∀ coro, cfg.Valid coro → Finishes cfg coro app := by
  have start := populated_start drawn buckets workers populated
  have agree : ReplicasAgree cfg (swarmOf loaded) :=
    loaded_agree (tatp_loading drawn buckets) populated workers
  refine ⟨crashes_inserting ok drawn buckets workers populated reached, fun coro valid => ?_⟩
  exact functions_end start.initial agree (fun _ reached => tatp_inv ok start reached) reached valid

theorem tatp_always_completes_insert_and_delete :
    ∃ rows loaded app, allRows 100 2 = some rows ∧ Populated (smallSetup rows) loaded ∧
      runApp oneMachine (.launch (swarmOf loaded)) insertAndDelete = some app ∧
      Finishes oneMachine ⟨0, 2⟩ app := by
  obtain ⟨rows, loaded, app, drawn, populated, ran, reached, _⟩ := populate_then_run
  exact ⟨rows, loaded, app, drawn, populated, ran, (tatp_always_completes two_subscribers_ok drawn
    (fun _ => Nat.one_pos) (by decide) populated reached).2 ⟨0, 2⟩ (by decide)⟩

/-- At every moment of a run, also while transactions are in progress, the primaries
hold the rows of all subscribers, and no row without the rows it belongs to. -/
theorem tatp_referential_integrity (ok : tatp.Ok)
    (drawn : allRows fuel tatp.subscriberSize = some rows)
    (buckets : ∀ place, 0 < numBuckets place) (workers : 0 < cfg.mappings.workersPerMachine)
    (populated : Populated (tatpSetup cfg rows numBuckets numExtraBuckets) loaded)
    (reached : AppReachable cfg (Workload tatp) (.launch (swarmOf loaded)) app) :
    Integrity tatp.subscriberSize.toNat (primaryEntry cfg app.swarm) :=
  integrity_of_entries
    (tatp_inv ok (populated_start drawn buckets workers populated) reached).entries.good

theorem tatp_referential_integrity_insert_and_delete :
    ∃ rows loaded app, allRows 100 2 = some rows ∧ Populated (smallSetup rows) loaded ∧
      runApp oneMachine (.launch (swarmOf loaded)) insertAndDelete = some app ∧
      Integrity 2 (primaryEntry oneMachine app.swarm) := by
  obtain ⟨rows, loaded, app, drawn, populated, ran, reached, _⟩ := populate_then_run
  exact ⟨rows, loaded, app, drawn, populated, ran, tatp_referential_integrity two_subscribers_ok
    drawn (fun _ => Nat.one_pos) (by decide) populated reached⟩

/-- The committed transactions in a serial order are operations on the rows that
were loaded, each on the rows that it has seen, and when nothing is in progress the
primaries hold the result. -/
theorem tatp_refines_directory (ok : tatp.Ok)
    (drawn : allRows fuel tatp.subscriberSize = some rows)
    (buckets : ∀ place, 0 < numBuckets place) (workers : 0 < cfg.mappings.workersPerMachine)
    (populated : Populated (tatpSetup cfg rows numBuckets numExtraBuckets) loaded)
    (reached : AppReachable cfg (Workload tatp) (.launch (swarmOf loaded)) app)
    (few : FewUnlocks (swarmOf loaded) app.swarm) :
    ∃ order op opening,
      (∀ loc : Loc, loc.1 % rpcPrimaryDsReqSpacing = 0 → ∀ value,
        opening loc = some value ↔ ⟨loc.1, loc.2, value⟩ ∈ rows) ∧
      Served directoryObject cfg (swarmOf loaded) app.swarm opening order op ∧
      ((∀ coro, ¬ InProgress (app.swarm.tx coro)) →
        ∃ after, runAll opening (order.map op) = some after ∧ ∀ loc : Loc,
          loc.1 % rpcPrimaryDsReqSpacing = 0 → primaryEntry cfg app.swarm loc = after loc) := by
  have start := populated_start drawn buckets workers populated
  have loading : Loading cfg (tatpLoads rows) (tatpSetup cfg rows numBuckets numExtraBuckets) :=
    tatp_loading drawn buckets
  obtain ⟨order, op, served⟩ := tatp_served ok start reached few
  refine ⟨order, op, _, loaded_entry loading populated workers, served, fun settled => ?_⟩
  obtain ⟨after, ran, rfl⟩ := served.after
  exact ⟨_, ran, served.final settled⟩

theorem tatp_refines_directory_insert_and_delete :
    ∃ rows loaded app, allRows 100 2 = some rows ∧ Populated (smallSetup rows) loaded ∧
      runApp oneMachine (.launch (swarmOf loaded)) insertAndDelete = some app ∧
      ∃ (order : List TxId) (op : TxId → TatpOp) (opening after : Loc → Option TatpVal),
        Served directoryObject oneMachine (swarmOf loaded) app.swarm opening order op ∧
        runAll opening (order.map op) = some after ∧ after (callfwdLoc 0 4 0) = none ∧
        after (callfwdLoc 0 4 16) = some (.callfwd ⟨23, tatpCallfwdNumberx0Magic⟩) := by
  obtain ⟨rows, loaded, app, drawn, populated, ran, reached, few, settled, forwarding⟩ :=
    populate_then_run
  obtain ⟨order, op, opening, _, served, holding⟩ :=
    tatp_refines_directory two_subscribers_ok drawn (fun _ => Nat.one_pos) (by decide) populated
      reached few
  obtain ⟨after, run, final⟩ := holding settled
  have spaced : rpcCallForwardingReq % rpcPrimaryDsReqSpacing = 0 := by decide
  rw [map_cons, map_cons, map_nil, final _ spaced, final _ spaced] at forwarding
  obtain ⟨deleted, inserted⟩ : _ ∧ _ := by simpa only [cons.injEq, and_true] using forwarding
  exact ⟨rows, loaded, app, drawn, populated, ran, order, op, opening, after, served, run, deleted,
    inserted⟩

end Populated

end Fasst.TatpRuns

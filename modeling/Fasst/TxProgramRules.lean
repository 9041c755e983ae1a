import Fasst.TxPrograms
import Fasst.TxReadOnly

/-!
# Rules for transaction functions

For every call of `Tx`: when it may be made, which states it goes through, and in
which it can return. What a read returns is known up to the discipline of the
application. A transaction function is safe if these rules carry it to its end;
then it makes no call outside of its contract and reaches no `exit`, whatever the
other coroutines do.
-/

namespace Fasst.TxProgramRules

open List Fasst.Dialogues Fasst.FixedTableModel Fasst.FixedTableSpec Fasst.TxModel Fasst.TxCluster
open Fasst.TxLocal Fasst.TxCalls Fasst.TxSteps Fasst.TxInvariant Fasst.TxReplicas Fasst.TxEntries
open Fasst.TxPrograms

set_option autoImplicit false

variable {V : Type}

section Rules

variable (rules : Discipline V)

/-- An item of the read set before and after a successful `do_read`. -/
inductive ReadBack (before now : RwsetItem V) : Prop where
  | found (value : V) (same : SameItem before now) (good : rules.good before.loc (some value))
      (seen : now.seen = some value) (val : now.obj.val = value)
      (size : now.obj.valSize = rules.valSize before.rpcReqtype)
  | missing (same : SameItem before now) (good : rules.good before.loc none)
      (seen : now.seen = none) (size : now.obj.valSize = 0)

/-- An item of the write set before and after a successful `do_read`. -/
inductive LockBack (before now : RwsetItem V) : Prop where
  | found (value : V) (same : SameItem before now) (mode : before.writeMode ≠ .insert)
      (good : rules.good before.loc (some value)) (seen : now.seen = some value)
      (val : now.obj.val = value) (size : now.obj.valSize = rules.valSize before.rpcReqtype)
  | missing (same : SameItem before now) (mode : before.writeMode = .insert)
      (good : rules.good before.loc none) (seen : now.seen = none)

inductive ReadDone (before now : TxState V) : Prop where
  | success (status : now.status = .inProgress) (allRead : AllRead now)
      (reads writes : List (RwsetItem V))
      (readSet : now.readSet = before.readSet.take before.rsIndex ++ reads)
      (writeSet : now.writeSet = before.writeSet.take before.wsIndex ++ writes)
      (readBack : Forall₂ (ReadBack rules) (before.readSet.drop before.rsIndex) reads)
      (lockBack : Forall₂ (LockBack rules) (before.writeSet.drop before.wsIndex) writes)
  | refused (status : now.status = .mustAbort) (allRead : AllRead now)
      (noWrites : before.writeSet = [] → now.writeSet = [])
      (contended : (∃ item ∈ before.readSet.drop before.rsIndex, rules.written item.rpcReqtype) ∨
        before.writeSet.drop before.wsIndex ≠ [])

structure SameSets (before now : TxState V) : Prop where
  status : now.status = before.status
  readSet : now.readSet = before.readSet
  writeSet : now.writeSet = before.writeSet
  rsIndex : now.rsIndex = before.rsIndex
  wsIndex : now.wsIndex = before.wsIndex

/-- What a validation leaves of an item of the read set. -/
structure Checked (before now : RwsetItem V) : Prop where
  same : SameItem before now
  seen : now.seen = before.seen
  size : now.obj.valSize = before.obj.valSize

structure KeptSets (before now : TxState V) : Prop where
  readSet : Forall₂ Checked before.readSet now.readSet
  writeSet : now.writeSet = before.writeSet

def Allowed : Call V → TxState V → Prop
  | .start, tx => tx.pc = .app ∧ (tx.status = .committed ∨ tx.status = .aborted)
  | .addToReadSet rpcReqtype key _ _, tx => AddOk tx rpcReqtype key
  | .addToWriteSet rpcReqtype key _ _ writeMode, tx =>
      AddOk tx rpcReqtype key ∧ writeMode ≠ .ignore ∧ rules.written rpcReqtype
  | .writeObj index _ _, tx =>
      tx.pc = .app ∧ tx.status = .inProgress ∧ index < tx.writeSet.length
  | .doRead, tx => tx.pc = .app ∧ tx.status = .inProgress ∧ ¬ AllRead tx
  | .commit, tx => tx.pc = .app ∧ tx.status = .inProgress ∧ AllRead tx ∧
      (∀ item ∈ tx.writeSet, rules.good item.loc (entryOf item)) ∧ rules.keeps (footprint tx)
  | .commitSingleRead, tx => tx.pc = .app ∧ tx.status = .inProgress ∧ AllRead tx ∧
      tx.readSet.length = 1 ∧ tx.writeSet = [] ∧ rules.keeps (footprint tx)
  | .abort, tx => tx.pc = .app ∧ (tx.status = .inProgress ∨ tx.status = .mustAbort) ∧ AllRead tx
  | .abortRdonly, tx => tx.pc = .app ∧ tx.status ≠ .committed ∧ tx.writeSet = []

def Inside (cfg : Config) : Call V → TxState V → TxState V → Prop
  | .start, _, now => now = .start
  | .addToReadSet rpcReqtype key objAddr obj, before, now => before.pc = .app ∧
      now = { before with
        readSet := before.readSet ++ [newItem cfg rpcReqtype key objAddr obj .ignore] }
  | .addToWriteSet rpcReqtype key objAddr obj writeMode, before, now => before.pc = .app ∧
      now = { before with
        writeSet := before.writeSet ++ [newItem cfg rpcReqtype key objAddr obj writeMode] }
  | .writeObj index valSize val, before, now => before.pc = .app ∧
      now = { before with
        writeSet := before.writeSet.modify index fun item =>
          { item with obj := { item.obj with valSize := valSize, val := val } } }
  | .doRead, before, now =>
      match now.pc with
      | .doRead => SameSets before now
      | .app => ReadDone rules before now
      | _ => False
  | .commit, before, now =>
      match now.pc with
      | .validate => before.readSet ≠ [] ∧ SameSets before now
      | .abort => (∃ item ∈ before.readSet, rules.written item.rpcReqtype) ∧
          now.status = .aborted ∧ now.writeSet = before.writeSet
      | .log | .update _ _ => KeptSets before now
      | .app => (now.status = .committed ∧ KeptSets before now) ∨
          (now.status = .aborted ∧ (∃ item ∈ before.readSet, rules.written item.rpcReqtype) ∧
            now.writeSet = before.writeSet)
      | .doRead => False
  | .commitSingleRead, before, now =>
      before.pc = .app ∧ now = { before with status := .committed }
  | .abort, _, now => now.status = .aborted ∧ (now.pc = .app ∨ now.pc = .abort)
  | .abortRdonly, _, now => now.pc = .app ∧ now.status = .aborted

def service (cfg : Config) : Service (Call V) (Reply V) (TxState V) where
  view := replyOf
  ended tx := tx.pc = .app ∧ (tx.status = .committed ∨ tx.status = .aborted)
  allowed := Allowed rules
  inside := Inside rules cfg
  returned tx := tx.pc = .app ∧ (tx.status = .committed → rules.learns tx)

end Rules

section Reading

variable {rules : Discipline V} {cfg : Config} {coro : CoroId} {tx : TxState V}

theorem read_back {item : RwsetItem V} {resp : Resp V} (respOk : RespOk (readReq coro item) resp)
    (answer : ∀ req, readReq coro item = .ds req → AnswerOk rules req resp) :
    ((readResponse item resp).2 = true ∧ ReadBack rules item (readResponse item resp).1) ∨
      ((readResponse item resp).2 = false ∧ rules.written item.rpcReqtype) := by
  have ok := answer _ rfl
  simp only [RespOk, readReq, genericGetReq] at respOk
  rcases respOk with type | type | type
  · obtain ⟨value, val, good, length⟩ := ok.value (Or.inl type)
    left
    refine ⟨by simp [readResponse, type], .found value (read_response_same item resp) good ?_ ?_ ?_⟩
    · simp [readResponse, type, RwsetItem.deliver, val]
    · simp [readResponse, type, RwsetItem.deliver, val]
    · simp only [readResponse, type, length]
      exact Nat.add_sub_cancel_left _ _
  · left
    refine ⟨by simp [readResponse, type], .missing (read_response_same item resp)
      (ok.nothing (Or.inl type)) ?_ ?_⟩
    · simp [readResponse, type]
    · simp [readResponse, type]
  · exact Or.inr ⟨by simp [readResponse, type], ok.busy type⟩

theorem lock_back {item : RwsetItem V} {resp : Resp V}
    (answer : ∀ req, lockReq coro item = .ds req → AnswerOk rules req resp)
    (granted : (writeResult item resp).2 = true) :
    LockBack rules item (writeResult item resp).1 := by
  have ok := answer _ rfl
  have same := write_result_same item resp
  have accepted : itemGranted item resp = true :=
    (write_result_flag item resp).2.symm.trans granted
  by_cases insert : item.writeMode = .insert
  · have type : resp.respType = .lockForInsSuccess := by
      simpa [itemGranted, insert] using accepted
    refine .missing same insert (ok.nothing (Or.inr type)) ?_
    simp only [writeResult, accepted, insert, if_true]
  · have type : resp.respType = .getForUpdSuccess := by
      simpa [itemGranted, insert] using accepted
    obtain ⟨value, val, good, length⟩ := ok.value (Or.inr type)
    refine .found value same insert good ?_ ?_ ?_
    · simp only [writeResult, accepted, insert, if_true, if_false, RwsetItem.deliver, val,
        Option.getD_some]
    · simp only [writeResult, accepted, insert, if_true, if_false, RwsetItem.deliver, val,
        Option.getD_some]
    · simp only [writeResult, accepted, insert, if_true, if_false, length]
      exact Nat.add_sub_cancel_left _ _

theorem flags_set {Left Right Value : Type} {result : Left → Right → Value × Bool} {left : List Left}
    {right : List Right} (sameLength : left.length = right.length)
    (all : (zipWith result left right).all Prod.snd = true) :
    Forall₂ (fun item entry => (result item entry).2 = true) left right := by
  apply Aligned.forall₂_of_all_zipWith sameLength
  rw [← map_zipWith (f := Prod.snd), all_map]
  exact all

/-- `do_read` returns with every item read, or it met a lock or a missing key. -/
theorem read_done {readResps writeResps : List (Resp V)} (inv : TxInv cfg coro tx)
    (local_ : LocalEntries rules tx) (at_ : tx.pc = .doRead)
    (readAligned : Forall₂ (fun item resp =>
      (⟨readReq coro item, some resp⟩ : ReqSlot V) ∈ tx.batch)
        (tx.readSet.drop tx.rsIndex) readResps)
    (writeAligned : Forall₂ (fun item resp =>
      (⟨lockReq coro item, some resp⟩ : ReqSlot V) ∈ tx.batch ∧
        granted tx item.loc = itemGranted item resp) (tx.writeSet.drop tx.wsIndex) writeResps) :
    ReadDone rules tx (readState tx readResps writeResps) := by
  have status : tx.status = .inProgress := by
    have stage := inv.stage
    simp only [StageInv, at_] at stage
    exact stage.1
  have reads : Forall₂ (fun item resp =>
      ((readResponse item resp).2 = true ∧ ReadBack rules item (readResponse item resp).1) ∨
        ((readResponse item resp).2 = false ∧ rules.written item.rpcReqtype))
      (tx.readSet.drop tx.rsIndex) readResps := by
    refine readAligned.imp ?_
    intro item resp member
    exact read_back (inv.respOk _ member _ rfl) fun req same =>
      local_.answers at_ req resp (same ▸ member)
  have locks : Forall₂ (fun item resp => (writeResult item resp).2 = true →
      LockBack rules item (writeResult item resp).1) (tx.writeSet.drop tx.wsIndex) writeResps := by
    refine writeAligned.imp ?_
    rintro item resp ⟨member, _⟩
    exact lock_back fun req same => local_.answers at_ req resp (same ▸ member)
  by_cases all : ((zipWith readResponse (tx.readSet.drop tx.rsIndex) readResps).all Prod.snd &&
      (zipWith writeResult (tx.writeSet.drop tx.wsIndex) writeResps).all Prod.snd) = true
  · obtain ⟨readAll, writeAll⟩ := Bool.and_eq_true_iff.mp all
    refine .success ?_ ⟨rfl, rfl⟩ _ _ rfl rfl ?_ ?_
    · simp only [readState]
      rw [if_pos all]
      exact status
    · rw [map_zipWith]
      refine Aligned.forall₂_zipWith
        (Aligned.forall₂_and reads (flags_set readAligned.length_eq readAll)) ?_
      rintro item resp ⟨⟨_, back⟩ | ⟨unset, _⟩, set⟩
      · exact back
      · rw [unset] at set
        cases set
    · rw [map_zipWith]
      refine Aligned.forall₂_zipWith
        (Aligned.forall₂_and locks (flags_set writeAligned.length_eq writeAll)) ?_
      rintro item resp ⟨back, set⟩
      exact back set
  · refine .refused ?_ ⟨rfl, rfl⟩ ?_ ?_
    · simp only [readState]
      rw [if_neg all]
    · intro noWrites
      simp [readState, noWrites]
    · by_contra quiet
      obtain ⟨unwritten, noWrites⟩ := not_or.mp quiet
      apply all
      rw [not_not.mp noWrites, zipWith_nil_left, all_nil, Bool.and_true, all_eq_true]
      intro result member
      have flags : Forall₂ (fun item (result : RwsetItem V × Bool) =>
          result.2 = true ∨ rules.written item.rpcReqtype) (tx.readSet.drop tx.rsIndex)
            (zipWith readResponse (tx.readSet.drop tx.rsIndex) readResps) :=
        Aligned.forall₂_zipWith reads fun _ _ fact => fact.imp And.left And.right
      obtain ⟨item, inside, set | written⟩ := Aligned.forall₂_mem_right flags member
      · exact set
      · exact absurd ⟨item, inside, written⟩ unwritten

end Reading

section Moves

variable {rules : Discipline V} {cfg : Config} {coro : CoroId} {tx now : TxState V}
  {call : Call V} {before : TxState V}

theorem kept_sets_refl (tx : TxState V) : KeptSets tx tx :=
  ⟨forall₂_same.mpr fun item _ => ⟨same_item_refl item, rfl, rfl⟩, rfl⟩

theorem kept_sets_sends {next : TxState V} (kept : KeptSets before tx) (sends : Sends tx next) :
    KeptSets before next := by
  refine ⟨?_, sends.writeSet.trans kept.writeSet⟩
  rw [sends.readSet]
  exact kept.readSet

/-- A commit that can no longer fail, at any of its points. -/
theorem inside_commit {next : TxState V} (kept : KeptSets before next)
    (at_ : (next.pc = .app ∧ next.status = .committed) ∨ next.pc = .log ∨
      ∃ vec rest, next.pc = .update vec rest) : Inside rules cfg .commit before next := by
  rcases at_ with ⟨at_, status⟩ | at_ | ⟨vec, rest, at_⟩
  · simp only [Inside, at_]
    exact Or.inl ⟨status, kept⟩
  · simp only [Inside, at_]
    exact kept
  · simp only [Inside, at_]
    exact kept

theorem update_start_at (coro : CoroId) (tx : TxState V) (vecs : List (List Nat)) :
    ((updateStart coro tx vecs).pc = .app ∧ (updateStart coro tx vecs).status = .committed) ∨
      (updateStart coro tx vecs).pc = .log ∨
        ∃ vec rest, (updateStart coro tx vecs).pc = .update vec rest := by
  cases vecs with
  | nil => exact Or.inl ⟨rfl, rfl⟩
  | cons vec rest => exact Or.inr (Or.inr ⟨vec, rest, rfl⟩)

theorem commit_start_at (cfg : Config) (coro : CoroId) (oldWord : Nat) (tx : TxState V) :
    ((commitStart cfg coro oldWord tx).pc = .app ∧
        (commitStart cfg coro oldWord tx).status = .committed) ∨
      (commitStart cfg coro oldWord tx).pc = .log ∨
        ∃ vec rest, (commitStart cfg coro oldWord tx).pc = .update vec rest := by
  unfold commitStart
  split_ifs
  · exact Or.inl ⟨rfl, rfl⟩
  · exact Or.inr (Or.inl rfl)
  · exact update_start_at coro tx _

theorem inside_commit_start {oldWord : Nat} (kept : KeptSets before tx) :
    Inside rules cfg .commit before (commitStart cfg coro oldWord tx) :=
  inside_commit (kept_sets_sends kept (commit_start_sends cfg coro oldWord tx))
    (commit_start_at cfg coro oldWord tx)

theorem abort_start_at (coro : CoroId) (tx : TxState V) :
    (abortStart coro tx).status = .aborted ∧
      ((abortStart coro tx).pc = .app ∨ (abortStart coro tx).pc = .abort) := by
  simp only [abortStart]
  split_ifs
  · exact ⟨rfl, Or.inl rfl⟩
  · exact ⟨rfl, Or.inr rfl⟩

/-- A call that runs has its first effect. -/
theorem call_inside {oldWord : Nat} {next : TxState V}
    (called : callTx cfg oldWord tx (call.label coro) = some next) :
    Inside rules cfg call tx next := by
  cases call with
  | start => cases called
  | addToReadSet rpcReqtype key objAddr obj =>
      simp only [Call.label, callTx, Option.ite_none_right_eq_some, Option.some.injEq] at called
      exact ⟨called.1.1, called.2.symm⟩
  | addToWriteSet rpcReqtype key objAddr obj writeMode =>
      simp only [Call.label, callTx, Option.ite_none_right_eq_some, Option.some.injEq] at called
      exact ⟨called.1.1.1, called.2.symm⟩
  | writeObj index valSize val =>
      simp only [Call.label, callTx, Option.ite_none_right_eq_some, Option.some.injEq] at called
      exact ⟨called.1.1, called.2.symm⟩
  | doRead =>
      simp only [Call.label, callTx, Option.ite_none_right_eq_some, Option.some.injEq] at called
      rw [← called.2]
      exact ⟨rfl, rfl, rfl, rfl, rfl⟩
  | commit =>
      simp only [Call.label, callTx, Option.ite_none_right_eq_some, Option.some.injEq] at called
      rw [← called.2]
      unfold commitCall
      split_ifs with noReads
      · exact inside_commit_start (kept_sets_refl tx)
      · exact ⟨noReads, ⟨rfl, rfl, rfl, rfl, rfl⟩⟩
  | commitSingleRead =>
      simp only [Call.label, callTx, Option.ite_none_right_eq_some, Option.some.injEq] at called
      exact ⟨called.1.1, called.2.symm⟩
  | abort =>
      simp only [Call.label, callTx, Option.ite_none_right_eq_some, Option.some.injEq] at called
      rw [← called.2]
      exact abort_start_at coro tx
  | abortRdonly =>
      simp only [Call.label, callTx, Option.ite_none_right_eq_some, Option.some.injEq] at called
      rw [← called.2]
      exact ⟨called.1.1, rfl⟩

/-- The calls that wait for responses. -/
inductive Waits (rules : Discipline V) (before now : TxState V) : Call V → Prop where
  | doRead (at_ : now.pc = .doRead) (same : SameSets before now) : Waits rules before now .doRead
  | validate (at_ : now.pc = .validate) (reads : before.readSet ≠ []) (same : SameSets before now) :
      Waits rules before now .commit
  | fail (at_ : now.pc = .abort) (reads : ∃ item ∈ before.readSet, rules.written item.rpcReqtype)
      (status : now.status = .aborted) (writeSet : now.writeSet = before.writeSet) :
      Waits rules before now .commit
  | decided (at_ : now.pc = .log ∨ ∃ vec rest, now.pc = .update vec rest)
      (kept : KeptSets before now) : Waits rules before now .commit
  | abort (at_ : now.pc = .abort) (status : now.status = .aborted) : Waits rules before now .abort

theorem waits_of_inside (waiting : now.pc ≠ .app) (inside : Inside rules cfg call before now) :
    Waits rules before now call := by
  cases call with
  | start =>
      rw [show now = _ from inside] at waiting
      exact absurd rfl waiting
  | addToReadSet rpcReqtype key objAddr obj =>
      rw [inside.2] at waiting
      exact absurd inside.1 waiting
  | addToWriteSet rpcReqtype key objAddr obj writeMode =>
      rw [inside.2] at waiting
      exact absurd inside.1 waiting
  | writeObj index valSize val =>
      rw [inside.2] at waiting
      exact absurd inside.1 waiting
  | doRead =>
      cases at_ : now.pc with
      | doRead =>
          simp only [Inside, at_] at inside
          exact .doRead at_ inside
      | app => exact absurd at_ waiting
      | _ =>
          simp only [Inside, at_] at inside
  | commit =>
      cases at_ : now.pc with
      | validate =>
          simp only [Inside, at_] at inside
          exact .validate at_ inside.1 inside.2
      | abort =>
          simp only [Inside, at_] at inside
          exact .fail at_ inside.1 inside.2.1 inside.2.2
      | log =>
          simp only [Inside, at_] at inside
          exact .decided (Or.inl at_) inside
      | update vec rest =>
          simp only [Inside, at_] at inside
          exact .decided (Or.inr ⟨vec, rest, at_⟩) inside
      | app => exact absurd at_ waiting
      | doRead =>
          simp only [Inside, at_] at inside
  | commitSingleRead =>
      rw [inside.2] at waiting
      exact absurd inside.1 waiting
  | abort => exact .abort (inside.2.resolve_left waiting) inside.1
  | abortRdonly => exact absurd inside.1 waiting

theorem inside_of_waits (waits : Waits rules before now call) : Inside rules cfg call before now := by
  cases waits with
  | doRead at_ same =>
      simp only [Inside, at_]
      exact same
  | validate at_ reads same =>
      simp only [Inside, at_]
      exact ⟨reads, same⟩
  | fail at_ reads status writeSet =>
      simp only [Inside, at_]
      exact ⟨reads, status, writeSet⟩
  | decided at_ kept => exact inside_commit kept (Or.inr at_)
  | abort at_ status => exact ⟨status, Or.inr at_⟩

theorem respond_inside (waiting : tx.pc ≠ .app) (inside : Inside rules cfg call before tx)
    (index : Nat) (req : Request V) (resp : Resp V) :
    Inside rules cfg call before (tx.respond index req resp) := by
  apply inside_of_waits
  cases waits_of_inside waiting inside with
  | doRead at_ same => exact .doRead at_ ⟨same.1, same.2, same.3, same.4, same.5⟩
  | validate at_ reads same => exact .validate at_ reads ⟨same.1, same.2, same.3, same.4, same.5⟩
  | fail at_ reads status writeSet => exact .fail at_ reads status writeSet
  | decided at_ kept => exact .decided at_ ⟨kept.1, kept.2⟩
  | abort at_ status => exact .abort at_ status

theorem checked_reads (tx : TxState V) {responses : List (Resp V)}
    (sameLength : tx.readSet.length = responses.length) :
    Forall₂ Checked tx.readSet (checkedState tx responses).readSet := by
  refine Aligned.forall₂_zipWith (Aligned.forall₂_of_length_eq sameLength) ?_
  intro item resp _
  exact ⟨⟨rfl, rfl, rfl, rfl, rfl, rfl⟩, rfl, rfl⟩

theorem waits_do_read (waits : Waits rules before now call) (at_ : now.pc = .doRead) :
    call = .doRead ∧ SameSets before now := by
  cases waits with
  | doRead _ same => exact ⟨rfl, same⟩
  | decided other _ => simp [at_] at other
  | _ other => simp [at_] at other

theorem waits_validate (waits : Waits rules before now call) (at_ : now.pc = .validate) :
    call = .commit ∧ before.readSet ≠ [] ∧ SameSets before now := by
  cases waits with
  | validate _ reads same => exact ⟨rfl, reads, same⟩
  | decided other _ => simp [at_] at other
  | _ other => simp [at_] at other

theorem waits_decided (waits : Waits rules before now call)
    (at_ : now.pc = .log ∨ ∃ vec rest, now.pc = .update vec rest) :
    call = .commit ∧ KeptSets before now := by
  cases waits with
  | decided _ kept => exact ⟨rfl, kept⟩
  | _ other => rcases at_ with at_ | ⟨vec, rest, at_⟩ <;> rw [at_] at other <;> cases other

theorem read_done_same {next : TxState V} (same : SameSets before tx)
    (done : ReadDone rules tx next) : ReadDone rules before next := by
  cases done with
  | success status allRead reads writes readSet writeSet readBack lockBack =>
      rw [same.readSet, same.rsIndex] at readSet readBack
      rw [same.writeSet, same.wsIndex] at writeSet lockBack
      exact .success status allRead reads writes readSet writeSet readBack lockBack
  | refused status allRead noWrites contended =>
      rw [same.readSet, same.rsIndex, same.writeSet, same.wsIndex] at contended
      rw [same.writeSet] at noWrites
      exact .refused status allRead noWrites contended

/-- A waiting call that continues stays on its way. -/
theorem resume_inside {oldWord : Nat} {next : TxState V} (inv : TxInv cfg coro tx)
    (local_ : LocalEntries rules tx) (waiting : tx.pc ≠ .app)
    (inside : Inside rules cfg call before tx) (moved : LocalMove cfg coro oldWord tx next)
    (reason : tx.pc = .validate → next.status = .aborted →
      ∃ item ∈ tx.readSet, rules.written item.rpcReqtype) :
    Inside rules cfg call before next := by
  have waits := waits_of_inside waiting inside
  cases moved with
  | addRead _ _ _ _ ok | addWrite _ _ _ _ _ ok _ => exact absurd ok.1 waiting
  | writeObj _ _ _ at_ _ | doRead at_ _ | commit at_ _ _ _ | validate at_ _ _
  | singleRead at_ _ _ _ _ | abort at_ _ _ | abortRdonly at_ _ _ => exact absurd at_ waiting
  | readDone readResps writeResps at_ answers readAligned writeAligned =>
      obtain ⟨rfl, same⟩ := waits_do_read waits at_
      exact read_done_same same (read_done inv local_ at_ readAligned writeAligned)
  | validated responses at_ aligned =>
      obtain ⟨rfl, _, same⟩ := waits_validate waits at_
      have checked := checked_reads tx aligned.length_eq
      rw [same.readSet] at checked
      exact inside_commit_start ⟨checked, same.writeSet⟩
  | refused responses at_ sameLength =>
      obtain ⟨rfl, _, same⟩ := waits_validate waits at_
      have sends := abort_start_sends coro (checkedState tx responses)
      have reads := reason at_ (abort_start_at coro _).1
      rw [same.readSet] at reads
      obtain ⟨status, at_ | at_⟩ := abort_start_at coro (checkedState tx responses)
      · simp only [Inside, at_]
        exact Or.inr ⟨status, reads, sends.writeSet.trans same.writeSet⟩
      · exact inside_of_waits (.fail at_ reads status (sends.writeSet.trans same.writeSet))
  | abortDone at_ complete =>
      cases waits with
      | fail _ reads status writeSet => exact Or.inr ⟨status, reads, writeSet⟩
      | abort _ status => exact ⟨status, Or.inl rfl⟩
      | decided other _ => simp [at_] at other
      | _ other => simp [at_] at other
  | logDone at_ complete =>
      obtain ⟨rfl, kept⟩ := waits_decided waits (Or.inl at_)
      exact inside_commit (kept_sets_sends kept (update_start_sends coro tx _))
        (update_start_at coro tx _)
  | updateDone vec rest at_ complete =>
      obtain ⟨rfl, kept⟩ := waits_decided waits (Or.inr ⟨vec, rest, at_⟩)
      exact inside_commit (kept_sets_sends kept (update_start_sends coro tx _))
        (update_start_at coro tx _)

end Moves

section Calls

@[simp] theorem start_read_set : (TxState.start : TxState V).readSet = [] := rfl

@[simp] theorem start_write_set : (TxState.start : TxState V).writeSet = [] := rfl

@[simp] theorem new_item_loc (cfg : Config) (rpcReqtype : Nat) (key objAddr : UInt64)
    (obj : HotsObj V) (writeMode : TxWriteMode) :
    (newItem cfg rpcReqtype key objAddr obj writeMode).loc = (rpcReqtype, key) := rfl

variable {rules : Discipline V} {cfg : Config} {tx : TxState V} {rest : Reply V → Txn V}

theorem safe_start (ended : (service rules cfg).ended tx)
    (safe : Safe (service rules cfg) (rest (replyOf .start)) .start) :
    Safe (service rules cfg) (.call .start rest) tx := by
  refine ⟨ended, ?_⟩
  rintro _ rfl _
  exact safe

theorem safe_add_read {rpcReqtype : Nat} {key objAddr : UInt64} {obj : HotsObj V}
    {next : TxState V} (ok : AddOk tx rpcReqtype key)
    (shape : next = { tx with
      readSet := tx.readSet ++ [newItem cfg rpcReqtype key objAddr obj .ignore] })
    (safe : Safe (service rules cfg) (rest (replyOf next)) next) :
    Safe (service rules cfg) (.call (.addToReadSet rpcReqtype key objAddr obj) rest) tx := by
  refine ⟨ok, ?_⟩
  rintro _ ⟨_, rfl⟩ _
  rw [← shape]
  exact safe

theorem safe_add_write {rpcReqtype : Nat} {key objAddr : UInt64} {obj : HotsObj V}
    {writeMode : TxWriteMode} {next : TxState V} (ok : AddOk tx rpcReqtype key)
    (mode : writeMode ≠ .ignore) (written : rules.written rpcReqtype)
    (shape : next = { tx with
      writeSet := tx.writeSet ++ [newItem cfg rpcReqtype key objAddr obj writeMode] })
    (safe : Safe (service rules cfg) (rest (replyOf next)) next) :
    Safe (service rules cfg) (.call (.addToWriteSet rpcReqtype key objAddr obj writeMode) rest)
      tx := by
  refine ⟨⟨ok, mode, written⟩, ?_⟩
  rintro _ ⟨_, rfl⟩ _
  rw [← shape]
  exact safe

def refill (size : Nat) (val : V) (item : RwsetItem V) : RwsetItem V :=
  { item with obj := { item.obj with valSize := size, val := val } }

theorem entry_of_refill {item : RwsetItem V} (size : Nat) (val : V) (mode : item.writeMode ≠ .del) :
    entryOf (refill size val item) = some val := by
  rw [entryOf, if_neg (show (refill size val item).writeMode ≠ .del from mode)]
  rfl

theorem safe_refill {items changed : List (RwsetItem V)} {index size : Nat} {val : V}
    (at_ : tx.pc = .app) (running : tx.status = .inProgress) (bound : index < items.length)
    (shape : changed = items.modify index (refill size val))
    (safe : Safe (service rules cfg) (rest (replyOf { tx with writeSet := changed }))
      { tx with writeSet := changed }) :
    Safe (service rules cfg) (.call (.writeObj index size val) rest)
      { tx with writeSet := items } := by
  refine ⟨⟨at_, running, bound⟩, ?_⟩
  rintro _ ⟨_, rfl⟩ _
  rw [shape] at safe
  exact safe

theorem safe_do_read (at_ : tx.pc = .app) (running : tx.status = .inProgress)
    (unread : ¬ AllRead tx)
    (safe : ∀ now : TxState V, now.pc = .app → ReadDone rules tx now →
      Safe (service rules cfg) (rest (replyOf now)) now) :
    Safe (service rules cfg) (.call .doRead rest) tx := by
  refine ⟨⟨at_, running, unread⟩, ?_⟩
  intro now inside returned
  have inside : Inside rules cfg .doRead tx now := inside
  simp only [Inside, returned.1] at inside
  exact safe now returned.1 inside

/-- A `do_read` after some items have been read. -/
theorem safe_read_more {old reads oldLocks writes : List (RwsetItem V)} (at_ : tx.pc = .app)
    (running : tx.status = .inProgress) (readSet : tx.readSet = old ++ reads)
    (writeSet : tx.writeSet = oldLocks ++ writes) (rsIndex : tx.rsIndex = old.length)
    (wsIndex : tx.wsIndex = oldLocks.length) (nonempty : reads ++ writes ≠ [])
    (success : ∀ (now : TxState V) (back locks : List (RwsetItem V)), now.pc = .app →
      now.status = .inProgress → AllRead now → now.readSet = old ++ back →
      now.writeSet = oldLocks ++ locks → Forall₂ (ReadBack rules) reads back →
      Forall₂ (LockBack rules) writes locks → Safe (service rules cfg) (rest (replyOf now)) now)
    (refused : ∀ now : TxState V, now.pc = .app → now.status = .mustAbort → AllRead now →
      (tx.writeSet = [] → now.writeSet = []) →
      ((∃ item ∈ reads, rules.written item.rpcReqtype) ∨ writes ≠ []) →
        Safe (service rules cfg) (rest (replyOf now)) now) :
    Safe (service rules cfg) (.call .doRead rest) tx := by
  have takeReads : tx.readSet.take tx.rsIndex = old := by rw [readSet, rsIndex, take_left]
  have dropReads : tx.readSet.drop tx.rsIndex = reads := by rw [readSet, rsIndex, drop_left]
  have takeWrites : tx.writeSet.take tx.wsIndex = oldLocks := by rw [writeSet, wsIndex, take_left]
  have dropWrites : tx.writeSet.drop tx.wsIndex = writes := by rw [writeSet, wsIndex, drop_left]
  refine safe_do_read at_ running ?_ ?_
  · rintro ⟨noReads, noWrites⟩
    rw [noReads, drop_length] at dropReads
    rw [noWrites, drop_length] at dropWrites
    exact nonempty (by rw [← dropReads, ← dropWrites]; rfl)
  · intro now nowAt done
    cases done with
    | success status allRead back locks nowReads nowWrites readBack lockBack =>
        rw [takeReads] at nowReads
        rw [takeWrites] at nowWrites
        rw [dropReads] at readBack
        rw [dropWrites] at lockBack
        exact success now back locks nowAt status allRead nowReads nowWrites readBack lockBack
    | refused status allRead noWrites contended =>
        rw [dropReads, dropWrites] at contended
        exact refused now nowAt status allRead noWrites contended

/-- The first `do_read` of a transaction. -/
theorem safe_first_read {reads writes : List (RwsetItem V)} (at_ : tx.pc = .app)
    (running : tx.status = .inProgress) (readSet : tx.readSet = reads)
    (writeSet : tx.writeSet = writes) (rsIndex : tx.rsIndex = 0) (wsIndex : tx.wsIndex = 0)
    (nonempty : reads ++ writes ≠ [])
    (success : ∀ now : TxState V, now.pc = .app → now.status = .inProgress → AllRead now →
      Forall₂ (ReadBack rules) reads now.readSet → Forall₂ (LockBack rules) writes now.writeSet →
        Safe (service rules cfg) (rest (replyOf now)) now)
    (refused : ∀ now : TxState V, now.pc = .app → now.status = .mustAbort → AllRead now →
      (writes = [] → now.writeSet = []) →
      ((∃ item ∈ reads, rules.written item.rpcReqtype) ∨ writes ≠ []) →
        Safe (service rules cfg) (rest (replyOf now)) now) :
    Safe (service rules cfg) (.call .doRead rest) tx := by
  rw [← writeSet] at refused
  refine safe_read_more at_ running (show tx.readSet = [] ++ reads from readSet)
    (show tx.writeSet = [] ++ writes from writeSet) rsIndex wsIndex nonempty ?_
    (by rw [← writeSet]; exact refused)
  intro now back locks nowAt status allRead nowReads nowWrites readBack lockBack
  rw [nil_append] at nowReads nowWrites
  rw [← nowReads] at readBack
  rw [← nowWrites] at lockBack
  exact success now nowAt status allRead readBack lockBack

theorem lock_back_value {before now : RwsetItem V} (mode : before.writeMode ≠ .insert)
    (back : LockBack rules before now) : ∃ value, SameItem before now ∧
      rules.good before.loc (some value) ∧ now.seen = some value ∧ now.obj.val = value ∧
        now.obj.valSize = rules.valSize before.rpcReqtype := by
  cases back with
  | found value same _ good seen val size => exact ⟨value, same, good, seen, val, size⟩
  | missing _ insert _ _ => exact absurd insert mode

theorem safe_commit (at_ : tx.pc = .app) (running : tx.status = .inProgress)
    (allRead : AllRead tx) (good : ∀ item ∈ tx.writeSet, rules.good item.loc (entryOf item))
    (keeps : rules.keeps (footprint tx))
    (committed : ∀ now : TxState V, now.pc = .app → now.status = .committed →
      KeptSets tx now → rules.learns now → Safe (service rules cfg) (rest (replyOf now)) now)
    (aborted : ∀ now : TxState V, now.pc = .app → now.status = .aborted →
      (∃ item ∈ tx.readSet, rules.written item.rpcReqtype) → now.writeSet = tx.writeSet →
        Safe (service rules cfg) (rest (replyOf now)) now) :
    Safe (service rules cfg) (.call .commit rest) tx := by
  refine ⟨⟨at_, running, allRead, good, keeps⟩, ?_⟩
  intro now inside returned
  have inside : Inside rules cfg .commit tx now := inside
  simp only [Inside, returned.1] at inside
  rcases inside with ⟨status, kept⟩ | ⟨status, reads, writes⟩
  · exact committed now returned.1 status kept (returned.2 status)
  · exact aborted now returned.1 status reads writes

theorem safe_commit_single_read (at_ : tx.pc = .app) (running : tx.status = .inProgress)
    (allRead : AllRead tx) (one : tx.readSet.length = 1) (noWrites : tx.writeSet = [])
    (keeps : rules.keeps (footprint tx))
    (safe : ∀ now : TxState V, now.pc = .app → now.status = .committed →
      Safe (service rules cfg) (rest (replyOf now)) now) :
    Safe (service rules cfg) (.call .commitSingleRead rest) tx := by
  refine ⟨⟨at_, running, allRead, one, noWrites, keeps⟩, ?_⟩
  rintro _ ⟨_, rfl⟩ returned
  exact safe _ returned.1 rfl

theorem safe_abort (at_ : tx.pc = .app) (status : tx.status = .inProgress ∨ tx.status = .mustAbort)
    (allRead : AllRead tx)
    (safe : ∀ now : TxState V, now.pc = .app → now.status = .aborted →
      Safe (service rules cfg) (rest (replyOf now)) now) :
    Safe (service rules cfg) (.call .abort rest) tx :=
  ⟨⟨at_, status, allRead⟩, fun now inside returned => safe now returned.1 inside.1⟩

theorem safe_abort_rdonly (at_ : tx.pc = .app) (open_ : tx.status ≠ .committed)
    (noWrites : tx.writeSet = [])
    (safe : ∀ now : TxState V, now.pc = .app → now.status = .aborted →
      Safe (service rules cfg) (rest (replyOf now)) now) :
    Safe (service rules cfg) (.call .abortRdonly rest) tx :=
  ⟨⟨at_, open_, noWrites⟩, fun now inside returned => safe now returned.1 inside.2⟩

/-- A transaction function may return once its transaction is over. -/
theorem safe_done (at_ : tx.pc = .app) (status : tx.status = .committed ∨ tx.status = .aborted) :
    Safe (service rules cfg) .done tx :=
  ⟨at_, status⟩

section Lists

variable {rpcReqtype : Nat} {program : Txn V}

/-- What makes a table and a list of keys fit to be added to a transaction. -/
structure Additions (tx : TxState V) (rpcReqtype : Nat) (additions : List (Addition V)) : Prop where
  spacing : rpcReqtype % rpcPrimaryDsReqSpacing = 0
  base : rpcMicaReqBase ≤ rpcReqtype
  small : rpcReqtype < 2 ^ 8
  valid : ∀ addition ∈ additions, addition.key ≠ kFtInvalidKey
  nodup : (additions.map Addition.key).Nodup
  fresh : ∀ addition ∈ additions,
    (rpcReqtype, addition.key) ∉ (tx.readSet ++ tx.writeSet).map RwsetItem.loc
  size : tx.readSet.length + tx.writeSet.length + additions.length ≤ rpcMaxMsgCoro

theorem addition_ok {now : TxState V} {additions front back : List (Addition V)}
    {addition : Addition V} (fit : Additions tx rpcReqtype additions)
    (split : additions = front ++ addition :: back) (at_ : now.pc = .app)
    (running : now.status = .inProgress)
    (locs : ((now.readSet ++ now.writeSet).map RwsetItem.loc).Perm
      ((tx.readSet ++ tx.writeSet).map RwsetItem.loc ++
        front.map fun other => (rpcReqtype, other.key))) :
    AddOk now rpcReqtype addition.key := by
  have size := fit.size
  have nodup := fit.nodup
  have listed : addition ∈ additions := by rw [split]; simp
  rw [split] at size nodup
  refine ⟨at_, running, fit.spacing, fit.base, fit.small, fit.valid _ listed, ?_, ?_⟩
  · intro member
    rcases mem_append.mp (locs.mem_iff.mp member) with old | new
    · exact fit.fresh addition listed old
    · obtain ⟨other, inside, same⟩ := mem_map.mp new
      rw [map_append, map_cons, nodup_append] at nodup
      exact nodup.2.2 _ (mem_map_of_mem inside) _ mem_cons_self (Prod.mk.inj same).2
  · have count := locs.length_eq
    simp only [length_map, length_append, length_cons] at count size
    omega

theorem safe_add_reads {additions : List (Addition V)} (at_ : tx.pc = .app)
    (running : tx.status = .inProgress) (fit : Additions tx rpcReqtype additions)
    (safe : Safe (service rules cfg) program
      { tx with readSet := tx.readSet ++ additions.map (Addition.item cfg rpcReqtype .ignore) }) :
    Safe (service rules cfg) (callAll (additions.map (Addition.read rpcReqtype)) program) tx := by
  refine safe_call_all (fun calls now => ∃ front back, additions = front ++ back ∧
    calls = back.map (Addition.read rpcReqtype) ∧
    now = { tx with readSet := tx.readSet ++ front.map (Addition.item cfg rpcReqtype .ignore) })
    ?_ ?_ _ _ ⟨[], additions, rfl, rfl, by rw [map_nil, append_nil]⟩
  · rintro _ _ _ ⟨front, back, split, calls, rfl⟩
    obtain ⟨addition, later, rfl, rfl, rfl⟩ := map_eq_cons_iff.mp calls.symm
    refine ⟨addition_ok fit split at_ running ?_, ?_⟩
    · simp only [map_append, map_map, append_assoc]
      exact (Perm.append_left _ perm_append_comm)
    · rintro _ ⟨_, rfl⟩ _
      refine ⟨front ++ [addition], later, by rw [split, append_assoc]; rfl, rfl, ?_⟩
      rw [map_append, append_assoc]
      rfl
  · rintro _ ⟨front, back, split, calls, rfl⟩
    rw [map_eq_nil_iff.mp calls.symm, append_nil] at split
    rw [← split]
    exact safe

end Lists

end Calls

end Fasst.TxProgramRules

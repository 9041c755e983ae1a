import Fasst.TxOwnership

/-!
# What validation decides

`validate` compares what the tables say at the moment of each of its requests
with what they said when `do_read` fetched the item. For a missing key in a bucket
that the coroutine has locked itself, `get` leaves the header of the response as it
was, and the version that travels back is not one of the bucket. Such an item is
blind, and validation is exact just when no blind item has the last word.
-/

namespace Fasst.TxValidation

open List Fasst.FixedTableModel Fasst.FixedTableLocks Fasst.FixedTableEdits Fasst.FixedTableOps
open Fasst.FixedTableSpec Fasst.TxModel Fasst.TxCluster Fasst.TxLocal Fasst.TxSteps Fasst.TxInvariant
open Fasst.TxOwnership

set_option autoImplicit false

variable {V : Type}

/-- One item of the read set through both phases: the item as it was added, the
table of its primary when the request of `do_read` is handled and when that of
`validate` is handled, and what the response buffers held before. -/
structure ReadEvent (V : Type) where
  item : RwsetItem V
  atRead : FixedTable V
  atValidate : FixedTable V
  staleRead : UInt64
  staleValidate : UInt64

namespace ReadEvent

def req (coro : CoroId) (event : ReadEvent V) : DsReq V where
  machine := event.item.primaryMn
  rpcReqtype := event.item.rpcReqtype
  callerId := callerId coro
  reqType := .getRdonly
  key := event.item.key
  keyhash := event.item.keyhash

/-- The item after `do_read`, and whether the transaction may go on. -/
def fetch (coro : CoroId) (event : ReadEvent V) : Except Crash (RwsetItem V × Bool) := do
  let (resp, _) ← dsFixedtableRpcHandler event.atRead (event.req coro) event.staleRead
  .ok (readResponse event.item resp)

def recheck (coro : CoroId) (event : ReadEvent V) : Except Crash (Resp V) := do
  let (resp, _) ← dsFixedtableRpcHandler event.atValidate (event.req coro) event.staleValidate
  .ok resp

structure Wf (cfg : Config) (event : ReadEvent V) : Prop where
  item : ItemOk cfg event.item
  readOk : TableOk (dsKeyhash cfg) event.atRead
  validateOk : TableOk (dsKeyhash cfg) event.atValidate
  readPrimary : event.atRead.isPrimary = true
  validatePrimary : event.atValidate.isPrimary = true

end ReadEvent

def bucketFor (cfg : Config) (table : FixedTable V) (key : UInt64) : Bucket V :=
  table.buckets (homeOf (dsKeyhash cfg) table key)

def present (cfg : Config) (table : FixedTable V) (key : UInt64) : Bool :=
  (contents (dsKeyhash cfg) table key).isSome

def OwnLocked (cfg : Config) (coro : CoroId) (table : FixedTable V) (key : UInt64) : Prop :=
  isLocked (bucketFor cfg table key).timestamp ∧
    (bucketFor cfg table key).lockerId = callerId coro

instance (cfg : Config) (coro : CoroId) (table : FixedTable V) (key : UInt64) :
    Decidable (OwnLocked cfg coro table key) := inferInstanceAs (Decidable (_ ∧ _))

/-- No other coroutine has locked the bucket. -/
def Open (cfg : Config) (coro : CoroId) (table : FixedTable V) (key : UInt64) : Prop :=
  isUnlocked (bucketFor cfg table key).timestamp ∨ OwnLocked cfg coro table key

/-- The item is as it was: the key is present if it was, the version field is
the same, and no other coroutine has locked the bucket. -/
def Unchanged (cfg : Config) (coro : CoroId) (event : ReadEvent V) : Prop :=
  present cfg event.atValidate event.item.key = present cfg event.atRead event.item.key ∧
    versionOf (bucketFor cfg event.atValidate event.item.key).timestamp =
      versionOf (bucketFor cfg event.atRead event.item.key).timestamp ∧
    Open cfg coro event.atValidate event.item.key

instance (cfg : Config) (coro : CoroId) (event : ReadEvent V) :
    Decidable (Unchanged cfg coro event) :=
  inferInstanceAs (Decidable (_ ∧ _ ∧ (_ ∨ _)))

/-- The key is missing at both moments, and at one of them `get` does not say the
version, because the coroutine has locked the bucket. -/
def Blind (cfg : Config) (coro : CoroId) (event : ReadEvent V) : Prop :=
  present cfg event.atRead event.item.key = false ∧
    present cfg event.atValidate event.item.key = false ∧
    Open cfg coro event.atValidate event.item.key ∧
    (OwnLocked cfg coro event.atRead event.item.key ∨
      OwnLocked cfg coro event.atValidate event.item.key)

instance (cfg : Config) (coro : CoroId) (event : ReadEvent V) : Decidable (Blind cfg coro event) :=
  inferInstanceAs (Decidable (_ ∧ _ ∧ (_ ∨ _) ∧ (_ ∨ _)))

/-- The header that comes back from a bucket that is open: the word of the bucket,
or what the buffer held. -/
def header (cfg : Config) (coro : CoroId) (table : FixedTable V) (key : UInt64) (stale : UInt64) :
    UInt64 :=
  if present cfg table key = false ∧ OwnLocked cfg coro table key then stale
  else (bucketFor cfg table key).timestamp

inductive Answer (cfg : Config) (coro : CoroId) (table : FixedTable V) (key stale : UInt64)
    (resp : Resp V) : Prop where
  | found (there : present cfg table key = true) (open_ : Open cfg coro table key)
      (type : resp.respType = .getRdonlySuccess)
      (hdr : resp.hdr = some (header cfg coro table key stale))
  | absent (missing : present cfg table key = false) (open_ : Open cfg coro table key)
      (type : resp.respType = .getRdonlyNotFound)
      (hdr : resp.hdr = some (header cfg coro table key stale))
  | locked (closed : ¬ Open cfg coro table key) (type : resp.respType = .getRdonlyLocked)

section Exact

variable {cfg : Config} {coro : CoroId} {event : ReadEvent V} {item : RwsetItem V} {resp : Resp V}

theorem header_word {table : FixedTable V} {key : UInt64} (stale : UInt64)
    (written : OwnLocked cfg coro table key → present cfg table key = true) :
    header cfg coro table key stale = (bucketFor cfg table key).timestamp := by
  rw [header, if_neg]
  rintro ⟨missing, own⟩
  rw [written own] at missing
  cases missing

theorem header_stale {table : FixedTable V} {key : UInt64} (stale : UInt64)
    (missing : present cfg table key = false) (own : OwnLocked cfg coro table key) :
    header cfg coro table key stale = stale := by
  rw [header, if_pos ⟨missing, own⟩]

theorem read_answer (coro : CoroId) {table : FixedTable V} (stale : UInt64) (ok : ItemOk cfg item)
    (tableOk : TableOk (dsKeyhash cfg) table) (primary : table.isPrimary = true) :
    ∃ resp, dsFixedtableRpcHandler table
      ⟨item.primaryMn, item.rpcReqtype, callerId coro, .getRdonly, item.key, item.keyhash⟩ stale =
        .ok (resp, table) ∧ Answer cfg coro table item.key stale resp := by
  obtain ⟨lists, shape⟩ := tableOk.shaped
  have got := get_spec shape (callerId coro) ok.keyValid primary
  simp only [dsFixedtableRpcHandler, ok.keyhash, got, assertion, bind, Except.bind]
  cases held : lockOf (table.buckets (homeOf (dsKeyhash cfg) table item.key)) with
  | none =>
      have unlocked := (lock_of_none_iff _).mp held
      have word : header cfg coro table item.key stale = (bucketFor cfg table item.key).timestamp :=
        header_word stale fun own => absurd own.1 ((not_locked_iff _).mpr unlocked)
      cases entry : contents (dsKeyhash cfg) table item.key with
      | some value =>
          exact ⟨_, rfl, .found (by rw [present, entry]; rfl) (Or.inl unlocked) rfl (by rw [word]; rfl)⟩
      | none =>
          exact ⟨_, rfl, .absent (by rw [present, entry]; rfl) (Or.inl unlocked) rfl (by rw [word]; rfl)⟩
  | some pair =>
      obtain ⟨owner, count⟩ := pair
      obtain ⟨locked, sameOwner, _⟩ := lock_of_some _ _ _ held
      by_cases own : owner = callerId coro
      · have mine : OwnLocked cfg coro table item.key := ⟨locked, sameOwner.trans own⟩
        cases entry : contents (dsKeyhash cfg) table item.key with
        | some value =>
            have there : present cfg table item.key = true := by rw [present, entry]; rfl
            simp only [getReply, if_pos own]
            exact ⟨_, rfl, .found there (Or.inr mine) rfl (by rw [header_word stale fun _ => there]; rfl)⟩
        | none =>
            have missing : present cfg table item.key = false := by rw [present, entry]; rfl
            simp only [getReply, if_pos own]
            exact ⟨_, rfl, .absent missing (Or.inr mine) rfl (by rw [header_stale stale missing mine]; rfl)⟩
      · have others : ¬ Open cfg coro table item.key := by
          rintro (unlocked | mine)
          · exact (not_locked_iff _).mpr unlocked locked
          · exact own (sameOwner.symm.trans mine.2)
        cases entry : contents (dsKeyhash cfg) table item.key with
        | some value =>
            simp only [getReply, if_neg own]
            exact ⟨_, rfl, .locked others rfl⟩
        | none =>
            simp only [getReply, if_neg own]
            exact ⟨_, rfl, .locked others rfl⟩

/-- What `do_read` records of an item. -/
theorem fetch_records (coro : CoroId) (wf : event.Wf cfg) :
    ∃ item success, event.fetch coro = .ok (item, success) ∧
      (success = true ↔ Open cfg coro event.atRead event.item.key) ∧
      (success = true → item.execRsExists = present cfg event.atRead event.item.key ∧
        item.execRsVersion =
          versionOf (header cfg coro event.atRead event.item.key event.staleRead)) := by
  obtain ⟨resp, run, answer⟩ := read_answer coro event.staleRead wf.item wf.readOk
    wf.readPrimary
  have read : event.fetch coro = .ok (readResponse event.item resp) := by
    rw [ReadEvent.fetch, ReadEvent.req, run]
    rfl
  refine ⟨(readResponse event.item resp).1, (readResponse event.item resp).2, read, ?_⟩
  cases answer with
  | found there open_ type hdr =>
      simp [readResponse, type, RwsetItem.deliver, hdr, there, open_]
  | absent missing open_ type hdr =>
      simp [readResponse, type, RwsetItem.deliver, hdr, missing, open_]
  | locked closed type => simp [readResponse, type, closed]

/-- What one turn of the loop of `validate` compares. -/
def Passes (cfg : Config) (coro : CoroId) (event : ReadEvent V) : Prop :=
  present cfg event.atValidate event.item.key = present cfg event.atRead event.item.key ∧
    versionOf (header cfg coro event.atValidate event.item.key event.staleValidate) =
      versionOf (header cfg coro event.atRead event.item.key event.staleRead) ∧
    Open cfg coro event.atValidate event.item.key

/-- The item and the response that `validate` sees for an event. -/
def Seen (coro : CoroId) (event : ReadEvent V) (pair : RwsetItem V × Resp V) : Prop :=
  event.fetch coro = .ok (pair.1, true) ∧ event.recheck coro = .ok pair.2

theorem seen_unique : Relator.RightUnique (Seen coro : ReadEvent V → RwsetItem V × Resp V → Prop) := by
  rintro event left right ⟨fetched, checked⟩ ⟨refetched, rechecked⟩
  exact Prod.ext (Prod.mk.inj (Except.ok.inj (fetched.symm.trans refetched))).1
    (Except.ok.inj (checked.symm.trans rechecked))

theorem validate_response_passes (wf : event.Wf cfg)
    (fetched : ∃ item, event.fetch coro = .ok (item, true)) :
    ∃ pair, Seen coro event pair ∧
      (validateResponse pair.1 pair.2 = true ↔ Passes cfg coro event) := by
  obtain ⟨first, fetched⟩ := fetched
  obtain ⟨item, success, read, _, records⟩ := fetch_records coro wf
  obtain ⟨rfl, rfl⟩ := Prod.mk.inj (Except.ok.inj (read.symm.trans fetched))
  obtain ⟨exists_, version⟩ := records rfl
  obtain ⟨resp, run, answer⟩ := read_answer coro event.staleValidate wf.item
    wf.validateOk wf.validatePrimary
  have checked : event.recheck coro = .ok resp := by
    rw [ReadEvent.recheck, ReadEvent.req, run]
    rfl
  refine ⟨(item, resp), ⟨fetched, checked⟩, ?_⟩
  unfold Passes validateResponse
  rw [decide_eq_true_iff, exists_, version]
  cases answer with
  | found there open_ type hdr =>
      simp only [type, RwsetItem.deliver, hdr, Option.getD_some, there]
      cases present cfg event.atRead event.item.key <;> simp [open_]
  | absent missing open_ type hdr =>
      simp only [type, RwsetItem.deliver, hdr, Option.getD_some, missing]
      cases present cfg event.atRead event.item.key <;> simp [open_]
  | locked closed type =>
      simp only [type]
      cases present cfg event.atRead event.item.key <;> simp [closed]

theorem passes_iff_unchanged (sighted : ¬ Blind cfg coro event) :
    Passes cfg coro event ↔ Unchanged cfg coro event := by
  refine and_congr_right fun same => and_congr_left fun open_ => ?_
  cases there : present cfg event.atRead event.item.key with
  | true =>
      rw [header_word _ fun _ => same.trans there, header_word _ fun _ => there]
  | false =>
      have missing := same.trans there
      rw [header_word _ fun own => absurd ⟨there, missing, open_, Or.inr own⟩ sighted,
        header_word _ fun own => absurd ⟨there, missing, open_, Or.inl own⟩ sighted]

/-- The same requests to the same tables, with other bytes in the buffers. -/
def SameReads (left right : ReadEvent V) : Prop :=
  right = { left with staleRead := right.staleRead, staleValidate := right.staleValidate }

def otherWord (word : UInt64) : UInt64 := if versionOf word = 0 then 2 else 0

theorem other_word_version (word : UInt64) : versionOf (otherWord word) ≠ versionOf word := by
  unfold otherWord
  split_ifs with zero
  · rw [zero]
    decide
  · exact Ne.symm zero

/-- Bytes with which the comparison of a blind event succeeds. -/
def passing (cfg : Config) (coro : CoroId) (event : ReadEvent V) : ReadEvent V :=
  let word := (bucketFor cfg event.atValidate event.item.key).timestamp
  { event with
    staleRead := word
    staleValidate := header cfg coro event.atRead event.item.key word }

/-- Bytes with which it fails. -/
def failing (cfg : Config) (coro : CoroId) (event : ReadEvent V) : ReadEvent V :=
  let word := otherWord (bucketFor cfg event.atValidate event.item.key).timestamp
  { event with
    staleRead := word
    staleValidate := otherWord (header cfg coro event.atRead event.item.key word) }

theorem blind_passes (blind : Blind cfg coro event) : Passes cfg coro (passing cfg coro event) := by
  obtain ⟨readMissing, missing, open_, own⟩ := blind
  refine ⟨missing.trans readMissing.symm, ?_, open_⟩
  by_cases validateOwn : OwnLocked cfg coro event.atValidate event.item.key
  · exact congrArg versionOf (header_stale _ missing validateOwn)
  · have readOwn := own.resolve_right validateOwn
    simp only [passing]
    rw [header_word _ fun again => absurd again validateOwn, header_stale _ readMissing readOwn]

theorem blind_fails (blind : Blind cfg coro event) : ¬ Passes cfg coro (failing cfg coro event) := by
  obtain ⟨readMissing, missing, open_, own⟩ := blind
  rintro ⟨_, same, _⟩
  simp only [failing] at same
  by_cases validateOwn : OwnLocked cfg coro event.atValidate event.item.key
  · rw [header_stale _ missing validateOwn] at same
    exact other_word_version _ same
  · have readOwn := own.resolve_right validateOwn
    rw [header_word _ fun again => absurd again validateOwn,
      header_stale _ readMissing readOwn] at same
    exact other_word_version _ same.symm

/-- `validate` over a whole read set. -/
theorem validate_passes {events : List (ReadEvent V)} (wf : ∀ event ∈ events, event.Wf cfg)
    (fetched : ∀ event ∈ events, ∃ item, event.fetch coro = .ok (item, true)) :
    ∃ pairs, Forall₂ (Seen coro) events pairs ∧
      (validate (pairs.map Prod.fst) (pairs.map Prod.snd) = true ↔
        ∀ event ∈ events, Passes cfg coro event) := by
  induction events with
  | nil => exact ⟨[], .nil, by simp [validate]⟩
  | cons event rest ih =>
      obtain ⟨pair, seen, here⟩ :=
        validate_response_passes (wf event mem_cons_self) (fetched event mem_cons_self)
      obtain ⟨pairs, others, later⟩ := ih (fun other member => wf other (mem_cons_of_mem _ member))
        fun other member => fetched other (mem_cons_of_mem _ member)
      refine ⟨pair :: pairs, .cons seen others, ?_⟩
      rw [validate] at later ⊢
      rw [map_cons, map_cons, zipWith_cons_cons, all_cons, Bool.and_eq_true, later, forall_mem_cons]
      exact and_congr_left fun _ => here

/-- Whatever the buffers hold, `validate` returns, and true exactly for an unchanged
read set. -/
def ExactFor (cfg : Config) (coro : CoroId) (events : List (ReadEvent V)) : Prop :=
  ∀ others, Forall₂ SameReads events others → ∃ pairs, Forall₂ (Seen coro) others pairs ∧
    (validate (pairs.map Prod.fst) (pairs.map Prod.snd) = true ↔
      ∀ event ∈ events, Unchanged cfg coro event)

theorem same_reads_wf {other : ReadEvent V} (same : SameReads event other) (wf : event.Wf cfg) :
    other.Wf cfg := by
  rw [same]
  exact ⟨wf.item, wf.readOk, wf.validateOk, wf.readPrimary, wf.validatePrimary⟩

theorem same_reads_fetched {other : ReadEvent V} (same : SameReads event other) (wf : event.Wf cfg)
    (fetched : ∃ item, event.fetch coro = .ok (item, true)) :
    ∃ item, other.fetch coro = .ok (item, true) := by
  obtain ⟨item, fetched⟩ := fetched
  obtain ⟨_, _, read, before, _⟩ := fetch_records coro wf
  obtain ⟨again, success, reread, after, _⟩ :=
    fetch_records coro (same_reads_wf same wf)
  have open_ := before.mp (Prod.mk.inj (Except.ok.inj (read.symm.trans fetched))).2
  rw [same] at after
  exact ⟨again, by rw [reread, after.mpr open_]⟩

theorem passes_same {other : ReadEvent V} (same : SameReads event other)
    (sighted : ¬ Blind cfg coro event) :
    Passes cfg coro other ↔ Unchanged cfg coro event := by
  rw [same]
  exact passes_iff_unchanged sighted

theorem exact_for_iff {events : List (ReadEvent V)} (wf : ∀ event ∈ events, event.Wf cfg)
    (fetched : ∀ event ∈ events, ∃ item, event.fetch coro = .ok (item, true)) :
    ExactFor cfg coro events ↔ ∀ others, Forall₂ SameReads events others →
      ((∀ other ∈ others, Passes cfg coro other) ↔ ∀ event ∈ events, Unchanged cfg coro event) := by
  refine forall₂_congr fun others same => ?_
  obtain ⟨pairs, seen, validated⟩ : ∃ pairs, Forall₂ (Seen coro) others pairs ∧
      (validate (pairs.map Prod.fst) (pairs.map Prod.snd) = true ↔
        ∀ other ∈ others, Passes cfg coro other) := by
    apply validate_passes
    · intro other member
      obtain ⟨event, inside, same⟩ := Aligned.forall₂_mem_right same member
      exact same_reads_wf same (wf event inside)
    · intro other member
      obtain ⟨event, inside, same⟩ := Aligned.forall₂_mem_right same member
      exact same_reads_fetched same (wf event inside) (fetched event inside)
  rw [← validated]
  constructor
  · rintro ⟨again, seenAgain, exact_⟩
    rwa [right_unique_forall₂' seen_unique seen seenAgain]
  · exact fun exact_ => ⟨pairs, seen, exact_⟩

/-- Validation is exact for all contents of the buffers if and only if no item of the
read set is blind, or one that is not blind has changed. -/
theorem validate_exact_iff {events : List (ReadEvent V)} (wf : ∀ event ∈ events, event.Wf cfg)
    (fetched : ∀ event ∈ events, ∃ item, event.fetch coro = .ok (item, true)) :
    ExactFor cfg coro events ↔ (∀ event ∈ events, ¬ Blind cfg coro event) ∨
      ∃ event ∈ events, ¬ Blind cfg coro event ∧ ¬ Unchanged cfg coro event := by
  rw [exact_for_iff wf fetched]
  constructor
  · intro exact_
    by_contra! neither
    obtain ⟨⟨event, member, blind⟩, unchanged⟩ := neither
    -- The buffers decide: with some bytes every item passes, with others this one fails.
    have passed := (exact_ (events.map (passing cfg coro))
      (Aligned.forall₂_map_self events _ fun _ _ => rfl)).mp (by
        intro other inside
        obtain ⟨before, listed, rfl⟩ := mem_map.mp inside
        by_cases dark : Blind cfg coro before
        · exact blind_passes dark
        · exact (passes_same (show SameReads before (passing cfg coro before) from rfl) dark).mpr
            (unchanged before listed dark))
    have failed := (exact_ (events.map (failing cfg coro))
      (Aligned.forall₂_map_self events _ fun _ _ => rfl)).mpr passed
    exact blind_fails blind (failed _ (mem_map_of_mem member))
  · rintro (sighted | ⟨event, member, sighted, changed⟩) others same
    · constructor
      · intro passes event member
        obtain ⟨other, inside, same⟩ := Aligned.forall₂_mem_left same member
        exact (passes_same same (sighted event member)).mp (passes other inside)
      · intro unchanged other member
        obtain ⟨event, inside, same⟩ := Aligned.forall₂_mem_right same member
        exact (passes_same same (sighted event inside)).mpr (unchanged event inside)
    · obtain ⟨other, inside, same⟩ := Aligned.forall₂_mem_left same member
      refine iff_of_false (fun passes => ?_) fun unchanged => changed (unchanged event member)
      exact changed ((passes_same same sighted).mp (passes other inside))

end Exact

section Runs

/-- A key that is missing when it is read and when it is validated. -/
def missingKey (atValidate : FixedTable Nat) (stale : UInt64) : ReadEvent Nat where
  item := newItem oneMachine 20 5 0 ⟨8, 0, 0⟩ .ignore
  atRead := (newSwarm 8 1 0 (0 : Nat)).tables 0 20
  atValidate := atValidate
  staleRead := 0
  staleValidate := stale

theorem missing_key_wf {state : State Nat} (stale : UInt64)
    (reached : Reachable oneMachine (newSwarm 8 1 0 (0 : Nat)) state) :
    (missingKey (state.tables 0 20) stale).Wf oneMachine := by
  have initial := new_swarm_initial oneMachine 8 1 0 (0 : Nat) (by decide)
  have inv := reachable_inv initial reached
  have item := new_item_ok oneMachine 20 5 0 (⟨8, 0, 0⟩ : HotsObj Nat) .ignore (by decide)
    (by decide) (by decide) (by decide)
  exact ⟨item, initial.tableOk 0 20, inv.tableOk 0 20, initial.role 0 20, inv.role 0 20⟩

/-- Whether the event ends as described: the item is as it was, and `validate`
returns the given result. -/
def ends (event : ReadEvent Nat) (result : Bool) : Bool :=
  match event.fetch ⟨0, 1⟩, event.recheck ⟨0, 1⟩ with
  | .ok (item, true), .ok resp =>
      decide (Unchanged oneMachine ⟨0, 1⟩ event) && validate [item] [resp] == result
  | _, _ => false

theorem seen_of_ends {event : ReadEvent Nat} {result : Bool} (passed : ends event result = true) :
    ∃ item resp, Seen ⟨0, 1⟩ event (item, resp) ∧ Unchanged oneMachine ⟨0, 1⟩ event ∧
      validate [item] [resp] = result := by
  unfold ends at passed
  split at passed
  · rename_i item resp fetched checked
    rw [Bool.and_eq_true, decide_eq_true_iff, beq_iff_eq] at passed
    exact ⟨item, resp, ⟨fetched, checked⟩, passed⟩
  · cases passed

/-- A coroutine reads a missing key, locks its bucket to insert another key, and
comes to validate the first. -/
def ownLockRun : List (Label Nat) :=
  [.start ⟨0, 1⟩, .addToReadSet ⟨0, 1⟩ 20 5 0 ⟨8, 0, 0⟩, .doRead ⟨0, 1⟩, .handle ⟨0, 1⟩ 0 0,
    .resume ⟨0, 1⟩, .addToWriteSet ⟨0, 1⟩ 20 6 0 ⟨8, 0, 1⟩ .insert, .doRead ⟨0, 1⟩,
    .handle ⟨0, 1⟩ 0 0, .resume ⟨0, 1⟩, .commit ⟨0, 1⟩]

/-- Nothing has changed, the bucket is locked by the coroutine itself, and
`validate` returns false: the header of the response is what its buffer held. -/
theorem own_lock_hides_version :
    ∃ state, runLabels oneMachine (newSwarm 8 1 0 (0 : Nat)) ownLockRun = some state ∧
      (missingKey (state.tables 0 20) 2).Wf oneMachine ∧
      OwnLocked oneMachine ⟨0, 1⟩ (state.tables 0 20) 5 ∧
      ∃ item resp, Seen ⟨0, 1⟩ (missingKey (state.tables 0 20) 2) (item, resp) ∧
        Unchanged oneMachine ⟨0, 1⟩ (missingKey (state.tables 0 20) 2) ∧
        validate [item] [resp] = false := by
  have observed : (runLabels oneMachine (newSwarm 8 1 0 (0 : Nat)) ownLockRun).map (fun state =>
      (decide (OwnLocked oneMachine ⟨0, 1⟩ (state.tables 0 20) 5),
        ends (missingKey (state.tables 0 20) 2) false)) = some (true, true) := by
    decide +kernel
  obtain ⟨state, ran, same⟩ := Option.map_eq_some_iff.mp observed
  obtain ⟨own, passed⟩ := Prod.mk.inj same
  exact ⟨state, ran, missing_key_wf 2 (run_labels_reachable _ .refl ran), of_decide_eq_true own,
    seen_of_ends passed⟩

/-- An empty table is validated against itself, and one in which the coroutine holds
the bucket against an empty one. -/
theorem validate_exact_iff_missing_key :
    ExactFor oneMachine ⟨0, 1⟩ [missingKey ((newSwarm 8 1 0 (0 : Nat)).tables 0 20) 0] ∧
      ∃ state, runLabels oneMachine (newSwarm 8 1 0 (0 : Nat)) ownLockRun = some state ∧
        ¬ ExactFor oneMachine ⟨0, 1⟩ [missingKey (state.tables 0 20) 2] := by
  have exactly : ∀ {state : State Nat} {stale : UInt64} {result : Bool},
      Reachable oneMachine (newSwarm 8 1 0 (0 : Nat)) state →
      ends (missingKey (state.tables 0 20) stale) result = true →
      (ExactFor oneMachine ⟨0, 1⟩ [missingKey (state.tables 0 20) stale] ↔
        ¬ Blind oneMachine ⟨0, 1⟩ (missingKey (state.tables 0 20) stale)) := by
    intro state stale result reached passed
    obtain ⟨item, resp, seen, unchanged, _⟩ := seen_of_ends passed
    rw [validate_exact_iff (by rw [forall_mem_singleton]; exact missing_key_wf stale reached)
      (by rw [forall_mem_singleton]; exact ⟨item, seen.1⟩)]
    simp [unchanged]
  have observed : (runLabels oneMachine (newSwarm 8 1 0 (0 : Nat)) ownLockRun).map (fun state =>
      (decide (Blind oneMachine ⟨0, 1⟩ (missingKey (state.tables 0 20) 2)),
        ends (missingKey (state.tables 0 20) 2) false)) = some (true, true) := by
    decide +kernel
  obtain ⟨state, ran, same⟩ := Option.map_eq_some_iff.mp observed
  obtain ⟨blind, passed⟩ := Prod.mk.inj same
  refine ⟨(exactly .refl (show ends _ true = true by decide +kernel)).mpr (by decide +kernel),
    state, ran, fun exact_ => ?_⟩
  exact (exactly (run_labels_reachable _ .refl ran) passed).mp exact_ (of_decide_eq_true blind)

end Runs

end Fasst.TxValidation

import Fasst.TxCommitOrder
import Mathlib.Algebra.Ring.Nat

/-!
# Reading a log record back

Recovery would read a record as `num_keys` entries of key, value size, header
and value. Here values are the bytes of the `val` array of an object. The copy
in `log` starts at the address of the pointer `item.obj`, so an entry holds the
object only if these bytes of the item happen to be those of the object.
-/

namespace Fasst.TxLogRecord

open List Fasst.Bytes Fasst.Placement Fasst.TxModel Fasst.TxCluster Fasst.TxSteps
open Fasst.TxInvariant Fasst.TxOwnership Fasst.TxCommitOrder

set_option autoImplicit false

abbrev Item := RwsetItem (List UInt8)

structure LogEntry where
  key : UInt64
  valSize : Nat
  hdr : UInt64
  val : List UInt8
  deriving DecidableEq

def loggedEntry (item : Item) : LogEntry :=
  ⟨item.key, item.obj.valSize, item.obj.hdr, item.obj.val.take item.obj.valSize⟩

def readEntry (buffer : Buffer) (offset : Nat) : LogEntry where
  key := UInt64.ofNat (leValue (readBytes buffer offset 8))
  valSize := leValue (readBytes buffer (offset + 8) 8)
  hdr := UInt64.ofNat (leValue (readBytes buffer (offset + 16) 8))
  val := readBytes buffer (offset + 24) (leValue (readBytes buffer (offset + 8) 8))

def readEntries (buffer : Buffer) : Nat → Nat → List LogEntry
  | 0, _ => []
  | count + 1, offset =>
      let entry := readEntry buffer offset
      entry :: readEntries buffer count (offset + 24 + entry.valSize)

/-- The entries of a stored record; `num_keys` is the second word. -/
def readRecord (buffer : Buffer) : List LogEntry :=
  readEntries buffer (leValue (readBytes buffer 4 4)) 8

/-- The object as it lies in memory, up to the end of its value. -/
def objectBytes (obj : HotsObj (List UInt8)) : List UInt8 :=
  leBytes 8 obj.valSize ++ leBytes 8 obj.hdr.toNat ++ obj.val.take obj.valSize

/-- The bytes from `&item.obj` on. -/
def copiedBytes (item : Item) : List UInt8 :=
  (item.image.drop offsetofObj).take (hotsObjSize item.obj.valSize)

structure ObjectOk (obj : HotsObj (List UInt8)) : Prop where
  size : obj.valSize ≤ hotsMaxValue
  array : obj.val.length = hotsMaxValue

section Entries

variable {item : Item} {buffer : Buffer} {offset : Nat}

theorem image_length (item : Item) : item.image.length = sizeofItem := by
  simp [RwsetItem.image, sizeofItem]

theorem object_bytes_length (ok : ObjectOk item.obj) :
    (objectBytes item.obj).length = hotsObjSize item.obj.valSize := by
  have size := ok.size
  rw [objectBytes, length_append, length_append, le_bytes_length, le_bytes_length, length_take,
    ok.array, Nat.min_eq_left size]
  rfl

theorem copied_bytes_length (ok : ObjectOk item.obj) :
    (copiedBytes item).length = hotsObjSize item.obj.valSize := by
  have size := ok.size
  rw [copiedBytes, length_take, length_drop, image_length]
  simp only [hotsObjSize, sizeofItem, offsetofObj, hotsMaxValue] at *
  omega

/-- The copy does not reach the next item. -/
theorem log_entry_copied (ok : ObjectOk item.obj) (before after : List Item) :
    logEntry (before ++ item :: after) before.length item =
      leBytes 8 item.key.toNat ++ copiedBytes item := by
  have skipped : (before.flatMap RwsetItem.image).length = sizeofItem * before.length := by
    induction before with
    | nil => rfl
    | cons other rest ih =>
        rw [flatMap_cons, length_append, ih, image_length, length_cons, Nat.mul_succ, Nat.add_comm]
  have size := ok.size
  unfold logEntry copiedBytes
  rw [flatMap_append, flatMap_cons, ← drop_drop, ← skipped, drop_left, drop_append_of_le_length,
    take_append_of_le_length]
  · rw [length_drop, image_length]
    simp only [hotsObjSize, sizeofItem, offsetofObj, hotsMaxValue] at *
    omega
  · rw [image_length]
    decide

theorem log_entries (objects : List Item) (ok : ∀ item ∈ objects, ObjectOk item.obj) :
    (objects.zipIdx.flatMap fun pair => logEntry objects pair.2 pair.1) =
      objects.flatMap fun item => leBytes 8 item.key.toNat ++ copiedBytes item := by
  have shifted : ∀ before after : List Item, before ++ after = objects →
      ((after.zipIdx before.length).flatMap fun pair => logEntry objects pair.2 pair.1) =
        after.flatMap fun item => leBytes 8 item.key.toNat ++ copiedBytes item := by
    intro before after
    induction after generalizing before with
    | nil => exact fun _ => rfl
    | cons item after ih =>
        intro split
        have member : item ∈ objects := by
          rw [← split]
          exact mem_append_right _ mem_cons_self
        have next := ih (before ++ [item]) (by rw [append_assoc]; exact split)
        rw [length_append, length_singleton] at next
        rw [zipIdx_cons, flatMap_cons, flatMap_cons, next, ← split,
          log_entry_copied (ok item member)]
  exact shifted [] objects rfl

theorem word_stored {value : Nat} (small : value < 256 ^ 8)
    (stored : Stored buffer offset (leBytes 8 value)) :
    leValue (readBytes buffer offset 8) = value := by
  have same : readBytes buffer offset 8 = leBytes 8 value := by
    have stored := stored
    rw [Stored, le_bytes_length] at stored
    exact stored
  rw [same, le_value_bytes, Nat.mod_eq_of_lt small]

theorem word_read (buffer : Buffer) (offset : Nat) :
    Stored buffer offset (leBytes 8 (leValue (readBytes buffer offset 8))) := by
  have back := le_bytes_value (readBytes buffer offset 8)
  rw [read_bytes_length] at back
  rw [back, Stored, read_bytes_length]

/-- An entry reads back as intended exactly if the object's bytes were stored. -/
theorem read_entry_iff (ok : ObjectOk item.obj)
    (key : Stored buffer offset (leBytes 8 item.key.toNat)) :
    readEntry buffer offset = loggedEntry item ↔
      Stored buffer (offset + 8) (objectBytes item.obj) := by
  have size := ok.size
  have small : item.obj.valSize < 256 ^ 8 := by
    simp only [hotsMaxValue] at size
    omega
  have smallHdr : item.obj.hdr.toNat < 256 ^ 8 := item.obj.hdr.toNat_lt
  have valueLength : (item.obj.val.take item.obj.valSize).length = item.obj.valSize := by
    rw [length_take, ok.array, Nat.min_eq_left size]
  rw [objectBytes, stored_append, stored_append]
  simp only [length_append, le_bytes_length, Nat.add_assoc, Nat.reduceAdd]
  constructor
  · intro same
    obtain ⟨_, sameSize, sameHdr, sameVal⟩ := LogEntry.mk.inj same
    rw [sameSize] at sameVal
    refine ⟨⟨?_, ?_⟩, ?_⟩
    · rw [← sameSize]
      exact word_read buffer (offset + 8)
    · have bound := le_value_lt (readBytes buffer (offset + 16) 8)
      rw [read_bytes_length] at bound
      have value : item.obj.hdr.toNat = leValue (readBytes buffer (offset + 16) 8) := by
        rw [← sameHdr, UInt64.toNat_ofNat']
        exact Nat.mod_eq_of_lt bound
      rw [value]
      exact word_read buffer (offset + 16)
    · rw [Stored, valueLength]
      exact sameVal
  · rintro ⟨⟨sizeWord, hdrWord⟩, valStored⟩
    have sizeRead := word_stored small sizeWord
    have hdrRead := word_stored smallHdr hdrWord
    have keyRead := word_stored item.key.toNat_lt key
    rw [Stored, valueLength] at valStored
    unfold readEntry loggedEntry
    rw [keyRead, sizeRead, hdrRead, valStored, UInt64.ofNat_toNat, UInt64.ofNat_toNat]

theorem read_entries_iff (objects : List Item) (ok : ∀ item ∈ objects, ObjectOk item.obj)
    (offset : Nat)
    (stored : Stored buffer offset
      (objects.flatMap fun item => leBytes 8 item.key.toNat ++ copiedBytes item)) :
    readEntries buffer objects.length offset = objects.map loggedEntry ↔
      ∀ item ∈ objects, copiedBytes item = objectBytes item.obj := by
  induction objects generalizing offset with
  | nil => exact ⟨fun _ _ member => (by cases member), fun _ => rfl⟩
  | cons item rest ih =>
      have here := ok item mem_cons_self
      rw [flatMap_cons, stored_append, stored_append, le_bytes_length] at stored
      obtain ⟨⟨key, copy⟩, others⟩ := stored
      rw [length_append, le_bytes_length, copied_bytes_length here] at others
      have first : readEntry buffer offset = loggedEntry item ↔
          copiedBytes item = objectBytes item.obj := by
        rw [read_entry_iff here key]
        constructor
        · intro object
          rw [Stored, copied_bytes_length here] at copy
          rw [Stored, object_bytes_length here] at object
          rw [← copy, object]
        · intro same
          rw [← same]
          exact copy
      have next : readEntry buffer offset = loggedEntry item →
          offset + 24 + (readEntry buffer offset).valSize =
            offset + (8 + hotsObjSize item.obj.valSize) := by
        intro same
        rw [same]
        simp only [loggedEntry, hotsObjSize]
        omega
      have tail := ih (fun other member => ok other (mem_cons_of_mem _ member)) _ others
      rw [length_cons, readEntries, map_cons, cons_eq_cons, forall_mem_cons, ← first]
      constructor
      · rintro ⟨same, more⟩
        refine ⟨same, tail.mp ?_⟩
        rw [← next same]
        exact more
      · rintro ⟨same, more⟩
        refine ⟨same, ?_⟩
        rw [next same]
        exact tail.mpr more

end Entries

section Record

variable {cfg : Config} {coro : CoroId}

theorem log_record_shape (cfg : Config) (coro : CoroId) (oldWord : Nat) (writeSet : List Item)
    (ok : ∀ item ∈ writeSet, ObjectOk item.obj) :
    ∃ identifiers, logRecordBytes cfg coro oldWord writeSet =
      leBytes 4 identifiers ++ leBytes 4 writeSet.length ++
        writeSet.flatMap fun item => leBytes 8 item.key.toNat ++ copiedBytes item := by
  rw [logRecordBytes, log_entries writeSet ok]
  exact ⟨_, rfl⟩

theorem log_record_length (cfg : Config) (coro : CoroId) (oldWord : Nat) (writeSet : List Item)
    (ok : ∀ item ∈ writeSet, ObjectOk item.obj) :
    (logRecordBytes cfg coro oldWord writeSet).length =
      8 + (writeSet.map fun item => 8 + hotsObjSize item.obj.valSize).sum := by
  obtain ⟨identifiers, shape⟩ := log_record_shape cfg coro oldWord writeSet ok
  rw [shape, length_append, length_append, le_bytes_length, le_bytes_length, length_flatMap]
  congr 2
  apply map_congr_left
  intro item member
  rw [length_append, le_bytes_length, copied_bytes_length (ok item member)]

/-- The record that a log machine has stored reads back as the write set exactly
if every item's bytes from `&item.obj` on are those of its object. -/
theorem log_record_decodes_iff (state : State (List UInt8)) (valid : cfg.Valid coro)
    (machines : cfg.mappings.numMachines ≤ hotsMaxMachines) (oldWord : Nat) (writeSet : List Item)
    (ok : ∀ item ∈ writeSet, ObjectOk item.obj) (few : writeSet.length ≤ rpcMaxMsgCoro)
    (index machine wrkrLid : Nat) :
    let record := logRecordBytes cfg coro oldWord writeSet
    let stored := (logState cfg state coro index machine wrkrLid record).loggers machine wrkrLid
      (recordIdx cfg coro)
    record.length = 8 + (writeSet.map fun item => 8 + hotsObjSize item.obj.valSize).sum ∧
      (readRecord stored = writeSet.map loggedEntry ↔
        ∀ item ∈ writeSet, copiedBytes item = objectBytes item.obj) := by
  intro record stored
  refine ⟨log_record_length cfg coro oldWord writeSet ok, ?_⟩
  obtain ⟨identifiers, shape⟩ := log_record_shape cfg coro oldWord writeSet ok
  have slot : recordSlot cfg record = recordIdx cfg coro := record_slot_own valid machines oldWord writeSet
  have written : stored = writeBytes (state.loggers machine wrkrLid (recordIdx cfg coro)) 0 record := by
    simp only [stored, logState, loggers_set_tx, State.setLogger, Function.update_self,
      saveLogRecord, slot]
  have whole : Stored stored 0 record := by
    rw [written]
    exact stored_write _ 0 record
  rw [show record = _ from shape, stored_append, stored_append] at whole
  obtain ⟨⟨_, keys⟩, entries⟩ := whole
  simp only [length_append, le_bytes_length, Nat.zero_add, Nat.reduceAdd] at keys entries
  have numKeys : leValue (readBytes stored 4 4) = writeSet.length := by
    rw [Stored, le_bytes_length] at keys
    simp only [rpcMaxMsgCoro] at few
    rw [keys, le_value_bytes, Nat.mod_eq_of_lt (by omega)]
  rw [readRecord, numKeys]
  exact read_entries_iff writeSet ok 8 entries

def byteSwarm : State (List UInt8) := newSwarm 8 1 0 []

/-- An item at whose pointer member the bytes look like its object. -/
def lookalike : Item := newItem twoMachines 20 5 8 ⟨8, 1, leBytes 8 5 ++ replicate 32 0⟩ .update

theorem log_record_decodes_iff_lookalike :
    copiedBytes lookalike = objectBytes lookalike.obj ∧
      readRecord ((logState twoMachines byteSwarm ⟨0, 1⟩ 0 1 0
        (logRecordBytes twoMachines ⟨0, 1⟩ 0 [lookalike])).loggers 1 0
          (recordIdx twoMachines ⟨0, 1⟩)) = [loggedEntry lookalike] := by
  have same : copiedBytes lookalike = objectBytes lookalike.obj := by decide
  have ok : ∀ item ∈ [lookalike], ObjectOk item.obj := by
    intro item member
    rw [mem_singleton.mp member]
    exact ⟨by decide, by decide⟩
  refine ⟨same, ?_⟩
  refine (log_record_decodes_iff byteSwarm (by decide) (by decide) 0 [lookalike] ok
    (by decide) 0 1 0).2.mpr ?_
  intro item member
  rw [mem_singleton.mp member]
  exact same

def updated : Item := newItem twoMachines 20 5 4096 ⟨8, 0, replicate 40 7⟩ .update

/-- The value size that is read back is the address of the object. -/
theorem logged_pointer_not_object :
    ObjectOk updated.obj ∧
      readRecord ((logState twoMachines byteSwarm ⟨0, 1⟩ 0 1 0
        (logRecordBytes twoMachines ⟨0, 1⟩ 0 [updated])).loggers 1 0
          (recordIdx twoMachines ⟨0, 1⟩)) ≠ [loggedEntry updated] := by
  refine ⟨⟨by decide, by decide⟩, ?_⟩
  intro same
  have size := congrArg (fun entries => entries.map LogEntry.valSize) same
  exact absurd size (by decide +kernel)

end Record

end Fasst.TxLogRecord

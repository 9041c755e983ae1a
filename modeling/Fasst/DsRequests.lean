import Fasst.BitFields
import Fasst.RpcDefs

/-!
# Datastore requests in a message buffer

`ds_generic_get_req_t` is a prefix of `ds_generic_put_req_t`: four bytes that are
never written, the caller id, a word of three bit fields (type, value size, key
hash) and the key; the value follows. The forging functions write to the cursor of
the coalesced message and return the length that `freeze` adds to it.

The object of a PUT request is given by the memory from its member `val` on, since
the copy is longer than the value.
-/

namespace Fasst.DsRequests

open Fasst.BitFields Fasst.Bytes Fasst.RpcDefs Fasst.TxModel

set_option autoImplicit false

/-- The enumeration `ds_reqtype_t`. -/
def reqtypeCode {V : Type} : DsReqtype V → Nat
  | .getRdonly => 0
  | .getForUpd => 1
  | .lockForIns => 2
  | .del => 3
  | .unlock => 4
  | .put _ => 5

/-- The members that both kinds of request have, with the bit fields as one word. -/
structure Parts where
  callerId : Nat
  word : Nat
  key : Nat

section

variable (buffer : Buffer) (reqBuf : Nat)

def parts : Parts where
  callerId := leValue (readBytes buffer (reqBuf + 4) 4)
  word := leValue (readBytes buffer (reqBuf + 8) 8)
  key := leValue (readBytes buffer (reqBuf + 16) 8)

def setCallerId (value : Nat) : Buffer := writeBytes buffer (reqBuf + 4) (leBytes 4 value)

def setWordField (shift width value : Nat) : Buffer :=
  writeBytes buffer (reqBuf + 8) (leBytes 8 (setField (parts buffer reqBuf).word shift width value))

def setReqType (value : Nat) : Buffer := setWordField buffer reqBuf 0 4 value

def setValSize (value : Nat) : Buffer := setWordField buffer reqBuf 4 12 value

def setKeyhash (value : Nat) : Buffer := setWordField buffer reqBuf 16 48 value

def setKey (value : Nat) : Buffer := writeBytes buffer (reqBuf + 16) (leBytes 8 value)

def setVal (bytes : List UInt8) : Buffer := writeBytes buffer (reqBuf + sizeofGenericGetReq) bytes

def forgeGenericGetReq (callerId key keyhash reqType : Nat) : Buffer × Nat :=
  let buffer := setCallerId buffer reqBuf callerId
  let buffer := setReqType buffer reqBuf reqType
  let buffer := setKeyhash buffer reqBuf keyhash
  let buffer := setKey buffer reqBuf key
  (buffer, sizeofGenericGetReq)

def forgeGenericPutReq (callerId key keyhash : Nat) (obj : HotsObj Buffer) (reqType : Nat) :
    Buffer × Nat :=
  let reqLen := dsPutReqSize obj.valSize
  let buffer := setCallerId buffer reqBuf callerId
  let buffer := setReqType buffer reqBuf reqType
  let buffer := setValSize buffer reqBuf obj.valSize
  let buffer := setKey buffer reqBuf key
  let buffer := setKeyhash buffer reqBuf keyhash
  let objSize := hotsObjSize obj.valSize
  let buffer := setVal buffer reqBuf (readBytes obj.val 0 objSize)
  (buffer, reqLen)

/-- The function that a transaction calls for a request of this type. -/
def forge (callerId key keyhash : Nat) (reqType : DsReqtype (HotsObj Buffer)) : Buffer × Nat :=
  match reqType with
  | .put obj => forgeGenericPutReq buffer reqBuf callerId key keyhash obj (reqtypeCode reqType)
  | _ => forgeGenericGetReq buffer reqBuf callerId key keyhash (reqtypeCode reqType)

/-- What `ds_fixedtable_rpc_handler` takes from a request. -/
structure Extracted where
  callerId : Nat
  key : Nat
  keyhash : Nat
  reqType : DsReqtype (Nat × List UInt8)

/-- The type and, for `put`, the members of the PUT request; the handler exits for
another type. -/
def extractType : Option (DsReqtype (Nat × List UInt8)) :=
  match getField (parts buffer reqBuf).word 0 4 with
  | 0 => some .getRdonly
  | 1 => some .getForUpd
  | 2 => some .lockForIns
  | 3 => some .del
  | 4 => some .unlock
  | 5 =>
      let valSize := getField (parts buffer reqBuf).word 4 12
      some (.put (valSize, readBytes buffer (reqBuf + sizeofGenericGetReq) valSize))
  | _ => none

def extract : Option Extracted :=
  (extractType buffer reqBuf).map fun reqType =>
    { callerId := (parts buffer reqBuf).callerId
      key := (parts buffer reqBuf).key
      keyhash := getField (parts buffer reqBuf).word 16 48
      reqType := reqType }

end

def availableBytes (mbuf : Mbuf) : Nat := mbuf.allocLen - mbuf.length

/-- The end of the copy of an object that lies behind its value. -/
def spill : DsReqtype (HotsObj Buffer) → List UInt8
  | .put obj => readBytes obj.val obj.valSize (hotsObjSize obj.valSize - obj.valSize)
  | _ => []

def sentType : DsReqtype (HotsObj Buffer) → DsReqtype (Nat × List UInt8)
  | .getRdonly => .getRdonly
  | .getForUpd => .getForUpd
  | .lockForIns => .lockForIns
  | .del => .del
  | .unlock => .unlock
  | .put obj => .put (obj.valSize, readBytes obj.val 0 obj.valSize)

/-- The objects that `ds_forge_generic_put_req` expects. -/
def TypeOk : DsReqtype (HotsObj Buffer) → Prop
  | .put obj => 0 < obj.valSize ∧ obj.valSize % 8 = 0 ∧ obj.valSize ≤ hotsMaxValue
  | _ => True

section

variable {buffer : Buffer} {reqBuf : Nat}

theorem read_member_apart {first length offset width : Nat} (value : Nat)
    (apart : first + length ≤ offset ∨ offset + width ≤ first) :
    readBytes (writeBytes buffer (reqBuf + offset) (leBytes width value)) (reqBuf + first) length =
      readBytes buffer (reqBuf + first) length := by
  apply read_write_apart
  rw [le_bytes_length]
  omega

theorem parts_set_caller_id (value : Nat) :
    parts (setCallerId buffer reqBuf value) reqBuf =
      { parts buffer reqBuf with callerId := value % 2 ^ 32 } := by
  simp only [parts, setCallerId, Parts.mk.injEq]
  refine ⟨le_value_write_same _ _ 4 value, ?_, ?_⟩
  · rw [read_member_apart _ (by decide)]
  · rw [read_member_apart _ (by decide)]

theorem parts_set_key (value : Nat) :
    parts (setKey buffer reqBuf value) reqBuf =
      { parts buffer reqBuf with key := value % 2 ^ 64 } := by
  simp only [parts, setKey, Parts.mk.injEq]
  refine ⟨?_, ?_, le_value_write_same _ _ 8 value⟩
  · rw [read_member_apart _ (by decide)]
  · rw [read_member_apart _ (by decide)]

theorem word_lt (buffer : Buffer) (reqBuf : Nat) : (parts buffer reqBuf).word < 2 ^ 64 := by
  have bound := le_value_lt (readBytes buffer (reqBuf + 8) 8)
  rwa [read_bytes_length] at bound

theorem parts_set_word_field {shift width : Nat} (value : Nat) (fits : shift + width ≤ 64) :
    parts (setWordField buffer reqBuf shift width value) reqBuf =
      { parts buffer reqBuf with
        word := setField (parts buffer reqBuf).word shift width value } := by
  have small : setField (parts buffer reqBuf).word shift width value < 2 ^ 64 :=
    set_field_lt (word_lt buffer reqBuf) fits
  have word := le_value_write_same buffer (reqBuf + 8) 8
    (setField (parts buffer reqBuf).word shift width value)
  rw [show 256 ^ 8 = 2 ^ 64 by norm_num, Nat.mod_eq_of_lt small] at word
  simp only [parts, setWordField, Parts.mk.injEq] at word ⊢
  refine ⟨?_, word, ?_⟩
  · rw [read_member_apart _ (by decide)]
  · rw [read_member_apart _ (by decide)]

theorem parts_set_val (bytes : List UInt8) :
    parts (setVal buffer reqBuf bytes) reqBuf = parts buffer reqBuf := by
  simp only [parts, setVal, sizeofGenericGetReq, Parts.mk.injEq]
  refine ⟨?_, ?_, ?_⟩
  · rw [read_write_apart _ _ _ _ _ (by omega)]
  · rw [read_write_apart _ _ _ _ _ (by omega)]
  · rw [read_write_apart _ _ _ _ _ (by omega)]

theorem parts_forge_get (buffer : Buffer) (reqBuf callerId key keyhash reqType : Nat) :
    parts (forgeGenericGetReq buffer reqBuf callerId key keyhash reqType).1 reqBuf =
      ⟨callerId % 2 ^ 32,
        setField (setField (parts buffer reqBuf).word 0 4 reqType) 16 48 keyhash,
        key % 2 ^ 64⟩ := by
  simp only [forgeGenericGetReq, setReqType, setKeyhash]
  rw [parts_set_key, parts_set_word_field _ (by decide), parts_set_word_field _ (by decide),
    parts_set_caller_id]

theorem parts_forge_put (buffer : Buffer) (reqBuf callerId key keyhash reqType : Nat) (obj : HotsObj Buffer) :
    parts (forgeGenericPutReq buffer reqBuf callerId key keyhash obj reqType).1 reqBuf =
      ⟨callerId % 2 ^ 32,
        setField (setField (setField (parts buffer reqBuf).word 0 4 reqType) 4 12 obj.valSize)
          16 48 keyhash,
        key % 2 ^ 64⟩ := by
  simp only [forgeGenericPutReq, setReqType, setKeyhash, setValSize]
  rw [parts_set_val, parts_set_word_field _ (by decide), parts_set_key,
    parts_set_word_field _ (by decide), parts_set_word_field _ (by decide), parts_set_caller_id]

theorem put_size (valSize : Nat) : dsPutReqSize valSize = sizeofGenericGetReq + valSize := by
  rw [dsPutReqSize, sizeofGenericPutReq, Nat.add_sub_cancel]

/-- The copy: the value, and the bytes behind it. -/
theorem copied_object (obj : HotsObj Buffer) :
    readBytes obj.val 0 (hotsObjSize obj.valSize) =
      readBytes obj.val 0 obj.valSize ++ spill (.put obj) := by
  have split : hotsObjSize obj.valSize = obj.valSize + 16 := Nat.add_comm 16 obj.valSize
  rw [spill, split, read_bytes_add, Nat.zero_add, Nat.add_sub_cancel_left]

theorem value_forge_put (buffer : Buffer) (reqBuf callerId key keyhash reqType : Nat) (obj : HotsObj Buffer) :
    Stored (forgeGenericPutReq buffer reqBuf callerId key keyhash obj reqType).1
        (reqBuf + sizeofGenericGetReq) (readBytes obj.val 0 obj.valSize) ∧
      Stored (forgeGenericPutReq buffer reqBuf callerId key keyhash obj reqType).1
        (reqBuf + dsPutReqSize obj.valSize) (spill (.put obj)) := by
  have stored : Stored (forgeGenericPutReq buffer reqBuf callerId key keyhash obj reqType).1
      (reqBuf + sizeofGenericGetReq) (readBytes obj.val 0 (hotsObjSize obj.valSize)) :=
    stored_write _ _ _
  rw [copied_object, stored_append, read_bytes_length, Nat.add_assoc, ← put_size] at stored
  exact stored

theorem member_changes {before : Buffer} {offset width value length : Nat}
    (earlier : ChangedWithin before buffer reqBuf (reqBuf + length))
    (inside : offset + width ≤ length) :
    ChangedWithin before (writeBytes buffer (reqBuf + offset) (leBytes width value)) reqBuf
      (reqBuf + length) := by
  apply changed_within_write earlier
  · omega
  · rw [le_bytes_length]
    omega

theorem forge_get_changes (callerId key keyhash reqType : Nat) :
    ChangedWithin buffer (forgeGenericGetReq buffer reqBuf callerId key keyhash reqType).1 reqBuf
      (reqBuf + sizeofGenericGetReq) := by
  apply member_changes
  apply member_changes
  apply member_changes
  apply member_changes
  · exact changed_within_refl buffer _ _
  all_goals decide

theorem forge_put_changes (callerId key keyhash reqType : Nat) (obj : HotsObj Buffer) :
    ChangedWithin buffer
      (forgeGenericPutReq buffer reqBuf callerId key keyhash obj reqType).1 reqBuf
      (reqBuf + (sizeofGenericGetReq + hotsObjSize obj.valSize)) := by
  apply changed_within_write
  · apply member_changes
    apply member_changes
    apply member_changes
    apply member_changes
    apply member_changes
    · exact changed_within_refl buffer _ _
    all_goals exact Nat.le_trans (by decide) (Nat.le_add_right sizeofGenericGetReq _)
  · exact Nat.le_add_right reqBuf _
  · rw [read_bytes_length, Nat.add_assoc]

theorem forge_get_writes (callerId key keyhash reqType : Nat) :
    ∃ payload, payload.length = sizeofGenericGetReq ∧
      (forgeGenericGetReq buffer reqBuf callerId key keyhash reqType).1 =
        writeBytes buffer reqBuf (payload ++ []) := by
  apply write_append_of_changed_within
  · exact forge_get_changes callerId key keyhash reqType
  · rfl

theorem forge_put_writes (callerId key keyhash reqType : Nat) (obj : HotsObj Buffer) :
    ∃ payload, payload.length = dsPutReqSize obj.valSize ∧
      (forgeGenericPutReq buffer reqBuf callerId key keyhash obj reqType).1 =
        writeBytes buffer reqBuf (payload ++ spill (.put obj)) := by
  have split := congrArg List.length (copied_object obj)
  rw [List.length_append, read_bytes_length, read_bytes_length] at split
  apply write_append_of_changed_within
  · rw [put_size, Nat.add_assoc, ← split]
    exact forge_put_changes callerId key keyhash reqType obj
  · exact (value_forge_put buffer reqBuf callerId key keyhash reqType obj).2

theorem forge_length (buffer : Buffer) (reqBuf callerId key keyhash : Nat)
    (reqType : DsReqtype (HotsObj Buffer)) :
    sizeofGenericGetReq ≤ (forge buffer reqBuf callerId key keyhash reqType).2 := by
  cases reqType with
  | put obj =>
      have size : (forge buffer reqBuf callerId key keyhash (.put obj)).2 =
          sizeofGenericGetReq + obj.valSize := put_size obj.valSize
      rw [size]
      exact Nat.le_add_right sizeofGenericGetReq obj.valSize
  | _ => exact Nat.le_refl sizeofGenericGetReq

/-- Forging a request is a write of the user: the frozen bytes and the spill. -/
theorem forge_writes (buffer : Buffer) (reqBuf callerId key keyhash : Nat) (reqType : DsReqtype (HotsObj Buffer)) :
    ∃ payload, payload.length = (forge buffer reqBuf callerId key keyhash reqType).2 ∧
      (forge buffer reqBuf callerId key keyhash reqType).1 =
        writeBytes buffer reqBuf (payload ++ spill reqType) := by
  cases reqType with
  | put obj => exact forge_put_writes callerId key keyhash 5 obj
  | _ => exact forge_get_writes callerId key keyhash _

theorem extract_of_fields {callerId key keyhash : Nat} (callerFits : callerId < 2 ^ 32)
    (keyFits : key < 2 ^ 64) (hashFits : keyhash < 2 ^ 48)
    {reqType : DsReqtype (Nat × List UInt8)} {word : Nat}
    (members : parts buffer reqBuf =
      ⟨callerId % 2 ^ 32, setField word 16 48 keyhash, key % 2 ^ 64⟩)
    (typed : extractType buffer reqBuf = some reqType) :
    extract buffer reqBuf = some ⟨callerId, key, keyhash, reqType⟩ := by
  rw [extract, typed, members, Option.map_some, get_set_same, Nat.mod_eq_of_lt callerFits,
    Nat.mod_eq_of_lt keyFits, Nat.mod_eq_of_lt hashFits]

/-- The type is in the lowest bits of the word, below the other fields. -/
theorem extract_type_get {reqType : DsReqtype (HotsObj Buffer)}
    (typed : getField (parts buffer reqBuf).word 0 4 = reqtypeCode reqType)
    (get : ∀ obj, reqType ≠ .put obj) :
    extractType buffer reqBuf = some (sentType reqType) := by
  unfold extractType
  rw [typed]
  cases reqType with
  | put obj => exact absurd rfl (get obj)
  | _ => rfl

theorem extract_type_put {obj : HotsObj Buffer}
    (typed : getField (parts buffer reqBuf).word 0 4 = 5)
    (sized : getField (parts buffer reqBuf).word 4 12 = obj.valSize)
    (value : Stored buffer (reqBuf + sizeofGenericGetReq) (readBytes obj.val 0 obj.valSize)) :
    extractType buffer reqBuf = some (sentType (.put obj)) := by
  rw [Stored, read_bytes_length] at value
  simp only [extractType, typed, sized, value, sentType]

theorem reqtype_code_lt {V : Type} (reqType : DsReqtype V) : reqtypeCode reqType < 2 ^ 4 := by
  cases reqType with
  | _ => exact Nat.lt_of_sub_eq_succ rfl

theorem forge_get_extract {callerId key keyhash : Nat} {reqType : DsReqtype (HotsObj Buffer)}
    (callerFits : callerId < 2 ^ 32) (keyFits : key < 2 ^ 64) (hashFits : keyhash < 2 ^ 48)
    (get : ∀ obj, reqType ≠ .put obj) :
    extract (forgeGenericGetReq buffer reqBuf callerId key keyhash (reqtypeCode reqType)).1
      reqBuf = some ⟨callerId, key, keyhash, sentType reqType⟩ := by
  have members := parts_forge_get buffer reqBuf callerId key keyhash (reqtypeCode reqType)
  have small := reqtype_code_lt reqType
  apply extract_of_fields callerFits keyFits hashFits members
  apply extract_type_get _ get
  rw [members, get_set_apart (.inl (by decide)), get_set_same, Nat.mod_eq_of_lt small]

theorem forge_put_extract {callerId key keyhash : Nat} {obj : HotsObj Buffer}
    (callerFits : callerId < 2 ^ 32) (keyFits : key < 2 ^ 64) (hashFits : keyhash < 2 ^ 48)
    (fits : obj.valSize ≤ hotsMaxValue) :
    extract (forgeGenericPutReq buffer reqBuf callerId key keyhash obj 5).1 reqBuf =
      some ⟨callerId, key, keyhash, sentType (.put obj)⟩ := by
  have members := parts_forge_put buffer reqBuf callerId key keyhash 5 obj
  have small : obj.valSize < 2 ^ 12 := Nat.lt_of_le_of_lt fits (by decide)
  apply extract_of_fields callerFits keyFits hashFits members
  apply extract_type_put
  · rw [members, get_set_apart (.inl (by decide)), get_set_apart (.inl (by decide)), get_set_same,
      Nat.mod_eq_of_lt (by decide)]
  · rw [members, get_set_apart (.inl (by decide)), get_set_same, Nat.mod_eq_of_lt small]
  · exact (value_forge_put buffer reqBuf callerId key keyhash 5 obj).1

theorem forge_extract {callerId key keyhash : Nat} {reqType : DsReqtype (HotsObj Buffer)}
    (callerFits : callerId < 2 ^ 32) (keyFits : key < 2 ^ 64) (hashFits : keyhash < 2 ^ 48)
    (ok : TypeOk reqType) :
    extract (forge buffer reqBuf callerId key keyhash reqType).1 reqBuf =
      some ⟨callerId, key, keyhash, sentType reqType⟩ := by
  cases reqType with
  | put obj => exact forge_put_extract callerFits keyFits hashFits ok.2.2
  | _ => exact forge_get_extract callerFits keyFits hashFits (by simp)

end

/-- A request that is forged at the cursor of a message is decoded to what was
forged. The bytes that change end with the returned length, except for the bytes
that a PUT request copies from behind the value. -/
theorem forged_request_decodes (mbuf : Mbuf) (callerId : UInt32) (key : UInt64) (keyhash : Nat)
    (reqType : DsReqtype (HotsObj Buffer)) (hashFits : keyhash < 2 ^ 48) (ok : TypeOk reqType) :
    let forged := forge mbuf.buf mbuf.curOff callerId.toNat key.toNat keyhash reqType
    extract forged.1 mbuf.curOff =
        some ⟨callerId.toNat, key.toNat, keyhash, sentType reqType⟩ ∧
      (ChangedWithin mbuf.buf forged.1 mbuf.curOff (mbuf.curOff + forged.2) ↔
        Stored mbuf.buf (mbuf.curOff + forged.2) (spill reqType)) ∧
      ChangedWithin mbuf.buf forged.1 mbuf.curOff
        (mbuf.curOff + forged.2 + (spill reqType).length) ∧
      (forged.2 + (spill reqType).length ≤ availableBytes mbuf →
        ChangedWithin mbuf.buf forged.1 0 mbuf.allocLen) := by
  dsimp only
  rcases forge_writes mbuf.buf mbuf.curOff callerId.toNat key.toNat keyhash reqType with
    ⟨payload, length, written⟩
  have within : ∀ first last, first ≤ mbuf.curOff →
      mbuf.curOff + (payload ++ spill reqType).length ≤ last →
      ChangedWithin mbuf.buf (writeBytes mbuf.buf mbuf.curOff (payload ++ spill reqType))
        first last :=
    fun first last lower upper =>
      changed_within_write (changed_within_refl mbuf.buf first last) lower upper
  refine ⟨forge_extract callerId.toNat_lt key.toNat_lt hashFits ok, ?_, ?_, ?_⟩
  · rw [written, ← length]
    exact changed_within_first_iff mbuf.buf mbuf.curOff payload (spill reqType)
  · rw [written, ← length]
    apply within _ _ (Nat.le_refl _)
    rw [List.length_append, Nat.add_assoc]
  · intro room
    rw [written]
    apply within _ _ (Nat.zero_le _)
    rw [List.length_append, length]
    have positive := forge_length mbuf.buf mbuf.curOff callerId.toNat key.toNat keyhash reqType
    simp only [availableBytes, Mbuf.length, sizeofGenericGetReq] at room positive
    omega

/-- A request for the update of eight bytes, in a message with room for more. -/
theorem forged_request_decodes_eight_bytes :
    extract (forge (fun _ => 0) 4 7 9 11 (.put ⟨8, 0, fun _ => 255⟩)).1 4 =
      some ⟨7, 9, 11, .put (8, [255, 255, 255, 255, 255, 255, 255, 255])⟩ :=
  (forged_request_decodes ⟨fun _ => 0, 128, 4⟩ 7 9 11 (.put ⟨8, 0, fun _ => 255⟩) (by decide)
    ⟨by decide, by decide, by decide⟩).1

/-- The message has room for the returned length, and the byte behind it changes. -/
theorem put_request_spills :
    let mbuf : Mbuf := ⟨fun _ => 0, 32, 0⟩
    let forged := forge mbuf.buf mbuf.curOff 7 9 11 (.put ⟨8, 0, fun _ => 255⟩)
    forged.2 ≤ availableBytes mbuf ∧ mbuf.curOff + forged.2 ≤ 32 ∧ mbuf.allocLen ≤ 32 ∧
      mbuf.buf 32 = 0 ∧ forged.1 32 = 255 := by
  decide +kernel

end Fasst.DsRequests

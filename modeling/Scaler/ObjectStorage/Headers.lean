import Scaler.ObjectStorage.Link

/-! The headers as Cap'n Proto lays them out: one segment of nine words, the root struct with
three words of data and the object id it points to. What is written is read back. -/

namespace Scaler.ObjectStorage

open Collections

def words (ws : List UInt64) : ObjectPayload := ws.flatMap fun word => littleEndian word.toNat

theorem length_words (ws : List UInt64) : (words ws).length = 8 * ws.length := by
  induction ws with
  | nil => rfl
  | cons word ws ih =>
    have hcons : words (word :: ws) = littleEndian word.toNat ++ words ws := rfl
    rw [hcons, List.length_append, length_littleEndian, ih, List.length_cons]
    omega

theorem take_words (ws : List UInt64) (k : Nat) : (words ws).take (8 * k) = words (ws.take k) := by
  induction ws generalizing k with
  | nil => simp [words]
  | cons word ws ih =>
    cases k with
    | zero => rfl
    | succ k =>
      have hk : 8 * (k + 1) = (littleEndian word.toNat).length + 8 * k := by
        rw [length_littleEndian]
        omega
      have hcons : words (word :: ws) = littleEndian word.toNat ++ words ws := rfl
      rw [hcons, hk, List.take_length_add_append, ih]
      rfl

theorem drop_words (ws : List UInt64) (k : Nat) : (words ws).drop (8 * k) = words (ws.drop k) := by
  induction ws generalizing k with
  | nil => simp [words]
  | cons word ws ih =>
    cases k with
    | zero => rfl
    | succ k =>
      have hk : 8 * (k + 1) = (littleEndian word.toNat).length + 8 * k := by
        rw [length_littleEndian]
        omega
      have hcons : words (word :: ws) = littleEndian word.toNat ++ words ws := rfl
      rw [hcons, hk, List.drop_length_add_append, ih]
      rfl

theorem foldr_word (bytes : List UInt8) :
    bytes.foldr (fun byte n => n * 256 + byte.toUInt64) 0 = UInt64.ofNat (ofLittleEndian bytes) := by
  induction bytes with
  | nil => rfl
  | cons byte bytes ih =>
    have hcons : ofLittleEndian (byte :: bytes) = ofLittleEndian bytes * 256 + byte.toNat := rfl
    rw [List.foldr_cons, ih, hcons, UInt64.ofNat_add, UInt64.ofNat_mul]
    congr 1
    exact UInt64.toNat_inj.mp (by simp)

theorem wordAt_words {ws : List UInt64} {k : Nat} {word : UInt64} (h : ws[k]? = some word) :
    wordAt (words ws) (8 * k) = word := by
  obtain ⟨hk, hw⟩ := List.getElem?_eq_some_iff.mp h
  unfold wordAt
  rw [drop_words, show (8 : Nat) = 8 * 1 from rfl, take_words, List.drop_eq_getElem_cons hk, hw,
    List.take_succ_cons, List.take_zero]
  have hone : words [word] = littleEndian word.toNat := List.append_nil _
  rw [hone, foldr_word, ofLittleEndian_littleEndian word.toNat_lt, UInt64.ofNat_toNat]

/-- The words of a header: the segment table, the two pointers and the data between them. -/
def headerWords (payloadLength id type : UInt64) (objectID : ObjectID) : List UInt64 :=
  [0x900000000, 0x1000300000000, payloadLength, id, type, 0x400000000, objectID.field0,
    objectID.field1, objectID.field2, objectID.field3]

def ObjectID.toBuffer (id : ObjectID) : ObjectPayload :=
  words [0x500000000, 0x400000000, id.field0, id.field1, id.field2, id.field3]

theorem ObjectID.fromBuffer_toBuffer (id : ObjectID) : ObjectID.fromBuffer id.toBuffer = some id := by
  have hlength : id.toBuffer.length = capnpObjectIDSize := length_words _
  have hstart : id.toBuffer.take 16 = [0, 0, 0, 0, 5, 0, 0, 0, 0, 0, 0, 0, 4, 0, 0, 0] :=
    (take_words _ 2).trans (show words [0x500000000, 0x400000000] = _ by decide)
  rw [ObjectID.fromBuffer, if_pos ⟨hlength, hstart⟩]
  congr 2
  · exact wordAt_words (k := 2) rfl
  · exact wordAt_words (k := 3) rfl
  · exact wordAt_words (k := 4) rfl
  · exact wordAt_words (k := 5) rfl

theorem ObjectRequestHeader.toBuffer_eq (h : ObjectRequestHeader) :
    h.toBuffer = words (headerWords h.payloadLength h.requestID h.requestType.value.toUInt64 h.objectID) := by
  have hstart : littleEndian (0x900000000 : UInt64).toNat ++ littleEndian (0x1000300000000 : UInt64).toNat =
      [0, 0, 0, 0, 9, 0, 0, 0, 0, 0, 0, 0, 3, 0, 1, 0] := by decide
  have hpointer : littleEndian (0x400000000 : UInt64).toNat = [0, 0, 0, 0, 4, 0, 0, 0] := by decide
  have htype : h.requestType.value.toUInt64.toNat = h.requestType.value.toNat := UInt16.toNat_toUInt64 _
  simp only [ObjectRequestHeader.toBuffer, words, headerWords, List.flatMap_cons, List.flatMap_nil,
    List.append_nil, htype]
  rw [← hstart, ← hpointer]
  simp only [List.append_assoc]

/-- What either end checks of a header before it reads the words. -/
theorem headerWords_shape (payloadLength id type : UInt64) (objectID : ObjectID) :
    (words (headerWords payloadLength id type objectID)).length = capnpHeaderSize ∧
      (words (headerWords payloadLength id type objectID)).take 16 =
        [0, 0, 0, 0, 9, 0, 0, 0, 0, 0, 0, 0, 3, 0, 1, 0] ∧
      ((words (headerWords payloadLength id type objectID)).drop 40).take 8 = [0, 0, 0, 0, 4, 0, 0, 0] := by
  refine ⟨length_words _, ?_, ?_⟩
  · exact (take_words _ 2).trans (show words [0x900000000, 0x1000300000000] = _ by decide)
  · rw [show (40 : Nat) = 8 * 5 from rfl, drop_words]
    exact (take_words _ 1).trans (show words [0x400000000] = _ by decide)

theorem ObjectRequestType.ofValue_value {type : ObjectRequestType} (h : ∀ value, type ≠ .unknown value) :
    ObjectRequestType.ofValue type.value = type := by
  cases type with
  | unknown value => exact absurd rfl (h value)
  | _ => rfl

theorem ObjectRequestHeader.fromBuffer_toBuffer (h : ObjectRequestHeader)
    (hknown : ∀ value, h.requestType ≠ .unknown value) :
    ObjectRequestHeader.fromBuffer h.toBuffer = some h := by
  have htype : h.requestType.value.toUInt64.toUInt16 = h.requestType.value := by simp
  rw [ObjectRequestHeader.toBuffer_eq, ObjectRequestHeader.fromBuffer, if_pos (headerWords_shape _ _ _ _)]
  rw [wordAt_words (k := 2) rfl, wordAt_words (k := 3) rfl, wordAt_words (k := 4) rfl,
    wordAt_words (k := 6) rfl, wordAt_words (k := 7) rfl, wordAt_words (k := 8) rfl,
    wordAt_words (k := 9) rfl, htype, ObjectRequestType.ofValue_value hknown]

def ObjectResponseType.value : ObjectResponseType → UInt16
  | .setOK => 0
  | .getOK => 1
  | .delOK => 2
  | .delNotExists => 3
  | .duplicateOK => 4
  | .infoGetTotalOK => 5

/-- A value that the enumeration does not have raises. -/
def ObjectResponseType.ofValue (value : UInt16) : Option ObjectResponseType :=
  [.setOK, .getOK, .delOK, .delNotExists, .duplicateOK, .infoGetTotalOK][value.toNat]?

def ObjectResponseHeader.toBuffer (h : ObjectResponseHeader) : ObjectPayload :=
  words (headerWords (.ofNat h.payloadLength) h.responseID h.responseType.value.toUInt64 h.objectID)

def ObjectResponseHeader.fromBuffer (buffer : ObjectPayload) : Option ObjectResponseHeader :=
  if buffer.length = capnpHeaderSize ∧
      buffer.take 16 = [0, 0, 0, 0, 9, 0, 0, 0, 0, 0, 0, 0, 3, 0, 1, 0] ∧
      (buffer.drop 40).take 8 = [0, 0, 0, 0, 4, 0, 0, 0] then
    (ObjectResponseType.ofValue (wordAt buffer 32).toUInt16).map fun type =>
      { objectID := ⟨wordAt buffer 48, wordAt buffer 56, wordAt buffer 64, wordAt buffer 72⟩
        payloadLength := (wordAt buffer 16).toNat
        responseID := wordAt buffer 24
        responseType := type }
  else none

theorem ObjectResponseHeader.fromBuffer_toBuffer (h : ObjectResponseHeader)
    (hlength : h.payloadLength < 2 ^ 64) : ObjectResponseHeader.fromBuffer h.toBuffer = some h := by
  have htype : h.responseType.value.toUInt64.toUInt16 = h.responseType.value := by simp
  have hknown : ObjectResponseType.ofValue h.responseType.value = some h.responseType := by
    cases h.responseType <;> rfl
  rw [ObjectResponseHeader.toBuffer, ObjectResponseHeader.fromBuffer, if_pos (headerWords_shape _ _ _ _)]
  rw [wordAt_words (k := 2) rfl, wordAt_words (k := 3) rfl, wordAt_words (k := 4) rfl,
    wordAt_words (k := 6) rfl, wordAt_words (k := 7) rfl, wordAt_words (k := 8) rfl,
    wordAt_words (k := 9) rfl, htype, hknown, UInt64.toNat_ofNat_of_lt' hlength]
  rfl

def capnpWire : Wire where
  request := ObjectRequestHeader.toBuffer
  readRequest := ObjectRequestHeader.fromBuffer
  response := ObjectResponseHeader.toBuffer
  readResponse := ObjectResponseHeader.fromBuffer
  objectID := ObjectID.toBuffer
  readObjectID := ObjectID.fromBuffer
  readRequest_request := ObjectRequestHeader.fromBuffer_toBuffer
  readResponse_response := ObjectResponseHeader.fromBuffer_toBuffer
  readObjectID_objectID := ObjectID.fromBuffer_toBuffer
  length_request h := by
    rw [ObjectRequestHeader.toBuffer_eq]
    exact length_words _
  length_response _ := length_words _

end Scaler.ObjectStorage

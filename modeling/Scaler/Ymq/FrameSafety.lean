import Scaler.Ymq.WebSocketStream

/-! `tryDecodeFrame` on arbitrary bytes, with every access to the buffer checked. It decodes what
lies in the buffer, unless the announced length and the size of the header add up to 2 ^ 64 or
more: the sum wraps, the test against the size of the buffer passes and the allocation throws out
of a function that must not throw. -/

namespace Scaler.Ymq

open Collections

namespace WebSocket

/-- Why a decode does not return: an index outside the buffer, or a vector that is asked for more
than it can hold. -/
inductive DecodeFault where
  | outside (index : Nat)
  | lengthError
  deriving DecidableEq, Repr

/-- `buffer[index]`. -/
def readAt (buffer : Bytes) (index : Nat) : Except DecodeFault UInt8 :=
  match buffer[index]? with
  | some byte => .ok byte
  | none => .error (.outside index)

/-- The loop over `count` bytes of a length, in 64 bits. -/
def readLength (buffer : Bytes) : Nat → Nat → Nat → Except DecodeFault Nat
  | 0, _, payloadLen => .ok payloadLen
  | count + 1, index, payloadLen => do
    let byte ← readAt buffer index
    readLength buffer count (index + 1) ((payloadLen * 256 + byte.toNat) % 2 ^ 64)

/-- The announced length and the size of the header up to it, unless the buffer is too short. -/
def readAnnounced (buffer : Bytes) (byte1 : UInt8) : Except DecodeFault (Option (Nat × Nat)) :=
  let payloadLen := (byte1 &&& maskLength).toNat
  if payloadLen = payloadLen16Bit then
    if buffer.length < header16BitSize then .ok none
    else do
      let payloadLen ← readLength buffer extendedLen16Size baseHeaderSize 0
      .ok (some (payloadLen, header16BitSize))
  else if payloadLen = payloadLen64Bit then
    if buffer.length < header64BitSize then .ok none
    else do
      let payloadLen ← readLength buffer extendedLen64Size baseHeaderSize 0
      .ok (some (payloadLen, header64BitSize))
  else .ok (some (payloadLen, baseHeaderSize))

/-- The loop that unmasks `count` bytes of the payload from the `i`-th on. -/
def unmask (buffer : Bytes) (headerSize : Nat) : Nat → Nat → Except DecodeFault Bytes
  | 0, _ => .ok []
  | count + 1, i => do
    let byte ← readAt buffer (headerSize + i)
    let key ← readAt buffer (headerSize - maskKeySize + i % maskKeySize)
    let rest ← unmask buffer headerSize count (i + 1)
    .ok ((byte ^^^ key) :: rest)

/-- `std::copy` of the bytes between two positions of the buffer. -/
def copyRange (buffer : Bytes) (first last : Nat) : Except DecodeFault Bytes :=
  if first ≤ last ∧ last ≤ buffer.length then .ok ((buffer.take last).drop first) else .error (.outside last)

/-- `buffer.erase` of the first bytes. -/
def eraseFront (buffer : Bytes) (count : Nat) : Except DecodeFault Bytes :=
  if count ≤ buffer.length then .ok (buffer.drop count) else .error (.outside count)

/-- `tryDecodeFrame` access by access: the frame, if there is one, and the buffer it leaves. -/
def decodeFrame (buffer : Bytes) : Except DecodeFault (Option DecodedFrame × Bytes) :=
  if buffer.length < baseHeaderSize then .ok (none, buffer)
  else do
    let byte0 ← readAt buffer 0
    let byte1 ← readAt buffer 1
    let fin := byte0 &&& flagFin ≠ 0
    let opcode := byte0 &&& maskOpcode
    let masked := byte1 &&& flagMasked ≠ 0
    match ← readAnnounced buffer byte1 with
    | none => .ok (none, buffer)
    | some (payloadLen, size) =>
      let headerSize := if masked then size + maskKeySize else size
      let frameSize := (headerSize + payloadLen) % 2 ^ 64
      if buffer.length < frameSize then .ok (none, buffer)
      else if maxVectorSize < payloadLen then .error .lengthError
      else do
        let payload ← if masked then unmask buffer headerSize payloadLen 0 else copyRange buffer headerSize frameSize
        let rest ← eraseFront buffer frameSize
        .ok (some ⟨opcode, fin, payload⟩, rest)

/-- How many bytes the length takes behind the second byte. -/
def extendedSize (byte1 : UInt8) : Nat :=
  if (byte1 &&& maskLength).toNat = payloadLen16Bit then extendedLen16Size
  else if (byte1 &&& maskLength).toNat = payloadLen64Bit then extendedLen64Size
  else 0

def isMasked (byte1 : UInt8) : Bool := byte1 &&& flagMasked ≠ 0

def keySize (byte1 : UInt8) : Nat := if isMasked byte1 then maskKeySize else 0

/-- The length that the header announces. -/
def announced (byte1 : UInt8) (extended : Bytes) : Nat :=
  if extendedSize byte1 = 0 then (byte1 &&& maskLength).toNat else ofBigEndian extended

/-- A complete frame of RFC 6455, whoever built it. -/
structure RawFrame where
  byte0 : UInt8
  byte1 : UInt8
  extended : Bytes
  key : Bytes
  body : Bytes
  length_extended : extended.length = extendedSize byte1
  length_key : key.length = keySize byte1
  length_body : body.length = announced byte1 extended

namespace RawFrame

variable (f : RawFrame)

def bytes : Bytes := f.byte0 :: f.byte1 :: (f.extended ++ f.key ++ f.body)

def decoded : DecodedFrame where
  opcode := f.byte0 &&& maskOpcode
  fin := f.byte0 &&& flagFin ≠ 0
  payload := if isMasked f.byte1 then mask f.key 0 f.body else f.body

end RawFrame

/-- A `std::vector<uint8_t>`. -/
abbrev ByteVector := { bytes : Bytes // bytes.length ≤ maxVectorSize }

/-- Either more data is needed and the buffer is left alone, or the frame at its front is taken out
and nothing else; and a frame that is there is found. -/
structure DecodesSafely (buffer : Bytes) : Prop where
  outcome : decodeFrame buffer = .ok (none, buffer) ∨ ∃ f : RawFrame, f.bytes <+: buffer ∧
    decodeFrame buffer = .ok (some f.decoded, buffer.drop f.bytes.length) ∧
    (buffer.drop f.bytes.length).length < buffer.length
  complete : (∃ frame rest, decodeFrame buffer = .ok (some frame, rest)) ↔ ∃ f : RawFrame, f.bytes <+: buffer

/-- The size of the header up to the payload. -/
def headerSize (byte1 : UInt8) : Nat := baseHeaderSize + extendedSize byte1 + keySize byte1

/-- The header and the length it announces add up to 2 ^ 64 or more, and what is left of the sum is
within the buffer. -/
def Wraps (buffer : Bytes) : Prop :=
  ∃ byte0 byte1 extended rest, buffer = byte0 :: byte1 :: (extended ++ rest) ∧
    extended.length = extendedSize byte1 ∧ 2 ^ 64 ≤ headerSize byte1 + announced byte1 extended ∧
    headerSize byte1 + announced byte1 extended - 2 ^ 64 ≤ buffer.length

theorem readAt_lt {buffer : Bytes} {index : Nat} (h : index < buffer.length) :
    readAt buffer index = .ok (buffer.getD index 0) := by
  rw [readAt, List.getElem?_eq_getElem h, List.getD_eq_getElem?_getD, List.getElem?_eq_getElem h]
  rfl

theorem readLength_eq {buffer : Bytes} {count index payloadLen : Nat} (h : index + count ≤ buffer.length)
    (hfits : (payloadLen + 1) * 256 ^ count ≤ 2 ^ 64) :
    readLength buffer count index payloadLen =
      .ok (((buffer.drop index).take count).foldl (fun n byte => n * 256 + byte.toNat) payloadLen) := by
  induction count generalizing index payloadLen with
  | zero => simp [readLength]
  | succ count ih =>
    have hlt : index < buffer.length := by omega
    have hbyte := (buffer.getD index 0).toNat_lt
    have hpow : (payloadLen + 1) * 256 ^ (count + 1) = (payloadLen + 1) * 256 * 256 ^ count := by
      rw [pow_succ, Nat.mul_assoc, Nat.mul_comm (256 ^ count)]
    have hnext : (payloadLen * 256 + (buffer.getD index 0).toNat + 1) * 256 ^ count ≤ 2 ^ 64 := by
      refine Nat.le_trans (Nat.mul_le_mul_right _ ?_) (hpow ▸ hfits)
      omega
    have hsmall : payloadLen * 256 + (buffer.getD index 0).toNat < 2 ^ 64 := by
      have hone : 1 ≤ 256 ^ count := Nat.one_le_pow _ _ (by decide)
      have hle := Nat.le_trans (Nat.mul_le_mul_left _ hone) hnext
      omega
    have hdrop : (buffer.drop index).take (count + 1) = buffer.getD index 0 :: (buffer.drop (index + 1)).take count := by
      rw [List.drop_eq_getElem_cons hlt, List.take_succ_cons, List.getD_eq_getElem?_getD, List.getElem?_eq_getElem hlt]
      rfl
    rw [readLength, readAt_lt hlt]
    change readLength buffer count (index + 1) _ = _
    rw [Nat.mod_eq_of_lt hsmall, ih (by omega) hnext, hdrop, List.foldl_cons]

/-- The accesses of the length fields are inside the buffer. -/
theorem readAnnounced_eq {buffer : Bytes} : readAnnounced buffer (buffer.getD 1 0) = .ok (announcedLength buffer) := by
  unfold readAnnounced announcedLength
  dsimp only
  split
  · split
    · rfl
    · next hlong =>
      rw [readLength_eq (Nat.le_of_not_lt hlong) (by decide)]
      rfl
  · split
    · split
      · rfl
      · next hlong =>
        rw [readLength_eq (Nat.le_of_not_lt hlong) (by decide)]
        rfl
    · rfl

theorem unmask_eq {buffer : Bytes} {headerSize count i : Nat} (hkey : maskKeySize ≤ headerSize)
    (h : headerSize + i + count ≤ buffer.length) :
    unmask buffer headerSize count i =
      .ok (mask ((buffer.drop (headerSize - maskKeySize)).take maskKeySize) i
        ((buffer.drop (headerSize + i)).take count)) := by
  induction count generalizing i with
  | zero => simp [unmask, mask]
  | succ count ih =>
    have hlt : headerSize + i < buffer.length := by omega
    have hmod : i % maskKeySize < maskKeySize := Nat.mod_lt _ (by decide)
    have hklt : headerSize - maskKeySize + i % maskKeySize < buffer.length := by omega
    have hdrop : (buffer.drop (headerSize + i)).take (count + 1) =
        buffer.getD (headerSize + i) 0 :: (buffer.drop (headerSize + (i + 1))).take count := by
      rw [List.drop_eq_getElem_cons hlt, List.take_succ_cons, List.getD_eq_getElem?_getD, List.getElem?_eq_getElem hlt]
      rfl
    have hkeybyte : ((buffer.drop (headerSize - maskKeySize)).take maskKeySize).getD (i % maskKeySize) 0 =
        buffer.getD (headerSize - maskKeySize + i % maskKeySize) 0 := by
      simp only [List.getD_eq_getElem?_getD, List.getElem?_take, if_pos hmod, List.getElem?_drop]
    rw [unmask, readAt_lt hlt, readAt_lt hklt, ih (by omega), hdrop]
    have hcons : ∀ (key : Bytes) (byte : UInt8) (data : Bytes),
        mask key i (byte :: data) = (byte ^^^ key.getD (i % maskKeySize) 0) :: mask key (i + 1) data := by
      intro key byte data
      simp [mask, Nat.add_assoc, Nat.add_comm 1]
    rw [hcons, hkeybyte]
    rfl

theorem copyRange_eq {buffer : Bytes} {first count : Nat} (h : first + count ≤ buffer.length) :
    copyRange buffer first (first + count) = .ok ((buffer.drop first).take count) := by
  rw [copyRange, if_pos ⟨Nat.le_add_right _ _, h⟩, ← List.take_drop]

theorem size_of_announcedLength {buffer : Bytes} {payloadLen size : Nat}
    (h : announcedLength buffer = some (payloadLen, size)) : size ≤ header64BitSize := by
  unfold announcedLength at h
  grind [header64BitSize, header16BitSize, extendedLen64Size, extendedLen16Size, baseHeaderSize]

/-- A length that a vector can hold does not wrap the size of the frame. -/
theorem frameSize_eq {size payloadLen : Nat} (hsize : size ≤ header64BitSize + maskKeySize)
    (hvector : ¬maxVectorSize < payloadLen) : (size + payloadLen) % 2 ^ 64 = size + payloadLen := by
  unfold maxVectorSize at hvector
  have hbound : header64BitSize + maskKeySize = 14 := rfl
  exact Nat.mod_eq_of_lt (by omega)

/-- Every access is inside the buffer: the only fault is a vector that is asked for too much. -/
theorem decodeFrame_eq (buffer : Bytes) :
    decodeFrame buffer = match tryDecodeFrame buffer with
      | none => .error .lengthError
      | some none => .ok (none, buffer)
      | some (some (frame, rest)) => .ok (some frame, rest) := by
  unfold decodeFrame tryDecodeFrame
  split
  · rfl
  · next hlong =>
    have h0 : 0 < buffer.length := by unfold baseHeaderSize at hlong; omega
    have h1 : 1 < buffer.length := by unfold baseHeaderSize at hlong; omega
    rw [readAt_lt h0, readAt_lt h1]
    simp only [bind, Except.bind, readAnnounced_eq]
    cases hann : announcedLength buffer with
    | none => rfl
    | some found =>
      obtain ⟨payloadLen, size⟩ := found
      have hsize := size_of_announcedLength hann
      dsimp only
      by_cases hmasked : buffer.getD 1 0 &&& flagMasked ≠ 0
      · simp only [if_pos hmasked]
        split
        · rfl
        · split
          · rfl
          · next hframe hvector =>
            rw [frameSize_eq (by omega) hvector] at hframe ⊢
            have hin := Nat.le_of_not_lt hframe
            rw [unmask_eq (Nat.le_add_left _ _) hin, eraseFront, if_pos hin]
            rfl
      · simp only [if_neg hmasked]
        split
        · rfl
        · split
          · rfl
          · next hframe hvector =>
            rw [frameSize_eq (by omega) hvector] at hframe ⊢
            have hin := Nat.le_of_not_lt hframe
            rw [copyRange_eq hin, eraseFront, if_pos hin]

theorem announcedLength_cons (byte0 byte1 : UInt8) (tail : Bytes) :
    announcedLength (byte0 :: byte1 :: tail) =
      if tail.length < extendedSize byte1 then none
      else some (announced byte1 (tail.take (extendedSize byte1)), baseHeaderSize + extendedSize byte1) := by
  have hsize : ∀ n, (byte0 :: byte1 :: tail).length < baseHeaderSize + n ↔ tail.length < n := by
    intro n
    rw [List.length_cons, List.length_cons, baseHeaderSize]
    omega
  unfold announcedLength announced
  simp only [List.getD_cons_succ, List.getD_cons_zero, header16BitSize, header64BitSize, hsize]
  by_cases h16 : (byte1 &&& maskLength).toNat = payloadLen16Bit
  · have hext : extendedSize byte1 = extendedLen16Size := if_pos h16
    rw [if_pos h16, hext]
    rfl
  · by_cases h64 : (byte1 &&& maskLength).toNat = payloadLen64Bit
    · have hext : extendedSize byte1 = extendedLen64Size := by rw [extendedSize, if_neg h16, if_pos h64]
      rw [if_neg h16, if_pos h64, hext]
      rfl
    · have hext : extendedSize byte1 = 0 := by rw [extendedSize, if_neg h16, if_neg h64]
      rw [if_neg h16, if_neg h64, hext]
      rfl

/-- The header up to the announced length is not there yet. -/
inductive LacksHeader : Bytes → Prop
  | base {buffer : Bytes} (short : buffer.length < baseHeaderSize) : LacksHeader buffer
  | extended {byte0 byte1 : UInt8} {tail : Bytes} (short : tail.length < extendedSize byte1) :
    LacksHeader (byte0 :: byte1 :: tail)

theorem lacksHeader_or (buffer : Bytes) : LacksHeader buffer ∨ ∃ byte0 byte1 extended rest,
    buffer = byte0 :: byte1 :: (extended ++ rest) ∧ extended.length = extendedSize byte1 := by
  match buffer with
  | [] => exact .inl (.base Nat.zero_lt_two)
  | [_] => exact .inl (.base Nat.one_lt_two)
  | byte0 :: byte1 :: tail =>
    rcases Nat.lt_or_ge tail.length (extendedSize byte1) with hshort | hlong
    · exact .inl (.extended hshort)
    · refine .inr ⟨byte0, byte1, tail.take (extendedSize byte1), tail.drop (extendedSize byte1), ?_, ?_⟩
      · rw [List.take_append_drop]
      · rw [List.length_take, Nat.min_eq_left hlong]

theorem tryDecodeFrame_of_lacksHeader {buffer : Bytes} (h : LacksHeader buffer) : tryDecodeFrame buffer = some none := by
  cases h with
  | base short => exact if_pos short
  | extended short =>
    next byte0 byte1 tail =>
    have hnone : announcedLength (byte0 :: byte1 :: tail) = none := by
      rw [announcedLength_cons, if_pos short]
    unfold tryDecodeFrame
    simp [hnone]

theorem not_bytes_isPrefix {buffer : Bytes} (h : LacksHeader buffer) (f : RawFrame) : ¬f.bytes <+: buffer := by
  intro hprefix
  cases h with
  | base short =>
    have hle := hprefix.length_le
    simp only [RawFrame.bytes, List.length_cons] at hle
    unfold baseHeaderSize at short
    omega
  | extended short =>
    have hle := hprefix.length_le
    rw [RawFrame.bytes, List.cons_prefix_cons, List.cons_prefix_cons] at hprefix
    obtain ⟨-, rfl, -⟩ := hprefix
    simp only [RawFrame.bytes, List.length_cons, List.length_append, f.length_extended] at hle
    omega

theorem RawFrame.length_bytes (f : RawFrame) : f.bytes.length = headerSize f.byte1 + announced f.byte1 f.extended := by
  simp only [RawFrame.bytes, List.length_cons, List.length_append, f.length_extended, f.length_key, f.length_body, headerSize,
    baseHeaderSize]
  omega

theorem headerSize_le (byte1 : UInt8) : headerSize byte1 ≤ header64BitSize + maskKeySize := by
  have hext : extendedSize byte1 ≤ extendedLen64Size := by
    unfold extendedSize
    split_ifs <;> decide
  have hkey : keySize byte1 ≤ maskKeySize := by
    unfold keySize
    split_ifs <;> decide
  unfold headerSize header64BitSize
  omega

section Header

variable {byte0 byte1 : UInt8} {extended rest : Bytes} (hext : extended.length = extendedSize byte1)

include hext

theorem length_header : (byte0 :: byte1 :: (extended ++ rest)).length = baseHeaderSize + extendedSize byte1 + rest.length := by
  rw [List.length_cons, List.length_cons, List.length_append, hext, baseHeaderSize]
  omega

theorem announcedLength_eq : announcedLength (byte0 :: byte1 :: (extended ++ rest)) =
    some (announced byte1 extended, baseHeaderSize + extendedSize byte1) := by
  have hlong : ¬(extended ++ rest).length < extendedSize byte1 := by
    rw [List.length_append, hext]
    omega
  rw [announcedLength_cons, if_neg hlong, List.take_left' hext]

theorem announced_lt : announced byte1 extended < 2 ^ 64 := by
  unfold announced
  split
  · exact Nat.lt_trans (byte1 &&& maskLength).toNat_lt (by decide)
  · refine Nat.lt_of_lt_of_le (ofBigEndian_lt extended) ?_
    have hle : extended.length ≤ extendedLen64Size := by
      rw [hext, extendedSize]
      split_ifs <;> decide
    exact Nat.pow_le_pow_right (by decide) hle

/-- Once the header is there, the size of the frame is known. -/
theorem tryDecodeFrame_eq : tryDecodeFrame (byte0 :: byte1 :: (extended ++ rest)) =
    if baseHeaderSize + extendedSize byte1 + rest.length < (headerSize byte1 + announced byte1 extended) % 2 ^ 64 then
      some none
    else if maxVectorSize < announced byte1 extended then none
    else
      let body := (rest.drop (keySize byte1)).take (announced byte1 extended)
      some (some (⟨byte0 &&& maskOpcode, byte0 &&& flagFin ≠ 0,
        if isMasked byte1 then mask (rest.take maskKeySize) 0 body else body⟩,
        (byte0 :: byte1 :: (extended ++ rest)).drop ((headerSize byte1 + announced byte1 extended) % 2 ^ 64))) := by
  have hlong : ¬(byte0 :: byte1 :: (extended ++ rest)).length < baseHeaderSize := by
    rw [List.length_cons, List.length_cons, baseHeaderSize]
    omega
  have hdrop : ∀ n, (byte0 :: byte1 :: (extended ++ rest)).drop (baseHeaderSize + extendedSize byte1 + n) = rest.drop n := by
    intro n
    rw [← List.drop_drop, ← List.drop_drop]
    change ((extended ++ rest).drop (extendedSize byte1)).drop n = _
    rw [List.drop_left' hext]
  unfold tryDecodeFrame
  rw [if_neg hlong]
  simp only [announcedLength_eq hext, length_header hext, List.getD_cons_succ, List.getD_cons_zero]
  have hkey : (byte0 :: byte1 :: (extended ++ rest)).drop (baseHeaderSize + extendedSize byte1) = rest := hdrop 0
  by_cases hmasked : byte1 &&& flagMasked ≠ 0
  · have hisMasked : isMasked byte1 = true := decide_eq_true hmasked
    have hkeySize : keySize byte1 = maskKeySize := if_pos hisMasked
    simp only [if_pos hmasked, if_pos hisMasked, headerSize, hkeySize, hdrop, Nat.add_sub_cancel, hkey]
  · have hisMasked : ¬isMasked byte1 = true := by simpa [isMasked] using hmasked
    have hkeySize : keySize byte1 = 0 := if_neg hisMasked
    simp only [if_neg hmasked, if_neg hisMasked, headerSize, hkeySize, Nat.add_zero, hkey, List.drop_zero]

theorem bytes_isPrefix_iff {f : RawFrame} : f.bytes <+: byte0 :: byte1 :: (extended ++ rest) ↔
    f.byte0 = byte0 ∧ f.byte1 = byte1 ∧ f.extended = extended ∧ f.key ++ f.body <+: rest := by
  rw [RawFrame.bytes, List.cons_prefix_cons, List.cons_prefix_cons, List.append_assoc]
  constructor
  · rintro ⟨h0, h1, hprefix⟩
    have hlen : f.extended.length = extended.length := by rw [f.length_extended, h1, hext]
    obtain ⟨tail, htail⟩ := hprefix
    rw [List.append_assoc] at htail
    obtain ⟨hextended, hrest⟩ := List.append_inj htail hlen
    exact ⟨h0, h1, hextended, tail, hrest⟩
  · rintro ⟨h0, h1, rfl, hprefix⟩
    exact ⟨h0, h1, (List.prefix_append_right_inj _).mpr hprefix⟩

theorem not_isPrefix_of_lt (f : RawFrame)
    (h : (byte0 :: byte1 :: (extended ++ rest)).length < headerSize byte1 + announced byte1 extended) :
    ¬f.bytes <+: byte0 :: byte1 :: (extended ++ rest) := by
  intro hprefix
  obtain ⟨-, h1, hextended, -⟩ := (bytes_isPrefix_iff hext).mp hprefix
  have hle := hprefix.length_le
  rw [f.length_bytes, h1, hextended] at hle
  omega

/-- A header with as many bytes behind it as it announces is a frame. -/
theorem exists_rawFrame (h : keySize byte1 + announced byte1 extended ≤ rest.length) : ∃ f : RawFrame,
    f.byte0 = byte0 ∧ f.byte1 = byte1 ∧ f.extended = extended ∧ f.key = rest.take (keySize byte1) ∧
      f.body = (rest.drop (keySize byte1)).take (announced byte1 extended) := by
  have hkey : (rest.take (keySize byte1)).length = keySize byte1 := by
    rw [List.length_take]
    omega
  have hbody : ((rest.drop (keySize byte1)).take (announced byte1 extended)).length = announced byte1 extended := by
    rw [List.length_take, List.length_drop]
    omega
  exact ⟨⟨byte0, byte1, extended, _, _, hext, hkey, hbody⟩, rfl, rfl, rfl, rfl, rfl⟩

theorem wraps_iff : Wraps (byte0 :: byte1 :: (extended ++ rest)) ↔
    2 ^ 64 ≤ headerSize byte1 + announced byte1 extended ∧
      headerSize byte1 + announced byte1 extended - 2 ^ 64 ≤ (byte0 :: byte1 :: (extended ++ rest)).length := by
  constructor
  · rintro ⟨b0, b1, ext, tail, heq, hlen, hwrap⟩
    simp only [List.cons.injEq] at heq
    obtain ⟨rfl, rfl, heq⟩ := heq
    obtain ⟨rfl, rfl⟩ := List.append_inj heq (hext.trans hlen.symm)
    exact hwrap
  · exact fun hwrap => ⟨byte0, byte1, extended, rest, rfl, hext, hwrap⟩

end Header

theorem not_wraps {buffer : Bytes} (h : LacksHeader buffer) : ¬Wraps buffer := by
  rintro ⟨byte0, byte1, extended, rest, rfl, hlen, -⟩
  cases h with
  | base short =>
    rw [List.length_cons, List.length_cons, baseHeaderSize] at short
    omega
  | extended short =>
    rw [List.length_append, hlen] at short
    omega

theorem decodesSafely_of_none {buffer : Bytes} (h : tryDecodeFrame buffer = some none)
    (hno : ∀ f : RawFrame, ¬f.bytes <+: buffer) : DecodesSafely buffer := by
  have hdecode : decodeFrame buffer = .ok (none, buffer) := by rw [decodeFrame_eq, h]
  refine ⟨.inl hdecode, ?_, ?_⟩
  · rintro ⟨frame, rest, hframe⟩
    rw [hdecode] at hframe
    cases hframe
  · rintro ⟨f, hf⟩
    exact absurd hf (hno f)

theorem decodesSafely_of_frame {buffer : Bytes} {f : RawFrame} (hwhole : f.bytes <+: buffer)
    (h : tryDecodeFrame buffer = some (some (f.decoded, buffer.drop f.bytes.length))) : DecodesSafely buffer := by
  have hdecode : decodeFrame buffer = .ok (some f.decoded, buffer.drop f.bytes.length) := by rw [decodeFrame_eq, h]
  have hle := hwhole.length_le
  have hpos : 0 < f.bytes.length := Nat.succ_pos _
  refine ⟨.inr ⟨f, hwhole, hdecode, ?_⟩, fun _ => ⟨f, hwhole⟩, fun _ => ⟨_, _, hdecode⟩⟩
  rw [List.length_drop]
  omega

theorem not_decodesSafely {buffer : Bytes} (h : tryDecodeFrame buffer = none) : ¬DecodesSafely buffer := by
  intro hsafe
  have hdecode : decodeFrame buffer = .error .lengthError := by rw [decodeFrame_eq, h]
  rcases hsafe.outcome with hnone | ⟨f, -, hframe, -⟩
  · rw [hdecode] at hnone
    cases hnone
  · rw [hdecode] at hframe
    cases hframe

section Header

variable {byte0 byte1 : UInt8} {extended rest : Bytes} (hext : extended.length = extendedSize byte1)
  (hvector : (byte0 :: byte1 :: (extended ++ rest)).length ≤ maxVectorSize)

include hext hvector

/-- Without a wrap the whole frame is waited for, and is decoded when it is there. -/
theorem decodesSafely_of_fits (hfits : headerSize byte1 + announced byte1 extended < 2 ^ 64) :
    DecodesSafely (byte0 :: byte1 :: (extended ++ rest)) := by
  have hdecode : tryDecodeFrame (byte0 :: byte1 :: (extended ++ rest)) = _ := tryDecodeFrame_eq hext
  rw [← length_header hext, Nat.mod_eq_of_lt hfits] at hdecode
  by_cases hshort : (byte0 :: byte1 :: (extended ++ rest)).length < headerSize byte1 + announced byte1 extended
  · rw [if_pos hshort] at hdecode
    exact decodesSafely_of_none hdecode fun f => not_isPrefix_of_lt hext f hshort
  · have hframe : keySize byte1 + announced byte1 extended ≤ rest.length := by
      rw [length_header hext, headerSize] at hshort
      omega
    obtain ⟨f, h0, h1, hextended, hkey, hbody⟩ := exists_rawFrame hext hframe
    have hprefix : f.bytes <+: byte0 :: byte1 :: (extended ++ rest) := by
      refine (bytes_isPrefix_iff hext).mpr ⟨h0, h1, hextended, ?_⟩
      rw [hkey, hbody, ← List.take_add]
      exact List.take_prefix _ _
    have hdecoded : f.decoded = ⟨byte0 &&& maskOpcode, byte0 &&& flagFin ≠ 0,
        if isMasked byte1 then mask (rest.take maskKeySize) 0 ((rest.drop (keySize byte1)).take (announced byte1 extended))
        else (rest.drop (keySize byte1)).take (announced byte1 extended)⟩ := by
      rw [RawFrame.decoded, h0, h1, hkey, hbody, keySize]
      split <;> rfl
    rw [if_neg hshort, if_neg (by omega)] at hdecode
    refine decodesSafely_of_frame hprefix ?_
    rw [hdecode, hdecoded, f.length_bytes, h1, hextended]

/-- With a wrap more data is waited for, or the payload is asked for a size that no vector has. -/
theorem decodesSafely_of_wrap (hwraps : 2 ^ 64 ≤ headerSize byte1 + announced byte1 extended) :
    DecodesSafely (byte0 :: byte1 :: (extended ++ rest)) ↔
      (byte0 :: byte1 :: (extended ++ rest)).length < headerSize byte1 + announced byte1 extended - 2 ^ 64 := by
  have hlt := announced_lt hext
  have hsmall := headerSize_le byte1
  have hbound : header64BitSize + maskKeySize = 14 := rfl
  have hmod : (headerSize byte1 + announced byte1 extended) % 2 ^ 64 =
      headerSize byte1 + announced byte1 extended - 2 ^ 64 := by omega
  have hdecode : tryDecodeFrame (byte0 :: byte1 :: (extended ++ rest)) = _ := tryDecodeFrame_eq hext
  rw [← length_header hext, hmod] at hdecode
  unfold maxVectorSize at hvector
  by_cases hshort : (byte0 :: byte1 :: (extended ++ rest)).length < headerSize byte1 + announced byte1 extended - 2 ^ 64
  · rw [if_pos hshort] at hdecode
    have hsafe := decodesSafely_of_none hdecode fun f => not_isPrefix_of_lt hext f (by omega)
    exact ⟨fun _ => hshort, fun _ => hsafe⟩
  · have hhuge : maxVectorSize < announced byte1 extended := by
      unfold maxVectorSize
      omega
    rw [if_neg hshort, if_pos hhuge] at hdecode
    exact ⟨fun hsafe => absurd hsafe (not_decodesSafely hdecode), fun h => absurd h hshort⟩

end Header

/-- Every buffer is decoded safely, unless the size of the announced frame wraps. -/
theorem decodesSafely_iff (buffer : ByteVector) : DecodesSafely buffer.val ↔ ¬Wraps buffer.val := by
  obtain ⟨buffer, hvector⟩ := buffer
  rcases lacksHeader_or buffer with hlacks | ⟨byte0, byte1, extended, rest, rfl, hext⟩
  · have hsafe := decodesSafely_of_none (tryDecodeFrame_of_lacksHeader hlacks) (not_bytes_isPrefix hlacks)
    exact ⟨fun _ => not_wraps hlacks, fun _ => hsafe⟩
  · rw [wraps_iff hext]
    rcases Nat.lt_or_ge (headerSize byte1 + announced byte1 extended) (2 ^ 64) with hfits | hwraps
    · have hsafe := decodesSafely_of_fits hext hvector hfits
      exact ⟨fun _ hwrap => Nat.not_le_of_lt hfits hwrap.1, fun _ => hsafe⟩
    · rw [decodesSafely_of_wrap hext hvector hwraps, ← Nat.not_le]
      exact ⟨fun hshort hwrap => hshort hwrap.2, fun hno hle => hno ⟨hwraps, hle⟩⟩

theorem length_lt_of_tryDecodeFrame {buffer rest : Bytes} {frame : DecodedFrame}
    (h : tryDecodeFrame buffer = some (some (frame, rest))) : rest.length < buffer.length := by
  rcases lacksHeader_or buffer with hlacks | ⟨byte0, byte1, extended, tail, rfl, hext⟩
  · rw [tryDecodeFrame_of_lacksHeader hlacks] at h
    cases h
  · rw [tryDecodeFrame_eq hext] at h
    split at h
    · cases h
    split at h
    · cases h
    next hhuge =>
    have hpos : 0 < (headerSize byte1 + announced byte1 extended) % 2 ^ 64 := by
      rw [frameSize_eq (headerSize_le byte1) hhuge, headerSize, baseHeaderSize]
      omega
    obtain ⟨-, rfl⟩ := Prod.mk.inj (Option.some.inj (Option.some.inj h))
    rw [List.length_drop]
    simp only [List.length_cons]
    omega

/-- The ten bytes of an unmasked frame that announces 2 ^ 64 - 1 bytes. -/
def hugeFrame : ByteVector := ⟨[0x82, 0x7F, 0xFF, 0xFF, 0xFF, 0xFF, 0xFF, 0xFF, 0xFF, 0xFF], by decide⟩

theorem hugeFrame_terminates : decodeFrame hugeFrame.val = .error .lengthError ∧ ¬DecodesSafely hugeFrame.val := by
  have hnone : tryDecodeFrame hugeFrame.val = none := by decide
  refine ⟨?_, not_decodesSafely hnone⟩
  rw [decodeFrame_eq, hnone]

end WebSocket

namespace WebSocketStream

open WebSocket

variable (keys : Nat → MaskKey)

theorem recvBuffer_onDataFrame (s : WebSocketStream) (frame : DecodedFrame) :
    (s.onDataFrame frame).recvBuffer = s.recvBuffer := by
  unfold onDataFrame readCallback
  split_ifs <;> rfl

theorem recvLoop_of_empty (n : Nat) {s : WebSocketStream} (h : s.recvBuffer.length = 0) :
    recvLoop keys n s = some s := by
  cases n with
  | zero => rfl
  | succ n => exact if_pos (.inr (List.length_eq_zero_iff.mp h))

/-- Each round of the loop shrinks the buffer: as many rounds as there are bytes are enough. -/
theorem recvLoop_stable {n m : Nat} {s : WebSocketStream} (hn : s.recvBuffer.length ≤ n) (hm : s.recvBuffer.length ≤ m) :
    recvLoop keys n s = recvLoop keys m s := by
  induction n generalizing m s with
  | zero => rw [recvLoop_of_empty keys 0 (Nat.le_zero.mp hn), recvLoop_of_empty keys m (Nat.le_zero.mp hn)]
  | succ n ih =>
    cases m with
    | zero => rw [recvLoop_of_empty keys _ (Nat.le_zero.mp hm), recvLoop_of_empty keys 0 (Nat.le_zero.mp hm)]
    | succ m =>
      unfold recvLoop
      cases hdecode : tryDecodeFrame s.recvBuffer with
      | none => rfl
      | some found =>
        obtain _ | ⟨frame, rest⟩ := found
        · rfl
        · have hlt := length_lt_of_tryDecodeFrame hdecode
          have hrest : ∀ t : WebSocketStream, t.recvBuffer = rest → recvLoop keys n t = recvLoop keys m t :=
            fun t ht => ih (by rw [ht]; omega) (by rw [ht]; omega)
          have hpong := hrest { s with recvBuffer := rest } rfl
          dsimp only
          rw [hrest (writeControlFrame keys _ _ _) rfl, hpong, hrest _ (recvBuffer_onDataFrame _ frame)]

end WebSocketStream

end Scaler.Ymq

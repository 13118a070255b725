import Scaler.Ymq.RoundTrip
import Scaler.Ymq.WebSocketStream

/-! What one side of a `WebSocketStream` writes is what the read callback of the other side
gets, however the bytes are cut on the way and whatever control frames stand between. -/

namespace Scaler.Ymq

open Collections WebSocket

namespace WebSocket

@[simp] theorem length_mask (key : Bytes) (pos : Nat) (data : Bytes) :
    (mask key pos data).length = data.length := by
  simp [mask]

theorem mask_mask (key : Bytes) (pos : Nat) (data : Bytes) :
    mask key pos (mask key pos data) = data := by
  refine List.ext_getElem (by simp) fun i h h' => ?_
  simp only [mask, List.getD_eq_getElem?_getD, List.mapIdx_mapIdx, List.getElem_mapIdx, Function.comp_apply, UInt8.xor_assoc,
    UInt8.xor_self, UInt8.xor_zero]

theorem mask_append (key : Bytes) (pos : Nat) (a b : Bytes) :
    mask key pos (a ++ b) = mask key pos a ++ mask key (pos + a.length) b := by
  unfold mask
  rw [List.mapIdx_append]
  simp only [Nat.add_assoc, Nat.add_comm a.length]

theorem maskBuffers_eq (key : MaskKey) (pos : Nat) (buffers : List Bytes) :
    maskBuffers key pos buffers = mask key pos buffers.flatten := by
  induction buffers generalizing pos with
  | nil => rfl
  | cons buffer buffers ih => rw [maskBuffers, ih, List.flatten_cons, mask_append]

/-- A frame with the mask key it is masked with, if it is. -/
structure WireFrame where
  key : Option MaskKey
  frame : DecodedFrame

def firstByte (frame : DecodedFrame) : UInt8 := (if frame.fin then flagFin else 0) ||| frame.opcode

/-- The mask flag and what the mask adds to the header. -/
def maskFlag (key : Option MaskKey) : UInt8 := if key.isSome then flagMasked else 0

def maskBytes (key : Option MaskKey) : Bytes := (key.map Subtype.val).getD []

namespace WireFrame

def header (w : WireFrame) : Bytes :=
  firstByte w.frame :: lengthBytes (maskFlag w.key) w.frame.payload.length

def body (w : WireFrame) : Bytes :=
  match w.key with
  | none => w.frame.payload
  | some key => mask key 0 w.frame.payload

/-- The frame as RFC 6455 lays it out. -/
def encode (w : WireFrame) : Bytes := w.header ++ maskBytes w.key ++ w.body

/-- The opcode has four bits and the payload fits into a vector. -/
structure Fits (w : WireFrame) : Prop where
  opcode : w.frame.opcode &&& maskOpcode = w.frame.opcode
  payload : w.frame.payload.length < 2 ^ 63

end WireFrame

section Header

variable {key : Option MaskKey} {n c : Nat} {b : UInt8}

theorem length_maskBytes (key : Option MaskKey) :
    (maskBytes key).length = if key.isSome then maskKeySize else 0 := by
  cases key with
  | none => rfl
  | some key => exact key.property

theorem maskFlag_length (hc : c < 128) :
    ((maskFlag key ||| c.toUInt8) &&& maskLength).toNat = c := by
  have hall : ∀ f : Bool, ∀ c : Fin 128,
      (((if f then flagMasked else 0) ||| c.val.toUInt8) &&& maskLength).toNat = c.val := by
    decide +kernel
  exact hall key.isSome ⟨c, hc⟩

theorem maskFlag_masked (hc : c < 128) :
    (maskFlag key ||| c.toUInt8) &&& flagMasked ≠ 0 ↔ key.isSome = true := by
  have hall : ∀ f : Bool, ∀ c : Fin 128,
      ((if f then flagMasked else 0) ||| c.val.toUInt8) &&& flagMasked ≠ 0 ↔ f = true := by
    decide +kernel
  exact hall key.isSome ⟨c, hc⟩

theorem firstByte_fin {frame : DecodedFrame} (h : frame.opcode &&& maskOpcode = frame.opcode) :
    firstByte frame &&& flagFin ≠ 0 ↔ frame.fin = true := by
  have hall : ∀ f : Bool, ∀ o : Fin 256, o.val.toUInt8 &&& maskOpcode = o.val.toUInt8 →
      (((if f then flagFin else 0) ||| o.val.toUInt8) &&& flagFin ≠ 0 ↔ f = true) := by
    decide +kernel
  have ho : frame.opcode = (⟨frame.opcode.toNat, UInt8.toNat_lt _⟩ : Fin 256).val.toUInt8 := by
    simp [Nat.toUInt8]
  unfold firstByte
  rw [ho] at h ⊢
  exact hall frame.fin _ h

theorem firstByte_opcode {frame : DecodedFrame} (h : frame.opcode &&& maskOpcode = frame.opcode) :
    firstByte frame &&& maskOpcode = frame.opcode := by
  have hall : ∀ f : Bool, ∀ o : Fin 256, o.val.toUInt8 &&& maskOpcode = o.val.toUInt8 →
      ((if f then flagFin else 0) ||| o.val.toUInt8) &&& maskOpcode = o.val.toUInt8 := by
    decide +kernel
  have ho : frame.opcode = (⟨frame.opcode.toNat, UInt8.toNat_lt _⟩ : Fin 256).val.toUInt8 := by
    simp [Nat.toUInt8]
  unfold firstByte
  rw [ho] at h ⊢
  exact hall frame.fin _ h

/-- The three encodings of a length. -/
theorem lengthBytes_cases (m : UInt8) (n : Nat) :
    ∃ c extra, lengthBytes m n = (m ||| c.toUInt8) :: extra ∧ c < 128 ∧
      (c = n ∧ n < payloadLen16Bit ∧ extra = [] ∨
        c = payloadLen16Bit ∧ n < payloadLen16BitMax ∧ extra = bigEndian extendedLen16Size n ∨
        c = payloadLen64Bit ∧ extra = bigEndian extendedLen64Size n) := by
  unfold lengthBytes
  split
  · next h => exact ⟨n, [], rfl, Nat.lt_trans h (by decide), .inl ⟨rfl, h, rfl⟩⟩
  · split
    · next h => exact ⟨_, _, rfl, by decide, .inr (.inl ⟨rfl, h, rfl⟩)⟩
    · exact ⟨_, _, rfl, by decide, .inr (.inr ⟨rfl, rfl⟩)⟩

theorem announcedLength_header (hn : n < 2 ^ 63) (tail : Bytes) :
    announcedLength (b :: lengthBytes (maskFlag key) n ++ tail) =
      some (n, (lengthBytes (maskFlag key) n).length + 1) := by
  obtain ⟨c, extra, he, hc, h⟩ := lengthBytes_cases (maskFlag key) n
  have hb : ((b :: lengthBytes (maskFlag key) n ++ tail).getD 1 0 &&& maskLength).toNat = c := by
    rw [he]
    exact maskFlag_length hc
  unfold announcedLength
  rw [hb]
  dsimp only
  rcases h with ⟨rfl, hl, rfl⟩ | ⟨rfl, hl, rfl⟩ | ⟨rfl, rfl⟩
  · rw [if_neg (Nat.ne_of_lt hl), if_neg (Nat.ne_of_lt (Nat.lt_trans hl (by decide))), he]
    rfl
  · have hlen : (b :: lengthBytes (maskFlag key) n ++ tail).length = header16BitSize + tail.length := by
      simp [he, header16BitSize, baseHeaderSize, extendedLen16Size]
      omega
    rw [if_pos rfl, if_neg (by omega), he]
    have hd : (b :: (maskFlag key ||| payloadLen16Bit.toUInt8) :: bigEndian extendedLen16Size n ++
        tail).drop baseHeaderSize = bigEndian extendedLen16Size n ++ tail := rfl
    rw [hd, List.take_left' (length_bigEndian _ _),
      ofBigEndian_bigEndian (Nat.lt_of_lt_of_le hl (by decide))]
    simp [header16BitSize, baseHeaderSize, extendedLen16Size]
  · have hlen : (b :: lengthBytes (maskFlag key) n ++ tail).length = header64BitSize + tail.length := by
      simp [he, header64BitSize, baseHeaderSize, extendedLen64Size]
      omega
    rw [if_neg (by decide), if_pos rfl, if_neg (by omega), he]
    have hd : (b :: (maskFlag key ||| payloadLen64Bit.toUInt8) :: bigEndian extendedLen64Size n ++
        tail).drop baseHeaderSize = bigEndian extendedLen64Size n ++ tail := rfl
    rw [hd, List.take_left' (length_bigEndian _ _),
      ofBigEndian_bigEndian (Nat.lt_trans hn (by decide))]
    simp [header64BitSize, baseHeaderSize, extendedLen64Size]

theorem announcedLength_short {p : Bytes} (hp : p <+: b :: lengthBytes (maskFlag key) n)
    (h2 : baseHeaderSize ≤ p.length) (hl : p.length < (lengthBytes (maskFlag key) n).length + 1) :
    announcedLength p = none := by
  obtain ⟨c, extra, he, hc, h⟩ := lengthBytes_cases (maskFlag key) n
  rw [he] at hp hl
  have hb : (p.getD 1 0 &&& maskLength).toNat = c := by
    obtain ⟨tail, ht⟩ := hp
    have h1 : p.getD 1 0 = maskFlag key ||| c.toUInt8 := by
      have h1 : (p ++ tail)[1]? = p[1]? := List.getElem?_append_left h2
      rw [List.getD_eq_getElem?_getD, ← h1, ht]
      rfl
    rw [h1]
    exact maskFlag_length hc
  unfold announcedLength
  rw [hb]
  dsimp only
  unfold baseHeaderSize at h2
  rcases h with ⟨rfl, hn, rfl⟩ | ⟨rfl, hn, rfl⟩ | ⟨rfl, rfl⟩
  · simp at hl
    omega
  · rw [if_pos rfl, if_pos]
    simpa [extendedLen16Size, header16BitSize, baseHeaderSize] using hl
  · rw [if_neg (by decide), if_pos rfl, if_pos]
    simpa [extendedLen64Size, header64BitSize, baseHeaderSize] using hl

end Header

section Frames

variable {w : WireFrame} {n : Nat}

theorem length_body (w : WireFrame) : w.body.length = w.frame.payload.length := by
  unfold WireFrame.body
  cases w.key <;> simp

theorem length_encode (w : WireFrame) :
    w.encode.length = w.header.length + (maskBytes w.key).length + w.frame.payload.length := by
  simp [WireFrame.encode, length_body]
  omega

theorem length_header_le (w : WireFrame) : w.header.length ≤ header64BitSize := by
  unfold WireFrame.header
  obtain ⟨c, extra, he, _, h⟩ := lengthBytes_cases (maskFlag w.key) w.frame.payload.length
  rw [he]
  rcases h with ⟨_, _, rfl⟩ | ⟨_, _, rfl⟩ | ⟨_, rfl⟩ <;>
    simp [header64BitSize, baseHeaderSize, extendedLen64Size, extendedLen16Size]

theorem le_length_header (w : WireFrame) : baseHeaderSize ≤ w.header.length := by
  unfold WireFrame.header
  obtain ⟨c, extra, he, _⟩ := lengthBytes_cases (maskFlag w.key) w.frame.payload.length
  rw [he]
  simp [baseHeaderSize]

/-- The sum of the sizes does not wrap around. -/
theorem encode_size (hw : w.Fits) :
    (w.header.length + (maskBytes w.key).length + w.frame.payload.length) % 2 ^ 64 =
      w.encode.length := by
  have h1 := length_header_le w
  have h2 : (maskBytes w.key).length ≤ maskKeySize := by
    rw [length_maskBytes]
    split <;> simp
  have h3 := hw.payload
  unfold header64BitSize baseHeaderSize extendedLen64Size at h1
  unfold maskKeySize at h2
  rw [length_encode]
  exact Nat.mod_eq_of_lt (by omega)

theorem masked_of_header (w : WireFrame) (tail : Bytes) :
    (w.header ++ tail).getD 1 0 &&& flagMasked ≠ 0 ↔ w.key.isSome = true := by
  obtain ⟨c, extra, he, hc, _⟩ := lengthBytes_cases (maskFlag w.key) w.frame.payload.length
  unfold WireFrame.header
  rw [he]
  exact maskFlag_masked hc

/-- Once the header is there, the size of the frame is known. -/
theorem tryDecodeFrame_header (hw : w.Fits) (tail : Bytes) :
    tryDecodeFrame (w.header ++ tail) =
      if (w.header ++ tail).length < w.encode.length then some none
      else
        let body := (tail.drop (maskBytes w.key).length).take w.frame.payload.length
        let payload := if w.key.isSome then mask (tail.take maskKeySize) 0 body else body
        some (some (⟨w.frame.opcode, w.frame.fin, payload⟩, (w.header ++ tail).drop w.encode.length)) := by
  have hlen : ¬ (w.header ++ tail).length < baseHeaderSize := by
    have := le_length_header w
    simp only [List.length_append]
    omega
  have hmax : ¬ maxVectorSize < w.frame.payload.length := by
    have := hw.payload
    unfold maxVectorSize
    omega
  have hann : announcedLength (w.header ++ tail) = some (w.frame.payload.length, w.header.length) :=
    announcedLength_header hw.payload tail
  have hfin : decide ((w.header ++ tail).getD 0 0 &&& flagFin ≠ 0) = w.frame.fin := by
    rw [Bool.eq_iff_iff, decide_eq_true_iff]
    exact firstByte_fin hw.opcode
  have hop : (w.header ++ tail).getD 0 0 &&& maskOpcode = w.frame.opcode := firstByte_opcode hw.opcode
  unfold tryDecodeFrame
  rw [if_neg hlen]
  simp only [hann, hfin, hop]
  have hsize := encode_size hw
  by_cases hk : w.key.isSome = true
  · have hlk : (maskBytes w.key).length = maskKeySize := by rw [length_maskBytes, if_pos hk]
    rw [hlk] at hsize ⊢
    have hm := (masked_of_header w tail).mpr hk
    simp only [if_pos hm, if_pos hk, hsize, if_neg hmax]
    have hd : (w.header ++ tail).drop (w.header.length + maskKeySize) = tail.drop maskKeySize := by
      rw [← List.drop_drop, List.drop_left]
    have ht : (w.header ++ tail).drop (w.header.length + maskKeySize - maskKeySize) = tail := by
      rw [Nat.add_sub_cancel]
      exact List.drop_left
    rw [hd, ht]
  · have hlk : (maskBytes w.key).length = 0 := by rw [length_maskBytes, if_neg hk]
    rw [hlk, Nat.add_zero] at hsize
    have hm := mt (masked_of_header w tail).mp hk
    simp only [if_neg hm, if_neg hk, hsize, if_neg hmax]
    rw [hlk, List.drop_left, List.drop_zero]

theorem tryDecodeFrame_encode (hw : w.Fits) (rest : Bytes) :
    tryDecodeFrame (w.encode ++ rest) = some (some (w.frame, rest)) := by
  have he : w.encode ++ rest = w.header ++ (maskBytes w.key ++ w.body ++ rest) := by
    simp [WireFrame.encode]
  have hl : ¬ (w.encode ++ rest).length < w.encode.length := by simp
  have hr : (w.encode ++ rest).drop w.encode.length = rest := List.drop_left
  rw [he] at hl hr ⊢
  rw [tryDecodeFrame_header hw, if_neg hl, hr]
  have hb : ((maskBytes w.key ++ w.body ++ rest).drop (maskBytes w.key).length).take
      w.frame.payload.length = w.body := by
    rw [List.append_assoc, List.drop_left, ← length_body w]
    exact List.take_left
  rw [hb]
  obtain ⟨key, frame⟩ := w
  cases key with
  | none => rfl
  | some key =>
    have ht : (key.val ++ mask key 0 frame.payload ++ rest).take maskKeySize = key.val := by
      rw [List.append_assoc]
      exact List.take_left' key.property
    simp only [maskBytes, WireFrame.body, Option.map_some, Option.getD_some, Option.isSome_some, if_true, ht,
      mask_mask]

theorem tryDecodeFrame_part (hw : w.Fits) {p : Bytes} (hp : p <+: w.encode)
    (hl : p.length < w.encode.length) : tryDecodeFrame p = some none := by
  have he : w.encode = w.header ++ (maskBytes w.key ++ w.body) := by simp [WireFrame.encode]
  rw [he] at hp
  rcases prefix_append_cases hp with ⟨hs, hp⟩ | ⟨tail, rfl, _⟩
  · unfold tryDecodeFrame
    by_cases h2 : p.length < baseHeaderSize
    · rw [if_pos h2]
    · rw [if_neg h2, announcedLength_short hp (Nat.not_lt.mp h2) hs]
  · rw [tryDecodeFrame_header hw, if_pos hl]

/-- What has arrived of a series of frames: some of them, and a part of the next one. -/
theorem split_frames {frames : List WireFrame} (hf : ∀ w ∈ frames, w.Fits) {p : Bytes}
    (hp : p <+: frames.flatMap WireFrame.encode) :
    ∃ done rest part, frames = done ++ rest ∧ p = done.flatMap WireFrame.encode ++ part ∧
      part <+: rest.flatMap WireFrame.encode ∧ tryDecodeFrame part = some none := by
  induction frames generalizing p with
  | nil =>
    refine ⟨[], [], [], rfl, ?_, List.nil_prefix, rfl⟩
    simpa using hp
  | cons w frames ih =>
    have hw := hf w List.mem_cons_self
    rw [List.flatMap_cons] at hp
    rcases prefix_append_cases hp with ⟨hl, hp'⟩ | ⟨q, rfl, hq⟩
    · refine ⟨[], w :: frames, p, rfl, rfl, ?_, tryDecodeFrame_part hw hp' hl⟩
      rw [List.flatMap_cons]
      exact hp
    · obtain ⟨done, rest, part, rfl, rfl, hpart, hnone⟩ :=
        ih (fun w hw => hf w (List.mem_cons_of_mem _ hw)) hq
      refine ⟨w :: done, rest, part, rfl, ?_, hpart, hnone⟩
      rw [List.flatMap_cons, List.append_assoc]

end Frames

end WebSocket

namespace WebSocketStream

variable {keys : Nat → MaskKey} {s s' : WebSocketStream} {w : WireFrame}

/-- The stream with these bytes in its buffer. -/
def holding (s : WebSocketStream) (buffer : Bytes) : WebSocketStream := { s with recvBuffer := buffer }

/-- What a round of the loop does with a frame that does not close the connection. -/
def onFrame (keys : Nat → MaskKey) (s : WebSocketStream) (w : WireFrame) : WebSocketStream :=
  if w.frame.opcode = opcodePing then
    s.writeControlFrame keys opcodePong (w.frame.payload.take maxControlFramePayload)
  else if w.frame.opcode = opcodePong then s
  else s.onDataFrame w.frame

/-- A frame neither changes the buffer nor looks at it. -/
theorem onFrame_holding (keys : Nat → MaskKey) (s : WebSocketStream) (buffer : Bytes) (w : WireFrame) :
    onFrame keys (s.holding buffer) w = (onFrame keys s w).holding buffer := by
  unfold onFrame writeControlFrame transportWrite onDataFrame readCallback holding
  dsimp only
  repeat' split
  all_goals rfl

theorem onFrame_readActive (keys : Nat → MaskKey) (s : WebSocketStream) (w : WireFrame) :
    (onFrame keys s w).readActive = s.readActive := by
  unfold onFrame writeControlFrame transportWrite onDataFrame readCallback
  dsimp only
  repeat' split
  all_goals rfl

theorem foldl_onFrame_readActive (frames : List WireFrame) (s : WebSocketStream) :
    (frames.foldl (onFrame keys) s).readActive = s.readActive := by
  induction frames generalizing s with
  | nil => rfl
  | cons w frames ih => rw [List.foldl_cons, ih, onFrame_readActive]

theorem recvLoop_part {part : Bytes} (hp : tryDecodeFrame part = some none) (n : Nat) :
    recvLoop keys n (s.holding part) = some (s.holding part) := by
  cases n with
  | zero => rfl
  | succ n =>
    unfold recvLoop
    split
    · rfl
    · rw [show (s.holding part).recvBuffer = part from rfl, hp]

theorem recvLoop_taken {buffer rest : Bytes} {frame : DecodedFrame}
    (hd : tryDecodeFrame buffer = some (some (frame, rest))) (hc : frame.opcode ≠ opcodeClose)
    (ha : s.readActive = true) (n : Nat) :
    recvLoop keys (n + 1) (s.holding buffer) = recvLoop keys n ((onFrame keys s ⟨none, frame⟩).holding rest) := by
  have hbuffer : buffer ≠ [] := by
    rintro rfl
    cases hd
  have hne : ¬ ((s.holding buffer).readActive = false ∨ (s.holding buffer).recvBuffer = []) := by
    simp [holding, ha, hbuffer]
  rw [← onFrame_holding, recvLoop, if_neg hne, show (s.holding buffer).recvBuffer = buffer from rfl, hd]
  dsimp only
  rw [if_neg hc]
  unfold onFrame
  repeat' split
  all_goals rfl

theorem recvLoop_frame (hw : w.Fits) (hc : w.frame.opcode ≠ opcodeClose) (ha : s.readActive = true)
    (rest : Bytes) (n : Nat) :
    recvLoop keys (n + 1) (s.holding (w.encode ++ rest)) =
      recvLoop keys n ((onFrame keys s w).holding rest) :=
  recvLoop_taken (tryDecodeFrame_encode hw rest) hc ha n

/-- The loop takes all the frames that are there. -/
theorem recvLoop_frames {frames : List WireFrame}
    (hf : ∀ w ∈ frames, w.Fits ∧ w.frame.opcode ≠ opcodeClose) {part : Bytes}
    (hp : tryDecodeFrame part = some none) (ha : s.readActive = true) {n : Nat}
    (hn : (frames.flatMap WireFrame.encode ++ part).length ≤ n) :
    recvLoop keys n (s.holding (frames.flatMap WireFrame.encode ++ part)) =
      some ((frames.foldl (onFrame keys) s).holding part) := by
  induction frames generalizing s n with
  | nil => exact recvLoop_part hp n
  | cons w frames ih =>
    obtain ⟨hw, hc⟩ := hf w List.mem_cons_self
    have h2 : 0 < w.encode.length := by
      have := le_length_header w
      have := length_encode w
      unfold baseHeaderSize at *
      omega
    rw [List.flatMap_cons, List.append_assoc] at hn ⊢
    rw [List.length_append] at hn
    obtain ⟨n, rfl⟩ : ∃ m, n = m + 1 := ⟨n - 1, by omega⟩
    rw [recvLoop_frame hw hc ha, ih (fun w hw => hf w (List.mem_cons_of_mem _ hw))
      ((onFrame_readActive keys s w).trans ha) (by omega), List.foldl_cons]

variable (keys) in
/-- After every chunk the frames that have arrived are handled, and the part of the next one
waits in the buffer. -/
theorem foldlM_onRead {frames : List WireFrame}
    (hf : ∀ w ∈ frames, w.Fits ∧ w.frame.opcode ≠ opcodeClose) (ha : s.readActive = true) {part : Bytes}
    (hp : tryDecodeFrame part = some none) {pieces : List Bytes}
    (hpieces : part ++ pieces.flatten <+: frames.flatMap WireFrame.encode) :
    ∃ done rest part', frames = done ++ rest ∧
      part ++ pieces.flatten = done.flatMap WireFrame.encode ++ part' ∧
      tryDecodeFrame part' = some none ∧
      pieces.foldlM (fun s data => s.onRead keys data) (s.holding part) =
        some ((done.foldl (onFrame keys) s).holding part') := by
  induction pieces generalizing s part frames with
  | nil => exact ⟨[], frames, part, rfl, by simp, hp, rfl⟩
  | cons data pieces ih =>
    rw [List.flatten_cons, ← List.append_assoc] at hpieces
    obtain ⟨done, rest, part₁, rfl, he, hpre, hnone⟩ :=
      split_frames (fun w hw => (hf w hw).1) ((List.prefix_append _ _).trans hpieces)
    have hdone : ∀ w ∈ done, w.Fits ∧ w.frame.opcode ≠ opcodeClose :=
      fun w hw => hf w (List.mem_append_left _ hw)
    have hread : (s.holding part).onRead keys data =
        some ((done.foldl (onFrame keys) s).holding part₁) := by
      change recvLoop keys (part ++ data).length (s.holding (part ++ data)) = _
      rw [he]
      exact recvLoop_frames hdone hnone ha (Nat.le_refl _)
    rw [he, List.append_assoc, List.flatMap_append, List.prefix_append_right_inj] at hpieces
    obtain ⟨done', rest', part', rfl, he', hnone', hrun⟩ :=
      ih (fun w hw => hf w (List.mem_append_right _ hw))
        ((foldl_onFrame_readActive done s).trans ha) hnone hpieces
    refine ⟨done ++ done', rest', part', by simp, ?_, hnone', ?_⟩
    · rw [List.flatten_cons, ← List.append_assoc, he, List.append_assoc, he', List.flatMap_append,
        List.append_assoc]
    · rw [List.foldlM_cons, hread, List.foldl_append]
      exact hrun

theorem foldlM_onRead_all {frames : List WireFrame}
    (hf : ∀ w ∈ frames, w.Fits ∧ w.frame.opcode ≠ opcodeClose) (ha : s.readActive = true)
    (hb : s.recvBuffer = []) {pieces : List Bytes}
    (hpieces : pieces.flatten = frames.flatMap WireFrame.encode) :
    pieces.foldlM (fun s data => s.onRead keys data) s =
      some ((frames.foldl (onFrame keys) s).holding []) := by
  have hpre : [] ++ pieces.flatten <+: frames.flatMap WireFrame.encode :=
    hpieces.symm ▸ List.prefix_refl pieces.flatten
  obtain ⟨done, rest, part, rfl, he, hnone, hrun⟩ := foldlM_onRead keys hf ha rfl hpre
  rw [List.nil_append, hpieces, List.flatMap_append] at he
  have hpart : rest.flatMap WireFrame.encode = part := List.append_cancel_left he
  have hrest : rest = [] := by
    cases rest with
    | nil => rfl
    | cons w rest =>
      have hw := (hf w (List.mem_append_right _ List.mem_cons_self)).1
      rw [← hpart, List.flatMap_cons, tryDecodeFrame_encode hw] at hnone
      cases hnone
  subst hrest
  rw [show s.holding [] = s from by rw [holding, ← hb]] at hrun
  rw [hrun, List.append_nil, ← hpart]
  rfl

end WebSocketStream

namespace WebSocket

/-- A ping or a pong. -/
structure Control where
  isPing : Bool
  key : Option MaskKey
  payload : Bytes

def Control.opcode (c : Control) : UInt8 := if c.isPing then opcodePing else opcodePong

def Control.frame (c : Control) : WireFrame := ⟨c.key, ⟨c.opcode, true, c.payload⟩⟩

/-- A continuation frame and the control frames that stand before it. -/
structure Fragment where
  controls : List Control
  key : Option MaskKey
  payload : Bytes

/-- All but the last of the continuation frames are not final. -/
def continuationFrames : List Fragment → List WireFrame
  | [] => []
  | f :: fragments =>
    f.controls.map Control.frame ++
      ⟨f.key, ⟨opcodeContinuation, fragments.isEmpty, f.payload⟩⟩ :: continuationFrames fragments

/-- What is sent: the buffers of a `write()`, a control frame, or a message in two or more
fragments. -/
inductive Sending where
  | write (buffers : List Bytes)
  | control (isPing : Bool) (payload : Bytes)
  | fragments (isText : Bool) (key : Option MaskKey) (first : Bytes) (next : Fragment)
      (others : List Fragment)

namespace Sending

/-- The frames of a fragmented message. -/
def messageFrames (isText : Bool) (key : Option MaskKey) (first : Bytes) (fragments : List Fragment) :
    List WireFrame :=
  ⟨key, ⟨if isText then opcodeText else opcodeBinary, false, first⟩⟩ :: continuationFrames fragments

/-- The messages in it. -/
def contents : Sending → List Bytes
  | .write buffers => [buffers.flatten]
  | .control _ _ => []
  | .fragments _ _ first next others => [first ++ ((next :: others).map Fragment.payload).flatten]

/-- Every data frame is shorter than 2^63 bytes and every control frame at most 125. -/
def Fits : Sending → Prop
  | .write buffers => (buffers.map List.length).sum < 2 ^ 63
  | .control _ payload => payload.length ≤ maxControlFramePayload
  | .fragments _ _ first next others => first.length < 2 ^ 63 ∧ ∀ f ∈ next :: others,
      f.payload.length < 2 ^ 63 ∧ ∀ c ∈ f.controls, c.payload.length ≤ maxControlFramePayload

end Sending

end WebSocket

namespace WebSocketStream

/-- A stream right after the upgrade, when its reader has started it. -/
def opened (role : Role) : WebSocketStream := ⟨role, [], [], true, [], []⟩

/-- One side sends. -/
def send (keys : Nat → MaskKey) (s : WebSocketStream) : Sending → WebSocketStream
  | .write buffers => s.write keys buffers
  | .control isPing payload =>
    s.writeControlFrame keys (if isPing then opcodePing else opcodePong) payload
  | .fragments isText key first next others =>
    s.transportWrite ((Sending.messageFrames isText key first (next :: others)).map WireFrame.encode)

/-- A stream that handles the frames gives the messages to its read callback. -/
def Delivers (frames : List WireFrame) (messages : List Bytes) : Prop :=
  ∀ keys (s : WebSocketStream), (frames.foldl (onFrame keys) s).calls = s.calls ++ messages.map .ok

theorem Delivers.append {frames frames' : List WireFrame} {messages messages' : List Bytes}
    (h : Delivers frames messages) (h' : Delivers frames' messages') :
    Delivers (frames ++ frames') (messages ++ messages') := by
  intro keys s
  rw [List.foldl_append, h', h, List.map_append, List.append_assoc]

theorem onFrame_control (keys : Nat → MaskKey) (s : WebSocketStream) (c : Control) :
    (onFrame keys s c.frame).calls = s.calls ∧
      (onFrame keys s c.frame).fragmentBuffer = s.fragmentBuffer := by
  unfold onFrame Control.frame Control.opcode
  cases c.isPing with
  | true => exact ⟨rfl, rfl⟩
  | false => exact ⟨rfl, rfl⟩

theorem foldl_onFrame_controls (keys : Nat → MaskKey) (controls : List Control) (s : WebSocketStream) :
    ((controls.map Control.frame).foldl (onFrame keys) s).calls = s.calls ∧
      ((controls.map Control.frame).foldl (onFrame keys) s).fragmentBuffer = s.fragmentBuffer := by
  induction controls generalizing s with
  | nil => exact ⟨rfl, rfl⟩
  | cons c controls ih =>
    obtain ⟨hc, hb⟩ := onFrame_control keys s c
    obtain ⟨hc', hb'⟩ := ih (onFrame keys s c.frame)
    exact ⟨hc'.trans hc, hb'.trans hb⟩

/-- The continuation frames complete the message in the fragment buffer. -/
theorem foldl_onFrame_continuation (keys : Nat → MaskKey) (f : Fragment) (fragments : List Fragment)
    (s : WebSocketStream) :
    ((continuationFrames (f :: fragments)).foldl (onFrame keys) s).calls =
      s.calls ++ [Except.ok (s.fragmentBuffer ++ ((f :: fragments).map Fragment.payload).flatten)] := by
  induction fragments generalizing f s with
  | nil =>
    obtain ⟨hc, hb⟩ := foldl_onFrame_controls keys f.controls s
    rw [continuationFrames, List.foldl_append, List.foldl_cons, ← hc, ← hb]
    simp [continuationFrames, onFrame, onDataFrame, readCallback, opcodeContinuation, opcodePing,
      opcodePong, opcodeText, opcodeBinary]
  | cons g fragments ih =>
    obtain ⟨hc, hb⟩ := foldl_onFrame_controls keys f.controls s
    rw [continuationFrames, List.foldl_append, List.foldl_cons, ih, ← hc, ← hb]
    simp [onFrame, onDataFrame, opcodeContinuation, opcodePing, opcodePong, opcodeText, opcodeBinary]

theorem delivers_data {key : Option MaskKey} (payload : Bytes) :
    Delivers [⟨key, ⟨opcodeBinary, true, payload⟩⟩] [payload] := by
  intro keys s
  rfl

theorem delivers_control (c : Control) : Delivers [c.frame] [] := by
  intro keys s
  rw [List.foldl_cons, List.foldl_nil, (onFrame_control keys s c).1]
  simp

theorem delivers_message (isText : Bool) (key : Option MaskKey) (first : Bytes) (next : Fragment)
    (others : List Fragment) :
    Delivers (Sending.messageFrames isText key first (next :: others))
      [first ++ ((next :: others).map Fragment.payload).flatten] := by
  intro keys s
  have hs : onFrame keys s ⟨key, ⟨if isText then opcodeText else opcodeBinary, false, first⟩⟩ =
      { s with fragmentBuffer := first } := by
    cases isText <;> rfl
  rw [Sending.messageFrames, List.foldl_cons, foldl_onFrame_continuation, hs]
  rfl

/-- The frames that a sending puts on the wire. -/
structure Puts (s s' : WebSocketStream) (x : Sending) (frames : List WireFrame) : Prop where
  role : s'.role = s.role
  written : s'.written.flatten = s.written.flatten ++ frames.flatMap WireFrame.encode
  fits : ∀ w ∈ frames, w.Fits ∧ w.frame.opcode ≠ opcodeClose
  delivers : Delivers frames x.contents

theorem fits_frame {w : WireFrame} (opcode : UInt8) (ho : w.frame.opcode = opcode)
    (hp : w.frame.payload.length < 2 ^ 63)
    (h : opcode &&& maskOpcode = opcode ∧ opcode ≠ opcodeClose) :
    w.Fits ∧ w.frame.opcode ≠ opcodeClose := by
  subst ho
  exact ⟨⟨h.1, hp⟩, h.2⟩

theorem fits_control {c : Control} (h : c.payload.length ≤ maxControlFramePayload) :
    c.frame.Fits ∧ c.frame.frame.opcode ≠ opcodeClose := by
  have hp : c.frame.frame.payload.length < 2 ^ 63 := Nat.lt_of_le_of_lt h (by decide)
  have ho : c.frame.frame.opcode = c.opcode := rfl
  unfold Control.opcode at ho
  cases hc : c.isPing with
  | true =>
    rw [hc] at ho
    exact fits_frame opcodePing ho hp (by decide)
  | false =>
    rw [hc] at ho
    exact fits_frame opcodePong ho hp (by decide)

theorem puts_write (keys : Nat → MaskKey) (s : WebSocketStream) {buffers : List Bytes}
    (h : (buffers.map List.length).sum < 2 ^ 63) :
    ∃ frames, Puts s (s.write keys buffers) (.write buffers) frames := by
  have hfits : ∀ key, ∀ w ∈ [(⟨key, ⟨opcodeBinary, true, buffers.flatten⟩⟩ : WireFrame)],
      w.Fits ∧ w.frame.opcode ≠ opcodeClose := by
    intro key w hw
    rw [List.mem_singleton.mp hw]
    refine fits_frame opcodeBinary rfl ?_ (by decide)
    rw [List.length_flatten]
    exact h
  unfold write
  by_cases hr : s.role = .server
  · refine ⟨[⟨none, ⟨opcodeBinary, true, buffers.flatten⟩⟩], ?_, ?_, hfits _, delivers_data _⟩
    · simp [hr, transportWrite]
    · simp [hr, transportWrite, WireFrame.encode, WireFrame.header, WireFrame.body, maskBytes, maskFlag,
        buildServerFrameHeader, firstByte, List.length_flatten]
  · refine ⟨[⟨some (keys s.written.length), ⟨opcodeBinary, true, buffers.flatten⟩⟩], ?_, ?_, hfits _,
      delivers_data _⟩
    · simp [hr, transportWrite]
    · simp [hr, transportWrite, WireFrame.encode, WireFrame.header, WireFrame.body, maskBytes, maskFlag,
        buildClientFrame, firstByte, maskBuffers_eq, List.length_flatten]

theorem buildControlFrame_eq (opcode : UInt8) (isClient : Bool) (key : MaskKey) {payload : Bytes}
    (h : payload.length ≤ maxControlFramePayload) :
    buildControlFrame opcode isClient key payload =
      WireFrame.encode ⟨if isClient then some key else none, ⟨opcode, true, payload⟩⟩ := by
  have hl : ∀ m, lengthBytes m payload.length = [m ||| payload.length.toUInt8] :=
    fun m => if_pos (Nat.lt_of_le_of_lt h (by decide))
  cases isClient with
  | true => simp [buildControlFrame, WireFrame.encode, WireFrame.header, WireFrame.body, maskBytes,
      maskFlag, firstByte, hl]
  | false => simp [buildControlFrame, WireFrame.encode, WireFrame.header, WireFrame.body, maskBytes,
      maskFlag, firstByte, hl]

theorem puts_control (keys : Nat → MaskKey) (s : WebSocketStream) (isPing : Bool) {payload : Bytes}
    (h : payload.length ≤ maxControlFramePayload) :
    ∃ frames, Puts s (s.writeControlFrame keys (if isPing then opcodePing else opcodePong) payload)
      (.control isPing payload) frames := by
  let c : Control := ⟨isPing, if s.role ≠ .server then some (keys s.written.length) else none, payload⟩
  refine ⟨[c.frame], rfl, ?_, ?_, delivers_control c⟩
  · unfold writeControlFrame transportWrite
    rw [buildControlFrame_eq _ _ _ h]
    simp [c, Control.frame, Control.opcode]
  · intro w hw
    rw [List.mem_singleton.mp hw]
    exact fits_control h

theorem fits_continuationFrames {fragments : List Fragment}
    (h : ∀ f ∈ fragments, f.payload.length < 2 ^ 63 ∧
      ∀ c ∈ f.controls, c.payload.length ≤ maxControlFramePayload) :
    ∀ w ∈ continuationFrames fragments, w.Fits ∧ w.frame.opcode ≠ opcodeClose := by
  induction fragments with
  | nil => exact fun w hw => absurd hw List.not_mem_nil
  | cons f fragments ih =>
    obtain ⟨hf, hc⟩ := h f List.mem_cons_self
    intro w hw
    rcases List.mem_append.mp hw with hw | hw
    · obtain ⟨c, hm, rfl⟩ := List.mem_map.mp hw
      exact fits_control (hc c hm)
    · rcases List.mem_cons.mp hw with rfl | hw
      · exact fits_frame opcodeContinuation rfl hf (by decide)
      · exact ih (fun f hf => h f (List.mem_cons_of_mem _ hf)) w hw

theorem puts_fragments (s : WebSocketStream) (isText : Bool) (key : Option MaskKey) {first : Bytes}
    {next : Fragment} {others : List Fragment}
    (h : Sending.Fits (.fragments isText key first next others)) :
    ∃ frames, Puts s (s.transportWrite
        ((Sending.messageFrames isText key first (next :: others)).map WireFrame.encode))
      (.fragments isText key first next others) frames := by
  refine ⟨Sending.messageFrames isText key first (next :: others), rfl, ?_, ?_,
    delivers_message isText key first next others⟩
  · simp [transportWrite, List.flatMap_def]
  · intro w hw
    rcases List.mem_cons.mp hw with rfl | hw
    · cases isText with
      | true => exact fits_frame opcodeText rfl h.1 (by decide)
      | false => exact fits_frame opcodeBinary rfl h.1 (by decide)
    · exact fits_continuationFrames h.2 w hw

theorem puts_send (keys : Nat → MaskKey) (s : WebSocketStream) {x : Sending} (h : x.Fits) :
    ∃ frames, Puts s (s.send keys x) x frames := by
  cases x with
  | write buffers => exact puts_write keys s h
  | control isPing payload => exact puts_control keys s isPing h
  | fragments isText key first next others => exact puts_fragments s isText key h

/-- All that one side sends are frames that carry the messages. -/
theorem foldl_send (keys : Nat → MaskKey) (s : WebSocketStream) {sendings : List Sending}
    (h : ∀ x ∈ sendings, x.Fits) :
    ∃ frames, (sendings.foldl (send keys) s).written.flatten =
        s.written.flatten ++ frames.flatMap WireFrame.encode ∧
      (∀ w ∈ frames, w.Fits ∧ w.frame.opcode ≠ opcodeClose) ∧
      Delivers frames (sendings.flatMap Sending.contents) := by
  induction sendings generalizing s with
  | nil => exact ⟨[], by simp, by simp, fun keys s => by simp⟩
  | cons x sendings ih =>
    obtain ⟨frames, hx⟩ := puts_send keys s (h x List.mem_cons_self)
    obtain ⟨frames', hw, hf, hd⟩ := ih (s.send keys x) fun x hx => h x (List.mem_cons_of_mem _ hx)
    refine ⟨frames ++ frames', ?_, ?_, ?_⟩
    · rw [List.foldl_cons, hw, hx.written, List.flatMap_append, List.append_assoc]
    · intro w hw
      rcases List.mem_append.mp hw with hw | hw
      · exact hx.fits w hw
      · exact hf w hw
    · rw [List.flatMap_cons]
      exact hx.delivers.append hd

end WebSocketStream

/-- The read callback of the one side gets each message of the other side, in order and in
one call, however the bytes are cut. -/
theorem webSocket_round_trip (keys keys' : Nat → MaskKey) (role role' : Role)
    (sendings : List Sending) (h : ∀ x ∈ sendings, x.Fits) (pieces : List Bytes)
    (hp : pieces.flatten =
      (sendings.foldl (WebSocketStream.send keys) (.opened role)).written.flatten) :
    ∃ s, pieces.foldlM (fun s data => s.onRead keys' data) (WebSocketStream.opened role') = some s ∧
      s.calls = (sendings.flatMap Sending.contents).map .ok ∧ s.recvBuffer = [] := by
  obtain ⟨frames, hw, hf, hd⟩ := WebSocketStream.foldl_send keys (.opened role) h
  have hpieces : pieces.flatten = frames.flatMap WireFrame.encode := hp.trans hw
  refine ⟨_, WebSocketStream.foldlM_onRead_all hf rfl rfl hpieces, ?_, rfl⟩
  exact hd keys' (.opened role')

/-- A client writes two buffers, then the same message in two fragments with a ping between. -/
def helloSendings : List Sending :=
  [.write [[104, 101], [108, 108, 111]],
    .fragments true none [104, 101] ⟨[⟨true, none, [7]⟩], none, [108, 108, 111]⟩ []]

theorem webSocket_round_trip_hello : ∃ s,
    ((helloSendings.foldl (WebSocketStream.send fun _ => ⟨[1, 2, 3, 4], rfl⟩) (.opened .client)).written.flatten.map
      fun byte => [byte]).foldlM (fun s data => s.onRead (fun _ => ⟨[0, 0, 0, 0], rfl⟩) data)
        (WebSocketStream.opened .server) = some s ∧
      s.calls = [.ok [104, 101, 108, 108, 111], .ok [104, 101, 108, 108, 111]] := by
  have hsingle : ∀ l : Bytes, (l.map fun byte => [byte]).flatten = l := by
    intro l
    induction l with
    | nil => rfl
    | cons b l ih => rw [List.map_cons, List.flatten_cons, ih, List.singleton_append]
  have hfits : ∀ x ∈ helloSendings, x.Fits := by
    simp [helloSendings, Sending.Fits, maxControlFramePayload]
  obtain ⟨s, hs, hc, _⟩ := webSocket_round_trip (fun _ => ⟨[1, 2, 3, 4], rfl⟩) (fun _ => ⟨[0, 0, 0, 0], rfl⟩)
    .client .server helloSendings hfits _ (hsingle _)
  exact ⟨s, hs, hc⟩

end Scaler.Ymq
